import Hush.Proofs.Text.ValidEnd
import Hush.Text.Raw

/-!
# Raw text that is text

A text is read back from its bytes, and is shown as it is. Bytes below `0x80` stand for characters
only when they stand alone, so an ending in such characters can be told from the bytes.
-/

namespace Hush.RawText

variable {raw : RawText} {text : String} {c d : Char} {chars ending : List Char}

theorem text?_eq_some_iff : raw.text? = some text ↔ raw = ofString text := by
  rw [text?, Text.fromUTF8?_eq_some_iff, ofString, RawText.ext_iff, ByteArray.ext_iff,
    ← Array.toList_inj, List.data_toByteArray]

theorem text?_ofString (text : String) : (ofString text).text? = some text :=
  text?_eq_some_iff.mpr rfl

theorem bytes_ofString (text : String) :
    (ofString text).bytes = text.toList.flatMap String.utf8EncodeChar :=
  Text.toList_toUTF8 text

theorem shown_eq_of_extract {bytes : ByteArray} {offset : Nat}
    (hbytes : bytes.extract offset bytes.size = chars.utf8Encode) :
    shown bytes offset = chars := by
  induction chars generalizing offset with
  | nil =>
      rw [List.utf8Encode_nil, ByteArray.extract_eq_empty_iff, Nat.min_self] at hbytes
      have hnone : bytes.utf8DecodeChar? offset = none := by
        rw [Option.eq_none_iff_forall_ne_some]
        intro c hchar
        have hsize := ByteArray.le_size_of_utf8DecodeChar?_eq_some hchar
        have hpos := c.utf8Size_pos
        omega
      rw [shown, hnone, if_neg (by omega)]
  | cons c chars ih =>
      obtain ⟨hchar, -, hrest⟩ := Text.utf8DecodeChar?_of_extract (Nat.le_refl _) hbytes
      rw [shown, hchar]
      dsimp only
      rw [ih hrest]

theorem display_ofString (text : String) : (ofString text).display = text := by
  have hbytes : (ofString text).bytes.toByteArray = text.toList.utf8Encode := by
    rw [bytes_ofString]
    rfl
  rw [display, shown_eq_of_extract (ByteArray.extract_zero_size.trans hbytes),
    String.ofList_toList]

theorem utf8EncodeChar_of_lt (hc : c.toNat < 0x80) :
    String.utf8EncodeChar c = [UInt8.ofNat c.toNat] := by
  have hval : c.val.toNat = c.toNat := rfl
  unfold String.utf8EncodeChar
  rw [if_pos (by omega), hval]

/-- No character of more than one byte ends in a byte below `0x80`. -/
theorem eq_of_getLast?_utf8EncodeChar (hc : c.toNat < 0x80)
    (hlast : (String.utf8EncodeChar d).getLast? = some (UInt8.ofNat c.toNat)) : d = c := by
  have hbyte : (UInt8.ofNat c.toNat).toNat = c.toNat := by
    rw [UInt8.toNat_ofNat']
    omega
  have hnot : ∀ {b bits}, Text.Continues b bits → b ≠ UInt8.ofNat c.toNat := by
    rintro b bits ⟨heq, -⟩ rfl
    omega
  have hpiece := Text.charBytes_utf8EncodeChar d
  generalize String.utf8EncodeChar d = piece at hpiece hlast
  cases hpiece with
  | one hcode _ =>
      rw [List.getLast?_singleton, Option.some.injEq] at hlast
      rw [hlast, hbyte] at hcode
      exact Char.toNat_inj.mp hcode.symm
  | two _ _ h₂ => exact absurd (Option.some.inj hlast) (hnot h₂)
  | three _ _ _ h₃ => exact absurd (Option.some.inj hlast) (hnot h₃)
  | four _ _ _ _ h₄ => exact absurd (Option.some.inj hlast) (hnot h₄)

theorem suffix_of_flatMap_suffix (hascii : ∀ c ∈ ending, c.toNat < 0x80)
    (hsuffix : ending.flatMap String.utf8EncodeChar <:+ chars.flatMap String.utf8EncodeChar) :
    ending <:+ chars := by
  -- From the end: the last bytes are the same, so the last characters are.
  induction ending using List.reverseRecOn generalizing chars with
  | nil => exact List.nil_suffix
  | append_singleton ending c ih =>
      have hc : c.toNat < 0x80 := hascii c (by simp)
      obtain ⟨before, hbefore⟩ := hsuffix
      rw [List.flatMap_append, List.flatMap_singleton, utf8EncodeChar_of_lt hc,
        ← List.append_assoc] at hbefore
      cases chars using List.reverseRecOn with
      | nil => simp at hbefore
      | append_singleton chars d =>
          rw [List.flatMap_append, List.flatMap_singleton] at hbefore
          have hlast := congrArg List.getLast? hbefore
          have hne : String.utf8EncodeChar d ≠ [] := by simp
          rw [List.getLast?_concat, List.getLast?_append_of_ne_nil _ hne] at hlast
          obtain rfl := eq_of_getLast?_utf8EncodeChar hc hlast.symm
          rw [utf8EncodeChar_of_lt hc, List.append_left_inj] at hbefore
          obtain ⟨rest, hrest⟩ := ih (fun c hmem => hascii c (by simp [hmem])) ⟨before, hbefore⟩
          exact ⟨rest, by rw [← List.append_assoc, hrest]⟩

/-- An ending in characters of one byte each is seen in the bytes. -/
theorem suffix_bytes_iff {ending : String} (hascii : ∀ c ∈ ending.toList, c.toNat < 0x80) :
    (ofString ending).bytes <:+ (ofString text).bytes ↔ ending.toList <:+ text.toList := by
  rw [bytes_ofString, bytes_ofString]
  constructor
  · exact suffix_of_flatMap_suffix hascii
  · rintro ⟨before, hbefore⟩
    rw [← hbefore, List.flatMap_append]
    exact List.suffix_append _ _

end Hush.RawText
