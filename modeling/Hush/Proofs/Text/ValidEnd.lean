import Hush.Proofs.Text.Encoding

/-!
# How far bytes are text

Decoding goes from character to character, and each step is forced: bytes that are text from an
offset up to some end start with the one character that is decoded there. So no beginning that is
text is longer than the one that is found.
-/

namespace Hush.Text

variable {bytes : ByteArray} {offset stop : Nat} {c : Char} {chars : List Char}

theorem isValidUTF8_iff : bytes.IsValidUTF8 ↔ ∃ text : String, bytes = text.toUTF8 := by
  constructor
  · exact fun hvalid => ⟨⟨bytes, hvalid⟩, rfl⟩
  · rintro ⟨text, rfl⟩
    exact text.isValidUTF8

theorem extract_of_utf8DecodeChar? (hchar : bytes.utf8DecodeChar? offset = some c) :
    bytes.extract offset (offset + c.utf8Size) = [c].utf8Encode := by
  have hsize := ByteArray.le_size_of_utf8DecodeChar?_eq_some hchar
  rw [ByteArray.utf8DecodeChar?_eq_utf8DecodeChar?_extract] at hchar
  have hbytes := String.toByteArray_utf8EncodeChar_of_utf8DecodeChar?_eq_some hchar
  rw [List.utf8Encode_singleton, hbytes, ByteArray.extract_extract, Nat.add_zero,
    Nat.min_eq_left hsize]

/-- What is the encoding of some characters up to an end is decoded to the first of them, and the
rest is the encoding of the others. -/
theorem utf8DecodeChar?_of_extract (hstop : stop ≤ bytes.size)
    (hbytes : bytes.extract offset stop = (c :: chars).utf8Encode) :
    bytes.utf8DecodeChar? offset = some c ∧ offset + c.utf8Size ≤ stop ∧
      bytes.extract (offset + c.utf8Size) stop = chars.utf8Encode := by
  have hsize := congrArg ByteArray.size hbytes
  rw [List.utf8Encode_cons, ByteArray.size_append, ByteArray.size_extract, Nat.min_eq_left hstop,
    List.utf8Encode_singleton, List.size_toByteArray, String.length_utf8EncodeChar] at hsize
  have hpos := c.utf8Size_pos
  have hchar : bytes.utf8DecodeChar? offset = some c := by
    rw [ByteArray.utf8DecodeChar?_eq_utf8DecodeChar?_extract,
      ByteArray.extract_eq_extract_append_extract stop (by omega) hstop, hbytes,
      List.utf8Encode_cons, ByteArray.append_assoc, List.utf8DecodeChar?_utf8Encode_singleton_append]
  refine ⟨hchar, by omega, ?_⟩
  rw [ByteArray.extract_eq_extract_append_extract (offset + c.utf8Size) (by omega) (by omega),
    extract_of_utf8DecodeChar? hchar, @List.utf8Encode_cons c chars,
    ByteArray.append_right_inj] at hbytes
  exact hbytes

theorem validEnd_bounds (hoffset : offset ≤ bytes.size) :
    offset ≤ validEnd bytes offset ∧ validEnd bytes offset ≤ bytes.size := by
  fun_induction validEnd bytes offset with
  | case1 offset c hchar ih =>
      obtain ⟨hle, hsize⟩ := ih (ByteArray.le_size_of_utf8DecodeChar?_eq_some hchar)
      exact ⟨by omega, hsize⟩
  | case2 offset _ => exact ⟨Nat.le_refl offset, hoffset⟩

theorem isValidUTF8_extract_validEnd (hoffset : offset ≤ bytes.size) :
    (bytes.extract offset (validEnd bytes offset)).IsValidUTF8 := by
  fun_induction validEnd bytes offset with
  | case1 offset c hchar ih =>
      have hnext := ByteArray.le_size_of_utf8DecodeChar?_eq_some hchar
      rw [ByteArray.extract_eq_extract_append_extract (offset + c.utf8Size) (by omega)
        (validEnd_bounds hnext).1, extract_of_utf8DecodeChar? hchar]
      exact ByteArray.isValidUTF8_utf8Encode.append (ih hnext)
  | case2 offset _ => simp

theorem le_validEnd (hoffset : offset ≤ bytes.size) (hstop : stop ≤ bytes.size)
    (hvalid : (bytes.extract offset stop).IsValidUTF8) : stop ≤ validEnd bytes offset := by
  -- The scan cannot stop short of `stop`: while characters are left up to there, the first of them
  -- is the one that it decodes, and the others are valid from the next offset on.
  fun_induction validEnd bytes offset with
  | case1 offset c hchar ih =>
      have hnext := ByteArray.le_size_of_utf8DecodeChar?_eq_some hchar
      obtain ⟨chars, hchars⟩ := hvalid
      cases chars with
      | nil =>
          have hle := (validEnd_bounds hnext).1
          rw [List.utf8Encode_nil, ByteArray.extract_eq_empty_iff, Nat.min_eq_left hstop] at hchars
          omega
      | cons first chars =>
          obtain ⟨hfirst, -, hrest⟩ := utf8DecodeChar?_of_extract hstop hchars
          have hsame : first = c := Option.some.inj (hfirst.symm.trans hchar)
          subst hsame
          exact ih hnext (.intro chars hrest)
  | case2 offset hnone =>
      obtain ⟨chars, hchars⟩ := hvalid
      cases chars with
      | nil =>
          rwa [List.utf8Encode_nil, ByteArray.extract_eq_empty_iff, Nat.min_eq_left hstop] at hchars
      | cons first chars =>
          obtain ⟨hfirst, -⟩ := utf8DecodeChar?_of_extract hstop hchars
          rw [hnone] at hfirst
          cases hfirst

/-- The lengths of the beginnings that are the encoding of a text. -/
def textLengths (bytes : ByteArray) : Set Nat :=
  {length | length ≤ bytes.size ∧ ∃ text : String, bytes.extract 0 length = text.toUTF8}

theorem isGreatest_validEnd (bytes : ByteArray) :
    IsGreatest (textLengths bytes) (validEnd bytes 0) := by
  have hstart : 0 ≤ bytes.size := Nat.zero_le _
  constructor
  · refine ⟨(validEnd_bounds hstart).2, ?_⟩
    exact isValidUTF8_iff.mp (isValidUTF8_extract_validEnd hstart)
  · rintro length ⟨hlength, htext⟩
    exact le_validEnd hstart hlength (isValidUTF8_iff.mpr htext)

theorem size_mem_textLengths_iff :
    bytes.size ∈ textLengths bytes ↔ ∃ text : String, bytes = text.toUTF8 := by
  simp [textLengths]

theorem decode_eq_binary_iff : decode bytes = .error .binary ↔ looksBinary bytes = true := by
  unfold decode
  by_cases hbinary : looksBinary bytes = true
  · simp [hbinary]
  · rw [if_neg hbinary]
    cases String.fromUTF8? bytes <;> simp [hbinary]

theorem decode_eq_invalid_iff :
    decode bytes = .error (.invalid offset) ↔
      looksBinary bytes = false ∧ String.fromUTF8? bytes = none ∧ validEnd bytes 0 = offset := by
  unfold decode
  by_cases hbinary : looksBinary bytes = true
  · simp [hbinary]
  · rw [if_neg hbinary]
    cases String.fromUTF8? bytes <;> simp [hbinary]

/-- **Decoding.** Bytes are read as the text that they encode, and are refused if there is none or
if a zero byte stands near their start. A refusal for want of a text tells the length of the longest
beginning that is one. -/
theorem decode_reads_or_refuses (bytes : ByteArray) :
    (∀ text, bytes = text.toUTF8 ↔ IsEncoding text bytes) ∧
      (∀ text, decode bytes = .ok text ↔
        0 ∉ bytes.data.toList.take 8192 ∧ bytes = text.toUTF8) ∧
      (decode bytes = .error .binary ↔ 0 ∈ bytes.data.toList.take 8192) ∧
      ∀ offset, decode bytes = .error (.invalid offset) ↔
        0 ∉ bytes.data.toList.take 8192 ∧ offset < bytes.size ∧
          IsGreatest (textLengths bytes) offset := by
  have hnear : looksBinary bytes = false ↔ 0 ∉ bytes.data.toList.take 8192 :=
    looksBinary_eq_false_iff
  refine ⟨fun text => eq_toUTF8_iff_isEncoding, fun text => ?_, ?_, fun offset => ?_⟩
  · rw [decode_eq_ok_iff, hnear]
  · rw [decode_eq_binary_iff, ← not_iff_not, Bool.not_eq_true, hnear]
  · rw [decode_eq_invalid_iff, hnear]
    apply and_congr_right
    intro _
    constructor
    · rintro ⟨hnone, rfl⟩
      have hgreatest := isGreatest_validEnd bytes
      refine ⟨lt_of_le_of_ne hgreatest.1.1 ?_, hgreatest⟩
      intro heq
      have hmem := hgreatest.1
      rw [heq, size_mem_textLengths_iff] at hmem
      obtain ⟨text, htext⟩ := hmem
      rw [fromUTF8?_eq_some_iff.mpr htext] at hnone
      cases hnone
    · rintro ⟨hlt, hgreatest⟩
      refine ⟨?_, (isGreatest_validEnd bytes).unique hgreatest⟩
      rw [Option.eq_none_iff_forall_ne_some]
      intro text htext
      have hmem : bytes.size ∈ textLengths bytes :=
        size_mem_textLengths_iff.mpr ⟨text, fromUTF8?_eq_some_iff.mp htext⟩
      have hle := hgreatest.2 hmem
      omega

end Hush.Text
