import Hush.Proofs.Source.Rewriting
import Hush.Proofs.Text.Insertion

/-!
# A revised text can be read again

A revision puts in slashes and blanks only. That moves no zero byte towards the start of the text,
where it would make the text look binary.
-/

namespace Hush

/-- The characters of the marker and the blank behind it. -/
def IsMarkerChar (c : Char) : Prop := c ∈ "// ".toList

theorem inserted_comment (line : Line) : Inserted IsMarkerChar line line.comment := by
  have hmarker : Inserted IsMarkerChar [] "// ".toList := Inserted.of_forall fun _ hmem => hmem
  have hcomment := ((Inserted.refl IsMarkerChar line.indent).append hmarker).append
    (Inserted.refl IsMarkerChar line.content)
  rwa [List.append_nil, Line.indent_append_content, ← Line.comment_eq_append] at hcomment

theorem forall₂_inserted_markLines (spans : List Span) (lines : List Line) :
    List.Forall₂ (Inserted IsMarkerChar) lines (markLines spans lines) := by
  have hmarked : List.Forall₂ (Inserted IsMarkerChar) ((numbered lines).map Prod.fst)
      (markLines spans lines) := by
    rw [markLines, List.forall₂_map_left_iff, List.forall₂_map_right_iff, List.forall₂_same]
    intro numberedLine _
    split
    · exact inserted_comment numberedLine.1
    · exact Inserted.refl IsMarkerChar numberedLine.1
  rwa [map_fst_numbered] at hmarked

theorem inserted_silence_after (text : String) :
    Inserted IsMarkerChar text.toList (silence text).after.toList := by
  have hjoin : ∀ other : String, other.toList = ['\n'].intercalate (linesOf other) := by
    intro other
    rw [linesOf, List.intercalate_splitOn]
  rw [hjoin text, hjoin (silence text).after, linesOf_silence_after]
  exact Inserted.intercalate ['\n']
    (forall₂_inserted_markLines (silence text).spans (linesOf text))

theorem zero_notMem_of_isMarkerChar {c : Char} (hmarker : IsMarkerChar c) :
    0 ∉ String.utf8EncodeChar c := by
  have hchar : c = '/' ∨ c = ' ' := by simpa [IsMarkerChar] using hmarker
  rcases hchar with rfl | rfl <;> decide

theorem looksBinary_silence_after {text : String} (htext : Text.looksBinary text.toUTF8 = false) :
    Text.looksBinary (silence text).after.toUTF8 = false :=
  Text.looksBinary_of_inserted (fun _ => zero_notMem_of_isMarkerChar) (inserted_silence_after text)
    htext

/-- **Reading a revised text.** If some bytes are read as a text, those of the revised text are read
as the revised text. Up to any length they hold no more zero bytes than the old ones, so none of
them gets to the start, where it would count. -/
theorem decode_silence_after {bytes : ByteArray} {text : String}
    (hdecode : Text.decode bytes = .ok text) :
    Text.decode (silence text).after.toUTF8 = .ok (silence text).after ∧
      0 ∉ (silence text).after.toUTF8.data.toList.take 8192 ∧
      ∀ length, ((silence text).after.toUTF8.data.toList.take length).count 0 ≤
        (bytes.data.toList.take length).count 0 := by
  obtain ⟨hbinary, rfl⟩ := Text.decode_eq_ok_iff.mp hdecode
  have hafter := looksBinary_silence_after hbinary
  refine ⟨Text.decode_eq_ok_iff.mpr ⟨hafter, rfl⟩, Text.looksBinary_eq_false_iff.mp hafter, ?_⟩
  exact (Text.inserted_toUTF8 (fun _ => zero_notMem_of_isMarkerChar)
    (inserted_silence_after text)).count_take_le (by simp)

section Edge

/-- A call, filler, and a zero byte at the end. -/
def edgeText (count : Nat) : String :=
  "console.log(1)" ++ "\n" ++ String.ofList (List.replicate count 'a' ++ ['\x00'])

variable (count : Nat)

theorem toList_toUTF8_edgeText :
    (edgeText count).toUTF8.data.toList =
      "console.log(1)\n".toList.flatMap String.utf8EncodeChar ++
        List.replicate count 97 ++ [0] := by
  have hchars : (edgeText count).toList =
      "console.log(1)\n".toList ++ (List.replicate count 'a' ++ ['\x00']) := by
    simp [edgeText]
  have hfiller : (List.replicate count 'a').flatMap String.utf8EncodeChar =
      List.replicate count 97 := by
    rw [List.flatMap_replicate]
    exact List.flatten_replicate_singleton
  rw [Text.toList_toUTF8, hchars, List.flatMap_append, List.flatMap_append, hfiller,
    List.append_assoc]
  rfl

theorem length_front_edgeText :
    ("console.log(1)\n".toList.flatMap String.utf8EncodeChar ++ List.replicate count 97).length =
      count + 15 := by
  rw [List.length_append, List.length_replicate, Nat.add_comm]
  rfl

theorem decode_edgeText (hcount : Text.sniffLength ≤ count + 15) :
    Text.decode (edgeText count).toUTF8 = .ok (edgeText count) := by
  refine Text.decode_eq_ok_iff.mpr ⟨?_, rfl⟩
  rw [← length_front_edgeText] at hcount
  rw [Text.looksBinary_eq_false_iff, toList_toUTF8_edgeText,
    List.take_append_of_le_length hcount]
  intro hmem
  rcases List.mem_append.mp (List.mem_of_mem_take hmem) with hcall | hfiller
  · revert hcall
    decide
  · cases List.eq_of_mem_replicate hfiller

theorem changed_edgeText : (silence (edgeText count)).changed = true := by
  rw [silence_changed_iff]
  intro hspans
  have hlive : LiveAt (linesOf (edgeText count)) 1 := by
    have hfirst : linesOf "console.log(1)" = ["console.log(1)".toList] := by decide +kernel
    refine ⟨"console.log(1)".toList, ?_, by decide +kernel, by decide +kernel⟩
    rw [edgeText, linesOf_append, hfirst]
    exact List.mem_cons_self
  obtain ⟨span, hmem, -⟩ := (Scan.ofLines_tracks (linesOf (edgeText count))).spans.covers 1 hlive
  change span ∈ (silence (edgeText count)).spans at hmem
  rw [hspans] at hmem
  cases hmem

end Edge

/-- The zero byte is the first one that is not looked at. -/
theorem decode_silence_after_edgeText :
    Text.decode (edgeText 8177).toUTF8 = .ok (edgeText 8177) ∧
      (edgeText 8177).toUTF8.data.toList[8192]? = some 0 ∧
      (silence (edgeText 8177)).changed = true ∧
      Text.decode (silence (edgeText 8177)).after.toUTF8 =
        .ok (silence (edgeText 8177)).after := by
  have hdecode : Text.decode (edgeText 8177).toUTF8 = .ok (edgeText 8177) :=
    decode_edgeText 8177 (by decide)
  refine ⟨hdecode, ?_, changed_edgeText 8177, (decode_silence_after hdecode).1⟩
  rw [toList_toUTF8_edgeText, List.getElem?_append_right (length_front_edgeText 8177).le,
    length_front_edgeText]
  rfl

end Hush
