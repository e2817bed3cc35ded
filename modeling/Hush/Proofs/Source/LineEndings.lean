import Hush.Proofs.Source.Rewriting

/-!
# What ends a line

A carriage return is the last character of its line, and a final newline leaves an empty line behind
it. Both stay as they are wherever the marker of a comment goes in front of something. A blank line
of a call has nothing for it to go in front of: there the marker comes last, behind the carriage
return, or on the empty line that a call without an end runs into.
-/

namespace Hush

namespace Line

variable {line : Line}

def IsBlank (line : Line) : Prop := ∀ c ∈ line, Text.isBlank c = true

theorem content_eq_nil_iff : content line = [] ↔ line.IsBlank :=
  List.dropWhile_eq_nil_iff

theorem isComment_eq_false_of_isBlank (hblank : line.IsBlank) : isComment line = false := by
  rw [isComment, content_eq_nil_iff.mpr hblank]
  rfl

theorem getLast?_comment_of_isBlank (hblank : line.IsBlank) :
    (comment line).getLast? = some ' ' := by
  rw [comment_eq_append, content_eq_nil_iff.mpr hblank, List.append_nil, List.getLast?_append]
  rfl

theorem getLast?_comment_of_not_isBlank (hblank : ¬line.IsBlank) :
    (comment line).getLast? = line.getLast? := by
  rw [← content_eq_nil_iff] at hblank
  calc (comment line).getLast?
      = (content line).getLast? := by
        rw [comment_eq_append, List.getLast?_append_of_ne_nil _ hblank]
    _ = (indent line ++ content line).getLast? := by
        rw [List.getLast?_append_of_ne_nil _ hblank]
    _ = line.getLast? := by rw [indent_append_content]

theorem silence_ne_nil (line : Line) : silence line ≠ [] := by
  intro hnil
  have hcomment := isComment_silence line
  rw [hnil] at hcomment
  cases hcomment

theorem getLast?_comment_eq_return_iff :
    line.comment.getLast? = some '\r' ↔ line.getLast? = some '\r' ∧ ¬line.IsBlank := by
  by_cases hblank : line.IsBlank
  · simp [getLast?_comment_of_isBlank hblank, hblank]
  · simp [getLast?_comment_of_not_isBlank hblank, hblank]

end Line

/-- **Carriage returns.** A line ends in a carriage return exactly if it did before, unless it is a
blank line of a call. -/
theorem silence_keeps_returns (text : String) :
    List.Forall₂ (fun numberedLine line =>
        line.getLast? = some '\r' ↔
          numberedLine.1.getLast? = some '\r' ∧
            ¬(Covered (silence text).spans numberedLine.2 ∧ numberedLine.1.IsBlank))
      (numbered (linesOf text)) (linesOf (silence text).after) := by
  rw [linesOf_silence_after, markLines, List.forall₂_map_right_iff, List.forall₂_same]
  rintro ⟨line, number⟩ -
  by_cases hmarked : Marked (silence text).spans (line, number)
  · rw [if_pos hmarked, Line.getLast?_comment_eq_return_iff]
    have hcovered : Covered (silence text).spans number := hmarked.1
    simp only [hcovered, true_and]
  · rw [if_neg hmarked]
    have hkept : ¬(Covered (silence text).spans number ∧ line.IsBlank) := by
      rintro ⟨hcovered, hblank⟩
      exact hmarked ⟨hcovered, Line.isComment_eq_false_of_isBlank hblank⟩
    simp only [hkept, not_false_eq_true, and_true]

/-- The blank line of this call is `\r` at first and `\r// ` afterwards. -/
theorem silence_loses_return :
    ¬∀ text, List.Forall₂ (fun old new : Line =>
        new.getLast? = some '\r' ↔ old.getLast? = some '\r')
      (linesOf text) (linesOf (silence text).after) := by
  intro hall
  have hlines := hall "console.log(\r\n\r\n1);\r\n"
  have hold : linesOf "console.log(\r\n\r\n1);\r\n" =
      ["console.log(\r".toList, "\r".toList, "1);\r".toList, []] := by decide +kernel
  have hnew : linesOf (silence "console.log(\r\n\r\n1);\r\n").after =
      ["// console.log(\r".toList, "\r// ".toList, "// 1);\r".toList, []] := by decide +kernel
  rw [hold, hnew] at hlines
  obtain ⟨-, hrest⟩ := List.forall₂_cons.mp hlines
  have hblank := (List.forall₂_cons.mp hrest).1.mpr rfl
  cases hblank

/-! ### The final newline -/

theorem getLast?_ofLines_eq_newline_iff {before : List Line} {last : Line}
    (hlast : '\n' ∉ last) :
    (ofLines (before ++ [last])).toList.getLast? = some '\n' ↔ before ≠ [] ∧ last = [] := by
  have hnewline : last.getLast? ≠ some '\n' := fun hend => hlast (List.mem_of_getLast? hend)
  rw [ofLines, String.toList_ofList]
  by_cases hbefore : before = []
  · simpa [hbefore] using hnewline
  · rw [intercalate_append _ hbefore (List.cons_ne_nil last []), List.intercalate_singleton]
    by_cases hempty : last = []
    · simp [hbefore, hempty]
    · rw [List.getLast?_append_of_ne_nil _ hempty]
      simpa [hempty] using hnewline

/-- Some line starts a call, and neither it nor a later one closes a call. -/
def HasOpenCall (lines : List Line) : Prop :=
  ∃ number, LiveAt lines number ∧ ∀ later, number ≤ later → ¬ClosesAt lines later

/-- A call without an end runs to the last line. It is the only way for a span to cover a last line
that closes nothing. -/
theorem covered_length_iff_hasOpenCall {lines : List Line} {spans : List Span}
    (hspans : IsSpanList lines spans) (hlast : ¬ClosesAt lines lines.length) :
    Covered spans lines.length ↔ HasOpenCall lines := by
  constructor
  · rintro ⟨span, hspan, hmem⟩
    have hcall := hspans.calls span hspan
    have heq : span.last = lines.length := Nat.le_antisymm hcall.bounds.2.2 hmem.2
    refine ⟨span.first, hcall.opens, ?_⟩
    rcases hcall.ends with hleast | ⟨hnone, -⟩
    · rw [heq] at hleast
      exact absurd hleast.1.2 hlast
    · exact hnone
  · rintro ⟨number, hlive, hnone⟩
    obtain ⟨span, hspan, hmem⟩ := hspans.covers number hlive
    have hcall := hspans.calls span hspan
    have heq : span.last = lines.length := by
      rcases hcall.ends with hleast | ⟨-, heq⟩
      · exact absurd hleast.1.2 (hnone span.last hmem.2)
      · exact heq
    exact ⟨span, hspan, heq ▸ hcall.bounds.2.1, heq.ge⟩

/-- **The final newline.** A text that ends in a newline still does, unless it leaves a call
open. -/
theorem silence_keeps_final_newline (text : String) :
    (silence text).after.toList.getLast? = some '\n' ↔
      text.toList.getLast? = some '\n' ∧ ¬HasOpenCall (linesOf text) := by
  obtain ⟨before, last, hlines⟩ :=
    (List.eq_nil_or_concat' (linesOf text)).resolve_left (linesOf_ne_nil text)
  set spans := (silence text).spans with hspans
  have hcalls : IsSpanList (before ++ [last]) spans :=
    hlines ▸ (isSpanList_iff_eq_spans text spans).mpr hspans
  let later := if Covered spans (before.length + 1) then last.silence else last
  have hafter : linesOf (silence text).after = markLines spans before ++ [later] := by
    rw [linesOf_silence_after, hlines, markLines_append_singleton]
  have hbefore : markLines spans before ≠ [] ↔ before ≠ [] := by
    rw [← List.length_pos_iff, length_markLines, List.length_pos_iff]
  have hlater : later = [] ↔ last = [] ∧ ¬Covered spans (before.length + 1) := by
    by_cases hcovered : Covered spans (before.length + 1)
    · simp [later, hcovered, last.silence_ne_nil]
    · simp [later, hcovered]
  have hopen : last = [] → (Covered spans (before.length + 1) ↔ HasOpenCall (before ++ [last])) := by
    rintro rfl
    have hcloses : ¬ClosesAt (before ++ [[]]) (before ++ [[]]).length := by
      rw [ClosesAt, lineAt_last_iff]
      decide
    simpa using covered_length_iff_hasOpenCall hcalls hcloses
  calc (silence text).after.toList.getLast? = some '\n'
      ↔ markLines spans before ≠ [] ∧ later = [] := by
        rw [← ofLines_linesOf (silence text).after, hafter]
        apply getLast?_ofLines_eq_newline_iff
        have hmem : later ∈ linesOf (silence text).after := by simp [hafter]
        exact newline_notMem_of_mem_linesOf hmem
    _ ↔ (before ≠ [] ∧ last = []) ∧ ¬HasOpenCall (before ++ [last]) := by
        rw [hbefore, hlater, and_assoc]
        exact and_congr_right fun _ => and_congr_right fun hempty => not_congr (hopen hempty)
    _ ↔ text.toList.getLast? = some '\n' ∧ ¬HasOpenCall (linesOf text) := by
        rw [← getLast?_ofLines_eq_newline_iff, ← hlines, ofLines_linesOf]
        have hmem : last ∈ linesOf text := by simp [hlines]
        exact newline_notMem_of_mem_linesOf hmem

/-- The empty line behind the final newline becomes `// `. -/
theorem silence_loses_final_newline :
    ¬∀ text, ((silence text).after.toList.getLast? = some '\n' ↔
      text.toList.getLast? = some '\n') := by
  intro hall
  have hafter : (silence "console.log(\n").after = "// console.log(\n// " := by decide +kernel
  have hend := (hall "console.log(\n").mpr (by decide)
  rw [hafter] at hend
  revert hend
  decide

end Hush
