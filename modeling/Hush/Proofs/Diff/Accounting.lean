import Hush.Proofs.Diff.Passage

/-!
# A diff accounts for every difference

What a reader of a printed diff can rely on: the old text is what the hunks keep or remove, the new
text is what they keep or add, and between the hunks both texts are the same.
-/

namespace Hush.Diff

/-- The line of a printed diff at which a hunk starts. -/
def opensHunk (line : String) : Bool := line.toList.head? == some '@'

theorem opensHunk_header (passage : Passage) : opensHunk passage.header = true := by
  simp [opensHunk, Passage.header]

theorem opensHunk_signed (line : Mark × String) : opensHunk (signed line) = false := by
  obtain ⟨mark, text⟩ := line
  cases mark <;> simp [opensHunk, signed, Mark.sign]

theorem countP_printed (passage : Passage) : passage.printed.countP opensHunk = 1 := by
  have hbody : (passage.body.map signed).countP opensHunk = 0 := by
    rw [List.countP_map, List.countP_eq_zero]
    exact fun line _ => by simp [opensHunk_signed]
  rw [Passage.printed, List.countP_cons_of_pos (opensHunk_header passage), hbody]

theorem countP_flatMap_printed (passages : List Passage) :
    (passages.flatMap Passage.printed).countP opensHunk = passages.length := by
  induction passages with
  | nil => rfl
  | cons passage passages ih =>
      rw [List.flatMap_cons, List.countP_append, countP_printed, ih, List.length_cons, Nat.add_comm]

/-- **Every difference is printed.** The printed lines are those of the hunks. With the lines left
out before each hunk and after the last one, the context and removed lines are the old text and the
context and added lines are the new text. Each hunk shows a change and little context, something is
left out between two hunks, and nothing is printed exactly when nothing differs. -/
theorem unified_accounts (old new : String) :
    ∃ (passages : List Passage) (closing : List String),
      lines old = passages.flatMap Passage.oldLines ++ closing ∧
      lines new = passages.flatMap Passage.newLines ++ closing ∧
      lines (unified old new) = passages.flatMap Passage.printed ∧
      (lines (unified old new)).countP opensHunk = passages.length ∧
      (∀ passage ∈ passages, FramedBody passage.body) ∧
      (∀ passage ∈ passages.tail, passage.gap ≠ []) ∧
      (unified old new = "" ↔ old = new) := by
  obtain ⟨passages, closing, haccounts⟩ := exists_accounts old new
  refine ⟨passages, closing, haccounts.old_eq, haccounts.new_eq, haccounts.lines_unified, ?_,
    fun _ hmem => haccounts.framed hmem, haccounts.gaps, haccounts.unified_eq_empty_iff⟩
  rw [haccounts.lines_unified]
  exact countP_flatMap_printed passages

end Hush.Diff
