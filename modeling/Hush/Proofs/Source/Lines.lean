import Hush.Source.Revision
import Mathlib

/-!
# Lines by number

The lines of a text are counted from one. A text is its lines with a newline between each two, which
fixes its size in bytes.
-/

namespace Hush

def numbered (lines : List Line) : List (Line × Nat) := lines.zipIdx 1

section Numbered

variable {lines : List Line} {line : Line} {number : Nat}

@[simp]
theorem numbered_append_singleton (lines : List Line) (line : Line) :
    numbered (lines ++ [line]) = numbered lines ++ [(line, lines.length + 1)] := by
  simp [numbered, List.zipIdx_append, Nat.add_comm]

@[simp]
theorem map_fst_numbered (lines : List Line) : (numbered lines).map Prod.fst = lines :=
  List.zipIdx_map_fst 1 lines

theorem bounds_of_mem_numbered (hmem : (line, number) ∈ numbered lines) :
    1 ≤ number ∧ number ≤ lines.length := by
  have hbounds := List.mem_zipIdx hmem
  omega

end Numbered

theorem linesOf_ne_nil (text : String) : linesOf text ≠ [] :=
  List.splitOn_ne_nil '\n' text.toList

theorem newline_notMem_of_mem_splitOn (chars : List Char) :
    ∀ line ∈ chars.splitOn '\n', '\n' ∉ line := by
  induction chars with
  | nil => simp
  | cons c chars ih =>
      rw [List.splitOn_cons_eq_if_modifyHead]
      split <;> rename_i hnewline
      · simpa using ih
      · cases hsplit : chars.splitOn '\n' with
        | nil => simp
        | cons first rest =>
            rw [hsplit] at ih
            intro line hmem
            rcases List.mem_cons.mp hmem with hfirst | hrest
            · have hc : '\n' ≠ c := by
                intro heq
                exact hnewline (by simp [← heq])
              rw [hfirst, List.mem_cons, not_or]
              exact ⟨hc, ih first List.mem_cons_self⟩
            · exact ih line (List.mem_cons_of_mem _ hrest)

theorem newline_notMem_of_mem_linesOf {text : String} {line : Line} (hmem : line ∈ linesOf text) :
    '\n' ∉ line :=
  newline_notMem_of_mem_splitOn text.toList line hmem

theorem intercalate_append {α : Type} (separator : List α) {lists others : List (List α)}
    (hlists : lists ≠ []) (hothers : others ≠ []) :
    separator.intercalate (lists ++ others) =
      separator.intercalate lists ++ separator ++ separator.intercalate others := by
  induction lists with
  | nil => exact absurd rfl hlists
  | cons first rest ih =>
      by_cases hrest : rest = []
      · rw [hrest, List.singleton_append, List.intercalate_cons_of_ne_nil hothers,
          List.intercalate_singleton]
      · have hmore : rest ++ others ≠ [] := by simp [hrest]
        rw [List.cons_append, List.intercalate_cons_of_ne_nil hmore, ih hrest,
          List.intercalate_cons_of_ne_nil hrest]
        simp only [List.append_assoc]

theorem ofLines_append {lines others : List Line} (hlines : lines ≠ []) (hothers : others ≠ []) :
    ofLines (lines ++ others) = ofLines lines ++ "\n" ++ ofLines others := by
  rw [ofLines, intercalate_append _ hlines hothers, String.ofList_append, String.ofList_append]
  rfl

theorem linesOf_append (first second : String) :
    linesOf (first ++ "\n" ++ second) = linesOf first ++ linesOf second := by
  have htext : (first ++ "\n" ++ second).toList = first.toList ++ '\n' :: second.toList := by simp
  rw [linesOf, htext]
  exact List.splitOnP_append_cons first.toList second.toList (by simp)

/-- Every line but the last is followed by a newline, which is one byte. -/
theorem utf8ByteSize_ofLines {lines : List Line} (hnonempty : lines ≠ []) :
    (ofLines lines).utf8ByteSize + 1 =
      (lines.map fun line => (String.ofList line).utf8ByteSize + 1).sum := by
  induction lines with
  | nil => exact absurd rfl hnonempty
  | cons line lines ih =>
      cases lines with
      | nil => simp [ofLines]
      | cons next lines =>
          have hjoin : ofLines ([line] ++ next :: lines) =
              ofLines [line] ++ "\n" ++ ofLines (next :: lines) :=
            ofLines_append (List.cons_ne_nil _ _) (List.cons_ne_nil _ _)
          have hline : ofLines [line] = String.ofList line := by simp [ofLines]
          have hnewline : "\n".utf8ByteSize = 1 := rfl
          rw [← List.singleton_append, hjoin, hline, String.utf8ByteSize_append,
            String.utf8ByteSize_append, hnewline, List.singleton_append, List.map_cons,
            List.sum_cons, ← ih (List.cons_ne_nil _ _)]
          omega

end Hush
