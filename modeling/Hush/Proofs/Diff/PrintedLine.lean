import Hush.Diff.Unified
import Mathlib.Data.List.SplitBy

/-!
# Text and lines

The lines of a text, one after another, are the text. The other way round, pieces that each hold one
ended line are the lines of the text that they make up, unless one of them starts with a line feed:
that could end the line before it. What is printed of a hunk is such pieces.
-/

namespace Hush.Diff

variable {a b : Char} {chars : List Char}

theorem sameLine_eq_true (hfeed : a ≠ '\n') (hreturn : a ≠ '\r') : sameLine a b = true := by
  simp [sameLine, hfeed, hreturn]

theorem sameLine_eq_false (ha : a = '\n' ∨ a = '\r') (hb : b ≠ '\n') : sameLine a b = false := by
  obtain rfl | rfl := ha <;> simp [sameLine, hb]

/-- No line ends among the characters but perhaps at their end. -/
abbrev Unbroken (chars : List Char) : Prop := chars.IsChain (sameLine · · = true)

/-! ### The lines of a text -/

theorem join_lines (text : String) : String.join (lines text) = text := by
  rw [← String.toList_inj, String.toList_join, lines, List.flatMap_map, List.flatMap_def]
  simp

theorem lines_injective : Function.Injective lines := fun old new hlines => by
  rw [← join_lines old, hlines, join_lines]

theorem unbroken_of_mem_lines {text line : String} (hmem : line ∈ lines text) :
    line.toList ≠ [] ∧ Unbroken line.toList := by
  obtain ⟨chars, hchars, rfl⟩ := List.mem_map.mp hmem
  rw [String.toList_ofList]
  exact ⟨List.ne_nil_of_mem_splitBy hchars, List.isChain_of_mem_splitBy hchars⟩

/-- The piece is a line that something ends, and no line feed stands at its start. -/
structure PrintedLine (piece : String) : Prop where
  unbroken : Unbroken piece.toList
  ended : ∃ c ∈ piece.toList.getLast?, c = '\n' ∨ c = '\r'
  start : ∀ c ∈ piece.toList.head?, c ≠ '\n'

theorem PrintedLine.ne_nil {piece : String} (hpiece : PrintedLine piece) : piece.toList ≠ [] := by
  obtain ⟨c, hlast, -⟩ := hpiece.ended
  rintro hnil
  simp [hnil] at hlast

theorem PrintedLine.ends_before {piece next : String} (hpiece : PrintedLine piece)
    (hnext : PrintedLine next) :
    ∃ hlast hhead, sameLine (piece.toList.getLast hlast) (next.toList.head hhead) = false := by
  refine ⟨hpiece.ne_nil, hnext.ne_nil, ?_⟩
  obtain ⟨c, hlast, hended⟩ := hpiece.ended
  rw [List.getLast_of_mem_getLast? hlast]
  exact sameLine_eq_false hended (hnext.start _ (List.head_mem_head? hnext.ne_nil))

theorem lines_join {pieces : List String} (hpieces : ∀ piece ∈ pieces, PrintedLine piece) :
    lines (String.join pieces) = pieces := by
  have hsplit : (pieces.map String.toList).flatten.splitBy sameLine = pieces.map String.toList := by
    refine List.splitBy_flatten ?_ ?_ ?_
    · intro hmem
      obtain ⟨piece, hpiece, hnil⟩ := List.mem_map.mp hmem
      exact (hpieces piece hpiece).ne_nil hnil
    · intro chars hmem
      obtain ⟨piece, hpiece, rfl⟩ := List.mem_map.mp hmem
      exact (hpieces piece hpiece).unbroken
    · rw [List.isChain_map]
      refine (List.pairwise_of_forall_mem_list fun piece hpiece next hnext => ?_).isChain
      exact (hpieces piece hpiece).ends_before (hpieces next hnext)
  rw [lines, String.toList_join, List.flatMap_def, hsplit, List.map_map]
  exact List.map_id'' (fun _ => String.ofList_toList) pieces

/-! ### What is printed -/

theorem unbroken_concat (hchars : ∀ c ∈ chars, c ≠ '\n' ∧ c ≠ '\r') (last : Char) :
    Unbroken (chars ++ [last]) := by
  induction chars with
  | nil => exact List.isChain_singleton last
  | cons c chars ih =>
      rw [List.forall_mem_cons] at hchars
      exact List.isChain_cons.mpr
        ⟨fun next _ => sameLine_eq_true hchars.1.1 hchars.1.2, ih hchars.2⟩

theorem unbroken_terminated {line : String} (hline : Unbroken line.toList) :
    Unbroken (terminated line).toList ∧
      ∃ c ∈ (terminated line).toList.getLast?, c = '\n' ∨ c = '\r' := by
  unfold terminated
  split <;> rename_i hlast
  · exact ⟨hline, '\n', hlast, .inl rfl⟩
  · exact ⟨hline, '\r', hlast, .inr rfl⟩
  · rename_i hfeed
    rw [String.toList_append]
    refine ⟨List.isChain_append.mpr ⟨hline, List.isChain_singleton '\n', fun c hc _ _ => ?_⟩,
      '\n', by simp, .inl rfl⟩
    exact sameLine_eq_true (fun heq => hfeed (heq ▸ hc)) fun heq => hlast (heq ▸ hc)

theorem Mark.toList_sign (mark : Mark) :
    ∃ c, mark.sign.toList = [c] ∧ c ≠ '\n' ∧ c ≠ '\r' := by
  cases mark with
  | context => exact ⟨' ', rfl, by decide, by decide⟩
  | removed => exact ⟨'-', rfl, by decide, by decide⟩
  | added => exact ⟨'+', rfl, by decide, by decide⟩

theorem printedLine_signed {line : String} (mark : Mark) (hline : Unbroken line.toList) :
    PrintedLine (mark.sign ++ terminated line) := by
  obtain ⟨sign, hsign, hfeed, hreturn⟩ := mark.toList_sign
  obtain ⟨hunbroken, c, hlast, hended⟩ := unbroken_terminated hline
  have hpiece : (mark.sign ++ terminated line).toList = sign :: (terminated line).toList := by
    rw [String.toList_append, hsign, List.singleton_append]
  refine ⟨?_, ⟨c, ?_, hended⟩, ?_⟩
  · rw [hpiece]
    exact List.isChain_cons.mpr ⟨fun next _ => sameLine_eq_true hfeed hreturn, hunbroken⟩
  · rw [hpiece, List.getLast?_cons, Option.mem_def.mp hlast]
    rfl
  · rw [hpiece]
    rintro _ ⟨⟩
    exact hfeed

theorem isDigit_of_mem_toString {n : Nat} {c : Char} (hmem : c ∈ (toString n).toList) :
    c.isDigit = true := by
  rw [Nat.toString_eq_ofList_toDigits, String.toList_ofList] at hmem
  exact Nat.isDigit_of_mem_toDigits (by decide) (by decide) hmem

theorem isDigit_or_comma_of_mem_header {range : Range} {c : Char}
    (hmem : c ∈ range.header.toList) : c.isDigit = true ∨ c = ',' := by
  unfold Range.header at hmem
  split at hmem
  · rw [String.toList_append, List.mem_append] at hmem
    obtain hstart | hzero := hmem
    · exact .inl (isDigit_of_mem_toString hstart)
    · obtain rfl | rfl : c = ',' ∨ c = '0' := by simpa using hzero
      · exact .inr rfl
      · exact .inl rfl
  · exact .inl (isDigit_of_mem_toString hmem)
  · rw [String.toList_append, String.toList_append, List.mem_append, List.mem_append] at hmem
    obtain (hstart | hcomma) | hsize := hmem
    · exact .inl (isDigit_of_mem_toString hstart)
    · exact .inr (by simpa using hcomma)
    · exact .inl (isDigit_of_mem_toString hsize)

theorem ne_break_of_mem_header {range : Range} {c : Char} (hmem : c ∈ range.header.toList) :
    c ≠ '\n' ∧ c ≠ '\r' := by
  constructor <;> rintro rfl <;> simpa using isDigit_or_comma_of_mem_header hmem

theorem printedLine_header (oldRange newRange : Range) :
    PrintedLine ("@@ -" ++ oldRange.header ++ " +" ++ newRange.header ++ " @@\n") := by
  let chars := "@@ -".toList ++ oldRange.header.toList ++ " +".toList ++ newRange.header.toList ++
    " @@".toList
  have hpiece : ("@@ -" ++ oldRange.header ++ " +" ++ newRange.header ++ " @@\n").toList =
      chars ++ ['\n'] := by
    simp [chars]
  have hchars : ∀ c ∈ chars, c ≠ '\n' ∧ c ≠ '\r' := by
    simp only [chars, List.forall_mem_append]
    exact ⟨⟨⟨⟨by simp, fun _ => ne_break_of_mem_header⟩, by simp⟩,
      fun _ => ne_break_of_mem_header⟩, by simp⟩
  refine ⟨hpiece ▸ unbroken_concat hchars '\n', ⟨'\n', by simp [hpiece], .inl rfl⟩, ?_⟩
  rw [hpiece]
  rintro _ ⟨⟩
  decide

end Hush.Diff
