import Hush.Line.Call
import Mathlib

/-!
# What a comment keeps

The marker goes in where the indentation ends, so a commented line is cut into indentation and
content at the same place as before. That makes a comment recognisable, makes it reversible, and
fixes its length.
-/

namespace Hush.Line

variable {line : Line}

theorem isBlank_of_mem_indent {c : Char} (hmem : c ∈ indent line) : Text.isBlank c = true :=
  List.all_eq_true.mp List.all_takeWhile c hmem

theorem not_isBlank_head_content {c : Char} (hhead : (content line).head? = some c) :
    Text.isBlank c = false := by
  have hnot := List.head?_dropWhile_not Text.isBlank line
  unfold content Text.trimStart at hhead
  rw [hhead] at hnot
  simpa using hnot

/-- A blank part followed by a part that does not start with a blank: there is one such cut. -/
theorem indent_content_append {blank rest : List Char}
    (hblank : ∀ c ∈ blank, Text.isBlank c = true)
    (hrest : ∀ c, rest.head? = some c → Text.isBlank c = false) :
    indent (blank ++ rest) = blank ∧ content (blank ++ rest) = rest := by
  unfold indent content Text.trimStart
  rw [List.takeWhile_append_of_pos hblank, List.dropWhile_append_of_pos hblank]
  cases rest with
  | nil => simp
  | cons first rest =>
      have hfirst := hrest first rfl
      simp [hfirst]

/-- Takes out the three characters that a comment puts behind the indentation. -/
def uncomment (line : Line) : Line := indent line ++ (content line).drop 3

theorem comment_eq_append (line : Line) :
    comment line = indent line ++ "// ".toList ++ content line := by
  simp [comment, commentMarker]

theorem indent_content_comment (line : Line) :
    indent (comment line) = indent line ∧
      content (comment line) = "// ".toList ++ content line := by
  rw [comment_eq_append, List.append_assoc]
  apply indent_content_append
  · intro c hmem
    exact isBlank_of_mem_indent hmem
  · intro c hhead
    have hslash : '/' = c := by simpa using hhead
    rw [← hslash]
    decide

@[simp]
theorem uncomment_comment (line : Line) : uncomment (comment line) = line := by
  obtain ⟨hindent, hcontent⟩ := indent_content_comment line
  rw [uncomment, hindent, hcontent]
  simp

@[simp]
theorem isComment_comment (line : Line) : isComment (comment line) = true := by
  rw [isComment, (indent_content_comment line).2]
  simp [commentMarker]

@[simp]
theorem isComment_silence (line : Line) : isComment (silence line) = true := by
  unfold silence
  split
  · assumption
  · exact isComment_comment line

theorem isLive_iff : isLive line = true ↔ hasCall line = true ∧ isComment line = false := by
  rw [isLive, Bool.and_eq_true, Bool.not_eq_true']

theorem isLive_eq_false_of_isComment (hcomment : isComment line = true) : isLive line = false := by
  simp [isLive, hcomment]

theorem newline_notMem_comment (hnewline : '\n' ∉ line) : '\n' ∉ comment line := by
  rw [← indent_append_content line, List.mem_append, not_or] at hnewline
  rw [comment_eq_append]
  simp [hnewline.1, hnewline.2]

/-- The marker and the blank after it are three bytes. -/
theorem utf8ByteSize_comment (line : Line) :
    (String.ofList (comment line)).utf8ByteSize = (String.ofList line).utf8ByteSize + 3 := by
  have hmarker : (String.ofList "// ".toList).utf8ByteSize = 3 := by
    rw [String.ofList_toList]
    rfl
  calc (String.ofList (comment line)).utf8ByteSize
      = (String.ofList (indent line)).utf8ByteSize + 3 +
          (String.ofList (content line)).utf8ByteSize := by
        rw [comment_eq_append, String.ofList_append, String.ofList_append,
          String.utf8ByteSize_append, String.utf8ByteSize_append, hmarker]
    _ = (String.ofList (indent line)).utf8ByteSize +
          (String.ofList (content line)).utf8ByteSize + 3 := by omega
    _ = (String.ofList line).utf8ByteSize + 3 := by
        rw [← String.utf8ByteSize_append, ← String.ofList_append, indent_append_content]

end Hush.Line
