import Hush.Source.Scan

/-!
# Revising a text

A text is cut at its newlines, scanned, and joined again with newlines, so what ends a line stays
as it was.
-/

namespace Hush

/-- A text before and after, and the calls that were commented out in between. -/
structure Revision where
  before : String
  after : String
  spans : List Span

def Revision.changed (revision : Revision) : Bool := revision.before != revision.after

def linesOf (text : String) : List Line := text.toList.splitOn '\n'

def ofLines (lines : List Line) : String := String.ofList (['\n'].intercalate lines)

theorem ofLines_linesOf (text : String) : ofLines (linesOf text) = text := by
  simp [ofLines, linesOf, List.intercalate_splitOn]

theorem linesOf_ofLines {lines : List Line} (hnonempty : lines ≠ [])
    (hnewline : ∀ line ∈ lines, '\n' ∉ line) : linesOf (ofLines lines) = lines := by
  simp [ofLines, linesOf, List.splitOn_intercalate _ hnewline hnonempty]

def silence (text : String) : Revision :=
  let scan := Scan.ofLines (linesOf text)
  { before := text, after := ofLines scan.lines.reverse, spans := scan.spans }

end Hush
