import Hush.Text.Blank

/-!
# Lines and line comments

A line is split into its indentation and its content without loss, and a comment is the marker
written between the two, so commenting keeps the indentation character by character.
-/

namespace Hush

/-- The characters of one line, without the newline that ends it. A carriage return before that
newline belongs to the line. -/
abbrev Line := List Char

namespace Line

def commentMarker : String := "//"

/-- The longest blank run at the start of a line. -/
def indent (line : Line) : List Char := line.takeWhile Text.isBlank

def content (line : Line) : List Char := Text.trimStart line

@[simp] theorem indent_append_content (line : Line) : indent line ++ content line = line :=
  List.takeWhile_append_dropWhile

def isComment (line : Line) : Bool := commentMarker.toList.isPrefixOf (content line)

/-- A blank line is all indentation, so its marker comes at the end. -/
def comment (line : Line) : Line := indent line ++ commentMarker.toList ++ ' ' :: content line

/-- A line that is a comment already is left as it is. -/
def silence (line : Line) : Line := if isComment line then line else comment line

end Line

end Hush
