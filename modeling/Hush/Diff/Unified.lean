import Hush.Diff.Hunk

/-!
# The unified format

Two texts are compared line by line and their differences printed as hunks. A line ends after a
line feed, a carriage return, or the two in a row, and keeps what ends it, so the lines of a text
are the text.
-/

namespace Hush.Diff

/-- Whether no line ends between two neighbouring characters. -/
def sameLine (a b : Char) : Bool := !(a == '\n' || (a == '\r' && b != '\n'))

def lines (text : String) : List String := (text.toList.splitBy sameLine).map String.ofList

/-- Numbers lines from one. An empty range is named by the line before it, and a range of one line
by that line alone. -/
def Range.header (range : Range) : String :=
  match range.size with
  | 0 => toString range.start ++ ",0"
  | 1 => toString (range.start + 1)
  | size => toString (range.start + 1) ++ "," ++ toString size

def Hunk.header (hunk : Hunk) : String :=
  "@@ -" ++ hunk.oldRange.header ++ " +" ++ hunk.newRange.header ++ " @@\n"

def Mark.sign : Mark → String
  | context => " "
  | removed => "-"
  | added => "+"

/-- A line that nothing ends is printed with a line feed. -/
def terminated (line : String) : String :=
  match line.toList.getLast? with
  | some '\n' => line
  | some '\r' => line
  | _ => line ++ "\n"

def Hunk.print (old new : Array String) (hunk : Hunk) : String :=
  hunk.header ++
    String.join ((hunk.body old new).map fun (mark, line) => mark.sign ++ terminated line)

/-- The unified diff of two texts. Equal texts have no hunks. -/
def unified (old new : String) : String :=
  if old = new then ""
  else
    let oldLines := (lines old).toArray
    let newLines := (lines new).toArray
    String.join ((hunks oldLines newLines).map (·.print oldLines newLines))

end Hush.Diff
