import Hush.Line.Basic
import Hush.Method
import Hush.Text.WordChar

/-!
# Calls on a line

A call is recognised by its text alone. It starts where the receiver, a dot, the name of a method
and an opening parenthesis stand at a word boundary. The first line that holds `);` or ends in `)`
is taken to close it.
-/

namespace Hush.Line

/-- A call up to the name of its method. -/
def receiverText : List Char := (Method.receiver ++ ".").toList

/-- A call from the name of its method up to the opening parenthesis. -/
def methodText (method : Method) : List Char := (method.name ++ "(").toList

def methodTexts : List (List Char) := Method.all.map methodText

def startsCall (chars : List Char) : Bool :=
  match receiverText.isPrefixOf? chars with
  | some rest => methodTexts.any (·.isPrefixOf rest)
  | none => false

/-- No word character stands before the position. -/
def isBoundary : Option Char → Bool
  | none => true
  | some c => !Text.isWordChar c

/-- Looks for a call at every position of the characters that follow `previous`. -/
def hasCallAfter (previous : Option Char) : List Char → Bool
  | [] => false
  | c :: rest => (startsCall (c :: rest) && isBoundary previous) || hasCallAfter (some c) rest

/-- Some position of the line starts a call of one of the methods. -/
def hasCall (line : Line) : Bool := hasCallAfter none line

def hasPart (part : List Char) : List Char → Bool
  | [] => part.isEmpty
  | c :: rest => part.isPrefixOf (c :: rest) || hasPart part rest

def closesCall (line : Line) : Bool :=
  hasPart [')', ';'] line || (Text.trimEnd line).getLast? == some ')'

def isLive (line : Line) : Bool := hasCall line && !isComment line

end Hush.Line
