import Hush.Line.Call
import Hush.Source.Span

/-!
# The line scan

Lines are read one by one. Outside a call a live line opens one; inside a call every line belongs
to it, up to and including the first line that closes it. A call that nothing closes runs to the
last line. Nothing else is remembered from one line to the next.
-/

namespace Hush

/-- What is known after some lines: what became of them and the calls among them, both with the
latest first. -/
structure Scan where
  count : Nat := 0
  lines : List Line := []
  finished : List Span := []
  /-- The call that waits for its closing line. -/
  current : Option Span := none

namespace Scan

/-- The call that the next line belongs to, grown by this line. -/
def callAt (scan : Scan) (line : Line) : Option Span :=
  match scan.current with
  | some span => some span.grow
  | none => if line.isLive then some (.single (scan.count + 1)) else none

def next (scan : Scan) (line : Line) : Scan :=
  match scan.callAt line with
  | none => { scan with count := scan.count + 1, lines := line :: scan.lines }
  | some span =>
    let silenced := { scan with count := scan.count + 1, lines := line.silence :: scan.lines }
    if line.closesCall then
      { silenced with finished := span :: scan.finished, current := none }
    else
      { silenced with current := some span }

def ofLines (lines : List Line) : Scan := lines.foldl next {}

def spans (scan : Scan) : List Span := (scan.current.toList ++ scan.finished).reverse

end Scan

end Hush
