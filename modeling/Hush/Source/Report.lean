import Hush.Diff.Unified
import Hush.Source.Revision

/-!
# The report of a revision

What was commented out in one text: the number of calls, the lines of each, and the difference.
-/

namespace Hush

def Span.report (span : Span) : String :=
  if span.isSingle then "L" ++ toString span.first ++ "\n"
  else
    "L" ++ toString span.first ++ "-L" ++ toString span.last ++ " (" ++ toString span.size ++
      " lines)\n"

namespace Revision

/-- The spans and the difference, or that there is nothing to show. -/
def findings (revision : Revision) : String :=
  if revision.spans.isEmpty then "[No console calls found]\n"
  else
    "\n// Spans:\n" ++ String.join (revision.spans.map Span.report) ++ "\n// Diff:\n" ++
      Diff.unified revision.before revision.after

/-- The report, headed by the path of the file if there is one. -/
def report (revision : Revision) (path : Option String) : String :=
  let heading :=
    match path with
    | some path => "// FILE: " ++ path ++ "\n"
    | none => ""
  heading ++ "// Commented calls: " ++ toString revision.spans.length ++ "\n" ++ revision.findings

end Revision

end Hush
