import Hush.Console.Escape
import Hush.Console.Filter
import Hush.Run.Directory

/-!
# The console transcript

What a run over the default root prints: where it looks, the events that the filter lets through,
and the count of modified files.
-/

namespace Hush

/-- A named value behind a message, with the name in italics and a faint sign of equality. -/
def fieldText (field : String × String) : String :=
  " \x1b[3m" ++ field.1 ++ "\x1b[0m\x1b[2m=\x1b[0m" ++ field.2

/-- The event as it is logged. Only the message is escaped, and named values stand as they are. -/
def Event.line (event : Event) : String :=
  Console.escape event.message ++ String.join (event.fields.map fieldText) ++ "\n"

namespace Console

def opening (config : Config) : String :=
  "Starting to comment out console statements...\nTarget directory: " ++ config.root.display ++
    "\n\n"

def log (filter : Filter) (events : List Event) : String :=
  String.join ((events.filter filter.admits).map Event.line)

def closing (summary : Summary) : String :=
  let failures :=
    if summary.errors.isEmpty then ""
    else "\n" ++ toString summary.errors.length ++ " files could not be processed\n"
  failures ++ "\n✅ Done! Modified " ++ toString summary.modifiedCount ++ " files\n"

/-- A whole run, with the text of the filter if one is given. The value is what it prints. -/
def session (disk : FileSystem) (filter : Option String) : Run String :=
  let config : Config := {}
  let run := processDirectory disk config
  { run with
    value := opening config ++ log (.ofText filter) run.events ++ closing run.value }

end Console

end Hush
