import Hush.Run.Event

/-!
# Commenting one file

A file is read, revised, and replaced in place only if its text changed. It is written once or not
at all.
-/

namespace Hush

/-- The size above which a file is not read. -/
def maxFileSize : Nat := 16 * 1024 * 1024

structure FileOutcome where
  path : RawText
  changed : Bool
  spans : List Span
  deriving DecidableEq

def replaceFile (disk : FileSystem) (path : RawText) (text : String) :
    Run (Except FileError Unit) :=
  match disk.writeText path text with
  | .error cause => { value := .error cause, disk }
  | .ok written =>
    { value := .ok (), disk := written, events := [.replaced path text.utf8ByteSize] }

def commentFile (disk : FileSystem) (path : RawText) : Run (Except CommentError FileOutcome) :=
  match disk.readText path maxFileSize with
  | .error cause => { value := .error (.read path cause), disk }
  | .ok text =>
    let revision := silence text
    if revision.changed then
      let run := replaceFile disk path revision.after
      match run.value with
      | .error cause => { run with value := .error (.write path cause) }
      | .ok () =>
        { value := .ok ⟨path, true, revision.spans⟩
          disk := run.disk
          events := run.events ++ [.revised path revision] }
    else { value := .ok ⟨path, false, revision.spans⟩, disk }

/-- Comments a file and reports a failure instead of returning it. The value says whether the file
was changed. -/
def processFile (disk : FileSystem) (path : RawText) : Run Bool :=
  let run := commentFile disk path
  match run.value with
  | .ok outcome => { run with value := outcome.changed }
  | .error error => { run with value := false, events := run.events ++ [.failed path error] }

end Hush
