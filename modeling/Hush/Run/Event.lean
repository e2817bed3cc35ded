import Hush.FileSystem.Access
import Hush.Source.Report

/-!
# Events

What a run tells about itself while it goes on, and the errors that it tells of.
-/

namespace Hush

/-- Why a file could not be commented. -/
inductive CommentError
  | read (path : RawText) (cause : FileError)
  | write (path : RawText) (cause : FileError)
  deriving DecidableEq

namespace CommentError

def path : CommentError → RawText
  | read path _ => path
  | write path _ => path

def cause : CommentError → FileError
  | read _ cause => cause
  | write _ cause => cause

def message : CommentError → String
  | read _ cause => "Read error: " ++ cause.message
  | write _ cause => "Write error: " ++ cause.message

end CommentError

inductive Level
  | error
  | warn
  | info
  | debug
  | trace
  deriving DecidableEq

inductive Event
  | rootMissing (root : RawText)
  /-- A file was found whose name belongs to compiled output. -/
  | skipped (path : RawText)
  | processing (path : RawText)
  | modified
  | unchanged
  | failed (path : RawText) (error : CommentError)
  /-- The content of a file was replaced by this many bytes. -/
  | replaced (path : RawText) (size : Nat)
  | revised (path : RawText) (revision : Revision)

namespace Event

def level : Event → Level
  | rootMissing _ => .warn
  | skipped _ => .debug
  | processing _ => .info
  | modified => .info
  | unchanged => .info
  | failed .. => .error
  | replaced .. => .debug
  | revised .. => .debug

def message : Event → String
  | rootMissing root => "Root directory not found: " ++ root.display
  | skipped path => "Skipping compiled file: " ++ path.display
  | processing path => "Processing: " ++ path.display
  | modified => "  ✓ Modified"
  | unchanged => "  - No changes"
  | failed path error => "Error processing " ++ path.display ++ ": " ++ error.message
  | replaced .. => "replaced file content"
  | revised path revision => revision.report (some path.display)

def fields : Event → List (String × String)
  | replaced path size => [("path", path.display), ("bytes", toString size)]
  | _ => []

end Event

/-- A result, the file system that it leaves, and the events on the way. -/
structure Run (α : Type) where
  value : α
  disk : FileSystem
  events : List Event := []

end Hush
