import Hush.FileSystem.Resolve

/-!
# Reading and replacing text

A file is read as a whole, within a limit on its size, and replaced in place, so every name that
it has shows the new content. Reading and replacing fail where a path leads nowhere, or where what
it leads to may not be opened. What has been opened can be read, and written, cut and synced: the
device is assumed not to fail and not to be full. So a failure leaves the file system as it was.
-/

namespace Hush

/-- Why the system refuses to open or to read something that exists. -/
inductive Refusal
  | permissionDenied
  | isDirectory
  deriving DecidableEq

def Refusal.message : Refusal → String
  | permissionDenied => "Permission denied (os error 13)"
  | isDirectory => "Is a directory (os error 21)"

inductive FileError
  | notFound (path : String)
  | tooLarge (size limit : Nat)
  | binary
  | refused (refusal : Refusal)
  | invalid (offset : Nat)
  deriving DecidableEq

def FileError.message : FileError → String
  | notFound path => "File not found: " ++ path
  | tooLarge size limit =>
    "File too large: " ++ toString size ++ " bytes (limit: " ++ toString limit ++ ")"
  | binary => "Binary file detected"
  | refused refusal => "IO error: " ++ refusal.message
  | invalid offset => "UTF-8 decoding error at byte " ++ toString offset

def FileError.ofDecode : Text.DecodeError → FileError
  | .binary => binary
  | .invalid offset => invalid offset

namespace FileSystem

/-- The size that is stated is checked before anything is opened, also that of a directory, which
can be opened but not read. -/
def readText (disk : FileSystem) (path : RawText) (limit : Nat) : Except FileError String :=
  match disk.lookup? .owner path with
  | none => .error (.notFound path.display)
  | some node =>
    if limit < node.size then .error (.tooLarge node.size limit)
    else if node.mode.isReadable then
      match node with
      | .file _ file => file.content.decode.mapError .ofDecode
      | .directory .. => .error (.refused .isDirectory)
    else .error (.refused .permissionDenied)

def overwrite (disk : FileSystem) (inode : Nat) (content : Content) : FileSystem :=
  { disk with
    files := disk.files.modify inode fun file =>
      { file with content := content, writes := file.writes + 1 } }

/-- Writes the text over the start of the old content, then cuts off what is left of that. -/
def writeText (disk : FileSystem) (path : RawText) (text : String) :
    Except FileError FileSystem :=
  match disk.lookup? .owner path with
  | none => .error (.notFound path.display)
  | some (.directory ..) => .error (.refused .isDirectory)
  | some (.file inode file) =>
    if file.mode.isWritable then
      let draft : Draft := { written := text.toUTF8, old := file.content }
      .ok (disk.overwrite inode (draft.setLength text.utf8ByteSize))
    else .error (.refused .permissionDenied)

end FileSystem

end Hush
