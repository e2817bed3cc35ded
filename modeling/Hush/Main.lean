import Hush.Console.Transcript
import Hush.FileSystem.Outside

/-!
# The command

Runs over the default root of the real file system. Each step takes a snapshot of what it needs,
decides on the snapshot, and carries over what was replaced there. Names that are not text are out
of reach.
-/

namespace Hush.Command

/-- Adds what stands below a directory to a snapshot: directories, and files without content. -/
partial def scan (snapshot : FileSystem) (path : String) : IO FileSystem := do
  let listing ← try
      pure (some (← (← IO.FS.realPath path).readDir))
    catch _ => pure none
  let snapshot := snapshot.addDirectory path
  match listing with
  | none => return snapshot.setMode path ⟨0o100⟩
  | some entries =>
    entries.foldlM (fun snapshot entry => do
      let below := path ++ "/" ++ entry.fileName
      try
        match (← entry.path.symlinkMetadata).type with
        | .dir => scan snapshot below
        | _ =>
          match (← entry.path.metadata).type with
          | .file => return snapshot.addFile below (.zeros 0)
          | _ => return snapshot
      catch _ => return snapshot) snapshot

def empty : FileSystem := .scratch ⟨"work", by decide⟩

/-- The tree below a root, if the root is a directory. -/
def scanRoot (root : String) : IO FileSystem := do
  try
    if ← (← IO.FS.realPath root).isDir then scan empty root else return empty
  catch _ => return empty

def canOpen (path : String) (mode : IO.FS.Mode) : IO Bool := do
  try
    discard (IO.FS.Handle.mk path mode)
    return true
  catch _ => return false

/-- A snapshot that holds one file, and its content only if it may be read. -/
def probe (path : String) : IO FileSystem := do
  try
    let metadata ← (← IO.FS.realPath path).metadata
    let size := metadata.byteSize.toNat
    let isReadable ← canOpen path .read
    let isWritable ← canOpen path .readWrite
    let content ←
      if isReadable && size ≤ maxFileSize then pure (Content.bytes (← IO.FS.readBinFile path))
      else pure (Content.zeros size)
    let bits := (if isReadable then 0o400 else 0) + (if isWritable then 0o200 else 0)
    return (empty.addFile path content).setMode path ⟨bits⟩
  catch _ => return empty

/-- Writes a file back if it was replaced in the snapshot. -/
def carryOver (snapshot : FileSystem) (path : String) : IO Unit := do
  match snapshot.lookup? .owner path with
  | some (.file _ file) =>
    if file.writes ≠ 0 then IO.FS.writeBinFile path file.content.toBytes
  | _ => return

/-- The real file system as the system that a run goes over. Events are printed as they come. -/
def host (filter : Filter) : Host IO where
  discover config := do
    let found := (← scanRoot config.root.display).discover config
    IO.print (Console.log filter found.events)
    return found.value
  visit path := do
    let run := Hush.visit (← probe path.display) path
    carryOver run.disk path.display
    IO.print (Console.log filter run.events)
    return run.value

def run (config : Config) (filter : Filter) : IO Unit := do
  IO.print (Console.opening config)
  let summary ← (host filter).processDirectory config
  IO.print (Console.closing summary)

end Hush.Command

def main : IO Unit := do
  Hush.Command.run {} (.ofText (← IO.getEnv "RUST_LOG"))
