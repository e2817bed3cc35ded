import Hush.FileSystem.Resolve

/-!
# Changes from outside

What other programs do to a file system before and between runs. They act as the superuser, and
none of their changes counts as a replacement in place.
-/

namespace Hush.FileSystem

/-- An empty directory to work in, below the root. -/
def scratch (name : Name) : FileSystem :=
  { tree := Tree.root.addDirectory 0 name, workingDirectory := Tree.root.directories.size }

/-- Enters a name where it stands for nothing yet. -/
def addEntry (disk : FileSystem) (number : Nat) (name : Name) (entry : Entry) : FileSystem :=
  match disk.tree.child? number name with
  | none => { disk with tree := disk.tree.insert number name entry }
  | some _ => disk

/-- Adds the directories that are missing on the way along some steps. -/
def addDirectories (disk : FileSystem) (place : Place) : List Step → FileSystem
  | [] => disk
  | step :: rest =>
    match disk.walkLinks .superuser linkMax place [step], place, step with
    | some next, _, _ => disk.addDirectories next rest
    | none, .directory number, .enter name =>
      match disk.tree.child? number name with
      | none =>
        let child := disk.tree.directories.size
        { disk with tree := disk.tree.addDirectory number name }.addDirectories
          (.directory child) rest
      | some _ => disk
    | none, _, _ => disk

def addDirectory (disk : FileSystem) (path : RawText) : FileSystem :=
  match Path.ofRaw? path with
  | some parsed => disk.addDirectories (origin parsed disk.workingDirectory) parsed.steps
  | none => disk

def addParents (disk : FileSystem) (path : RawText) : FileSystem :=
  disk.addDirectory (splitLast path).1

/-- Where a path leads once the symbolic links at its end are followed, whether or not something
stands there. -/
def endOfLinks? (disk : FileSystem) : (links : Nat) → (path : RawText) → Option (Nat × Name)
  | 0, _ => none
  | links + 1, path =>
    (disk.slot? .superuser path).bind fun (number, name) =>
      match disk.tree.child? number name with
      | some (.link target) =>
        disk.endOfLinks? links
          (if target.bytes.head? = some slash then target else (splitLast path).1 ++ "/" ++ target)
      | _ => some (number, name)

/-- Gives a file new content and leaves its mode. A missing file is created, at the far end of the
links that lead to it. -/
def put (disk : FileSystem) (path : RawText) (content : Content) : FileSystem :=
  match disk.lookup? .superuser path, disk.endOfLinks? (linkMax + 1) path with
  | some (.file inode _), _ =>
    { disk with files := disk.files.modify inode fun file => { file with content := content } }
  | none, some (number, name) =>
    { disk with files := disk.files.push { content := content } }.addEntry number name
      (.file disk.files.size)
  | _, _ => disk

def addFile (disk : FileSystem) (path : RawText) (content : Content) : FileSystem :=
  (disk.addParents path).put path content

/-- Lets a path name an entry other than a directory. -/
def addName (disk : FileSystem) (path : RawText) (entry : Entry) : FileSystem :=
  match disk.slot? .superuser path, entry with
  | _, .directory _ => disk
  | some (number, name), _ => disk.addEntry number name entry
  | none, _ => disk

def addLink (disk : FileSystem) (path target : RawText) : FileSystem :=
  (disk.addParents path).addName path (.link target)

/-- Gives what another path names a second name. A symbolic link is not followed. -/
def addHardLink (disk : FileSystem) (path other : RawText) : FileSystem :=
  let disk := disk.addParents path
  match disk.entryAt? .superuser other with
  | some entry => disk.addName path entry
  | none => disk

def setMode (disk : FileSystem) (path : RawText) (mode : Mode) : FileSystem :=
  match disk.lookup? .superuser path with
  | some (.file inode _) =>
    { disk with files := disk.files.modify inode fun file => { file with mode := mode } }
  | some (.directory number _) => { disk with tree := disk.tree.setMode number mode }
  | none => disk

end Hush.FileSystem
