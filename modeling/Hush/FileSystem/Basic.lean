import Hush.FileSystem.Content
import Hush.FileSystem.Tree

/-!
# File systems

A tree of directories lists files by number. The files themselves are stored apart from it, so
several names may stand for one file.
-/

namespace Hush

structure File where
  content : Content
  mode : Mode := .ofFile
  /-- How often the content has been replaced in place. -/
  writes : Nat := 0

structure FileSystem where
  tree : Tree := .root
  files : Array File := #[]
  /-- The number of the directory where relative paths start. -/
  workingDirectory : Nat := 0

/-- Where a path can lead. -/
inductive Place
  | file (inode : Nat)
  | directory (number : Nat)
  deriving DecidableEq

inductive Node
  | file (inode : Nat) (file : File)
  | directory (number : Nat) (directory : Directory)

namespace Node

def size : Node → Nat
  | file _ held => held.content.size
  | directory _ held => held.size

def mode : Node → Mode
  | file _ held => held.mode
  | directory _ held => held.mode

end Node

namespace FileSystem

def directory? (disk : FileSystem) (number : Nat) : Option Directory :=
  disk.tree.directories[number]?

def node? (disk : FileSystem) : Place → Option Node
  | .file inode => disk.files[inode]?.map (.file inode)
  | .directory number => (disk.directory? number).map (.directory number)

end FileSystem

end Hush
