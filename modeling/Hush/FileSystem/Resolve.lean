import Hush.FileSystem.Basic

/-!
# Path resolution

A path is followed component by component. Each look-up needs a directory that may be searched,
symbolic links are replaced by their targets, and no more than forty of them are followed.
-/

namespace Hush

def linkMax : Nat := 40

inductive User
  | owner
  /-- Permissions do not hold the superuser back. -/
  | superuser
  deriving DecidableEq

namespace FileSystem

/-- The directory of a number, if names can be looked up in it. -/
def searchable? (disk : FileSystem) (user : User) (number : Nat) : Option Directory :=
  (disk.directory? number).filter fun directory =>
    user = .superuser || directory.mode.isSearchable

/-- Follows the steps from a place; `follow` takes over where a symbolic link is met, with the
directory that lists it, its target and the steps that remain. -/
def walk (disk : FileSystem) (user : User)
    (follow : Nat → RawText → List Step → Option Place) : Place → List Step → Option Place
  | place, [] => some place
  | .file _, _ :: _ => none
  | .directory number, .slash :: rest =>
    (disk.directory? number).bind fun _ => walk disk user follow (.directory number) rest
  | .directory number, .dot :: rest =>
    (disk.searchable? user number).bind fun _ => walk disk user follow (.directory number) rest
  | .directory number, .dotDot :: rest =>
    (disk.searchable? user number).bind fun directory =>
      walk disk user follow (.directory directory.parent) rest
  | .directory number, .enter name :: rest =>
    (disk.searchable? user number).bind fun directory =>
      match directory.listing.find? name with
      | none => none
      | some (.link target) => follow number target rest
      | some (.file inode) => walk disk user follow (.file inode) rest
      | some (.directory child) => walk disk user follow (.directory child) rest

def origin (path : Path) (base : Nat) : Place := .directory (if path.isAbsolute then 0 else base)

/-- Follows the steps from a place through at most `links` symbolic links. -/
def walkLinks (disk : FileSystem) (user : User) : (links : Nat) → Place → List Step → Option Place
  | 0 => disk.walk user fun _ _ _ => none
  | links + 1 => disk.walk user fun base target rest =>
    (Path.ofRaw? target).bind fun path =>
      disk.walkLinks user links (origin path base) (path.steps ++ rest)

def resolve (disk : FileSystem) (user : User) (path : RawText) : Option Place :=
  (Path.ofRaw? path).bind fun path =>
    disk.walkLinks user linkMax (origin path disk.workingDirectory) path.steps

def lookup? (disk : FileSystem) (user : User) (path : RawText) : Option Node :=
  (disk.resolve user path).bind disk.node?

/-- The directory and the name in it that a path names when its last component is not followed. -/
def slot? (disk : FileSystem) (user : User) (path : RawText) : Option (Nat × Name) :=
  let (above, last) := splitLast path
  match disk.resolve user above with
  | some (.directory number) =>
    (disk.searchable? user number).bind fun _ => (Name.ofRaw? last).map (number, ·)
  | _ => none

/-- What a path names itself, which may be a symbolic link. -/
def entryAt? (disk : FileSystem) (user : User) (path : RawText) : Option Entry :=
  (disk.slot? user path).bind fun (number, name) => disk.tree.child? number name

end FileSystem

end Hush
