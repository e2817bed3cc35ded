import Hush.Run.Event

/-!
# Discovering source files

The tree below a directory is searched once for each extension. A symbolic link counts as what it
leads to, but only real directories are entered, and those that cannot be listed are passed over.
-/

namespace Hush

inductive Extension
  | vue
  | ts
  deriving DecidableEq

namespace Extension

def all : List Extension := [vue, ts]

def text : Extension → String
  | vue => "vue"
  | ts => "ts"

def suffix (extension : Extension) : String := "." ++ extension.text

/-- The name ends in the suffix. Only a name that is text is looked at. -/
def selects (extension : Extension) (name : Name) : Bool :=
  name.raw.text?.any fun text => extension.suffix.toList.isSuffixOf text.toList

end Extension

def compiledExtension : String := "js"

/-- The byte before the extension of a name. -/
def dot : UInt8 := 0x2e

/-- What follows the last dot of a name, unless the name starts with it. -/
def Name.extension? (name : Name) : Option (List UInt8) :=
  let reversed := name.raw.bytes.reverse
  match reversed.dropWhile (· != dot) with
  | [] => none
  | [_] => none
  | _ => some (reversed.takeWhile (· != dot)).reverse

/-- The byte with a capital letter of ASCII made small. -/
def toLowerByte (byte : UInt8) : UInt8 :=
  if 0x41 ≤ byte && byte ≤ 0x5a then byte + 0x20 else byte

/-- The name belongs to compiled output, in small letters or capitals. -/
def Name.isCompiled (name : Name) : Bool :=
  name.extension?.any fun extension =>
    extension.map toLowerByte == (RawText.ofString compiledExtension).bytes

def defaultRoot : String := "frontend/src"

structure Config where
  root : RawText := defaultRoot
  /-- Searched for one after the other. -/
  extensions : List Extension := [.vue, .ts]

namespace FileSystem

def isFile (disk : FileSystem) (path : RawText) : Bool :=
  match disk.lookup? .owner path with
  | some (.file ..) => true
  | _ => false

/-- The ways down from the root that lead to a file, by a last name with the extension. -/
def matching (disk : FileSystem) (path : RawText) (root : Nat) (extension : Extension) :
    List (List Name) :=
  (disk.tree.descents root).filter fun names =>
    disk.isFile (joinPath path names) && names.getLast?.any extension.selects

/-- What is found on the ways that match. Compiled output is told of and passed over. -/
def search (disk : FileSystem) (path : RawText) (root : Nat) (extension : Extension) :
    Run (List RawText) :=
  let (compiled, sources) :=
    (disk.matching path root extension).partition (·.getLast?.any Name.isCompiled)
  { value := sources.map (joinPath path)
    disk
    events := compiled.map fun names => .skipped (joinPath path names) }

def discover (disk : FileSystem) (config : Config) : Run (List RawText) :=
  match disk.lookup? .owner config.root with
  | some (.directory root _) =>
    let searches := config.extensions.map (disk.search config.root root)
    { value := searches.flatMap Run.value, disk, events := searches.flatMap Run.events }
  | _ => { value := [], disk, events := [.rootMissing config.root] }

end FileSystem

end Hush
