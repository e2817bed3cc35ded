import Hush.Text.Raw

/-!
# Names and paths

A path is what a program asks for a file or directory by. It leads there by way of names, dots,
repeated slashes and symbolic links. Neither names nor paths need to be text.
-/

namespace Hush

def nameMax : Nat := 255

def pathMax : Nat := 4096

/-- The byte that cuts a path into its components. -/
def slash : UInt8 := 0x2f

def isName (raw : RawText) : Bool :=
  !raw.bytes.isEmpty && raw != "." && raw != ".." && raw.bytes.length ≤ nameMax &&
    raw.bytes.all fun byte => byte != slash && byte != 0

structure Name where
  raw : RawText
  isName_raw : isName raw = true
  deriving DecidableEq

def Name.ofRaw? (raw : RawText) : Option Name :=
  if h : isName raw = true then some ⟨raw, h⟩ else none

inductive Step
  /-- An empty component, as between two slashes or after the last one. -/
  | slash
  | dot
  | dotDot
  | enter (name : Name)
  deriving DecidableEq

def Step.ofRaw? (raw : RawText) : Option Step :=
  if raw = "" then some slash
  else if raw = "." then some dot
  else if raw = ".." then some dotDot
  else (Name.ofRaw? raw).map enter

structure Path where
  isAbsolute : Bool
  steps : List Step
  deriving DecidableEq

def components (path : RawText) : List RawText := (path.bytes.splitOn slash).map RawText.mk

/-- The path of the directory that holds what a path names, and the last component. -/
def splitLast (path : RawText) : RawText × RawText :=
  match (components path).reverse with
  | [] => (".", path)
  | [last] => (".", last)
  | last :: before => (⟨[slash].intercalate (before.reverse.map RawText.bytes)⟩ ++ "/", last)

/-- A path is neither empty nor too long, and its components are dots or names. -/
def Path.ofRaw? (raw : RawText) : Option Path :=
  if raw = "" ∨ pathMax ≤ raw.bytes.length then none
  else ((components raw).mapM Step.ofRaw?).map (⟨raw.bytes.head? == some slash, ·⟩)

/-- The path of something below a directory. A path that ends in a slash takes no other. -/
def joinPath (directory : RawText) (names : List Name) : RawText :=
  let separator := if directory.bytes.getLast? = some slash then [] else [slash]
  ⟨directory.bytes ++ separator ++ [slash].intercalate (names.map (·.raw.bytes))⟩

end Hush
