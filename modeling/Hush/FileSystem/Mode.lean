/-!
# Modes

The permission bits of a file or directory, of which only the owner's three matter here.
-/

namespace Hush

structure Mode where
  bits : Nat
  deriving DecidableEq

namespace Mode

def ofFile : Mode := ⟨0o644⟩

def ofDirectory : Mode := ⟨0o755⟩

/-- The owner may read the file or list the directory. -/
def isReadable (mode : Mode) : Bool := mode.bits.testBit 8

def isWritable (mode : Mode) : Bool := mode.bits.testBit 7

/-- The owner may look up names in the directory. -/
def isSearchable (mode : Mode) : Bool := mode.bits.testBit 6

def toOctal (mode : Mode) : String := String.ofList (Nat.toDigits 8 mode.bits)

def octalDigit? (c : Char) : Option Nat :=
  if '0' ≤ c ∧ c ≤ '7' then some (c.toNat - '0'.toNat) else none

def ofOctal? (text : String) : Option Mode := do
  let digits ← text.toList.mapM octalDigit?
  if digits.isEmpty then none
  else some ⟨digits.foldl (fun bits digit => 8 * bits + digit) 0⟩

end Mode

end Hush
