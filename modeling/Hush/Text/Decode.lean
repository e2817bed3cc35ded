/-!
# Bytes as text

A byte string is text when no zero byte stands near its start and it is valid UTF-8 throughout.
Decoding is strict, because what is decoded is written back. A refusal names the length of the
longest valid beginning.
-/

namespace Hush.Text

/-- The number of leading bytes among which a zero byte marks binary content. -/
def sniffLength : Nat := 8192

def looksBinary (bytes : ByteArray) : Bool := (bytes.extract 0 sniffLength).data.contains 0

inductive DecodeError
  | binary
  /-- The bytes are valid UTF-8 up to `offset` and no further. -/
  | invalid (offset : Nat)
  deriving DecidableEq

/-- The end of the valid characters that start at `offset`. -/
def validEnd (bytes : ByteArray) (offset : Nat) : Nat :=
  match _h : bytes.utf8DecodeChar? offset with
  | some c => validEnd bytes (offset + c.utf8Size)
  | none => offset
termination_by bytes.size - offset
decreasing_by
  have := ByteArray.le_size_of_utf8DecodeChar?_eq_some _h
  have := c.utf8Size_pos
  omega

def decode (bytes : ByteArray) : Except DecodeError String :=
  if looksBinary bytes then .error .binary
  else
    match String.fromUTF8? bytes with
    | some text => .ok text
    | none => .error (.invalid (validEnd bytes 0))

end Hush.Text
