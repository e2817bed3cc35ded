/-!
# Raw text

Bytes that are meant as text and need not be it, such as the names of files and the paths to them.
They are compared and joined as bytes. For show, what is not text in them is replaced by a mark, so
different bytes may look the same.
-/

namespace Hush

@[ext]
structure RawText where
  bytes : List UInt8
  deriving DecidableEq

namespace RawText

def ofString (text : String) : RawText := ⟨text.toUTF8.data.toList⟩

instance : Coe String RawText := ⟨ofString⟩

instance : Append RawText := ⟨fun raw other => ⟨raw.bytes ++ other.bytes⟩⟩

/-- The text that the bytes encode, if they encode one. -/
def text? (raw : RawText) : Option String := String.fromUTF8? raw.bytes.toByteArray

def isContinuation (byte : UInt8) : Bool := 0x80 ≤ byte && byte ≤ 0xbf

/-- The second byte goes on with what the first one begins, a character of three or four bytes that
is neither overlong nor a surrogate nor beyond the last code point. -/
def canFollow (first second : UInt8) : Bool :=
  if first = 0xe0 then 0xa0 ≤ second && second ≤ 0xbf
  else if first = 0xed then 0x80 ≤ second && second ≤ 0x9f
  else if first = 0xf0 then 0x90 ≤ second && second ≤ 0xbf
  else if first = 0xf4 then 0x80 ≤ second && second ≤ 0x8f
  else 0xe1 ≤ first && first ≤ 0xf3 && isContinuation second

/-- How many bytes one mark stands for, where no character is encoded: as many as begin one, and a
byte that begins none by itself. -/
def brokenSize (bytes : ByteArray) (offset : Nat) : Nat :=
  let first := bytes.data.getD offset 0
  if canFollow first (bytes.data.getD (offset + 1) 0) then
    if 0xf0 ≤ first && isContinuation (bytes.data.getD (offset + 2) 0) then 3 else 2
  else 1

theorem brokenSize_pos (bytes : ByteArray) (offset : Nat) : 0 < brokenSize bytes offset := by
  unfold brokenSize
  dsimp only
  split
  · split <;> omega
  · exact Nat.one_pos

/-- The characters from an offset on, with marks for what is none. -/
def shown (bytes : ByteArray) (offset : Nat) : List Char :=
  match _h : bytes.utf8DecodeChar? offset with
  | some c => c :: shown bytes (offset + c.utf8Size)
  | none =>
    if offset < bytes.size then '\ufffd' :: shown bytes (offset + brokenSize bytes offset) else []
termination_by bytes.size - offset
decreasing_by
  · have := ByteArray.le_size_of_utf8DecodeChar?_eq_some _h
    have := c.utf8Size_pos
    omega
  · have := brokenSize_pos bytes offset
    omega

def display (raw : RawText) : String := .ofList (shown raw.bytes.toByteArray 0)

end RawText

end Hush
