import Hush.Text.Decode

/-!
# The content of a file

The bytes of a file, or a number of zero bytes that are not held in memory.
-/

namespace Hush

inductive Content
  | bytes (data : ByteArray)
  | zeros (count : Nat)

namespace Content

def ofString (text : String) : Content := .bytes text.toUTF8

def size : Content → Nat
  | bytes data => data.size
  | zeros count => count

def toBytes : Content → ByteArray
  | bytes data => data
  | zeros count => ⟨Array.replicate count 0⟩

@[simp] theorem size_toBytes (content : Content) : content.toBytes.size = content.size := by
  cases content with
  | bytes data => rfl
  | zeros count => simp [toBytes, size, ← ByteArray.size_data]

/-- The content as text. Zeros are binary, however many follow the first. -/
def decode : Content → Except Text.DecodeError String
  | bytes data => Text.decode data
  | zeros 0 => .ok ""
  | zeros (_ + 1) => .error .binary

theorem decode_eq (content : Content) : content.decode = Text.decode content.toBytes := by
  match content with
  | bytes data => rfl
  | zeros 0 =>
    have hempty : String.fromUTF8? (toBytes (zeros 0)) = some "" := by cbv
    have hbinary : Text.looksBinary (toBytes (zeros 0)) = false := by
      simp [Text.looksBinary, toBytes]
    simp [decode, Text.decode, hbinary, hempty]
  | zeros (count + 1) =>
    have hbinary : Text.looksBinary (toBytes (zeros (count + 1))) = true := by
      simp [Text.looksBinary, toBytes, Text.sniffLength]
    simp [decode, Text.decode, hbinary]

/-- Sets the length of some bytes, by a cut or by zeros at the end. -/
def resize (bytes : ByteArray) (length : Nat) : ByteArray :=
  bytes.extract 0 length ++ (zeros (length - bytes.size)).toBytes

theorem resize_of_le {bytes : ByteArray} {length : Nat} (hlength : length ≤ bytes.size) :
    resize bytes length = bytes.extract 0 length := by
  have hempty : (zeros 0).toBytes = ByteArray.empty := rfl
  rw [resize, Nat.sub_eq_zero_of_le hlength, hempty, ByteArray.append_empty]

end Content

/-- Content that is being replaced: new bytes were written over its start, and the length is still
to be set. -/
structure Draft where
  written : ByteArray
  old : Content

namespace Draft

/-- What lies beyond the new bytes is still there. -/
def toBytes (draft : Draft) : ByteArray :=
  draft.written ++ draft.old.toBytes.extract draft.written.size draft.old.size

/-- Sets the length. Only a length beyond the new bytes takes a look at the old content. -/
def setLength (draft : Draft) (length : Nat) : Content :=
  if length ≤ draft.written.size then .bytes (draft.written.extract 0 length)
  else .bytes (Content.resize draft.toBytes length)

theorem size_written_le (draft : Draft) : draft.written.size ≤ draft.toBytes.size := by
  rw [toBytes, ByteArray.size_append]
  exact Nat.le_add_right _ _

theorem extract_toBytes {draft : Draft} {length : Nat} (hlength : length ≤ draft.written.size) :
    draft.toBytes.extract 0 length = draft.written.extract 0 length := by
  rw [toBytes, ByteArray.extract_append, Nat.sub_eq_zero_of_le hlength, Nat.zero_sub,
    ByteArray.extract_same, ByteArray.append_empty]

theorem setLength_eq (draft : Draft) (length : Nat) :
    draft.setLength length = .bytes (Content.resize draft.toBytes length) := by
  unfold setLength
  split
  · next hlength =>
    rw [Content.resize_of_le (Nat.le_trans hlength draft.size_written_le), extract_toBytes hlength]
  · rfl

/-- A cut at the end of the new bytes leaves nothing else, however long the old content was. -/
theorem resize_size_written (draft : Draft) :
    Content.resize draft.toBytes draft.written.size = draft.written := by
  rw [Content.resize_of_le draft.size_written_le, extract_toBytes (Nat.le_refl _),
    ByteArray.extract_zero_size]

end Draft

end Hush
