import Hush.FileSystem.Content
import Mathlib

/-!
# Decoding what was encoded

The bytes of a text are read back as that text, unless a zero byte near the start makes them look
binary. They are never read as another text.
-/

namespace Hush

namespace Text

theorem fromUTF8?_toUTF8 (text : String) : String.fromUTF8? text.toUTF8 = some text := by
  have hvalid : text.toUTF8.IsValidUTF8 := text.isValidUTF8
  unfold String.fromUTF8?
  rw [dif_pos hvalid]
  rfl

theorem fromUTF8?_eq_some_iff {bytes : ByteArray} {text : String} :
    String.fromUTF8? bytes = some text ↔ bytes = text.toUTF8 := by
  constructor
  · intro hvalid
    unfold String.fromUTF8? at hvalid
    split at hvalid
    · rw [← Option.some.inj hvalid]
      rfl
    · cases hvalid
  · rintro rfl
    exact fromUTF8?_toUTF8 text

theorem decode_eq_ok_iff {bytes : ByteArray} {text : String} :
    decode bytes = .ok text ↔ looksBinary bytes = false ∧ bytes = text.toUTF8 := by
  unfold decode
  cases hbinary : looksBinary bytes with
  | true => simp
  | false =>
      rw [if_neg Bool.false_ne_true, ← fromUTF8?_eq_some_iff]
      cases String.fromUTF8? bytes <;> simp

end Text

namespace Content

theorem size_ofString (text : String) : (ofString text).size = text.utf8ByteSize := rfl

theorem decode_eq_ok_iff {content : Content} {text : String} :
    content.decode = .ok text ↔
      Text.looksBinary content.toBytes = false ∧ content.toBytes = text.toUTF8 := by
  rw [decode_eq, Text.decode_eq_ok_iff]

theorem eq_of_decode_ofString {text other : String}
    (hdecode : (ofString text).decode = .ok other) : other = text :=
  (String.toByteArray_inj.mp (decode_eq_ok_iff.mp hdecode).2).symm

end Content

end Hush
