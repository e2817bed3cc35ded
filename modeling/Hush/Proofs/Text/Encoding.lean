import Hush.Proofs.Text.Insertion

/-!
# The bytes of a character

A character is put down as its code point, cut into groups of six bits, in as few bytes as the code
point needs. That rules out overlong forms. Surrogates and numbers above the last code point are
ruled out with them, because no character has them for its code point.
-/

namespace Hush.Text

/-- The byte is not the first one of a character, and holds these six bits of the code point. -/
structure Continues (byte : UInt8) (bits : Nat) : Prop where
  toNat_eq : byte.toNat = 0x80 + bits
  bits_lt : bits < 0x40

/-- The first byte of a character tells how many there are, and holds the highest bits. -/
inductive CharBytes (c : Char) : List UInt8 → Prop
  | one {b₁ : UInt8} :
      b₁.toNat = c.toNat → c.toNat < 0x80 → CharBytes c [b₁]
  | two {b₁ b₂ : UInt8} {bits₁ bits₂ : Nat} :
      b₁.toNat = 0xc0 + bits₁ → bits₁ < 0x20 → Continues b₂ bits₂ →
      c.toNat = bits₁ * 0x40 + bits₂ → 0x80 ≤ c.toNat → CharBytes c [b₁, b₂]
  | three {b₁ b₂ b₃ : UInt8} {bits₁ bits₂ bits₃ : Nat} :
      b₁.toNat = 0xe0 + bits₁ → bits₁ < 0x10 → Continues b₂ bits₂ → Continues b₃ bits₃ →
      c.toNat = (bits₁ * 0x40 + bits₂) * 0x40 + bits₃ → 0x800 ≤ c.toNat →
      CharBytes c [b₁, b₂, b₃]
  | four {b₁ b₂ b₃ b₄ : UInt8} {bits₁ bits₂ bits₃ bits₄ : Nat} :
      b₁.toNat = 0xf0 + bits₁ → bits₁ < 0x08 → Continues b₂ bits₂ → Continues b₃ bits₃ →
      Continues b₄ bits₄ →
      c.toNat = ((bits₁ * 0x40 + bits₂) * 0x40 + bits₃) * 0x40 + bits₄ → 0x10000 ≤ c.toNat →
      CharBytes c [b₁, b₂, b₃, b₄]

/-- The bytes are those of the characters of the text, one after the other. -/
def IsEncoding (text : String) (bytes : ByteArray) : Prop :=
  ∃ pieces, List.Forall₂ CharBytes text.toList pieces ∧ bytes.data.toList = pieces.flatten

variable {c : Char} {piece : List UInt8}

theorem toNat_lt (c : Char) : c.toNat < 0x110000 := by
  have hvalid := c.valid
  simp only [UInt32.isValidChar, Nat.isValidChar] at hvalid
  change c.val.toNat < 0x110000
  omega

theorem eq_ofNat_of_toNat_eq {byte : UInt8} {n : Nat} (h : byte.toNat = n) :
    byte = UInt8.ofNat n := by
  rw [← h, UInt8.ofNat_toNat]

theorem CharBytes.eq_utf8EncodeChar (hpiece : CharBytes c piece) :
    piece = String.utf8EncodeChar c := by
  have hval : c.val.toNat = c.toNat := rfl
  unfold String.utf8EncodeChar
  cases hpiece with
  | one h₁ hsize =>
      rw [if_pos (by omega), List.cons.injEq]
      exact ⟨eq_ofNat_of_toNat_eq h₁, rfl⟩
  | two h₁ hbits h₂ hcode hsize =>
      obtain ⟨h₂, hbits₂⟩ := h₂
      rw [if_neg (by omega), if_pos (by omega)]
      simp only [List.cons.injEq, and_true]
      refine ⟨eq_ofNat_of_toNat_eq ?_, eq_ofNat_of_toNat_eq ?_⟩ <;> omega
  | three h₁ hbits h₂ h₃ hcode hsize =>
      obtain ⟨h₂, hbits₂⟩ := h₂
      obtain ⟨h₃, hbits₃⟩ := h₃
      rw [if_neg (by omega), if_neg (by omega), if_pos (by omega)]
      simp only [List.cons.injEq, and_true]
      refine ⟨eq_ofNat_of_toNat_eq ?_, eq_ofNat_of_toNat_eq ?_, eq_ofNat_of_toNat_eq ?_⟩ <;> omega
  | four h₁ hbits h₂ h₃ h₄ hcode hsize =>
      obtain ⟨h₂, hbits₂⟩ := h₂
      obtain ⟨h₃, hbits₃⟩ := h₃
      obtain ⟨h₄, hbits₄⟩ := h₄
      rw [if_neg (by omega), if_neg (by omega), if_neg (by omega)]
      simp only [List.cons.injEq, and_true]
      refine ⟨eq_ofNat_of_toNat_eq ?_, eq_ofNat_of_toNat_eq ?_, eq_ofNat_of_toNat_eq ?_,
        eq_ofNat_of_toNat_eq ?_⟩ <;> omega

theorem toNat_ofNat_add {bits mark : Nat} (hlt : bits + mark < 0x100) :
    (UInt8.ofNat (bits + mark)).toNat = mark + bits := by
  rw [UInt8.toNat_ofNat']
  omega

theorem continues_ofNat (n : Nat) : Continues (UInt8.ofNat (n % 0x40 + 0x80)) (n % 0x40) where
  toNat_eq := toNat_ofNat_add (by omega)
  bits_lt := by omega

theorem charBytes_utf8EncodeChar (c : Char) : CharBytes c (String.utf8EncodeChar c) := by
  have hlt := toNat_lt c
  have hval : c.val.toNat = c.toNat := rfl
  simp only [String.utf8EncodeChar, hval]
  split
  · refine .one ?_ (by omega)
    rw [UInt8.toNat_ofNat']
    omega
  split
  · exact .two (toNat_ofNat_add (by omega)) (by omega) (continues_ofNat _) (by omega) (by omega)
  split
  · exact .three (toNat_ofNat_add (by omega)) (by omega) (continues_ofNat _) (continues_ofNat _)
      (by omega) (by omega)
  · exact .four (toNat_ofNat_add (by omega)) (by omega) (continues_ofNat _) (continues_ofNat _)
      (continues_ofNat _) (by omega) (by omega)

theorem charBytes_iff : CharBytes c piece ↔ String.utf8EncodeChar c = piece := by
  constructor
  · exact fun hpiece => hpiece.eq_utf8EncodeChar.symm
  · rintro rfl
    exact charBytes_utf8EncodeChar c

theorem forall₂_charBytes_iff {chars : List Char} {pieces : List (List UInt8)} :
    List.Forall₂ CharBytes chars pieces ↔ chars.map String.utf8EncodeChar = pieces := by
  have hrelation : CharBytes = fun c piece => String.utf8EncodeChar c = piece := by
    funext c piece
    exact propext charBytes_iff
  rw [hrelation, ← List.forall₂_map_left_iff, List.forall₂_eq_eq_eq]

theorem eq_toUTF8_iff_isEncoding {text : String} {bytes : ByteArray} :
    bytes = text.toUTF8 ↔ IsEncoding text bytes := by
  simp only [IsEncoding, forall₂_charBytes_iff, exists_eq_left', ← List.flatMap_def,
    ← toList_toUTF8]
  constructor
  · rintro rfl
    rfl
  · intro hbytes
    exact ByteArray.ext (Array.toList_inj.mp hbytes)

end Hush.Text
