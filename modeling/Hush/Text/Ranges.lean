/-!
# Ranges of characters

Large classes of characters are given as tables of inclusive ranges of code points.
-/

namespace Hush.Text

/-- Whether a character lies in one of some inclusive ranges of code points. -/
def inRanges (ranges : List (Nat × Nat)) (c : Char) : Bool :=
  ranges.any fun range => range.1 ≤ c.toNat && c.toNat ≤ range.2

/-- The letters and digits that core knows. -/
def asciiRanges : List (Nat × Nat) := [(0x30, 0x39), (0x41, 0x5a), (0x61, 0x7a)]

theorem inRanges_asciiRanges {c : Char} (h : c.isAlphanum = true) :
    inRanges asciiRanges c = true := by
  delta Char.isAlphanum Char.isAlpha Char.isUpper Char.isLower Char.isDigit at h
  simp [UInt32.le_iff_toNat_le] at h
  simp only [inRanges, asciiRanges, List.any_cons, List.any_nil, Bool.or_false, Bool.or_eq_true,
    Bool.and_eq_true, decide_eq_true_eq]
  change ((65 ≤ c.toNat ∧ c.toNat ≤ 90) ∨ (97 ≤ c.toNat ∧ c.toNat ≤ 122)) ∨
    (48 ≤ c.toNat ∧ c.toNat ≤ 57) at h
  omega

/-- A table that lists core's letters and digits as they are holds them all. -/
theorem inRanges_of_isAlphanum {ranges : List (Nat × Nat)} {c : Char}
    (hranges : ∀ range ∈ asciiRanges, range ∈ ranges) (h : c.isAlphanum = true) :
    inRanges ranges c = true := by
  obtain ⟨range, hmem, hrange⟩ := List.any_eq_true.1 (inRanges_asciiRanges h)
  exact List.any_eq_true.2 ⟨range, hranges range hmem, hrange⟩

end Hush.Text
