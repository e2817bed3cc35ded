/-!
# Agreement of two sequences

How far two arrays agree along a diagonal, counted forwards or backwards from a pair of positions.
-/

namespace Hush.Diff

/-- The number of successive indices from zero on that pass the test, `limit` at most. -/
@[inline] def countWhile (test : Nat → Bool) (limit : Nat) : Nat := go limit 0
where
  @[specialize] go : Nat → Nat → Nat
    | 0, count => count
    | left + 1, count => if test count then go left (count + 1) else count

theorem countWhile_go_bounds (test : Nat → Bool) (left count : Nat) :
    count ≤ countWhile.go test left count ∧ countWhile.go test left count ≤ count + left := by
  induction left generalizing count with
  | zero => simp [countWhile.go]
  | succ left ih =>
    unfold countWhile.go
    split
    · have := ih (count + 1)
      omega
    · omega

theorem countWhile_le (test : Nat → Bool) (limit : Nat) : countWhile test limit ≤ limit := by
  have := (countWhile_go_bounds test limit 0).2
  unfold countWhile
  omega

theorem countWhile_go_of_lt (test : Nat → Bool) (left count : Nat) {k : Nat} (hk : count ≤ k)
    (hlt : k < countWhile.go test left count) : test k = true := by
  induction left generalizing count with
  | zero =>
    rw [countWhile.go] at hlt
    omega
  | succ left ih =>
    rw [countWhile.go] at hlt
    split at hlt <;> rename_i htest
    · by_cases heq : k = count
      · rwa [heq]
      · exact ih (count + 1) (by omega) hlt
    · omega

theorem countWhile_of_lt {test : Nat → Bool} {limit k : Nat} (hlt : k < countWhile test limit) :
    test k = true := countWhile_go_of_lt test limit 0 (Nat.zero_le _) hlt

theorem countWhile_go_stop (test : Nat → Bool) (left count : Nat)
    (hlt : countWhile.go test left count < count + left) :
    test (countWhile.go test left count) = false := by
  induction left generalizing count with
  | zero =>
    rw [countWhile.go] at hlt
    omega
  | succ left ih =>
    unfold countWhile.go at hlt ⊢
    split at hlt <;> rename_i htest
    · rw [if_pos htest]
      exact ih (count + 1) (by omega)
    · rw [if_neg htest]
      exact Bool.eq_false_iff.mpr htest

/-- Counting stops at the limit or at an index that fails the test. -/
theorem countWhile_stop {test : Nat → Bool} {limit : Nat} (hlt : countWhile test limit < limit) :
    test (countWhile test limit) = false :=
  countWhile_go_stop test limit 0 (by rwa [Nat.zero_add])

variable {α : Type} [BEq α]

@[inline] def agree (old new : Array α) (i j : Nat) : Bool :=
  if h : i < old.size ∧ j < new.size then old[i] == new[j] else false

/-- The length of the common run that starts at `i` and `j`. -/
@[inline] def runFrom (old new : Array α) (i j limit : Nat) : Nat :=
  countWhile (fun k => agree old new (i + k) (j + k)) limit

/-- The length of the common run that ends just before `i` and `j`. -/
@[inline] def runBefore (old new : Array α) (i j limit : Nat) : Nat :=
  countWhile (fun k => agree old new (i - 1 - k) (j - 1 - k)) (min limit (min i j))

variable {old new : Array α} {i j k limit : Nat}

theorem agree_of_lt_runFrom (hlt : k < runFrom old new i j limit) :
    agree old new (i + k) (j + k) = true := by
  rw [runFrom] at hlt
  have hagree := countWhile_of_lt hlt
  exact hagree

theorem disagree_after_runFrom (hlt : runFrom old new i j limit < limit) :
    agree old new (i + runFrom old new i j limit) (j + runFrom old new i j limit) = false := by
  unfold runFrom at hlt ⊢
  exact countWhile_stop hlt

theorem agree_of_lt_runBefore (hlt : k < runBefore old new i j limit) :
    agree old new (i - 1 - k) (j - 1 - k) = true := by
  rw [runBefore] at hlt
  have hagree := countWhile_of_lt hlt
  exact hagree

theorem disagree_before_runBefore (hlt : runBefore old new i j limit < min limit (min i j)) :
    agree old new (i - 1 - runBefore old new i j limit) (j - 1 - runBefore old new i j limit) =
      false := by
  unfold runBefore at hlt ⊢
  exact countWhile_stop hlt

theorem runFrom_le : runFrom old new i j limit ≤ limit := countWhile_le _ _

theorem runBefore_le :
    runBefore old new i j limit ≤ limit ∧ runBefore old new i j limit ≤ i ∧
      runBefore old new i j limit ≤ j := by
  have hle : runBefore old new i j limit ≤ min limit (min i j) := countWhile_le _ _
  omega

end Hush.Diff
