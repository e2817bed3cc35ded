import Hush.Diff.Agreement

/-!
# Fronts

The front of depth `d` holds, for each of `d + 1` diagonals, the furthest point that `d` insertions
and deletions reach in a box of `n` old lines and `m` new ones. Points beyond the box are kept as
well, although nothing is common there. What holds of them all the same is that no diagonal gets
beyond a side of the box before its neighbour has come to that side.
-/

namespace Hush.Diff

/-- The highest index below the limit that passes the test. -/
@[specialize] def findLast? (test : Nat → Bool) : (limit : Nat) → Option Nat
  | 0 => none
  | limit + 1 => if test limit then some limit else findLast? test limit

theorem findLast?_eq_some {test : Nat → Bool} {limit index : Nat}
    (hfound : findLast? test limit = some index) : index < limit ∧ test index = true := by
  induction limit with
  | zero => cases hfound
  | succ limit ih =>
    unfold findLast? at hfound
    split at hfound <;> rename_i htest
    · obtain rfl := Option.some.inj hfound
      exact ⟨Nat.lt_succ_self _, htest⟩
    · exact ⟨Nat.lt_succ_of_lt (ih hfound).1, (ih hfound).2⟩

theorem findLast?_eq_none {test : Nat → Bool} {limit index : Nat}
    (hnone : findLast? test limit = none) (hindex : index < limit) : test index = false := by
  induction limit with
  | zero => exact absurd hindex (Nat.not_lt_zero index)
  | succ limit ih =>
    unfold findLast? at hnone
    split at hnone <;> rename_i htest
    · cases hnone
    · rcases Nat.lt_succ_iff_lt_or_eq.mp hindex with hlt | rfl
      · exact ih hnone hlt
      · exact Bool.eq_false_iff.mpr htest

/-- Entry `j` of a front with `d + 1` entries is the first coordinate of a point `(x, y)` with
`x + d = y + 2 * j`. -/
abbrev Front := Array Nat

namespace Front

/-- The front of depth zero of a box whose ends disagree. -/
def origin : Front := #[0]

def depth (front : Front) : Nat := front.size - 1

def x (front : Front) (j : Nat) : Nat := front.getD j 0

def y (front : Front) (j : Nat) : Nat := front.x j + front.depth - 2 * j

/-- Where diagonal `j` of the next front starts. It is reached by an insertion from the right
neighbour or by a deletion from the left one, whichever comes further. -/
@[inline] def entry (front : Front) (j : Nat) : Nat :=
  if j = 0 ∨ (j ≠ front.size ∧ front.x (j - 1) < front.x j) then front.x j
  else front.x (j - 1) + 1

/-- The second coordinate of the point where diagonal `j` of the next front starts. -/
def entryOther (front : Front) (j : Nat) : Nat := front.entry j + front.size - 2 * j

/-- The next front; `run x y` is the length of the common run at a point. -/
@[specialize] def next (run : Nat → Nat → Nat) (front : Front) : Front :=
  Array.ofFn fun j : Fin (front.size + 1) =>
    let x := front.entry j
    x + run x (x + front.size - 2 * j)

@[simp] theorem depth_origin : origin.depth = 0 := rfl

@[simp] theorem size_next (run : Nat → Nat → Nat) (front : Front) :
    (front.next run).size = front.size + 1 := Array.size_ofFn

@[simp] theorem depth_next (run : Nat → Nat → Nat) (front : Front) :
    (front.next run).depth = front.size := by rw [depth, size_next, Nat.add_sub_cancel]

variable {front : Front} {run : Nat → Nat → Nat} {n m j : Nat}

theorem x_next (hj : j ≤ front.size) :
    (front.next run).x j = front.entry j + run (front.entry j) (front.entryOther j) := by
  have hlt : j < (front.next run).size := by
    rw [size_next]
    omega
  rw [x, Array.getD, dif_pos hlt]
  exact Array.getElem_ofFn hlt

theorem y_next (hj : j ≤ front.size) (hle : 2 * j ≤ front.entry j + front.size) :
    (front.next run).y j = front.entryOther j + run (front.entry j) (front.entryOther j) := by
  rw [y, depth_next, x_next hj, entryOther]
  omega

theorem entry_cases (hpos : 0 < front.size) (hj : j ≤ front.size) :
    (j ≤ front.depth ∧ front.entry j = front.x j) ∨
      ∃ left, j = left + 1 ∧ left ≤ front.depth ∧ front.entry j = front.x left + 1 := by
  unfold entry depth
  split
  · left
    omega
  · right
    exact ⟨j - 1, by omega, by omega, rfl⟩

theorem x_le_entry (hpos : 0 < front.size) (hj : j ≤ front.depth) :
    front.x j ≤ front.entry j := by
  unfold depth at hj
  unfold entry
  split <;> omega

theorem x_lt_entry_succ (front : Front) (j : Nat) : front.x j < front.entry (j + 1) := by
  unfold entry
  rw [Nat.add_sub_cancel]
  split <;> omega

/-- The lengths of common runs in a box: no run leaves the box, and none ends in its far corner. -/
structure Runs (n m : Nat) (run : Nat → Nat → Nat) : Prop where
  le_old : ∀ x y, run x y ≤ n - x
  le_new : ∀ x y, run x y ≤ m - y
  stops : ∀ x y, x + run x y = n → y + run x y = m → run x y = 0

/-- What all fronts of a box have in common. Diagonal `j` takes `j` deletions at least, and one that
gets beyond a side of the box has a neighbour that has come to that side. -/
structure Spreads (n m : Nat) (front : Front) : Prop where
  pos : 0 < front.size
  le_x : ∀ {j}, j ≤ front.depth → j ≤ front.x j
  beyond_old : ∀ {j}, j ≤ front.depth → n < front.x j → ∃ left, j = left + 1 ∧ n ≤ front.x left
  beyond_new : ∀ {j}, j ≤ front.depth → m < front.y j →
    j + 1 ≤ front.depth ∧ m ≤ front.y (j + 1)

theorem spreads_origin : origin.Spreads n m where
  pos := Nat.one_pos
  le_x hj := Nat.le_trans hj (Nat.zero_le _)
  beyond_old {j} hj hbeyond := by
    rw [depth_origin, Nat.le_zero] at hj
    subst hj
    exact absurd hbeyond (Nat.not_lt_zero n)
  beyond_new {j} hj hbeyond := by
    rw [depth_origin, Nat.le_zero] at hj
    subst hj
    exact absurd hbeyond (Nat.not_lt_zero m)

namespace Spreads

theorem size_eq (hfront : front.Spreads n m) : front.size = front.depth + 1 :=
  (Nat.sub_add_cancel hfront.pos).symm

theorem y_add (hfront : front.Spreads n m) (hj : j ≤ front.depth) :
    front.y j + 2 * j = front.x j + front.depth := by
  have := hfront.le_x hj
  rw [y]
  omega

theorem le_entry (hfront : front.Spreads n m) (hj : j ≤ front.size) : j ≤ front.entry j := by
  rcases entry_cases hfront.pos hj with ⟨hj, heq⟩ | ⟨left, rfl, hleft, heq⟩
  · rw [heq]
    exact hfront.le_x hj
  · rw [heq]
    exact Nat.succ_le_succ (hfront.le_x hleft)

theorem entryOther_add (hfront : front.Spreads n m) (hj : j ≤ front.size) :
    front.entryOther j + 2 * j = front.entry j + front.size := by
  have := hfront.le_entry hj
  rw [entryOther]
  omega

/-- A diagonal that starts beyond the old lines has a left neighbour that came to their end. -/
theorem le_of_lt_entry (hfront : front.Spreads n m) (hj : j ≤ front.size)
    (hbeyond : n < front.entry j) :
    ∃ left, j = left + 1 ∧ left ≤ front.depth ∧ n ≤ front.x left := by
  rcases entry_cases hfront.pos hj with ⟨hj, heq⟩ | ⟨left, rfl, hleft, heq⟩
  · rw [heq] at hbeyond
    obtain ⟨left, rfl, hle⟩ := hfront.beyond_old hj hbeyond
    exact ⟨left, rfl, Nat.le_of_succ_le hj, hle⟩
  · exact ⟨left, rfl, hleft, by omega⟩

/-- A diagonal that starts beyond the new lines has a right neighbour that came to their end. -/
theorem le_of_lt_entryOther (hfront : front.Spreads n m) (hj : j ≤ front.size)
    (hbeyond : m < front.entryOther j) : j ≤ front.depth ∧ m ≤ front.y j := by
  have hother := hfront.entryOther_add hj
  have hsize := hfront.size_eq
  rcases entry_cases hfront.pos hj with ⟨hj, heq⟩ | ⟨left, rfl, hleft, heq⟩
  · have hy := hfront.y_add hj
    exact ⟨hj, by omega⟩
  · have hy := hfront.y_add hleft
    exact hfront.beyond_new hleft (by omega)

theorem next (hfront : front.Spreads n m) (hrun : Runs n m run) :
    (front.next run).Spreads n m where
  pos := by
    rw [size_next]
    exact Nat.succ_pos _
  le_x {j} hj := by
    rw [depth_next] at hj
    rw [x_next hj]
    exact Nat.le_add_right_of_le (hfront.le_entry hj)
  beyond_old {j} hj hbeyond := by
    rw [depth_next] at hj
    rw [x_next hj] at hbeyond
    have hinside := hrun.le_old (front.entry j) (front.entryOther j)
    obtain ⟨left, rfl, hleft, hle⟩ := hfront.le_of_lt_entry hj (by omega)
    have hentry := x_le_entry hfront.pos hleft
    refine ⟨left, rfl, ?_⟩
    rw [x_next (by omega)]
    omega
  beyond_new {j} hj hbeyond := by
    rw [depth_next] at hj ⊢
    have hother := hfront.entryOther_add hj
    rw [y_next hj (by omega)] at hbeyond
    have hinside := hrun.le_new (front.entry j) (front.entryOther j)
    obtain ⟨hle, hy⟩ := hfront.le_of_lt_entryOther hj (by omega)
    have hsize := hfront.size_eq
    have hright : j + 1 ≤ front.size := by omega
    have hentry := x_lt_entry_succ front j
    have hnext := hfront.entryOther_add hright
    have hold := hfront.y_add hle
    refine ⟨hright, ?_⟩
    rw [y_next hright (by omega)]
    omega

end Spreads

end Front

end Hush.Diff
