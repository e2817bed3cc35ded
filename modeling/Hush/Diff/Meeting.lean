import Hush.Diff.Front

/-!
# Where two fronts meet

One front advances from the start of a box and one from its end, in turn. The first point where
they overlap lies in the box and is neither of its corners, although the fronts may be beyond the
box elsewhere: a front that comes to a side of the box on a diagonal that the other one covers has
met it there. For the same reason the fronts meet before they have taken more steps than the box
has lines.
-/

namespace Hush.Diff

namespace Front

/-- The highest diagonal on which a front meets the one from the opposite corner of an `n` by `m`
box. -/
def meeting? (n m : Nat) (front opposite : Front) : Option Nat :=
  let total := n + front.depth + opposite.depth
  let sum := (total - m) / 2
  if m ≤ total ∧ (total - m) % 2 = 0 then
    findLast? (fun j =>
      j ≤ sum && sum - j < opposite.size && n ≤ front.x j + opposite.x (sum - j))
      front.size
  else none

/-- The diagonals `j` of a front and `i` of the opposite one are the same line through the box. -/
def Faces (n m depth opposite j i : Nat) : Prop := 2 * (i + j) + m = n + depth + opposite

/-- No diagonal of the front has come as far as to meet a front of the given depth from the opposite
corner, even if that one has found nothing common. -/
def Short (n m : Nat) (front : Front) (opposite : Nat) : Prop :=
  ∀ j i, j ≤ front.depth → i ≤ opposite → Faces n m front.depth opposite j i → front.x j + i < n

/-- A point of the box that is neither of its corners. -/
structure Inside (n m x y : Nat) : Prop where
  le_old : x ≤ n
  le_new : y ≤ m
  pos : 0 < x + y
  lt : x + y < n + m

variable {front opposite : Front} {run : Nat → Nat → Nat} {n m e i j x y : Nat}

/-- The same point as seen from the opposite corner. -/
theorem Inside.flip (hinside : Inside n m x y) : Inside n m (n - x) (m - y) := by
  obtain ⟨hold, hnew, hpos, hlt⟩ := hinside
  exact ⟨by omega, by omega, by omega, by omega⟩

theorem exists_faces_of_meeting? (hmeeting : front.meeting? n m opposite = some j) :
    j ≤ front.depth ∧ ∃ i ≤ opposite.depth, Faces n m front.depth opposite.depth j i := by
  unfold meeting? at hmeeting
  dsimp only at hmeeting
  split at hmeeting <;> rename_i htotal
  · obtain ⟨hj, htest⟩ := findLast?_eq_some hmeeting
    simp only [Bool.and_eq_true, decide_eq_true_eq] at htest
    obtain ⟨⟨hsum, hsize⟩, -⟩ := htest
    refine ⟨Nat.le_sub_one_of_lt hj, (n + front.depth + opposite.depth - m) / 2 - j,
      Nat.le_sub_one_of_lt hsize, ?_⟩
    unfold Faces
    omega
  · cases hmeeting

theorem short_of_meeting? (hfront : 0 < front.size) (hopposite : opposite.Spreads n m)
    (hmeeting : front.meeting? n m opposite = none) : Short n m front opposite.depth := by
  intro j i hj hi hfaces
  have hsize := hopposite.size_eq
  have hle := hopposite.le_x hi
  unfold Faces at hfaces
  unfold meeting? at hmeeting
  dsimp only at hmeeting
  rw [if_pos (by omega)] at hmeeting
  have htest := findLast?_eq_none hmeeting (Nat.lt_of_le_of_lt hj (Nat.sub_one_lt_of_lt hfront))
  have hsum : (n + front.depth + opposite.depth - m) / 2 - j = i := by omega
  simp only [hsum, Bool.and_eq_false_iff, decide_eq_false_iff_not] at htest
  omega

theorem short_origin (hn : 0 < n) : Short n m origin 0 := by
  intro j i hj hi _
  rw [depth_origin, Nat.le_zero] at hj
  rw [Nat.le_zero.mp hi, hj]
  exact hn

namespace Spreads

/-- A diagonal of the next front that a front of the opposite corner covers starts in the box.
Beyond a side of the box it would have a neighbour that has come to that side, and has met the
opposite front there, unless the diagonal is the last one that this front covers. Then it is beyond
the other side of the box as well, and the same holds of its other neighbour. -/
theorem entry_le (hfront : front.Spreads n m) (hshort : Short n m front e) (hj : j ≤ front.size)
    (hi : i ≤ e + 1) (hfaces : Faces n m front.size (e + 1) j i) :
    front.entry j ≤ n ∧ front.entryOther j ≤ m := by
  have hother := hfront.entryOther_add hj
  have hsize := hfront.size_eq
  unfold Faces at hfaces
  -- A left neighbour at the end of the old lines is out of reach of the opposite front.
  have hleft : n < front.entry j → i = e + 1 := by
    intro hbeyond
    obtain ⟨left, rfl, hleft, hle⟩ := hfront.le_of_lt_entry hj hbeyond
    have hout : ¬i ≤ e := fun hin => by
      have := hshort left i hleft hin (by unfold Faces; omega)
      omega
    omega
  -- And so is a right neighbour at the end of the new ones, at the other edge of that front.
  have hright : m < front.entryOther j → i = 0 := by
    intro hbeyond
    obtain ⟨hle, hy⟩ := hfront.le_of_lt_entryOther hj hbeyond
    have hadd := hfront.y_add hle
    cases i with
    | zero => rfl
    | succ i =>
      have := hshort j i hle (Nat.le_of_succ_le_succ hi) (by unfold Faces; omega)
      omega
  omega

theorem entry_inside (hfront : front.Spreads n m) (hshort : Short n m front e)
    (hj : j ≤ front.size) (hi : i ≤ e + 1) (hfaces : Faces n m front.size (e + 1) j i) :
    Inside n m (front.entry j) (front.entryOther j) := by
  obtain ⟨hold, hnew⟩ := hfront.entry_le hshort hj hi hfaces
  have hother := hfront.entryOther_add hj
  have hentry := hfront.le_entry hj
  have hpos := hfront.pos
  have hsize := hfront.size_eq
  unfold Faces at hfaces
  -- In the far corner the opposite front would stand half its depth away from either side.
  have hcorner : front.entry j + front.entryOther j = n + m → 2 * i = e + 1 := by omega
  refine ⟨hold, hnew, by omega, Nat.lt_of_le_of_ne (Nat.add_le_add hold hnew) fun hends => ?_⟩
  have hhalf := hcorner hends
  rcases entry_cases hpos hj with ⟨hle, heq⟩ | ⟨left, rfl, hleft, heq⟩
  · have := hshort j (i - 1) hle (by omega) (by unfold Faces; omega)
    omega
  · have := hshort left i hleft (by omega) (by unfold Faces; omega)
    omega

theorem next_inside (hfront : front.Spreads n m) (hrun : Runs n m run) (hshort : Short n m front e)
    (hj : j ≤ front.size) (hi : i ≤ e + 1) (hfaces : Faces n m front.size (e + 1) j i) :
    Inside n m ((front.next run).x j) ((front.next run).y j) := by
  obtain ⟨hold, hnew, hpos, hlt⟩ := hfront.entry_inside hshort hj hi hfaces
  have hentry := hfront.le_entry hj
  have hleOld := hrun.le_old (front.entry j) (front.entryOther j)
  have hleNew := hrun.le_new (front.entry j) (front.entryOther j)
  have hstops := hrun.stops (front.entry j) (front.entryOther j)
  rw [x_next hj, y_next hj (by omega)]
  exact ⟨by omega, by omega, by omega, by omega⟩

/-- A front that falls short has not taken as many steps, with those of the opposite front, as the
box has lines. -/
theorem depth_add_lt (hfront : front.Spreads n m) (hshort : Short n m front e)
    (hold : n ≤ m + front.depth + e) (hnew : m ≤ n + front.depth + e)
    (heven : (n + m + front.depth + e) % 2 = 0) : front.depth + e < n + m := by
  -- Some diagonal of the front faces one of the opposite front.
  obtain ⟨j, i, hj, hi, hfaces⟩ : ∃ j i, j ≤ front.depth ∧ i ≤ e ∧
      2 * (i + j) + m = n + front.depth + e := by
    by_cases hsum : (n + front.depth + e - m) / 2 ≤ front.depth
    · exact ⟨(n + front.depth + e - m) / 2, 0, hsum, Nat.zero_le _, by omega⟩
    · exact ⟨front.depth, (n + front.depth + e - m) / 2 - front.depth, Nat.le_refl _, by omega,
        by omega⟩
  have := hfront.le_x hj
  have := hshort j i hj hi hfaces
  omega

end Spreads

theorem entry_origin_inside (hn : 0 < n) (hm : 0 < m) (hj : j ≤ origin.size) :
    Inside n m (origin.entry j) (origin.entryOther j) := by
  have hone : origin.entry j + origin.entryOther j = 1 := by
    obtain rfl | rfl : j = 0 ∨ j = 1 := Nat.le_one_iff_eq_zero_or_eq_one.mp hj
    · rfl
    · rfl
  exact ⟨by omega, by omega, by omega, by omega⟩

end Front

end Hush.Diff
