import Hush.Diff.Meeting

/-!
# Boxes

Two stretches of lines that are to be compared. The common runs at both ends of a box are cut off.
What is left has ends that differ, and if it has lines on both sides it is split in two where the
fronts from its corners meet. They always do, at a point inside.
-/

namespace Hush.Diff

/-- A box of lines: `n` old ones from `i` on and `m` new ones from `j` on. -/
structure Box where
  i : Nat
  n : Nat
  j : Nat
  m : Nat

namespace Box

variable {α : Type} [BEq α]

def size (box : Box) : Nat := box.n + box.m

@[inline] def forwardRun (old new : Array α) (box : Box) (x y : Nat) : Nat :=
  runFrom old new (box.i + x) (box.j + y) (min (box.n - x) (box.m - y))

@[inline] def backwardRun (old new : Array α) (box : Box) (x y : Nat) : Nat :=
  runBefore old new (box.i + box.n - x) (box.j + box.m - y) (min (box.n - x) (box.m - y))

def dropPrefix (old new : Array α) (box : Box) : Box :=
  let size := box.forwardRun old new 0 0
  ⟨box.i + size, box.n - size, box.j + size, box.m - size⟩

def dropSuffix (old new : Array α) (box : Box) : Box :=
  let size := box.backwardRun old new 0 0
  ⟨box.i, box.n - size, box.j, box.m - size⟩

def core (old new : Array α) (box : Box) : Box := (box.dropPrefix old new).dropSuffix old new

theorem size_core_le (old new : Array α) (box : Box) : (box.core old new).size ≤ box.size := by
  simp only [core, dropSuffix, dropPrefix, size]
  omega

variable {old new : Array α} {box : Box}

/-- A box with lines on both sides, of which neither the first two agree nor the last two. -/
structure EndsDiffer (old new : Array α) (box : Box) : Prop where
  n_pos : 0 < box.n
  m_pos : 0 < box.m
  first : agree old new box.i box.j = false
  last : agree old new (box.i + box.n - 1) (box.j + box.m - 1) = false

theorem first_dropPrefix (hn : (box.dropPrefix old new).n ≠ 0)
    (hm : (box.dropPrefix old new).m ≠ 0) :
    agree old new (box.dropPrefix old new).i (box.dropPrefix old new).j = false := by
  simp only [dropPrefix, forwardRun, Nat.add_zero] at hn hm ⊢
  exact disagree_after_runFrom (by omega)

theorem last_dropSuffix (hn : (box.dropSuffix old new).n ≠ 0)
    (hm : (box.dropSuffix old new).m ≠ 0) :
    agree old new ((box.dropSuffix old new).i + (box.dropSuffix old new).n - 1)
      ((box.dropSuffix old new).j + (box.dropSuffix old new).m - 1) = false := by
  simp only [dropSuffix] at hn hm ⊢
  have hold : box.i + (box.n - box.backwardRun old new 0 0) - 1 =
      box.i + box.n - 0 - 1 - box.backwardRun old new 0 0 := by omega
  have hnew : box.j + (box.m - box.backwardRun old new 0 0) - 1 =
      box.j + box.m - 0 - 1 - box.backwardRun old new 0 0 := by omega
  rw [hold, hnew]
  unfold backwardRun at hn hm ⊢
  exact disagree_before_runBefore (by omega)

theorem endsDiffer_core (hn : (box.core old new).n ≠ 0) (hm : (box.core old new).m ≠ 0) :
    (box.core old new).EndsDiffer old new := by
  unfold core at hn hm ⊢
  refine ⟨Nat.pos_of_ne_zero hn, Nat.pos_of_ne_zero hm, ?_, last_dropSuffix hn hm⟩
  -- Where both sides have lines left, the cut at the end did not come to the first ones.
  have hrest : (box.dropPrefix old new).n ≠ 0 ∧ (box.dropPrefix old new).m ≠ 0 := by
    simp only [dropSuffix] at hn hm
    omega
  exact first_dropPrefix hrest.1 hrest.2

theorem EndsDiffer.runs_forwardRun (hends : box.EndsDiffer old new) :
    Front.Runs box.n box.m (box.forwardRun old new) where
  le_old x y := Nat.le_trans runFrom_le (Nat.min_le_left _ _)
  le_new x y := Nat.le_trans runFrom_le (Nat.min_le_right _ _)
  stops x y hold hnew := by
    -- The last lines of the run would be the last two of the box.
    refine Nat.eq_zero_of_not_pos fun hpos => ?_
    have hagree := agree_of_lt_runFrom (Nat.sub_one_lt_of_lt hpos)
    have hlastOld : box.i + x + (box.forwardRun old new x y - 1) = box.i + box.n - 1 := by omega
    have hlastNew : box.j + y + (box.forwardRun old new x y - 1) = box.j + box.m - 1 := by omega
    rw [← forwardRun, hlastOld, hlastNew, hends.last] at hagree
    cases hagree

theorem EndsDiffer.runs_backwardRun (hends : box.EndsDiffer old new) :
    Front.Runs box.n box.m (box.backwardRun old new) where
  le_old x y := Nat.le_trans runBefore_le.1 (Nat.min_le_left _ _)
  le_new x y := Nat.le_trans runBefore_le.1 (Nat.min_le_right _ _)
  stops x y hold hnew := by
    -- The last lines that the run comes to would be the first two of the box.
    refine Nat.eq_zero_of_not_pos fun hpos => ?_
    have hagree := agree_of_lt_runBefore (Nat.sub_one_lt_of_lt hpos)
    have hfirstOld : box.i + box.n - x - 1 - (box.backwardRun old new x y - 1) = box.i := by omega
    have hfirstNew : box.j + box.m - y - 1 - (box.backwardRun old new x y - 1) = box.j := by omega
    rw [← backwardRun, hfirstOld, hfirstNew, hends.first] at hagree
    cases hagree

/-- Advances both fronts in turn until they meet. The point lies before the common run of the front
that met the other one. -/
def middle? (old new : Array α) (box : Box) : (rounds : Nat) → (forward backward : Front) →
    Option (Nat × Nat)
  | 0, _, _ => none
  | rounds + 1, forward, backward =>
    let forward' := forward.next (box.forwardRun old new)
    match forward'.meeting? box.n box.m backward with
    | some j => some (forward.entry j, forward.entryOther j)
    | none =>
      let backward' := backward.next (box.backwardRun old new)
      match backward'.meeting? box.n box.m forward' with
      | some j => some (box.n - backward'.x j, box.m - backward'.y j)
      | none => middle? old new box rounds forward' backward'

/-- Two fronts of one depth that have not met so far. -/
structure Apart (n m depth : Nat) (forward backward : Front) : Prop where
  forward_spreads : forward.Spreads n m
  backward_spreads : backward.Spreads n m
  forward_depth : forward.depth = depth
  backward_depth : backward.depth = depth
  forward_origin : depth = 0 → forward = .origin
  forward_short : ∀ {e}, depth = e + 1 → Front.Short n m forward e
  backward_short : Front.Short n m backward depth

theorem apart_origin {n m : Nat} (hn : 0 < n) : Apart n m 0 .origin .origin where
  forward_spreads := Front.spreads_origin
  backward_spreads := Front.spreads_origin
  forward_depth := rfl
  backward_depth := rfl
  forward_origin _ := rfl
  forward_short hzero := nomatch hzero
  backward_short := Front.short_origin hn

namespace Apart

variable {n m depth j : Nat} {forward backward : Front} {run runBack : Nat → Nat → Nat}

/-- Where the forward front comes to meet the backward one, which has taken one step less. -/
theorem forward_inside (hapart : Apart n m depth forward backward) (hn : 0 < n) (hm : 0 < m)
    (hmeeting : (forward.next run).meeting? n m backward = some j) :
    Front.Inside n m (forward.entry j) (forward.entryOther j) := by
  obtain ⟨hj, i, hi, hfaces⟩ := Front.exists_faces_of_meeting? hmeeting
  rw [Front.depth_next] at hj hfaces
  rw [hapart.backward_depth] at hi hfaces
  cases depth with
  | zero =>
    obtain rfl := hapart.forward_origin rfl
    exact Front.entry_origin_inside hn hm hj
  | succ e => exact hapart.forward_spreads.entry_inside (hapart.forward_short rfl) hj hi hfaces

/-- Where the backward front comes to meet the forward one of the same depth. -/
theorem backward_inside (hapart : Apart n m depth forward backward)
    (hrun : Front.Runs n m runBack)
    (hmeeting : (backward.next runBack).meeting? n m (forward.next run) = some j) :
    Front.Inside n m ((backward.next runBack).x j) ((backward.next runBack).y j) := by
  obtain ⟨hj, i, hi, hfaces⟩ := Front.exists_faces_of_meeting? hmeeting
  rw [Front.depth_next] at hj
  rw [Front.depth_next, Front.depth_next, hapart.forward_spreads.size_eq, hapart.forward_depth]
    at hfaces
  rw [Front.depth_next, hapart.forward_spreads.size_eq, hapart.forward_depth] at hi
  exact hapart.backward_spreads.next_inside hrun hapart.backward_short hj hi hfaces

theorem next (hapart : Apart n m depth forward backward) (hrun : Front.Runs n m run)
    (hrunBack : Front.Runs n m runBack)
    (hforward : (forward.next run).meeting? n m backward = none)
    (hbackward : (backward.next runBack).meeting? n m (forward.next run) = none) :
    Apart n m (depth + 1) (forward.next run) (backward.next runBack) := by
  have hnext := hapart.forward_spreads.next hrun
  have hnextBack := hapart.backward_spreads.next hrunBack
  have hdepth : (forward.next run).depth = depth + 1 := by
    rw [Front.depth_next, hapart.forward_spreads.size_eq, hapart.forward_depth]
  have hdepthBack : (backward.next runBack).depth = depth + 1 := by
    rw [Front.depth_next, hapart.backward_spreads.size_eq, hapart.backward_depth]
  have hshort := Front.short_of_meeting? hnext.pos hapart.backward_spreads hforward
  have hshortBack := Front.short_of_meeting? hnextBack.pos hnext hbackward
  rw [hapart.backward_depth] at hshort
  rw [hdepth] at hshortBack
  refine ⟨hnext, hnextBack, hdepth, hdepthBack, (fun hzero => nomatch hzero), ?_, hshortBack⟩
  intro e he
  rwa [Nat.succ.inj he] at hshort

/-- Two fronts cannot stay apart for half as many steps as the box has lines. If that number is odd
the forward front has met the other one, and else the backward one has. -/
theorem depth_lt (hapart : Apart n m depth forward backward) (hn : 0 < n) :
    depth < (n + m + 1) / 2 := by
  refine Nat.lt_of_not_le fun hle => ?_
  obtain ⟨e, rfl⟩ : ∃ e, depth = e + 1 := ⟨depth - 1, by omega⟩
  have hforward := hapart.forward_spreads.depth_add_lt (hapart.forward_short rfl)
  have hbackward := hapart.backward_spreads.depth_add_lt hapart.backward_short
  rw [hapart.forward_depth] at hforward
  rw [hapart.backward_depth] at hbackward
  omega

end Apart

/-- A search that has enough rounds left finds a point of the box that is none of its corners. -/
theorem exists_middle (hends : box.EndsDiffer old new) {rounds depth : Nat}
    {forward backward : Front} (hapart : Apart box.n box.m depth forward backward)
    (hrounds : (box.n + box.m + 1) / 2 ≤ depth + rounds) :
    ∃ point, box.middle? old new rounds forward backward = some point ∧
      Front.Inside box.n box.m point.1 point.2 := by
  induction rounds generalizing depth forward backward with
  | zero => exact absurd (hapart.depth_lt hends.n_pos) (Nat.not_lt_of_le hrounds)
  | succ rounds ih =>
    rw [middle?]
    dsimp only
    cases hforward : (forward.next (box.forwardRun old new)).meeting? box.n box.m backward with
    | some j => exact ⟨_, rfl, hapart.forward_inside hends.n_pos hends.m_pos hforward⟩
    | none =>
      cases hbackward : (backward.next (box.backwardRun old new)).meeting? box.n box.m
          (forward.next (box.forwardRun old new)) with
      | some j =>
        exact ⟨_, rfl, (hapart.backward_inside hends.runs_backwardRun hbackward).flip⟩
      | none =>
        exact ih (hapart.next hends.runs_forwardRun hends.runs_backwardRun hforward hbackward)
          (by omega)

/-- A point of the box that is neither of its corners. -/
structure Split (box : Box) where
  x : Nat
  y : Nat
  inside : Front.Inside box.n box.m x y

namespace Split

def before {box : Box} (split : Split box) : Box := ⟨box.i, split.x, box.j, split.y⟩

def after {box : Box} (split : Split box) : Box :=
  ⟨box.i + split.x, box.n - split.x, box.j + split.y, box.m - split.y⟩

theorem size_before_lt {box : Box} (split : Split box) : split.before.size < box.size :=
  split.inside.lt

theorem size_after_lt {box : Box} (split : Split box) : split.after.size < box.size := by
  obtain ⟨hold, hnew, hpos, -⟩ := split.inside
  simp only [after, size]
  omega

end Split

/-- Half as many rounds as there are lines, which are enough for the two fronts to meet. -/
def search? (old new : Array α) (box : Box) : Option (Nat × Nat) :=
  box.middle? old new ((box.n + box.m + 1) / 2) .origin .origin

theorem exists_search (hends : box.EndsDiffer old new) :
    ∃ point, box.search? old new = some point ∧ Front.Inside box.n box.m point.1 point.2 :=
  exists_middle hends (apart_origin hends.n_pos) (by omega)

def split (old new : Array α) (box : Box) (hends : box.EndsDiffer old new) : Split box :=
  match hsearch : box.search? old new with
  | some (x, y) =>
    ⟨x, y, by
      obtain ⟨point, hpoint, hinside⟩ := exists_search hends
      rw [hsearch] at hpoint
      rwa [← Option.some.inj hpoint] at hinside⟩
  | none => absurd hsearch (by
      obtain ⟨point, hpoint, -⟩ := exists_search hends
      rw [hpoint]
      nofun)

end Box

end Hush.Diff
