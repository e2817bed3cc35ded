import Hush.Proofs.Diff.Slide
import Mathlib.Data.List.Induction

/-!
# Where edits are recorded

An edit that changes places with another stays recorded where it was. So an insertion can be
recorded ahead of where it stands among the old lines: a deletion that was before it now comes after
it. While deletions are moved an insertion gets ahead in this way, but never ahead of the run of
changes that it stands in.
-/

namespace Hush.Diff

variable {α : Type} [BEq α] {old new : Array α} {p q : Point}

/-! ### Old lines of a script -/

theorem Edit.oldSize_eq_size {edit : Edit} (hkind : edit.kind ≠ .insert) :
    edit.oldSize = edit.size := if_neg hkind

theorem Edit.oldSize_eq_zero {edit : Edit} (hkind : edit.kind = .insert) : edit.oldSize = 0 :=
  if_pos hkind

def oldLength : List Edit → Nat
  | [] => 0
  | edit :: script => edit.oldSize + oldLength script

theorem oldLength_cons (edit : Edit) (script : List Edit) :
    oldLength (edit :: script) = edit.oldSize + oldLength script := rfl

theorem oldLength_cons_of_ne_insert {edit : Edit} {script : List Edit}
    (hkind : edit.kind ≠ .insert) :
    oldLength (edit :: script) = oldLength script + edit.size := by
  rw [oldLength_cons, Edit.oldSize_eq_size hkind, Nat.add_comm]

theorem oldLength_append (script rest : List Edit) :
    oldLength (script ++ rest) = oldLength script + oldLength rest := by
  induction script with
  | nil => exact (Nat.zero_add _).symm
  | cons edit script ih =>
      rw [List.cons_append, oldLength_cons, oldLength_cons, ih, Nat.add_assoc]

theorem oldLength_reverse (script : List Edit) : oldLength script.reverse = oldLength script := by
  induction script with
  | nil => rfl
  | cons edit script ih =>
      rw [List.reverse_cons, oldLength_append, ih, oldLength_cons, oldLength_cons]
      exact Nat.add_comm ..

theorem ScriptLeads.old_eq {script : List Edit} (hleads : ScriptLeads old new script p q) :
    q.old = p.old + oldLength script := by
  induction hleads with
  | nil p => rfl
  | cons head _ ih =>
      rw [ih, head.target_eq, Point.old_add, oldLength_cons, Nat.add_assoc]

/-- The number of old lines that the changes before the next kept lines take up. -/
def runLength : List Edit → Nat
  | [] => 0
  | edit :: rest => if edit.isEqual then 0 else edit.oldSize + runLength rest

/-- No insertion is recorded ahead of the run of changes that it stands in. So many old lines come
before the script. -/
def WithinRuns (start : Nat) : List Edit → Prop
  | [] => True
  | edit :: rest =>
    (edit.kind = .insert → edit.old ≤ start + runLength rest) ∧
      WithinRuns (start + edit.oldSize) rest

/-- No insertion is recorded ahead of where it stands. The nearest edit comes first. -/
def Behind : List Edit → Prop
  | [] => True
  | edit :: before => (edit.kind = .insert → edit.old ≤ oldLength before) ∧ Behind before

theorem withinRuns_cons_iff {start : Nat} {edit : Edit} {rest : List Edit}
    (hkind : edit.kind ≠ .insert) :
    WithinRuns start (edit :: rest) ↔ WithinRuns (start + edit.size) rest := by
  rw [WithinRuns, Edit.oldSize_eq_size hkind]
  exact and_iff_right fun hinsert => absurd hinsert hkind

theorem WithinRuns.tail {start : Nat} {edit : Edit} {rest : List Edit}
    (hkind : edit.kind = .insert) (hwithin : WithinRuns start (edit :: rest)) :
    WithinRuns start rest := by
  have hrest := hwithin.2
  rwa [Edit.oldSize_eq_zero hkind, Nat.add_zero] at hrest

theorem Behind.cons {edit : Edit} {before : List Edit} (hkind : edit.kind ≠ .insert)
    (hbehind : Behind before) : Behind (edit :: before) :=
  ⟨fun hinsert => absurd hinsert hkind, hbehind⟩

theorem ScriptSettled.withinRuns {script : List Edit}
    (hsettled : ScriptSettled old new script p q) : WithinRuns p.old script := by
  induction hsettled with
  | nil p => exact trivial
  | @cons edit rest p q r head _ ih =>
      refine ⟨fun _ => head.old_le.trans (Nat.le_add_right ..), ?_⟩
      rwa [head.target_eq, Point.old_add] at ih

theorem ScriptLeads.settled {script : List Edit} (hbehind : Behind script.reverse)
    (hleads : ScriptLeads old new script ⟨0, 0⟩ q) : ScriptSettled old new script ⟨0, 0⟩ q := by
  induction script using List.reverseRecOn generalizing q with
  | nil => exact Trace.nil_iff.mpr (Trace.nil_iff.mp hleads)
  | append_singleton script edit ih =>
      rw [List.reverse_append, List.reverse_singleton, List.singleton_append] at hbehind
      obtain ⟨m, hfront, hlast⟩ := Trace.append_iff.mp hleads
      have hedit := Trace.singleton_iff.mp hlast
      refine (ih hbehind.2 hfront).append (Trace.singleton_iff.mpr ⟨hedit, ?_⟩)
      by_cases hkind : edit.kind = .insert
      · have hle := hbehind.1 hkind
        rw [oldLength_reverse] at hle
        rwa [ScriptLeads.old_eq hfront, Nat.zero_add]
      · exact le_of_eq (hedit.old_eq hkind)

/-! ### Deletions on the move -/

section Deletions

variable {before after rest rest' : List Edit} {this : Edit} {start : Nat}

theorem runLength_append_le (hle : runLength rest ≤ runLength rest') (front : List Edit) :
    runLength (front ++ rest) ≤ runLength (front ++ rest') := by
  induction front with
  | nil => exact hle
  | cons edit front ih =>
      rw [List.cons_append, List.cons_append, runLength, runLength]
      split
      · exact le_rfl
      · exact Nat.add_le_add_left ih _

/-- The end of a script can be replaced by one that begins with no shorter run. -/
theorem WithinRuns.replace (hle : runLength rest ≤ runLength rest')
    (hrest : ∀ start, WithinRuns start rest → WithinRuns start rest') {front : List Edit}
    (hwithin : WithinRuns start (front ++ rest)) : WithinRuns start (front ++ rest') := by
  induction front generalizing start with
  | nil => exact hrest start hwithin
  | cons edit front ih =>
      refine ⟨fun hkind => (hwithin.1 hkind).trans ?_, ih hwithin.2⟩
      exact Nat.add_le_add_left (runLength_append_le hle front) start

theorem runLength_cons_of_change {edit : Edit} (hkind : edit.kind ≠ .equal) :
    runLength (edit :: rest) = edit.oldSize + runLength rest :=
  if_neg fun hequal => hkind (Edit.isEqual_iff.mp hequal)

theorem runLength_cons_of_equal {edit : Edit} (hkind : edit.kind = .equal) :
    runLength (edit :: rest) = 0 := if_pos (Edit.isEqual_iff.mpr hkind)

theorem WithinRuns.clear {kept : Edit} (hkept : kept.kind = .equal) (hsize : kept.size = 0)
    {front : List Edit} (hwithin : WithinRuns start (front ++ kept :: rest)) :
    WithinRuns start (front ++ rest) := by
  refine hwithin.replace ?_ fun start hwithin => ?_
  · rw [runLength_cons_of_equal hkept]
    exact Nat.zero_le _
  · rwa [withinRuns_cons_iff (by simp [hkept]), hsize] at hwithin

theorem WithinRuns.join {first second : Edit} (hfirst : first.kind = .delete)
    (hsecond : second.kind = .delete) {front : List Edit}
    (hwithin : WithinRuns start (front ++ first :: second :: rest)) :
    WithinRuns start (front ++ first.growDown second.size :: rest) := by
  refine hwithin.replace ?_ fun start hwithin => ?_
  · simp [runLength, Edit.isEqual, Edit.growDown, Edit.oldSize, hfirst, hsecond, Nat.add_assoc]
  · simpa [WithinRuns, Edit.growDown, Edit.oldSize, hfirst, hsecond, Nat.add_assoc] using hwithin

theorem WithinRuns.swap {first second : Edit} (hfirst : first.kind ≠ .equal)
    (hsecond : second.kind ≠ .equal) {front : List Edit}
    (hwithin : WithinRuns start (front ++ first :: second :: rest)) :
    WithinRuns start (front ++ second :: first :: rest) := by
  refine hwithin.replace (le_of_eq ?_) fun start hwithin => ?_
  · rw [runLength_cons_of_change hfirst, runLength_cons_of_change hsecond,
      runLength_cons_of_change hsecond, runLength_cons_of_change hfirst, Nat.add_left_comm]
  · obtain ⟨hone, hother, hrest⟩ := hwithin
    rw [runLength_cons_of_change hsecond, ← Nat.add_assoc] at hone
    rw [Nat.add_right_comm] at hrest
    refine ⟨?_, hone, hrest⟩
    rwa [runLength_cons_of_change hfirst, ← Nat.add_assoc]

theorem withinRuns_moveUp (hthis : this.kind = .delete)
    (hwithin : WithinRuns start (Cursor.script ⟨before, this, after⟩)) :
    WithinRuns start (Cursor.moveUp old new before this after).script := by
  fun_induction Cursor.moveUp old new before this after with
  | case1 this after => exact hwithin
  | case2 previous before this after hequal size moved after' hsize ih =>
      -- Without room there is nothing to clear but an empty run.
      have hzero : size = 0 := if_neg (by simp [hthis])
      have hafter : after' = after := by simp [after', hzero, Cursor.keepBelow]
      have hmoved : moved = this := by simp [moved, hzero, Edit.shiftUp]
      rw [hafter, hmoved] at ih ⊢
      rw [Cursor.script_cons] at hwithin
      exact ih hthis (hwithin.clear (Edit.isEqual_iff.mp hequal) (hsize.symm.trans hzero))
  | case3 previous before this after hequal size moved after' hsize =>
      have hzero : size = 0 := if_neg (by simp [hthis])
      simpa [after', moved, hzero, Edit.shiftUp, Edit.dropLast, Cursor.keepBelow] using hwithin
  | case4 previous before this after hequal hkind ih =>
      rw [Cursor.script_cons] at hwithin
      exact ih (hkind.trans hthis) (hwithin.join (hkind.trans hthis) hthis)
  | case5 previous before this after hequal hkind ih =>
      rw [Cursor.script_cons] at hwithin
      refine ih hthis (hwithin.swap ?_ (by simp [hthis]))
      exact fun h => hequal (Edit.isEqual_iff.mpr h)

theorem withinRuns_moveDown (hthis : this.kind = .delete)
    (hwithin : WithinRuns start (Cursor.script ⟨before, this, after⟩)) :
    WithinRuns start (Cursor.moveDown old new before this after).script := by
  fun_induction Cursor.moveDown old new before this after with
  | case1 before this => exact hwithin
  | case2 before this next after hequal size moved before' hsize ih =>
      have hzero : size = 0 := if_neg (by simp [hthis])
      have hbefore : before' = before := by simp [before', hzero, Cursor.keepAbove]
      have hmoved : moved = this := by simp [moved, hzero, Edit.shiftDown]
      rw [hbefore, hmoved] at ih ⊢
      rw [Cursor.script, List.append_cons] at hwithin
      have hcleared := hwithin.clear (Edit.isEqual_iff.mp hequal) (hsize.symm.trans hzero)
      rw [← List.append_cons] at hcleared
      exact ih hthis hcleared
  | case3 before this next after hequal size moved before' hsize =>
      have hzero : size = 0 := if_neg (by simp [hthis])
      simpa [before', moved, hzero, Edit.shiftDown, Edit.dropFirst, Cursor.keepAbove] using hwithin
  | case4 before this next after hequal hkind ih =>
      exact ih hthis (hwithin.join hthis (hkind.trans hthis))
  | case5 before this next after hequal hkind ih =>
      rw [Cursor.script_cons] at ih
      refine ih hthis (hwithin.swap (by simp [hthis]) ?_)
      exact fun h => hequal (Edit.isEqual_iff.mpr h)

theorem withinRuns_settleAll {turns : Nat} (hwithin : WithinRuns start (before.reverse ++ after)) :
    WithinRuns start (Cursor.settleAll old new .delete turns before after) := by
  induction turns generalizing before after with
  | zero => exact hwithin
  | succ turns ih =>
      rw [Cursor.settleAll]
      split
      · exact hwithin
      · rename_i cursor hfound
        obtain ⟨hthis, hscript⟩ := Cursor.seek_eq_some hfound
        rw [← hscript] at hwithin
        have hsettled : WithinRuns start (cursor.settle old new).script :=
          withinRuns_moveDown (Cursor.kind_moveUp.trans hthis) (withinRuns_moveUp hthis hwithin)
        refine ih ?_
        rwa [List.reverse_cons, List.append_assoc]

end Deletions

end Hush.Diff
