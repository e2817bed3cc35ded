import Hush.Diff.Edit
import Hush.Proofs.Diff.Trace

/-!
# A script leads from one sequence to the other

The script of a box leads from its first corner to its last, wherever the box is split, and every
edit is recorded where it stands or where the change that it belongs to starts. Nothing is used
about the split but that it lies in the box.
-/

namespace Hush.Diff

variable {α : Type} [BEq α] {old new : Array α} {p q : Point}

/-- The edit stands at this point: on the sides that it takes lines from its position is right, and
kept lines are the same on both. Its position on a side that it takes nothing from is left open. -/
structure Edit.Fits (old new : Array α) (edit : Edit) (p : Point) : Prop where
  old_eq : edit.kind ≠ .insert → edit.old = p.old
  new_eq : edit.kind ≠ .delete → edit.new = p.new
  agrees : edit.kind = .equal → Agrees old new p edit.size

/-- The edit is not empty, stands at the first point, and ends at the second. -/
structure Edit.Leads (old new : Array α) (edit : Edit) (p q : Point) : Prop
    extends edit.Fits old new p where
  size_pos : 0 < edit.size
  target_eq : q = p.add edit.oldSize edit.newSize

/-- The edits of the script lead from one point to another. -/
abbrev ScriptLeads (old new : Array α) (script : List Edit) (p q : Point) : Prop :=
  Trace (Edit.Leads old new) script p q

/-- The edit is not recorded ahead of where it stands among the old lines. -/
structure Edit.Settled (old new : Array α) (edit : Edit) (p q : Point) : Prop
    extends edit.Leads old new p q where
  old_le : edit.old ≤ p.old

/-- The script leads from one point to another, and none of its edits is recorded ahead. -/
abbrev ScriptSettled (old new : Array α) (script : List Edit) (p q : Point) : Prop :=
  Trace (Edit.Settled old new) script p q

theorem ScriptSettled.leads {script : List Edit} (hsettled : ScriptSettled old new script p q) :
    ScriptLeads old new script p q := hsettled.mono Edit.Settled.toLeads

theorem Edit.Fits.settled_toScript {edit : Edit} (hfits : edit.Fits old new p)
    (hle : edit.old ≤ p.old) :
    ScriptSettled old new edit.toScript p (p.add edit.oldSize edit.newSize) := by
  unfold toScript
  split <;> rename_i hsize
  · have htarget : p.add edit.oldSize edit.newSize = p := by simp [oldSize, newSize, hsize]
    rw [htarget]
    exact .nil p
  · exact Trace.singleton_iff.mpr ⟨⟨hfits, Nat.pos_of_ne_zero hsize, rfl⟩, hle⟩

namespace Box

def first (box : Box) : Point := ⟨box.i, box.j⟩

def last (box : Box) : Point := ⟨box.i + box.n, box.j + box.m⟩

/-- The core lies in the box, and what is left out on both sides of it is kept. -/
structure IsCore (old new : Array α) (box core : Box) : Prop where
  before : ∃ size, core.first = box.first.add size size ∧ Agrees old new box.first size
  after : ∃ size, box.last = core.last.add size size ∧ Agrees old new core.last size

theorem isCore_core (old new : Array α) (box : Box) : box.IsCore old new (box.core old new) := by
  let rest := box.dropPrefix old new
  have hprefix : box.forwardRun old new 0 0 ≤ min box.n box.m := runFrom_le
  have hsuffix : rest.backwardRun old new 0 0 ≤ min rest.n rest.m := runBefore_le.1
  have hlast : (box.core old new).last =
      ⟨rest.i + rest.n - rest.backwardRun old new 0 0,
        rest.j + rest.m - rest.backwardRun old new 0 0⟩ := by
    simp only [core, dropSuffix, last, Point.mk.injEq, rest] at hsuffix ⊢
    omega
  refine ⟨⟨box.forwardRun old new 0 0, rfl, agrees_runFrom⟩, rest.backwardRun old new 0 0, ?_, ?_⟩
  · rw [hlast]
    simp only [last, dropPrefix, Point.add, Point.mk.injEq, rest] at hsuffix ⊢
    omega
  · rw [hlast]
    exact agrees_runBefore

variable {box core : Box}

theorem IsCore.settled_leading (hcore : box.IsCore old new core) :
    ScriptSettled old new (box.leading core).toScript box.first core.first := by
  obtain ⟨size, hfirst, hagrees⟩ := hcore.before
  have hsize : core.i - box.i = size := by
    have hold := congrArg Point.old hfirst
    simp only [first, Point.old_add] at hold
    omega
  have hfits : (box.leading core).Fits old new box.first :=
    ⟨fun _ => rfl, fun _ => rfl, fun _ => by rwa [leading, hsize]⟩
  have hsettled := hfits.settled_toScript le_rfl
  have htarget : box.first.add (box.leading core).oldSize (box.leading core).newSize =
      core.first := by
    rw [hfirst]
    simp [leading, Edit.oldSize, Edit.newSize, hsize]
  rwa [htarget] at hsettled

theorem IsCore.settled_trailing (hcore : box.IsCore old new core) :
    ScriptSettled old new (box.trailing core).toScript core.last box.last := by
  obtain ⟨size, hlast, hagrees⟩ := hcore.after
  have hsize : box.i + box.n - (core.i + core.n) = size := by
    have hold := congrArg Point.old hlast
    simp only [last, Point.old_add] at hold
    omega
  have hfits : (box.trailing core).Fits old new core.last :=
    ⟨fun _ => rfl, fun _ => rfl, fun _ => by rwa [trailing, hsize]⟩
  have hsettled := hfits.settled_toScript le_rfl
  have htarget : core.last.add (box.trailing core).oldSize (box.trailing core).newSize =
      box.last := by
    rw [hlast]
    simp [trailing, Edit.oldSize, Edit.newSize, hsize]
  rwa [htarget] at hsettled

theorem settled_deletion (hm : box.m = 0) :
    ScriptSettled old new box.deletion.toScript box.first box.last := by
  have hfits : box.deletion.Fits old new box.first :=
    ⟨fun _ => rfl, fun _ => rfl, fun hkind => nomatch hkind⟩
  have hlast : box.last = box.first.add box.deletion.oldSize box.deletion.newSize := by
    simp [first, last, deletion, Edit.oldSize, Edit.newSize, Point.add, hm]
  rw [hlast]
  exact hfits.settled_toScript le_rfl

theorem settled_insertion (hn : box.n = 0) :
    ScriptSettled old new box.insertion.toScript box.first box.last := by
  have hfits : box.insertion.Fits old new box.first :=
    ⟨fun _ => rfl, fun _ => rfl, fun hkind => nomatch hkind⟩
  have hlast : box.last = box.first.add box.insertion.oldSize box.insertion.newSize := by
    simp [first, last, insertion, Edit.oldSize, Edit.newSize, Point.add, hn]
  rw [hlast]
  exact hfits.settled_toScript le_rfl

theorem last_after (split : Split core) : split.after.last = core.last := by
  obtain ⟨hold, hnew, -, -⟩ := split.inside
  simp only [Split.after, last, Point.mk.injEq]
  omega

theorem settled_script (old new : Array α) (box : Box) :
    ScriptSettled old new (box.script old new) box.first box.last := by
  induction box using script.induct old new with
  | case1 box _ ihbefore ihafter =>
      have hcore := isCore_core old new box
      rw [script]
      refine (hcore.settled_leading.append ?_).append hcore.settled_trailing
      split <;> rename_i hm
      · exact settled_deletion hm
      split <;> rename_i hn
      · exact settled_insertion hn
      · have hbefore := ihbefore hm hn
        have hafter := ihafter hm hn
        dsimp only at hbefore hafter
        rw [last_after] at hafter
        exact hbefore.append hafter

end Box

theorem settled_script (old new : Array α) :
    ScriptSettled old new (script old new) ⟨0, 0⟩ ⟨old.size, new.size⟩ := by
  have hsettled := Box.settled_script old new ⟨0, old.size, 0, new.size⟩
  rwa [Box.last, Nat.zero_add, Nat.zero_add] at hsettled

end Hush.Diff
