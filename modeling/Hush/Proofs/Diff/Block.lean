import Hush.Diff.Block
import Hush.Proofs.Diff.Settling
import Mathlib.Data.List.SplitBy

/-!
# Blocks lead where their edits led

A run of kept edits is joined to one kept block. In a run of changes the deletions can be brought
before the insertions, so the run is one change whose two sides start at the point where the run
starts. A side that is empty may be recorded at another place. Kept blocks and changes alternate.
-/

namespace Hush.Diff

variable {α : Type} [BEq α] {old new : Array α} {p q : Point}

namespace Range

@[simp] theorem start_ofSize (start size : Nat) : (ofSize start size).start = start := rfl

@[simp] theorem size_ofSize (start size : Nat) : (ofSize start size).size = size := by
  simp [ofSize, Range.size]

end Range

namespace Block

@[simp] theorem oldRange_kept (old new size : Nat) :
    (kept old new size).oldRange = .ofSize old size := rfl

@[simp] theorem newRange_kept (old new size : Nat) :
    (kept old new size).newRange = .ofSize new size := rfl

@[simp] theorem oldRange_change (old new : Range) : (change old new).oldRange = old := rfl

@[simp] theorem newRange_change (old new : Range) : (change old new).newRange = new := rfl

/-- The block is not empty, takes its lines from the first point on, and ends at the second. Where a
side that it takes nothing from is recorded is left open, but for the old side not ahead of it. -/
structure Leads (old new : Array α) (block : Block) (p q : Point) : Prop where
  old_le : block.oldRange.start ≤ p.old
  old_eq : 0 < block.oldRange.size → block.oldRange.start = p.old
  new_eq : 0 < block.newRange.size → block.newRange.start = p.new
  size_pos : 0 < block.oldRange.size + block.newRange.size
  target_eq : q = p.add block.oldRange.size block.newRange.size
  agrees : block.isKept = true → Agrees old new p block.oldRange.size

theorem leads_kept_iff {i j size : Nat} :
    (kept i j size).Leads old new p q ↔
      i = p.old ∧ j = p.new ∧ 0 < size ∧ q = p.add size size ∧ Agrees old new p size := by
  constructor
  · intro hleads
    have hpos : 0 < size := by
      have := hleads.size_pos
      simp only [oldRange_kept, newRange_kept, Range.size_ofSize] at this
      omega
    simpa [hpos] using And.intro (hleads.old_eq (by simpa)) (And.intro (hleads.new_eq (by simpa))
      (And.intro hleads.target_eq (hleads.agrees rfl)))
  · rintro ⟨rfl, rfl, hpos, htarget, hagrees⟩
    exact ⟨le_rfl, fun _ => rfl, fun _ => rfl, by simpa using Nat.add_pos_left hpos size,
      by simpa using htarget, fun _ => by simpa⟩

end Block

/-! ### Runs of one kind -/

section Runs

variable {first this : Edit} {rest run after : List Edit} {kind : Edit.Kind}

theorem ScriptSettled.merge {second : Edit} (hkind : first.kind = second.kind)
    (hsettled : ScriptSettled old new (first :: second :: after) p q) :
    ScriptSettled old new (first.growDown second.size :: after) p q := by
  obtain ⟨m, hfirst, hrest⟩ := Trace.cons_iff.mp hsettled
  obtain ⟨r, hsecond, hafter⟩ := Trace.cons_iff.mp hrest
  have hmerged := ScriptLeads.merge hkind
    (.cons hfirst.toLeads (Trace.singleton_iff.mpr hsecond.toLeads))
  exact .cons ⟨Trace.singleton_iff.mp hmerged, hfirst.old_le⟩ hafter

theorem exists_joined? (hkind : ∀ edit ∈ first :: rest, edit.kind = kind)
    (hsettled : ScriptSettled old new (first :: rest) p q) :
    ∃ edit, Block.joined? (first :: rest) = some edit ∧ edit.kind = kind ∧
      edit.Settled old new p q := by
  induction rest generalizing first with
  | nil => exact ⟨first, rfl, hkind first (by simp), Trace.singleton_iff.mp hsettled⟩
  | cons second rest ih =>
      rw [List.forall_mem_cons, List.forall_mem_cons] at hkind
      obtain ⟨hfirst, hsecond, hrest⟩ := hkind
      have hmerged := ScriptSettled.merge (hfirst.trans hsecond.symm) hsettled
      have hgrown : ∀ edit ∈ first.growDown second.size :: rest, edit.kind = kind :=
        List.forall_mem_cons.mpr ⟨hfirst, hrest⟩
      exact ih hgrown hmerged

theorem joined?_eq_none_or (hkind : ∀ edit ∈ run, edit.kind = kind)
    (hsettled : ScriptSettled old new run p q) :
    (Block.joined? run = none ∧ run = [] ∧ p = q) ∨
      ∃ edit, Block.joined? run = some edit ∧ edit.kind = kind ∧ edit.Settled old new p q := by
  cases run with
  | nil => exact .inl ⟨rfl, rfl, Trace.nil_iff.mp hsettled⟩
  | cons first rest => exact .inr (exists_joined? hkind hsettled)

/-- An insertion that passes a deletion does not get ahead. -/
theorem ScriptSettled.swap {second : Edit} (hfirst : first.kind = .insert)
    (hsecond : second.kind = .delete)
    (hsettled : ScriptSettled old new (first :: second :: after) p q) :
    ScriptSettled old new (second :: first :: after) p q := by
  obtain ⟨m, hhead, hrest⟩ := Trace.cons_iff.mp hsettled
  obtain ⟨r, hnext, hafter⟩ := Trace.cons_iff.mp hrest
  have hswapped := ScriptLeads.swap (by simp [hfirst]) (by simp [hsecond])
    (by simp [hfirst, hsecond]) (.cons hhead.toLeads (Trace.singleton_iff.mpr hnext.toLeads))
  obtain ⟨s, hdeletion, hlast⟩ := Trace.cons_iff.mp hswapped
  have hle : p.old ≤ s.old := by
    rw [hdeletion.target_eq]
    exact Nat.le_add_right ..
  exact .cons ⟨hdeletion, le_of_eq (hdeletion.old_eq (by simp [hsecond]))⟩
    (.cons ⟨Trace.singleton_iff.mp hlast, hhead.old_le.trans hle⟩ hafter)

theorem ScriptSettled.pass (hthis : this.kind = .insert)
    (hrun : ∀ edit ∈ run, edit.kind = .delete)
    (hsettled : ScriptSettled old new (this :: (run ++ after)) p q) :
    ScriptSettled old new (run ++ this :: after) p q := by
  induction run generalizing p with
  | nil => exact hsettled
  | cons edit run ih =>
      rw [List.forall_mem_cons] at hrun
      obtain ⟨m, hhead, htail⟩ := Trace.cons_iff.mp (ScriptSettled.swap hthis hrun.1 hsettled)
      exact .cons hhead (ih hrun.2 htail)

/-- The deletions of a change before its insertions. -/
theorem ScriptSettled.sorted (hrun : ∀ edit ∈ run, edit.kind ≠ .equal)
    (hsettled : ScriptSettled old new run p q) :
    ScriptSettled old new (run.filter (·.kind = .delete) ++ run.filter (·.kind = .insert)) p q := by
  induction run generalizing p with
  | nil => exact hsettled
  | cons edit run ih =>
      rw [List.forall_mem_cons] at hrun
      obtain ⟨m, hhead, htail⟩ := Trace.cons_iff.mp hsettled
      have hsorted := ih hrun.2 htail
      cases hkind : edit.kind with
      | equal => exact absurd hkind hrun.1
      | delete => simpa [hkind] using Trace.cons hhead hsorted
      | insert =>
          have hpassed := ScriptSettled.pass hkind (by simp) (.cons hhead hsorted)
          simpa [hkind] using hpassed

theorem exists_kept_ofRun? (hne : run ≠ []) (hequal : ∀ edit ∈ run, edit.kind = .equal)
    (hsettled : ScriptSettled old new run p q) :
    ∃ block, Block.ofRun? run = some block ∧ block.isKept = true ∧ block.Leads old new p q := by
  have hfilter : run.filter (·.kind = .equal) = run :=
    List.filter_eq_self.mpr fun edit hedit => decide_eq_true (hequal edit hedit)
  obtain ⟨first, rest, rfl⟩ := List.exists_cons_of_ne_nil hne
  obtain ⟨edit, hjoined, hkind, hedit⟩ := exists_joined? hequal hsettled
  obtain ⟨heq, htarget, hagrees⟩ := hedit.toLeads.of_equal hkind
  refine ⟨.kept edit.old edit.new edit.size, ?_, rfl, Block.leads_kept_iff.mpr ?_⟩
  · rw [Block.ofRun?, hfilter, hjoined]
  · exact ⟨congrArg Edit.old heq, congrArg Edit.new heq, hedit.size_pos, htarget, hagrees⟩

theorem exists_change_ofRun? (hne : run ≠ []) (hchange : ∀ edit ∈ run, edit.kind ≠ .equal)
    (hsettled : ScriptSettled old new run p q) :
    ∃ block, Block.ofRun? run = some block ∧ block.isKept = false ∧ block.Leads old new p q := by
  have hfilter : run.filter (·.kind = .equal) = [] :=
    List.filter_eq_nil_iff.mpr fun edit hedit => by simpa using hchange edit hedit
  obtain ⟨m, hdeletions, hinsertions⟩ :=
    Trace.append_iff.mp (ScriptSettled.sorted hchange hsettled)
  have hdeletes : ∀ edit ∈ run.filter (·.kind = .delete), edit.kind = .delete := by simp
  have hinserts : ∀ edit ∈ run.filter (·.kind = .insert), edit.kind = .insert := by simp
  rw [Block.ofRun?, hfilter]
  -- Whether there are deletions, and whether there are insertions.
  obtain ⟨hnoDeletion, hempty, rfl⟩ | ⟨deleted, hdeleted, hkind, hsettledDeleted⟩ :=
    joined?_eq_none_or hdeletes hdeletions
  all_goals
    obtain ⟨hnoInsertion, hempty', rfl⟩ | ⟨inserted, hinserted, hkind', hsettledInserted⟩ :=
      joined?_eq_none_or hinserts hinsertions
  · obtain ⟨first, rest, rfl⟩ := List.exists_cons_of_ne_nil hne
    cases hfirst : first.kind <;> simp_all
  · rw [hnoDeletion, hinserted]
    obtain ⟨hnew, hpos, htarget⟩ := (Edit.leads_insert_iff hkind').mp hsettledInserted.toLeads
    exact ⟨_, rfl, rfl, hsettledInserted.old_le, by simp, by simp [hnew], by simpa, by simpa, nofun⟩
  · rw [hdeleted, hnoInsertion]
    obtain ⟨hold, hpos, htarget⟩ := (Edit.leads_delete_iff hkind).mp hsettledDeleted.toLeads
    exact ⟨_, rfl, rfl, hsettledDeleted.old_le, by simp [hold], by simp, by simpa, by simpa, nofun⟩
  · rw [hdeleted, hinserted]
    obtain ⟨hold, hpos, rfl⟩ := (Edit.leads_delete_iff hkind).mp hsettledDeleted.toLeads
    obtain ⟨hnew, hpos', rfl⟩ := (Edit.leads_insert_iff hkind').mp hsettledInserted.toLeads
    exact ⟨_, rfl, rfl, hsettledDeleted.old_le, by simp [hold], by simp [hnew],
      by simpa using Nat.add_pos_left hpos _, by simp [Point.add_add], nofun⟩

/-- A run of edits that are all kept, or all of them changes, is one block. -/
theorem exists_ofRun? {isKept : Bool} (hne : run ≠ [])
    (hrun : ∀ edit ∈ run, edit.isEqual = isKept) (hsettled : ScriptSettled old new run p q) :
    ∃ block, Block.ofRun? run = some block ∧ block.isKept = isKept ∧
      block.Leads old new p q := by
  cases isKept with
  | true =>
      have hequal : ∀ edit ∈ run, edit.kind = .equal := fun edit hedit =>
        Edit.isEqual_iff.mp (hrun edit hedit)
      exact exists_kept_ofRun? hne hequal hsettled
  | false =>
      have hchange : ∀ edit ∈ run, edit.kind ≠ .equal := fun edit hedit hequal => by
        simpa [hrun edit hedit] using Edit.isEqual_iff.mpr hequal
      exact exists_change_ofRun? hne hchange hsettled

end Runs

/-! ### The blocks of a script -/

section Blocks

variable {run : List Edit} {runs : List (List Edit)} {script : List Edit}

/-- The run holds kept edits only or changes only. -/
def IsRun (run : List Edit) : Prop :=
  run ≠ [] ∧ ∀ edit ∈ run, edit.isEqual = run.any Edit.isEqual

theorem isRun_of_isChain (hne : run ≠ [])
    (hchain : run.IsChain fun a b => (a.isEqual == b.isEqual) = true) : IsRun run := by
  have hsame : ∀ a ∈ run, ∀ b ∈ run, a.isEqual = b.isEqual := by
    have hpairs : (run.map Edit.isEqual).IsChain (· = ·) := by
      rw [List.isChain_map]
      exact hchain.imp fun a b => eq_of_beq
    have hall := (List.isChain_iff_pairwise.mp hpairs).forall_of_forall fun _ _ => rfl
    intro a ha b hb
    exact hall (List.mem_map_of_mem ha) (List.mem_map_of_mem hb)
  refine ⟨hne, fun edit hedit => ?_⟩
  cases hequal : edit.isEqual with
  | true => exact (List.any_eq_true.mpr ⟨edit, hedit, hequal⟩).symm
  | false =>
      refine (List.any_eq_false.mpr fun other hother => ?_).symm
      rw [hsame other hother edit hedit, hequal]
      exact Bool.false_ne_true

theorem leads_blocks (hruns : ∀ run ∈ runs, IsRun run)
    (hsettled : Trace (ScriptSettled old new) runs p q) :
    Trace (Block.Leads old new) (runs.filterMap Block.ofRun?) p q ∧
      (runs.filterMap Block.ofRun?).map Block.isKept = runs.map (·.any Edit.isEqual) := by
  induction runs generalizing p with
  | nil => exact ⟨Trace.nil_iff.mpr (Trace.nil_iff.mp hsettled), rfl⟩
  | cons run runs ih =>
      rw [List.forall_mem_cons] at hruns
      obtain ⟨m, hhead, htail⟩ := Trace.cons_iff.mp hsettled
      obtain ⟨block, hblock, hkept, hleadsBlock⟩ := exists_ofRun? hruns.1.1 hruns.1.2 hhead
      obtain ⟨hleadsBlocks, hmap⟩ := ih hruns.2 htail
      rw [List.filterMap_cons_some hblock, List.map_cons, List.map_cons, hkept, hmap]
      exact ⟨.cons hleadsBlock hleadsBlocks, rfl⟩

/-- Of two neighbouring blocks one is kept and the other is a change. -/
def Alternating (blocks : List Block) : Prop := (blocks.map Block.isKept).IsChain (· ≠ ·)

theorem Block.leads_ofScript (hsettled : ScriptSettled old new script p q) :
    Trace (Block.Leads old new) (Block.ofScript script) p q ∧
      Alternating (Block.ofScript script) := by
  let sameSort (a b : Edit) : Bool := a.isEqual == b.isEqual
  have hruns : ∀ run ∈ script.splitBy sameSort, IsRun run := fun run hrun =>
    isRun_of_isChain (List.ne_nil_of_mem_splitBy hrun) (List.isChain_of_mem_splitBy hrun)
  have hflatten : ScriptSettled old new (script.splitBy sameSort).flatten p q := by
    rwa [List.flatten_splitBy]
  obtain ⟨hblocks, hmap⟩ := leads_blocks hruns (Trace.flatten_iff.mp hflatten)
  refine ⟨hblocks, ?_⟩
  rw [Alternating, show ofScript script = (script.splitBy sameSort).filterMap ofRun? from rfl, hmap,
    List.isChain_map]
  refine (List.isChain_getLast_head_splitBy sameSort script).imp_of_mem_imp ?_
  rintro a b ha hb ⟨hane, hbne, hborder⟩
  rw [← (hruns a ha).2 _ (List.getLast_mem hane), ← (hruns b hb).2 _ (List.head_mem hbne)]
  exact beq_eq_false_iff_ne.mp hborder

end Blocks

end Hush.Diff
