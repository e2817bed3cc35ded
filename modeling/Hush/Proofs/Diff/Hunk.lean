import Hush.Proofs.Diff.Gather

/-!
# Hunks and the gaps between them

Cutting kept blocks down to the context takes lines out that agree on both sides. What is left out
is a gap, and the two sequences are a row of gaps and hunks.
-/

namespace Hush.Diff

variable {α : Type} [BEq α] {old new : Array α} {p q m : Point}

/-! ### Kept blocks cut down -/

namespace Block

variable {block : Block} {limit : Nat}

theorem leads_takeLast (hlimit : 0 < limit) (hleads : block.Leads old new p q) :
    ∃ gap, Agrees old new p gap ∧ (block.takeLast limit).Leads old new (p.add gap gap) q ∧
      (0 < gap → block.isKept = true) := by
  cases block with
  | change => exact ⟨0, agrees_zero, hleads, nofun⟩
  | kept i j size =>
      obtain ⟨rfl, rfl, hpos, rfl, hagrees⟩ := leads_kept_iff.mp hleads
      have hsize : size = size - limit + min size limit := by omega
      rw [hsize] at hagrees
      obtain ⟨hgap, hrest⟩ := agrees_add_iff.mp hagrees
      refine ⟨size - limit, hgap, leads_kept_iff.mpr ⟨rfl, rfl, by omega, ?_, hrest⟩, fun _ => rfl⟩
      rw [Point.add_add, ← hsize]

theorem leads_takeFirst (hlimit : 0 < limit) (hleads : block.Leads old new p q) :
    ∃ m gap, (block.takeFirst limit).Leads old new p m ∧ Agrees old new m gap ∧
      q = m.add gap gap ∧ (0 < gap → block.isKept = true) := by
  cases block with
  | change => exact ⟨q, 0, hleads, agrees_zero, rfl, nofun⟩
  | kept i j size =>
      obtain ⟨rfl, rfl, hpos, rfl, hagrees⟩ := leads_kept_iff.mp hleads
      have hsize : size = min size limit + (size - limit) := by omega
      rw [hsize] at hagrees
      obtain ⟨hfirst, hgap⟩ := agrees_add_iff.mp hagrees
      refine ⟨_, size - limit, leads_kept_iff.mpr ⟨rfl, rfl, by omega, rfl, hfirst⟩, hgap, ?_,
        fun _ => rfl⟩
      rw [Point.add_add, ← hsize]

/-- A kept block longer than the context of both its neighbours is cut in two at a gap. -/
theorem leads_cut (hlimit : 0 < limit) (hkept : block.isKept = true)
    (hlong : 2 * limit < block.oldRange.size) (hleads : block.Leads old new p q) :
    ∃ m gap, (block.takeFirst limit).Leads old new p m ∧ 0 < gap ∧ Agrees old new m gap ∧
      (block.takeLast limit).Leads old new (m.add gap gap) q := by
  cases block with
  | change => cases hkept
  | kept i j size =>
      rw [oldRange_kept, Range.size_ofSize] at hlong
      obtain ⟨rfl, rfl, hpos, rfl, hagrees⟩ := leads_kept_iff.mp hleads
      obtain ⟨gap, rfl⟩ : ∃ gap, size = limit + gap + limit := ⟨size - 2 * limit, by omega⟩
      obtain ⟨hfront, hlast⟩ := agrees_add_iff.mp hagrees
      obtain ⟨hfirst, hgap⟩ := agrees_add_iff.mp hfront
      have hmin : min (limit + gap + limit) limit = limit := Nat.min_eq_right (Nat.le_add_left ..)
      have hupper : (kept p.old p.new (limit + gap + limit)).takeFirst limit =
          kept p.old p.new limit := by rw [takeFirst, hmin]
      have hlower : (kept p.old p.new (limit + gap + limit)).takeLast limit =
          kept (p.old + (limit + gap)) (p.new + (limit + gap)) limit := by
        rw [takeLast, hmin, Nat.add_sub_cancel]
      rw [hupper, hlower]
      refine ⟨p.add limit limit, gap, leads_kept_iff.mpr ⟨rfl, rfl, hlimit, rfl, hfirst⟩, by omega,
        hgap, leads_kept_iff.mpr ?_⟩
      rw [Point.add_add]
      exact ⟨rfl, rfl, hlimit, (Point.add_add ..).symm, hlast⟩

end Block

namespace Hunk

variable {blocks : List Block} {hunks : List Hunk} {limit : Nat}

/-! ### The ends of a list of blocks -/

theorem leads_trimStart (hlimit : 0 < limit) (hleads : Trace (Block.Leads old new) blocks p q) :
    ∃ opening, Agrees old new p opening ∧
      Trace (Block.Leads old new) (blocks.modifyHead (·.takeLast limit)) (p.add opening opening) q ∧
      (0 < opening → (blocks.map Block.isKept).head? = some true) := by
  cases blocks with
  | nil => exact ⟨0, agrees_zero, hleads, nofun⟩
  | cons block blocks =>
      obtain ⟨m, hblock, hrest⟩ := Trace.cons_iff.mp hleads
      obtain ⟨opening, hopening, hcut, hkept⟩ := Block.leads_takeLast hlimit hblock
      exact ⟨opening, hopening, .cons hcut hrest, fun hpos => congrArg some (hkept hpos)⟩

theorem leads_trimEnd (hlimit : 0 < limit) (hleads : Trace (Block.Leads old new) blocks p q) :
    ∃ m closing, Trace (Block.Leads old new)
        (blocks.reverse.modifyHead (·.takeFirst limit)).reverse p m ∧
      Agrees old new m closing ∧ q = m.add closing closing ∧
      (0 < closing → (blocks.map Block.isKept).getLast? = some true) := by
  obtain rfl | ⟨front, block, rfl⟩ := List.eq_nil_or_concat blocks
  · exact ⟨q, 0, hleads, agrees_zero, rfl, nofun⟩
  · rw [List.concat_eq_append] at hleads ⊢
    obtain ⟨r, hfront, hblock⟩ := Trace.append_iff.mp hleads
    obtain ⟨m, closing, hcut, hclosing, hq, hkept⟩ :=
      Block.leads_takeFirst hlimit (Trace.singleton_iff.mp hblock)
    refine ⟨m, closing, ?_, hclosing, hq, fun hpos => by simp [hkept hpos]⟩
    simpa using hfront.append (Trace.singleton_iff.mpr hcut)

theorem leads_trimEnds (hleads : Trace (Block.Leads old new) blocks p q) :
    ∃ opening m closing, Agrees old new p opening ∧
      Trace (Block.Leads old new) (trimEnds blocks) (p.add opening opening) m ∧
      Agrees old new m closing ∧ q = m.add closing closing ∧
      (0 < opening → (blocks.map Block.isKept).head? = some true) ∧
      (0 < closing → (blocks.map Block.isKept).getLast? = some true) := by
  obtain ⟨opening, hopening, hrest, hfirst⟩ :=
    leads_trimStart (by decide : 0 < contextRadius) hleads
  obtain ⟨m, closing, htrimmed, hclosing, hq, hlast⟩ :=
    leads_trimEnd (by decide : 0 < contextRadius) hrest
  rw [map_isKept_modifyHead fun _ => Block.isKept_takeLast] at hlast
  exact ⟨opening, m, closing, hopening, htrimmed, hclosing, hq, hfirst, hlast⟩

/-! ### Rows of hunks -/

/-- A hunk and how many lines are left out before it. -/
structure Stretch where
  gap : Nat
  hunk : Hunk

structure Stretch.Leads (old new : Array α) (stretch : Stretch) (p q : Point) : Prop where
  agrees : Agrees old new p stretch.gap
  leads : Trace (Block.Leads old new) stretch.hunk (p.add stretch.gap stretch.gap) q

theorem Cut.leads (hcut : Cut blocks hunks) (hleads : Trace (Block.Leads old new) blocks p q) :
    ∃ hunk stretches r, hunks = hunk :: stretches.map Stretch.hunk ∧
      Trace (Block.Leads old new) hunk p r ∧ Trace (Stretch.Leads old new) stretches r q ∧
      ∀ stretch ∈ stretches, 0 < stretch.gap := by
  induction hcut generalizing p with
  | @whole blocks => exact ⟨blocks, [], q, rfl, hleads, .nil q, by simp⟩
  | @within front rest block hunks _ hkept hlong _ ih =>
      obtain ⟨m, hfront, hwhole⟩ := Trace.append_iff.mp hleads
      obtain ⟨r, hblock, hrest⟩ := Trace.cons_iff.mp hwhole
      obtain ⟨s, gap, hfirst, hpos, hgap, hlast⟩ :=
        Block.leads_cut (by decide) hkept hlong hblock
      obtain ⟨hunk, stretches, t, rfl, hhunk, hstretches, hgaps⟩ := ih (.cons hlast hrest)
      exact ⟨_, ⟨gap, hunk⟩ :: stretches, s, rfl, hfront.append (Trace.singleton_iff.mpr hfirst),
        .cons ⟨hgap, hhunk⟩ hstretches, List.forall_mem_cons.mpr ⟨hpos, hgaps⟩⟩

/-- A row of stretches with a closing gap after the last one. Every hunk is framed and has a change,
and between hunks there are gaps. Where a gap comes before a hunk or after it, the hunk begins or
ends with a kept block. -/
structure Row (old new : Array α) (shown : List Stretch) (closing : Nat) (p q : Point) : Prop where
  leads : ∃ m, Trace (Stretch.Leads old new) shown p m ∧ Agrees old new m closing ∧
    q = m.add closing closing
  framed : ∀ stretch ∈ shown, stretch.hunk.Framed
  changes : ∀ stretch ∈ shown, stretch.hunk.hasChange = true
  spaced : ∀ stretch ∈ shown.tail, 0 < stretch.gap
  opens : ∀ stretch ∈ shown, 0 < stretch.gap →
    (stretch.hunk.map Block.isKept).head? = some true
  closes : ∀ stretch ∈ shown.dropLast, (stretch.hunk.map Block.isKept).getLast? = some true
  closes_last : 0 < closing → ∀ stretch ∈ shown.getLast?,
    (stretch.hunk.map Block.isKept).getLast? = some true

theorem row_nil {closing : Nat} (hagrees : Agrees old new p closing) :
    Row old new [] closing p (p.add closing closing) where
  leads := ⟨p, .nil p, hagrees, rfl⟩
  framed := by simp
  changes := by simp
  spaced := by simp
  opens := by simp
  closes := by simp
  closes_last := by simp

theorem agrees_of_not_hasChange (hkept : hasChange blocks = false)
    (hleads : Trace (Block.Leads old new) blocks p q) :
    ∃ size, Agrees old new p size ∧ q = p.add size size := by
  induction blocks generalizing p with
  | nil => exact ⟨0, agrees_zero, (Trace.nil_iff.mp hleads).symm⟩
  | cons block blocks ih =>
      obtain ⟨m, hblock, hrest⟩ := Trace.cons_iff.mp hleads
      rw [hasChange_cons, Bool.or_eq_false_iff] at hkept
      obtain ⟨rest, hagrees, rfl⟩ := ih hkept.2 hrest
      cases block with
      | change => cases hkept.1
      | kept i j size =>
          obtain ⟨rfl, rfl, -, rfl, hfirst⟩ := Block.leads_kept_iff.mp hblock
          exact ⟨size + rest, agrees_add_iff.mpr ⟨hfirst, hagrees⟩, Point.add_add ..⟩

/-- The hunks that some blocks are cut into make a row with the gaps before the first block and after
the last. -/
theorem Cut.exists_row {opening closing : Nat} (hcut : Cut blocks hunks) (htrimmed : Trimmed blocks)
    (hchange : Hunk.hasChange blocks = true) (hopening : Agrees old new p opening)
    (hleads : Trace (Block.Leads old new) blocks (p.add opening opening) m)
    (hclosing : Agrees old new m closing)
    (hfirst : 0 < opening → (blocks.map Block.isKept).head? = some true)
    (hlast : 0 < closing → (blocks.map Block.isKept).getLast? = some true) :
    ∃ shown, shown.map Stretch.hunk = hunks ∧
      Row old new shown closing p (m.add closing closing) := by
  obtain ⟨hunk, stretches, r, rfl, hhunk, hstretches, hgaps⟩ := hcut.leads hleads
  refine ⟨⟨opening, hunk⟩ :: stretches, rfl,
    ⟨m, .cons ⟨hopening, hhunk⟩ hstretches, hclosing, rfl⟩,
    fun stretch hmem => hcut.framed htrimmed (List.mem_map_of_mem hmem),
    fun stretch hmem => hcut.hasChange htrimmed hchange (List.mem_map_of_mem hmem), hgaps, ?_, ?_,
    ?_⟩
  · intro stretch hmem hpos
    obtain rfl | hlater := List.mem_cons.mp hmem
    · rw [hcut.isKept_head rfl]
      exact hfirst hpos
    · exact hcut.opens_of_mem_tail (List.mem_map_of_mem hlater)
  · intro stretch hmem
    refine hcut.closes_of_mem_dropLast ?_
    have hmap := List.mem_map_of_mem (f := Stretch.hunk) hmem
    rwa [List.map_dropLast] at hmap
  · intro hpos stretch hmem
    have hlastHunk : ((⟨opening, hunk⟩ :: stretches).map Stretch.hunk).getLast? =
        some stretch.hunk := by rw [List.getLast?_map, Option.mem_def.mp hmem, Option.map_some]
    rw [hcut.isKept_last hlastHunk]
    exact hlast hpos

/-- Blocks without a change are one gap, and nothing of them is shown. Otherwise every hunk is. -/
theorem exists_row (hblocks : Trace (Block.Leads old new) blocks p q)
    (halternating : Alternating blocks) :
    ∃ shown closing, shown.map Stretch.hunk = ofBlocks blocks ∧
      Row old new shown closing p q := by
  obtain ⟨opening, m, closing, hopening, hleads, hclosing, rfl, hfirst, hlast⟩ :=
    leads_trimEnds hblocks
  rw [← map_isKept_trimEnds] at hfirst hlast
  have htrimmed : Trimmed (trimEnds blocks) := trimmed_trimEnds halternating
  have hcut : Cut (trimEnds blocks) (gather [] (trimEnds blocks)) :=
    cut_gather (List.forall_mem_nil _)
  rw [show ofBlocks blocks = (gather [] (trimEnds blocks)).filter hasChange from rfl]
  cases hchange : hasChange (trimEnds blocks) with
  | false =>
      obtain ⟨size, hagrees, rfl⟩ := agrees_of_not_hasChange hchange hleads
      have hnone : (gather [] (trimEnds blocks)).filter hasChange = [] :=
        List.filter_eq_nil_iff.mpr fun hunk hmem => by
          simp [hcut.hasChange_eq_false hchange hmem]
      refine ⟨[], opening + (size + closing), hnone.symm, ?_⟩
      rw [Point.add_add, Point.add_add]
      exact row_nil (agrees_add_iff.mpr ⟨hopening, agrees_add_iff.mpr ⟨hagrees, hclosing⟩⟩)
  | true =>
      have hall : (gather [] (trimEnds blocks)).filter hasChange = gather [] (trimEnds blocks) :=
        List.filter_eq_self.mpr fun hunk hmem => hcut.hasChange htrimmed hchange hmem
      obtain ⟨shown, hshown, hrow⟩ :=
        hcut.exists_row htrimmed hchange hopening hleads hclosing hfirst hlast
      exact ⟨shown, closing, hshown.trans hall.symm, hrow⟩

end Hunk

theorem exists_row_hunks (old new : Array α) :
    ∃ shown closing, shown.map Hunk.Stretch.hunk = hunks old new ∧
      Hunk.Row old new shown closing ⟨0, 0⟩ ⟨old.size, new.size⟩ :=
  have hblocks := Block.leads_ofScript (settled_compact (settled_script old new))
  Hunk.exists_row hblocks.1 hblocks.2

end Hush.Diff
