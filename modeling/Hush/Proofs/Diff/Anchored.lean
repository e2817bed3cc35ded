import Hush.Proofs.Diff.Context
import Mathlib.Data.List.TakeWhile

/-!
# Where a hunk says that it stands

A hunk takes its ranges from its first and its last block. These are right on a side from which the
two blocks take lines. A change without old lines, or without new ones, may be recorded elsewhere on
that side, and the range is wrong if such a change stands at an end of the hunk. Only the old start
is right even so, because a change without old lines is never recorded ahead of where it stands, and
nothing comes before a hunk that begins with one.
-/

namespace Hush.Diff

variable {α : Type}

def leadingChange (body : List (Mark × α)) : List (Mark × α) := body.takeWhile (·.1 ≠ .context)

/-- If the body begins with a change, not all lines of that are of this mark. -/
def Anchored (mark : Mark) (body : List (Mark × α)) : Prop :=
  leadingChange body ≠ [] → ∃ line ∈ leadingChange body, line.1 ≠ mark

theorem anchored_of_leadingChange_eq_nil {mark : Mark} {body : List (Mark × α)}
    (hnil : leadingChange body = []) : Anchored mark body := fun hne => absurd hnil hne

section Leading

variable {ι : Type} {solid : ι → Bool} {f : ι → List (Mark × α)} {item : ι} {items : List ι}
  {mark : Mark}

/-- Where changes are the solid items, a change at the start is all that stands before context. -/
theorem mem_of_mem_leadingChange (hlayered : Layered solid f (·.1 ≠ .context) (item :: items))
    (hsolid : solid item = true) {line : Mark × α}
    (hline : line ∈ leadingChange ((item :: items).flatMap f)) : line ∈ f item := by
  have hprefix := hlayered.prefix_of_prefix hsolid (List.takeWhile_prefix (·.1 ≠ .context))
    fun line hline => by simpa using List.mem_takeWhile_imp hline
  exact hprefix.subset hline

theorem leadingChange_eq_nil (hne : f item ≠ []) (hall : ∀ line ∈ f item, line.1 = .context) :
    leadingChange ((item :: items).flatMap f) = [] := by
  obtain ⟨line, rest, hitem⟩ := List.exists_cons_of_ne_nil hne
  have hline : line.1 = .context := hall line (hitem ▸ List.mem_cons_self)
  simp [leadingChange, hitem, hline]

theorem leadingChange_ne_nil (hne : f item ≠ []) (hall : ∀ line ∈ f item, line.1 ≠ .context) :
    leadingChange ((item :: items).flatMap f) ≠ [] := by
  obtain ⟨line, rest, hitem⟩ := List.exists_cons_of_ne_nil hne
  have hline : line.1 ≠ .context := hall line (hitem ▸ List.mem_cons_self)
  simp [leadingChange, hitem, hline]

/-- The change that the items start with, if they do, has a line that is not of the mark. -/
theorem exists_ne_mark (hlayered : Layered solid f (·.1 ≠ .context) (item :: items))
    (hanchored : Anchored mark ((item :: items).flatMap f))
    (hsolid : solid item = true) (hne : f item ≠ []) (hall : ∀ line ∈ f item, line.1 ≠ .context) :
    ∃ line ∈ f item, line.1 ≠ mark := by
  obtain ⟨line, hline, hmark⟩ := hanchored (leadingChange_ne_nil hne hall)
  exact ⟨line, mem_of_mem_leadingChange hlayered hsolid hline, hmark⟩

end Leading

/-! ### The sides of a block -/

variable {old new : Array α} {block : Block} {mark : Mark}

/-- Only a change can have no line on a side. -/
theorem Block.linesWithout_body_ne_nil (hne : block.body old new ≠ []) (hmark : mark ≠ .context)
    (hchange : block.isKept = false → ∃ line ∈ block.body old new, line.1 ≠ mark) :
    linesWithout mark (block.body old new) ≠ [] := by
  obtain ⟨line, hline, hother⟩ : ∃ line ∈ block.body old new, line.1 ≠ mark := by
    cases hkept : block.isKept with
    | false => exact hchange hkept
    | true =>
        obtain ⟨line, hline⟩ := List.exists_mem_of_ne_nil _ hne
        exact ⟨line, hline, fun heq => hmark (heq ▸ eq_context_of_mem_body hkept hline)⟩
  exact List.ne_nil_of_mem (mem_linesWithout hline hother)

/-! ### What is recorded right -/

variable [BEq α] {p q : Point} {hunk : Hunk}

theorem Block.stop_oldRange (hleads : block.Leads old new p q)
    (hne : oldLines (block.body old new) ≠ []) : block.oldRange.stop = q.old := by
  have hpos : 0 < block.oldRange.size := Nat.pos_of_ne_zero fun hzero => hne <| by
    rw [oldLines_body hleads, hleads.target_eq, Point.old_add, hzero]
    exact slice_eq_nil (Nat.sub_self _)
  rw [hleads.target_eq, Point.old_add, ← hleads.old_eq hpos]
  unfold Range.size at hpos ⊢
  omega

/-- A hunk that begins with a kept block, or before all old lines, states where it begins. -/
theorem Hunk.start_oldRange (hleads : Trace (Block.Leads old new) hunk p q) (hne : hunk ≠ [])
    (hplace : (hunk.map Block.isKept).head? = some true ∨ p.old = 0) :
    hunk.oldRange.start = p.old := by
  cases hunk with
  | nil => exact absurd rfl hne
  | cons first rest =>
      obtain ⟨m, hfirst, -⟩ := Trace.cons_iff.mp hleads
      change first.oldRange.start = p.old
      obtain hopens | hzero := hplace
      · cases first with
        | change => cases hopens
        | kept i j size => exact (Block.leads_kept_iff.mp hfirst).1
      · exact Nat.le_antisymm hfirst.old_le (hzero ▸ Nat.zero_le _)

variable [LawfulBEq α]

theorem Block.new_eq_of_ne_nil (hleads : block.Leads old new p q)
    (hne : newLines (block.body old new) ≠ []) :
    block.newRange.start = p.new ∧ block.newRange.stop = q.new := by
  have hpos : 0 < block.newRange.size := Nat.pos_of_ne_zero fun hzero => hne <| by
    rw [newLines_body hleads, hleads.target_eq, Point.new_add, hzero]
    exact slice_eq_nil (Nat.sub_self _)
  have hstart := hleads.new_eq hpos
  refine ⟨hstart, ?_⟩
  rw [hleads.target_eq, Point.new_add, ← hstart]
  unfold Range.size at hpos ⊢
  omega

/-! ### The ends of a hunk -/

theorem Hunk.layered_changes (hleads : Trace (Block.Leads old new) hunk p q)
    (hle : q ≤ ⟨old.size, new.size⟩) (halternating : Alternating hunk) :
    Layered (!·.isKept) (Block.body old new) (·.1 ≠ .context) hunk where
  alternating := by
    rw [Alternating, List.isChain_map] at halternating
    rw [List.isChain_map]
    exact halternating.imp fun a b hne heq => hne (by simpa using heq)
  ne_nil _ hmem _ := body_ne_nil_of_mem hleads hle hmem
  breaks block hmem hkept line hline := by
    simpa using Block.eq_context_of_mem_body (by simpa using hkept) hline

theorem Hunk.leadingChange_body (hleads : Trace (Block.Leads old new) hunk p q)
    (hle : q ≤ ⟨old.size, new.size⟩) (hopens : (hunk.map Block.isKept).head? = some true) :
    leadingChange (hunk.body old new) = [] := by
  cases hunk with
  | nil => cases hopens
  | cons block rest =>
      exact leadingChange_eq_nil (body_ne_nil_of_mem hleads hle List.mem_cons_self)
        fun line hline => Block.eq_context_of_mem_body (Option.some.inj hopens) hline

theorem Hunk.leadingChange_reverse_body (hleads : Trace (Block.Leads old new) hunk p q)
    (hle : q ≤ ⟨old.size, new.size⟩) (hcloses : (hunk.map Block.isKept).getLast? = some true) :
    leadingChange (hunk.body old new).reverse = [] := by
  obtain rfl | ⟨front, block, rfl⟩ := List.eq_nil_or_concat hunk
  · cases hcloses
  · rw [List.concat_eq_append] at hleads hcloses ⊢
    have hkept : block.isKept = true := by simpa using hcloses
    have hne : block.body old new ≠ [] :=
      body_ne_nil_of_mem hleads hle (List.mem_append_right front List.mem_cons_self)
    rw [body, List.reverse_flatMap, List.reverse_append, List.reverse_singleton,
      List.singleton_append]
    exact leadingChange_eq_nil (by simpa using hne)
      fun line hline => Block.eq_context_of_mem_body hkept (List.mem_reverse.mp hline)

/-- A hunk that is anchored at its start begins with a block that has lines on that side. -/
theorem Hunk.linesWithout_first_ne_nil (hleads : Trace (Block.Leads old new) hunk p q)
    (hle : q ≤ ⟨old.size, new.size⟩) (halternating : Alternating hunk) (hmark : mark ≠ .context)
    (hstart : Anchored mark (hunk.body old new)) (hblock : block ∈ hunk.head?) :
    linesWithout mark (block.body old new) ≠ [] := by
  cases hunk with
  | nil => cases hblock
  | cons first rest =>
      obtain rfl := Option.some.inj hblock
      have hfirst := body_ne_nil_of_mem hleads hle List.mem_cons_self
      exact Block.linesWithout_body_ne_nil hfirst hmark fun hchange =>
        exists_ne_mark (layered_changes hleads hle halternating) hstart (by simp [hchange]) hfirst
          fun line => Block.ne_context_of_mem_body hchange

/-- A hunk that is anchored at its end ends with a block that has lines on that side. -/
theorem Hunk.linesWithout_last_ne_nil (hleads : Trace (Block.Leads old new) hunk p q)
    (hle : q ≤ ⟨old.size, new.size⟩) (halternating : Alternating hunk) (hmark : mark ≠ .context)
    (hstop : Anchored mark (hunk.body old new).reverse) (hblock : block ∈ hunk.getLast?) :
    linesWithout mark (block.body old new) ≠ [] := by
  obtain ⟨front, rfl⟩ := List.getLast?_eq_some_iff.mp hblock
  have hlast := body_ne_nil_of_mem hleads hle (List.mem_append_right front List.mem_cons_self)
  refine Block.linesWithout_body_ne_nil hlast hmark fun hchange => ?_
  have hreverse : (front ++ [block]).reverse = block :: front.reverse := by simp
  have hbackward := (layered_changes hleads hle halternating).reverse
  rw [Hunk.body, List.reverse_flatMap, hreverse] at hstop
  rw [hreverse] at hbackward
  obtain ⟨line, hline, hother⟩ := exists_ne_mark hbackward hstop (by simp [hchange])
    (by simpa using hlast)
    fun line hline => Block.ne_context_of_mem_body hchange (List.mem_reverse.mp hline)
  exact ⟨line, List.mem_reverse.mp hline, hother⟩

theorem Hunk.stop_oldRange (hleads : Trace (Block.Leads old new) hunk p q) (hne : hunk ≠ [])
    (hle : q ≤ ⟨old.size, new.size⟩) (halternating : Alternating hunk)
    (hstop : Anchored .added (hunk.body old new).reverse) : hunk.oldRange.stop = q.old := by
  obtain ⟨r, hlast⟩ := hleads.exists_getLast hne
  have hlines := linesWithout_last_ne_nil hleads hle halternating (by decide) hstop
    (List.getLast?_eq_some_getLast hne)
  cases hunk with
  | nil => exact absurd rfl hne
  | cons first rest => exact Block.stop_oldRange hlast hlines

theorem Hunk.newRange_eq (hleads : Trace (Block.Leads old new) hunk p q) (hne : hunk ≠ [])
    (hle : q ≤ ⟨old.size, new.size⟩) (halternating : Alternating hunk)
    (hstart : Anchored .removed (hunk.body old new))
    (hstop : Anchored .removed (hunk.body old new).reverse) : hunk.newRange = ⟨p.new, q.new⟩ := by
  obtain ⟨r, hlast⟩ := hleads.exists_getLast hne
  have hto := Block.new_eq_of_ne_nil hlast (linesWithout_last_ne_nil hleads hle halternating
    (by decide) hstop (List.getLast?_eq_some_getLast hne))
  cases hunk with
  | nil => exact absurd rfl hne
  | cons first rest =>
      obtain ⟨m, hfirst, -⟩ := Trace.cons_iff.mp hleads
      have hfrom := Block.new_eq_of_ne_nil hfirst
        (linesWithout_first_ne_nil hleads hle halternating (by decide) hstart rfl)
      rw [newRange, Range.upTo, hfrom.1, hto.2]

end Hush.Diff
