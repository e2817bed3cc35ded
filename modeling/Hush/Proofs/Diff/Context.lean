import Hush.Proofs.Diff.Sides

/-!
# How much context a hunk shows

Lines of context stand next to each other only within one kept block, because the change between
two kept blocks has a line of its own. So the bounds on kept blocks are bounds on context lines: as
many as the context of two neighbours inside a hunk, and of one at its ends.
-/

namespace Hush.Diff

/-! ### Items of two sorts in turn -/

section Layers

variable {ι β : Type} {solid : ι → Bool} {f : ι → List β} {P : β → Prop} {item : ι}
  {items : List ι} {part : List β} {limit : Nat}

/-- Solid items take turns with others, which have elements but none with the property. -/
structure Layered (solid : ι → Bool) (f : ι → List β) (P : β → Prop) (items : List ι) : Prop where
  alternating : (items.map solid).IsChain (· ≠ ·)
  ne_nil : ∀ item ∈ items, solid item = false → f item ≠ []
  breaks : ∀ item ∈ items, solid item = false → ∀ x ∈ f item, ¬P x

theorem Layered.tail (hlayered : Layered solid f P (item :: items)) : Layered solid f P items where
  alternating := hlayered.alternating.tail
  ne_nil other hmem := hlayered.ne_nil other (List.mem_cons_of_mem item hmem)
  breaks other hmem := hlayered.breaks other (List.mem_cons_of_mem item hmem)

theorem Layered.reverse (hlayered : Layered solid f P items) :
    Layered solid (List.reverse ∘ f) P items.reverse where
  alternating := by
    rw [List.map_reverse, List.isChain_reverse]
    exact hlayered.alternating.imp fun _ _ => Ne.symm
  ne_nil other hmem hsolid := by
    simpa using hlayered.ne_nil other (List.mem_reverse.mp hmem) hsolid
  breaks other hmem hsolid x hx :=
    hlayered.breaks other (List.mem_reverse.mp hmem) hsolid x (List.mem_reverse.mp hx)

theorem Layered.not_solid_head_tail (hlayered : Layered solid f P (item :: items))
    (hsolid : solid item = true) : ∀ next ∈ items.head?, solid next = false := by
  cases items with
  | nil => exact nofun
  | cons next items =>
      rintro _ ⟨⟩
      have hne : solid item ≠ solid next := (List.isChain_cons_cons.mp hlayered.alternating).1
      simpa [hsolid] using hne.symm

/-- Nothing has the property before the first solid item, unless that is the very first. -/
theorem Layered.eq_nil_of_prefix (hlayered : Layered solid f P items)
    (hfirst : ∀ item ∈ items.head?, solid item = false) (hpart : part <+: items.flatMap f)
    (hall : ∀ x ∈ part, P x) : part = [] := by
  cases items with
  | nil => exact List.prefix_nil.mp hpart
  | cons item items =>
      have hbroken : solid item = false := hfirst item rfl
      obtain ⟨a, rest, hcons⟩ :=
        List.exists_cons_of_ne_nil (hlayered.ne_nil item List.mem_cons_self hbroken)
      cases part with
      | nil => rfl
      | cons x part =>
          rw [List.flatMap_cons, hcons, List.cons_append, List.cons_prefix_cons] at hpart
          have hbreaks := hlayered.breaks item List.mem_cons_self hbroken a (by simp [hcons])
          exact absurd (hpart.1 ▸ hall x List.mem_cons_self) hbreaks

theorem Layered.prefix_of_prefix (hlayered : Layered solid f P (item :: items))
    (hsolid : solid item = true) (hpart : part <+: (item :: items).flatMap f)
    (hall : ∀ x ∈ part, P x) : part <+: f item := by
  obtain ⟨rest, hrest⟩ := hpart
  rw [List.flatMap_cons, List.append_eq_append_iff] at hrest
  obtain ⟨left, hitem, -⟩ | ⟨more, rfl, hmore⟩ := hrest
  · exact ⟨left, hitem.symm⟩
  · have hnil : more = [] := hlayered.tail.eq_nil_of_prefix
      (hlayered.not_solid_head_tail hsolid) ⟨rest, hmore.symm⟩
      fun x hx => hall x (List.mem_append_right _ hx)
    exact ⟨[], by rw [hnil, List.append_nil, List.append_nil]⟩

theorem Layered.length_le_of_prefix (hlayered : Layered solid f P items)
    (hfirst : ∀ item ∈ items.head?, solid item = true → (f item).length ≤ limit)
    (hpart : part <+: items.flatMap f) (hall : ∀ x ∈ part, P x) : part.length ≤ limit := by
  by_cases hbroken : ∀ item ∈ items.head?, solid item = false
  · rw [hlayered.eq_nil_of_prefix hbroken hpart hall]
    exact Nat.zero_le limit
  · cases items with
    | nil => exact absurd nofun hbroken
    | cons item items =>
        have hsolid : solid item = true := by simpa using hbroken
        exact (hlayered.prefix_of_prefix hsolid hpart hall).length_le.trans (hfirst item rfl hsolid)

theorem Layered.length_le_of_infix (hlayered : Layered solid f P items)
    (hlimit : ∀ item ∈ items, solid item = true → (f item).length ≤ limit)
    (hpart : part <:+: items.flatMap f) (hall : ∀ x ∈ part, P x) : part.length ≤ limit := by
  induction items with
  | nil =>
      rw [List.infix_nil.mp hpart]
      exact Nat.zero_le limit
  | cons item items ih =>
      have hrest := ih hlayered.tail (List.forall_mem_cons.mp hlimit).2
      rw [List.flatMap_cons, List.infix_append_iff] at hpart
      cases hsolid : solid item with
      | true =>
          have hitem := hlimit item List.mem_cons_self hsolid
          obtain hinside | hbehind | ⟨before, after, rfl, hbefore, hafter⟩ := hpart
          · exact hinside.length_le.trans hitem
          · exact hrest hbehind
          · have hnil : after = [] := hlayered.tail.eq_nil_of_prefix
              (hlayered.not_solid_head_tail hsolid) hafter
              fun x hx => hall x (List.mem_append_right _ hx)
            rw [hnil, List.append_nil]
            exact hbefore.length_le.trans hitem
      | false =>
          have hbreaks := hlayered.breaks item List.mem_cons_self hsolid
          obtain hinside | hbehind | ⟨before, after, rfl, hbefore, hafter⟩ := hpart
          · have hnil : part = [] := List.eq_nil_iff_forall_not_mem.mpr fun x hx =>
              hbreaks x (hinside.subset hx) (hall x hx)
            rw [hnil]
            exact Nat.zero_le limit
          · exact hrest hbehind
          · have hnil : before = [] := List.eq_nil_iff_forall_not_mem.mpr fun x hx =>
              hbreaks x (hbefore.subset hx) (hall x (List.mem_append_left _ hx))
            exact hrest (by simpa [hnil] using hafter.isInfix)

end Layers

/-! ### Bodies -/

section Bodies

variable {α : Type} {old new : Array α} {block : Block}

theorem Block.length_body_le (hkept : block.isKept = true) :
    (block.body old new).length ≤ block.oldRange.size := by
  cases block with
  | change => cases hkept
  | kept i j size =>
      rw [Block.body, List.length_map]
      exact length_slice_le _

theorem Block.eq_context_of_mem_body (hkept : block.isKept = true) {line : Mark × α}
    (hline : line ∈ block.body old new) : line.1 = .context := by
  cases block with
  | change => cases hkept
  | kept i j size =>
      obtain ⟨x, -, rfl⟩ := List.mem_map.mp hline
      rfl

theorem Block.ne_context_of_mem_body (hchange : block.isKept = false) {line : Mark × α}
    (hline : line ∈ block.body old new) : line.1 ≠ .context := by
  cases block with
  | kept => cases hchange
  | change oldRange newRange =>
      rw [Block.body, List.mem_append, List.mem_map, List.mem_map] at hline
      obtain ⟨x, -, rfl⟩ | ⟨x, -, rfl⟩ := hline
      · simp
      · simp

variable [BEq α] [LawfulBEq α] {p q : Point} {hunk : Hunk}

theorem Block.body_ne_nil (hleads : block.Leads old new p q) (hle : q ≤ ⟨old.size, new.size⟩) :
    block.body old new ≠ [] := by
  intro hnil
  have hold : ((Range.mk p.old q.old).slice old).length = 0 := by
    rw [← Block.oldLines_body hleads, hnil]
    rfl
  have hnew : ((Range.mk p.new q.new).slice new).length = 0 := by
    rw [← Block.newLines_body hleads, hnil]
    rfl
  rw [length_slice hle.1, hleads.target_eq, Point.old_add] at hold
  rw [length_slice hle.2, hleads.target_eq, Point.new_add] at hnew
  have := hleads.size_pos
  omega

theorem Hunk.body_ne_nil_of_mem (hleads : Trace (Block.Leads old new) hunk p q)
    (hle : q ≤ ⟨old.size, new.size⟩) (hmem : block ∈ hunk) : block.body old new ≠ [] := by
  obtain ⟨r, s, hblock, hs⟩ := hleads.exists_of_mem Block.Leads.le hmem
  exact Block.body_ne_nil hblock (hs.trans hle)

theorem Hunk.layered_body (hleads : Trace (Block.Leads old new) hunk p q)
    (hle : q ≤ ⟨old.size, new.size⟩) (halternating : Alternating hunk) :
    Layered Block.isKept (Block.body old new) (·.1 = .context) hunk where
  alternating := halternating
  ne_nil _ hmem _ := body_ne_nil_of_mem hleads hle hmem
  breaks _ _ hchange _ hline := Block.ne_context_of_mem_body hchange hline

/-- A body shows a change, next to each other at most six lines of context, and at most three at
its start and at its end. -/
structure FramedBody (body : List (Mark × α)) : Prop where
  changes : ∃ line ∈ body, line.1 ≠ .context
  start : ∀ part, part <+: body → (∀ line ∈ part, line.1 = .context) → part.length ≤ 3
  stop : ∀ part, part <:+ body → (∀ line ∈ part, line.1 = .context) → part.length ≤ 3
  inside : ∀ part, part <:+: body → (∀ line ∈ part, line.1 = .context) → part.length ≤ 6

theorem Hunk.framed_body (hleads : Trace (Block.Leads old new) hunk p q)
    (hle : q ≤ ⟨old.size, new.size⟩) (hframed : hunk.Framed) (hchange : hunk.hasChange = true) :
    FramedBody (hunk.body old new) := by
  have hlayered := layered_body hleads hle hframed.alternating
  have hwithin {block : Block} {limit : Nat} (hblock : block.KeptWithin limit)
      (hkept : block.isKept = true) : (block.body old new).length ≤ limit :=
    (Block.length_body_le hkept).trans (hblock hkept)
  refine ⟨?_, fun part hpart hall => ?_, fun part hpart hall => ?_, fun part hpart hall => ?_⟩
  · obtain ⟨block, hmem, hblock⟩ := List.any_eq_true.mp hchange
    have hbroken : block.isKept = false := by simpa using hblock
    obtain ⟨line, rest, hbody⟩ := List.exists_cons_of_ne_nil (hlayered.ne_nil block hmem hbroken)
    have hline : line ∈ block.body old new := hbody ▸ List.mem_cons_self
    exact ⟨line, List.mem_flatMap.mpr ⟨block, hmem, hline⟩,
      hlayered.breaks block hmem hbroken line hline⟩
  · exact hlayered.length_le_of_prefix
      (fun block hmem => hwithin (hframed.first block hmem)) hpart hall
  · have hreversed : part.reverse <+: hunk.reverse.flatMap (List.reverse ∘ Block.body old new) := by
      rw [← List.reverse_flatMap]
      exact List.reverse_prefix.mpr hpart
    have hlast : ∀ block ∈ hunk.reverse.head?, block.isKept = true →
        (block.body old new).reverse.length ≤ contextRadius := by
      intro block hmem
      rw [List.head?_reverse] at hmem
      rw [List.length_reverse]
      exact hwithin (hframed.last block hmem)
    have hlength := hlayered.reverse.length_le_of_prefix hlast hreversed
      fun line hline => hall line (List.mem_reverse.mp hline)
    rwa [List.length_reverse] at hlength
  · exact hlayered.length_le_of_infix
      (fun block hmem => hwithin (hframed.short block hmem)) hpart hall

end Bodies

end Hush.Diff
