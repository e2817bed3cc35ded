import Hush.Diff.Hunk
import Hush.Proofs.Diff.Block

/-!
# How blocks are gathered to hunks

A list of blocks is cut within each kept block that is longer than the context of two neighbours,
and both sides keep the context of one. Everything about the shape of hunks is read off from that:
which of them change something, how long their kept blocks are, and that a hunk begins and ends with
a kept block wherever it is cut from another.
-/

namespace Hush.Diff

namespace Block

variable {block : Block} {limit : Nat}

@[simp] theorem isKept_takeLast : (block.takeLast limit).isKept = block.isKept := by
  cases block <;> rfl

@[simp] theorem isKept_takeFirst : (block.takeFirst limit).isKept = block.isKept := by
  cases block <;> rfl

/-- If the block is kept, it has at most so many lines. -/
def KeptWithin (limit : Nat) (block : Block) : Prop :=
  block.isKept = true → block.oldRange.size ≤ limit

theorem keptWithin_takeLast : (block.takeLast limit).KeptWithin limit := by
  cases block with
  | kept => exact fun _ => le_of_eq_of_le (Range.size_ofSize ..) (Nat.min_le_right ..)
  | change => exact nofun

theorem keptWithin_takeFirst : (block.takeFirst limit).KeptWithin limit := by
  cases block with
  | kept => exact fun _ => le_of_eq_of_le (Range.size_ofSize ..) (Nat.min_le_right ..)
  | change => exact nofun

theorem KeptWithin.mono {more : Nat} (hwithin : block.KeptWithin limit) (hle : limit ≤ more) :
    block.KeptWithin more := fun hkept => (hwithin hkept).trans hle

end Block

namespace Hunk

variable {blocks pending : List Block} {hunks : List Hunk} {hunk : Hunk}

/-! ### Cutting -/

inductive Cut : List Block → List Hunk → Prop
  | whole {blocks : List Block}
      (hshort : ∀ block ∈ blocks, block.KeptWithin (2 * contextRadius)) : Cut blocks [blocks]
  | within {front rest : List Block} {block : Block} {hunks : List Hunk}
      (hshort : ∀ block ∈ front, block.KeptWithin (2 * contextRadius))
      (hkept : block.isKept = true) (hlong : 2 * contextRadius < block.oldRange.size)
      (hrest : Cut (block.takeLast contextRadius :: rest) hunks) :
      Cut (front ++ block :: rest) ((front ++ [block.takeFirst contextRadius]) :: hunks)

theorem cut_gather (hpending : ∀ block ∈ pending, block.KeptWithin (2 * contextRadius)) :
    Cut (pending.reverse ++ blocks) (gather pending blocks) := by
  induction blocks generalizing pending with
  | nil =>
      rw [List.append_nil, gather]
      exact .whole fun block hmem => hpending block (List.mem_reverse.mp hmem)
  | cons block blocks ih =>
      rw [gather]
      split <;> rename_i hlong
      · rw [Bool.and_eq_true, decide_eq_true_eq] at hlong
        rw [List.reverse_cons]
        refine .within (fun block hmem => hpending block (List.mem_reverse.mp hmem))
          hlong.1 hlong.2 ?_
        have hlast : ∀ kept ∈ [block.takeLast contextRadius],
            kept.KeptWithin (2 * contextRadius) :=
          List.forall_mem_singleton.mpr (Block.keptWithin_takeLast.mono (by decide))
        exact ih hlast
      · have hblock : block.KeptWithin (2 * contextRadius) := fun hkept => by
          simpa [hkept] using hlong
        have hcut := ih (List.forall_mem_cons.mpr ⟨hblock, hpending⟩)
        rwa [List.reverse_cons, ← List.append_cons] at hcut

namespace Cut

theorem ne_nil (hcut : Cut blocks hunks) : hunks ≠ [] := by
  cases hcut <;> exact List.cons_ne_nil _ _

/-- The blocks and the first hunk begin with the same sort of block. -/
theorem isKept_head (hcut : Cut blocks hunks) (hmem : hunk ∈ hunks.head?) :
    (hunk.map Block.isKept).head? = (blocks.map Block.isKept).head? := by
  cases hcut with
  | whole =>
      cases hmem
      rfl
  | @within front =>
      cases hmem
      cases front <;> simp

/-- The blocks and the last hunk end with the same sort of block. -/
theorem isKept_last (hcut : Cut blocks hunks) (hmem : hunk ∈ hunks.getLast?) :
    (hunk.map Block.isKept).getLast? = (blocks.map Block.isKept).getLast? := by
  induction hcut with
  | whole =>
      cases hmem
      rfl
  | @within front rest block hunks _ _ _ hrest ih =>
      rw [List.getLast?_cons_of_ne_nil hrest.ne_nil] at hmem
      rw [ih hmem, List.map_append, List.getLast?_append_of_ne_nil _ (by simp), List.map_cons,
        List.map_cons, Block.isKept_takeLast]

/-- A hunk after the first begins with what is left of a kept block. -/
theorem opens_of_mem_tail (hcut : Cut blocks hunks) (hmem : hunk ∈ hunks.tail) :
    (hunk.map Block.isKept).head? = some true := by
  induction hcut with
  | whole => cases hmem
  | @within front rest block hunks _ hkept _ hrest ih =>
      obtain ⟨first, later, rfl⟩ := List.exists_cons_of_ne_nil hrest.ne_nil
      obtain rfl | hlater := List.mem_cons.mp hmem
      · rw [hrest.isKept_head rfl]
        simp [hkept]
      · exact ih hlater

/-- A hunk before the last ends with what is left of a kept block. -/
theorem closes_of_mem_dropLast (hcut : Cut blocks hunks) (hmem : hunk ∈ hunks.dropLast) :
    (hunk.map Block.isKept).getLast? = some true := by
  induction hcut with
  | whole => cases hmem
  | @within front rest block hunks _ hkept _ hrest ih =>
      rw [List.dropLast_cons_of_ne_nil hrest.ne_nil] at hmem
      obtain rfl | hlater := List.mem_cons.mp hmem
      · simp [hkept]
      · exact ih hlater

end Cut

/-! ### The shape of a hunk -/

/-- Kept blocks and changes alternate, and a kept block at an end has at most the context of its one
neighbour. -/
structure Trimmed (blocks : List Block) : Prop where
  alternating : Alternating blocks
  first : ∀ block ∈ blocks.head?, block.KeptWithin contextRadius
  last : ∀ block ∈ blocks.getLast?, block.KeptWithin contextRadius

/-- Kept blocks and changes alternate in a hunk. A kept block has at most the context of both its
neighbours, and at an end of the hunk the context of one. -/
structure Framed (hunk : Hunk) : Prop where
  alternating : Alternating hunk
  short : ∀ block ∈ hunk, block.KeptWithin (2 * contextRadius)
  first : ∀ block ∈ hunk.head?, block.KeptWithin contextRadius
  last : ∀ block ∈ hunk.getLast?, block.KeptWithin contextRadius

def hasChange (hunk : Hunk) : Bool := hunk.any fun block => !block.isKept

theorem hasChange_append (front rest : List Block) :
    hasChange (front ++ rest) = (hasChange front || hasChange rest) := List.any_append

theorem hasChange_cons (block : Block) (rest : List Block) :
    hasChange (block :: rest) = (!block.isKept || hasChange rest) := List.any_cons

section Within

variable {front rest : List Block} {block : Block}

theorem Trimmed.takeLast (htrimmed : Trimmed (front ++ block :: rest)) :
    Trimmed (block.takeLast contextRadius :: rest) := by
  obtain ⟨halternating, -, hlast⟩ := htrimmed
  refine ⟨?_, by simp [Block.keptWithin_takeLast], ?_⟩
  · rw [Alternating, List.map_append, List.map_cons] at halternating
    simpa [Alternating] using halternating.right_of_append
  · cases rest with
    | nil => simp [Block.keptWithin_takeLast]
    | cons next rest =>
        rw [List.getLast?_append_cons, List.getLast?_cons_cons] at hlast
        rwa [List.getLast?_cons_cons]

theorem hasChange_front (halternating : Alternating (front ++ block :: rest))
    (hkept : block.isKept = true) (hne : front ≠ []) : hasChange front = true := by
  obtain ⟨inner, last, rfl⟩ := (List.eq_nil_or_concat front).resolve_left hne
  rw [Alternating, List.concat_eq_append, List.append_assoc, List.singleton_append,
    List.map_append] at halternating
  have hborder := (List.isChain_cons_cons.mp halternating.right_of_append).1
  have hlast : last.isKept = false := by simpa [hkept] using hborder
  rw [List.concat_eq_append, hasChange_append, hasChange_cons, hlast]
  simp

theorem hasChange_rest (halternating : Alternating (front ++ block :: rest))
    (hkept : block.isKept = true) (hne : rest ≠ []) : hasChange rest = true := by
  obtain ⟨next, later, rfl⟩ := List.exists_cons_of_ne_nil hne
  rw [Alternating, List.map_append] at halternating
  have hborder := (List.isChain_cons_cons.mp halternating.right_of_append).1
  have hnext : next.isKept = false := by simpa [hkept] using hborder
  rw [hasChange_cons, hnext]
  rfl

end Within

namespace Cut

theorem framed (hcut : Cut blocks hunks) (htrimmed : Trimmed blocks) (hmem : hunk ∈ hunks) :
    Framed hunk := by
  induction hcut with
  | whole hshort =>
      obtain rfl := List.mem_singleton.mp hmem
      exact ⟨htrimmed.alternating, hshort, htrimmed.first, htrimmed.last⟩
  | @within front rest block hunks hshort hkept hlong hrest ih =>
      obtain rfl | hlater := List.mem_cons.mp hmem
      · obtain ⟨halternating, hfirst, -⟩ := htrimmed
        refine ⟨?_, ?_, ?_, ?_⟩
        · rw [List.append_cons, Alternating, List.map_append] at halternating
          simpa [Alternating] using halternating.left_of_append
        · rw [List.forall_mem_append, List.forall_mem_singleton]
          exact ⟨hshort, Block.keptWithin_takeFirst.mono (by decide)⟩
        · cases front with
          | nil => simp [Block.keptWithin_takeFirst]
          | cons first front => exact hfirst
        · simp [Block.keptWithin_takeFirst]
      · exact ih htrimmed.takeLast hlater

/-- No hunk is left without a change, unless the blocks have none. A long kept block is not at an
end, so there are changes on both its sides. -/
theorem hasChange (hcut : Cut blocks hunks) (htrimmed : Trimmed blocks)
    (hchange : Hunk.hasChange blocks = true) (hmem : hunk ∈ hunks) :
    Hunk.hasChange hunk = true := by
  induction hcut with
  | whole =>
      obtain rfl := List.mem_singleton.mp hmem
      exact hchange
  | @within front rest block hunks _ hkept hlong hrest ih =>
      have hnot : ¬block.KeptWithin contextRadius := fun hwithin => by
        have := hwithin hkept
        omega
      obtain rfl | hlater := List.mem_cons.mp hmem
      · have hne : front ≠ [] := by
          rintro rfl
          exact hnot (htrimmed.first block rfl)
        rw [hasChange_append, hasChange_front htrimmed.alternating hkept hne, Bool.true_or]
      · have hne : rest ≠ [] := by
          rintro rfl
          exact hnot (htrimmed.last block (by simp))
        refine ih htrimmed.takeLast ?_ hlater
        rw [hasChange_cons, hasChange_rest htrimmed.alternating hkept hne, Bool.or_true]

theorem hasChange_eq_false (hcut : Cut blocks hunks) (hchange : Hunk.hasChange blocks = false)
    (hmem : hunk ∈ hunks) : Hunk.hasChange hunk = false := by
  induction hcut with
  | whole =>
      obtain rfl := List.mem_singleton.mp hmem
      exact hchange
  | @within front rest block hunks _ hkept _ hrest ih =>
      rw [hasChange_append, hasChange_cons, hkept, Bool.not_true, Bool.false_or,
        Bool.or_eq_false_iff] at hchange
      obtain rfl | hlater := List.mem_cons.mp hmem
      · rw [hasChange_append, hchange.1, hasChange_cons, Block.isKept_takeFirst, hkept]
        rfl
      · refine ih ?_ hlater
        rw [hasChange_cons, Block.isKept_takeLast, hkept, hchange.2]
        rfl

end Cut

/-! ### The ends of a list of blocks -/

/-- The ends are cut down and nothing else changes. -/
theorem trimEnds_cases (blocks : List Block) :
    blocks = [] ∧ trimEnds blocks = [] ∨
      (∃ block, blocks = [block] ∧
        trimEnds blocks = [(block.takeLast contextRadius).takeFirst contextRadius]) ∨
      ∃ first inner last, blocks = first :: (inner ++ [last]) ∧
        trimEnds blocks =
          first.takeLast contextRadius :: (inner ++ [last.takeFirst contextRadius]) := by
  cases blocks with
  | nil => exact .inl ⟨rfl, rfl⟩
  | cons first rest =>
      obtain rfl | ⟨inner, last, rfl⟩ := List.eq_nil_or_concat rest
      · exact .inr (.inl ⟨first, rfl, rfl⟩)
      · exact .inr (.inr ⟨first, inner, last, by simp, by simp [trimEnds]⟩)

theorem map_isKept_modifyHead {f : Block → Block} (hf : ∀ block, (f block).isKept = block.isKept)
    (blocks : List Block) : (blocks.modifyHead f).map Block.isKept = blocks.map Block.isKept := by
  cases blocks with
  | nil => rfl
  | cons block blocks => rw [List.modifyHead_cons, List.map_cons, List.map_cons, hf]

theorem map_isKept_trimEnds (blocks : List Block) :
    (trimEnds blocks).map Block.isKept = blocks.map Block.isKept := by
  rw [trimEnds, List.map_reverse, map_isKept_modifyHead fun _ => Block.isKept_takeFirst,
    List.map_reverse, List.reverse_reverse, map_isKept_modifyHead fun _ => Block.isKept_takeLast]

theorem trimmed_trimEnds (halternating : Alternating blocks) : Trimmed (trimEnds blocks) := by
  rw [Alternating, ← map_isKept_trimEnds] at halternating
  obtain ⟨-, htrimmed⟩ | ⟨block, -, htrimmed⟩ | ⟨first, inner, last, -, htrimmed⟩ :=
    trimEnds_cases blocks
  · exact ⟨halternating, by simp [htrimmed], by simp [htrimmed]⟩
  · exact ⟨halternating, by simp [htrimmed, Block.keptWithin_takeFirst],
      by simp [htrimmed, Block.keptWithin_takeFirst]⟩
  · refine ⟨halternating, by simp [htrimmed, Block.keptWithin_takeLast], ?_⟩
    rw [htrimmed, ← List.cons_append, List.getLast?_concat]
    simp [Block.keptWithin_takeFirst]

end Hunk

end Hush.Diff
