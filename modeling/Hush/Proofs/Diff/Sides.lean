import Hush.Proofs.Diff.Hunk

/-!
# The two sides of a body

The context and removed lines of a hunk are the old lines that it covers, and its context and added
lines are the new ones. The lines left out in a gap are the same on both sides.
-/

namespace Hush.Diff

variable {α : Type}

/-- The lines of a body but those of a mark. -/
def linesWithout (mark : Mark) (body : List (Mark × α)) : List α :=
  (body.filter (·.1 ≠ mark)).map (·.2)

abbrev oldLines (body : List (Mark × α)) : List α := linesWithout .added body

abbrev newLines (body : List (Mark × α)) : List α := linesWithout .removed body

@[simp] theorem linesWithout_append (mark : Mark) (body rest : List (Mark × α)) :
    linesWithout mark (body ++ rest) = linesWithout mark body ++ linesWithout mark rest := by
  simp [linesWithout]

theorem linesWithout_map_self (mark : Mark) (lines : List α) :
    linesWithout mark (lines.map (mark, ·)) = [] := by
  simp [linesWithout, List.filter_map]

theorem linesWithout_map {mark other : Mark} (hne : other ≠ mark) (lines : List α) :
    linesWithout mark (lines.map (other, ·)) = lines := by
  simp [linesWithout, List.filter_map, hne, Function.comp_def]

theorem linesWithout_flatMap {β : Type} (mark : Mark) (items : List β) (f : β → List (Mark × α)) :
    linesWithout mark (items.flatMap f) = items.flatMap fun item => linesWithout mark (f item) := by
  simp [linesWithout, List.filter_flatMap, List.map_flatMap]

theorem mem_linesWithout {mark : Mark} {body : List (Mark × α)} {line : Mark × α}
    (hline : line ∈ body) (hmark : line.1 ≠ mark) : line.2 ∈ linesWithout mark body :=
  List.mem_map_of_mem (List.mem_filter.mpr ⟨hline, by simpa using hmark⟩)

/-! ### Slices -/

section Slices

variable {sequence : Array α} {i j k : Nat}

theorem slice_mk (i j : Nat) : (Range.mk i j).slice sequence = (sequence.extract i j).toList := rfl

theorem slice_append (hij : i ≤ j) (hjk : j ≤ k) :
    (Range.mk i j).slice sequence ++ (Range.mk j k).slice sequence =
      (Range.mk i k).slice sequence := by
  rw [slice_mk, slice_mk, slice_mk, ← Array.toList_append, Array.extract_append_extract,
    Nat.min_eq_left hij, Nat.max_eq_right hjk]

theorem slice_eq_nil {range : Range} (hsize : range.size = 0) : range.slice sequence = [] := by
  rw [Range.slice, Array.extract_eq_empty_of_le]
  unfold Range.size at hsize
  omega

theorem length_slice_le (range : Range) : (range.slice sequence).length ≤ range.size := by
  simp only [Range.slice, Array.length_toList, Array.size_extract, Range.size]
  omega

theorem length_slice (hj : j ≤ sequence.size) : ((Range.mk i j).slice sequence).length = j - i := by
  rw [slice_mk, Array.length_toList, Array.size_extract, Nat.min_eq_left hj]

/-- A range stands for its lines only, wherever an empty one is recorded. -/
theorem Range.slice_eq {range : Range} (hstart : 0 < range.size → range.start = i) :
    range.slice sequence = (Range.mk i (i + range.size)).slice sequence := by
  obtain hzero | hpos := Nat.eq_zero_or_pos range.size
  · rw [slice_eq_nil hzero, hzero, slice_eq_nil (by simp [Range.size])]
  · have hstop : range.stop = i + range.size := by
      have := hstart hpos
      unfold Range.size at hpos ⊢
      omega
    rw [← hstop, ← hstart hpos]

/-- What the items of a reading stand for on one side, one after another, is what the whole reading
stands for there. -/
theorem Trace.flatMap_eq_slice {β : Type} {Leads : β → Point → Point → Prop} {items : List β}
    {f : β → List α} {side : Point → Nat} {p q : Point} (hside : Monotone side)
    (hle : ∀ {item p q}, Leads item p q → p ≤ q)
    (hf : ∀ {item p q}, Leads item p q → f item = (Range.mk (side p) (side q)).slice sequence)
    (hitems : Trace Leads items p q) :
    items.flatMap f = (Range.mk (side p) (side q)).slice sequence := by
  induction hitems with
  | nil p => exact (slice_eq_nil (Nat.sub_self _)).symm
  | cons head tail ih =>
      rw [List.flatMap_cons, hf head, ih, slice_append (hside (hle head)) (hside (tail.le hle))]

end Slices

variable [BEq α] {old new : Array α} {p q : Point}

theorem getElem?_eq_of_agree [LawfulBEq α] {i j : Nat} (hagree : agree old new i j = true) :
    ∃ element, old[i]? = some element ∧ new[j]? = some element := by
  unfold agree at hagree
  split at hagree
  · rename_i hbounds
    exact ⟨old[i], Array.getElem?_eq_getElem hbounds.1,
      by rw [eq_of_beq hagree, Array.getElem?_eq_getElem hbounds.2]⟩
  · cases hagree

theorem Agrees.slice_eq [LawfulBEq α] {size : Nat} (hagrees : Agrees old new p size) :
    (Range.mk p.old (p.old + size)).slice old = (Range.mk p.new (p.new + size)).slice new := by
  rw [slice_mk, slice_mk]
  refine congrArg Array.toList (Array.ext_getElem? fun k => ?_)
  rw [Array.getElem?_extract, Array.getElem?_extract]
  by_cases hk : k < size
  · obtain ⟨element, hold, hnew⟩ := getElem?_eq_of_agree (hagrees k hk)
    have hltOld := (Array.getElem?_eq_some_iff.mp hold).1
    have hltNew := (Array.getElem?_eq_some_iff.mp hnew).1
    rw [if_pos (by omega), if_pos (by omega), hold, hnew]
  · rw [if_neg (by omega), if_neg (by omega)]

/-! ### Bodies -/

theorem Block.oldLines_body {block : Block} (hleads : block.Leads old new p q) :
    oldLines (block.body old new) = (Range.mk p.old q.old).slice old := by
  rw [hleads.target_eq, Point.old_add, ← Range.slice_eq hleads.old_eq]
  cases block with
  | kept i j size => exact linesWithout_map (by decide) _
  | change oldRange newRange =>
      rw [Block.body, oldLines, linesWithout_append, linesWithout_map (by decide),
        linesWithout_map_self, List.append_nil, oldRange_change]

theorem Block.newLines_body [LawfulBEq α] {block : Block} (hleads : block.Leads old new p q) :
    newLines (block.body old new) = (Range.mk p.new q.new).slice new := by
  cases block with
  | kept i j size =>
      obtain ⟨rfl, rfl, -, rfl, hagrees⟩ := leads_kept_iff.mp hleads
      rw [Point.new_add, ← hagrees.slice_eq]
      exact linesWithout_map (by decide) _
  | change oldRange newRange =>
      rw [hleads.target_eq, Point.new_add, ← Range.slice_eq hleads.new_eq, Block.body, newLines,
        linesWithout_append, linesWithout_map_self, linesWithout_map (by decide), List.nil_append,
        newRange_change]

theorem Block.Leads.le {block : Block} (hleads : block.Leads old new p q) : p ≤ q := by
  rw [hleads.target_eq]
  exact p.le_add _ _

theorem Hunk.oldLines_body {hunk : Hunk} (hleads : Trace (Block.Leads old new) hunk p q) :
    oldLines (hunk.body old new) = (Range.mk p.old q.old).slice old :=
  (linesWithout_flatMap ..).trans
    (hleads.flatMap_eq_slice Point.monotone_old Block.Leads.le Block.oldLines_body)

theorem Hunk.newLines_body [LawfulBEq α] {hunk : Hunk}
    (hleads : Trace (Block.Leads old new) hunk p q) :
    newLines (hunk.body old new) = (Range.mk p.new q.new).slice new :=
  (linesWithout_flatMap ..).trans
    (hleads.flatMap_eq_slice Point.monotone_new Block.Leads.le Block.newLines_body)

end Hush.Diff
