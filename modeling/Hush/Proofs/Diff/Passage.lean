import Hush.Proofs.Diff.Anchored
import Hush.Proofs.Diff.PrintedLine

/-!
# Passages of a printed diff

A passage is a hunk as a reader of the diff has it, the ranges that its header states and the lines
of its body, together with the lines that are left out before it. Both texts are a row of passages
and what is left out after the last one.
-/

namespace Hush.Diff

def signed (line : Mark × String) : String := line.1.sign ++ terminated line.2

structure Passage where
  gap : List String
  oldRange : Range
  newRange : Range
  body : List (Mark × String)

namespace Passage

def oldLines (passage : Passage) : List String := passage.gap ++ Diff.oldLines passage.body

def newLines (passage : Passage) : List String := passage.gap ++ Diff.newLines passage.body

def header (passage : Passage) : String :=
  "@@ -" ++ passage.oldRange.header ++ " +" ++ passage.newRange.header ++ " @@\n"

/-- What is printed of the passage, line by line. -/
def printed (passage : Passage) : List String := passage.header :: passage.body.map signed

/-- The passage stands between two points. If something is left out before it, it begins with
context, and otherwise it must stand before all old lines to state where it begins. Its ranges are
right in all else where its ends anchor them. -/
structure Covers (old new : Array String) (passage : Passage) (p q : Point) : Prop where
  le : p ≤ q
  old_eq : passage.oldLines = (Range.mk p.old q.old).slice old
  new_eq : passage.newLines = (Range.mk p.new q.new).slice new
  framed : FramedBody passage.body
  opens : passage.gap ≠ [] → leadingChange passage.body = []
  start_eq : (passage.gap = [] → p.old = 0) →
    passage.oldRange.start = p.old + passage.gap.length
  stop_eq : Anchored .added passage.body.reverse → passage.oldRange.stop = q.old
  newRange_eq : Anchored .removed passage.body → Anchored .removed passage.body.reverse →
    passage.newRange = ⟨p.new + passage.gap.length, q.new⟩

end Passage

section Passages

variable {old new : Array String} {p q : Point}

theorem Hunk.Stretch.exists_passage {stretch : Stretch} (hleads : stretch.Leads old new p q)
    (hle : q ≤ ⟨old.size, new.size⟩) (hframed : stretch.hunk.Framed)
    (hchange : stretch.hunk.hasChange = true)
    (hopens : 0 < stretch.gap → (stretch.hunk.map Block.isKept).head? = some true) :
    ∃ passage : Passage, (passage.gap.length, String.join passage.printed, passage.body) =
        (stretch.gap, stretch.hunk.print old new, stretch.hunk.body old new) ∧
      passage.Covers old new p q := by
  obtain ⟨hgap, hhunk⟩ := hleads
  have hlePoint := hhunk.le Block.Leads.le
  have hne : stretch.hunk ≠ [] := by
    rintro hnil
    simp [hnil, hasChange] at hchange
  obtain ⟨gap, hgapOld⟩ : ∃ gap, gap = (Range.mk p.old (p.old + stretch.gap)).slice old :=
    ⟨_, rfl⟩
  have hgapNew : gap = (Range.mk p.new (p.new + stretch.gap)).slice new :=
    hgapOld.trans hgap.slice_eq
  have hlength : gap.length = stretch.gap := by
    have hstop : p.old + stretch.gap ≤ old.size := hlePoint.1.trans hle.1
    rw [hgapOld, length_slice hstop, Nat.add_sub_cancel_left]
  refine ⟨⟨gap, stretch.hunk.oldRange, stretch.hunk.newRange, stretch.hunk.body old new⟩,
    Prod.ext hlength (Prod.ext String.join_cons rfl),
    (p.le_add stretch.gap stretch.gap).trans hlePoint, ?_, ?_,
    framed_body hhunk hle hframed hchange, fun hne => ?_, fun hzero => ?_,
    stop_oldRange hhunk hne hle hframed.alternating, fun hstart hstop => ?_⟩
  · rw [Passage.oldLines, oldLines_body hhunk, hgapOld]
    exact slice_append (Nat.le_add_right ..) hlePoint.1
  · rw [Passage.newLines, newLines_body hhunk, hgapNew]
    exact slice_append (Nat.le_add_right ..) hlePoint.2
  · refine leadingChange_body hhunk hle (hopens ?_)
    rw [← hlength]
    exact List.length_pos_of_ne_nil hne
  · rw [hlength]
    refine start_oldRange hhunk hne ?_
    obtain hnone | hpos := Nat.eq_zero_or_pos stretch.gap
    · refine .inr ?_
      rw [hnone, Point.add_zero]
      exact hzero (List.eq_nil_of_length_eq_zero (hlength.trans hnone))
    · exact .inl (hopens hpos)
  · rw [hlength]
    exact newRange_eq hhunk hne hle hframed.alternating hstart hstop

theorem Hunk.Stretch.Leads.le {stretch : Stretch} (hleads : stretch.Leads old new p q) : p ≤ q :=
  (p.le_add _ _).trans (hleads.leads.le Block.Leads.le)

theorem Passage.flatMap_oldLines {passages : List Passage}
    (hcovers : Trace (Passage.Covers old new) passages p q) :
    passages.flatMap Passage.oldLines = (Range.mk p.old q.old).slice old :=
  hcovers.flatMap_eq_slice Point.monotone_old Passage.Covers.le Passage.Covers.old_eq

theorem Passage.flatMap_newLines {passages : List Passage}
    (hcovers : Trace (Passage.Covers old new) passages p q) :
    passages.flatMap Passage.newLines = (Range.mk p.new q.new).slice new :=
  hcovers.flatMap_eq_slice Point.monotone_new Passage.Covers.le Passage.Covers.new_eq

/-- The passages and the lines left out after the last one make up both sequences. A passage that
something comes after ends with context. -/
structure Passages (old new : Array String) (passages : List Passage) (closing : List String) :
    Prop where
  covers : ∃ m, Trace (Passage.Covers old new) passages ⟨0, 0⟩ m ∧ m ≤ ⟨old.size, new.size⟩ ∧
    closing = (Range.mk m.old old.size).slice old ∧ closing = (Range.mk m.new new.size).slice new
  gaps : ∀ passage ∈ passages.tail, passage.gap ≠ []
  closes : ∀ passage ∈ passages.dropLast, leadingChange passage.body.reverse = []
  closes_last : closing ≠ [] → ∀ passage ∈ passages.getLast?,
    leadingChange passage.body.reverse = []

theorem exists_passages (old new : Array String) :
    ∃ passages closing, Passages old new passages closing ∧
      (hunks old new).map (·.print old new) = passages.map (String.join ·.printed) := by
  obtain ⟨shown, size, hshown, hrow⟩ := exists_row_hunks old new
  obtain ⟨m, hleads, hagrees, hend⟩ := hrow.leads
  have hle : m ≤ ⟨old.size, new.size⟩ := hend ▸ m.le_add size size
  have hsizes := Point.mk.inj hend
  obtain ⟨passages, hmap, hcovers⟩ := hleads.exists_map Hunk.Stretch.Leads.le
    fun stretch hmem q s hs hstretch => Hunk.Stretch.exists_passage hstretch (hs.trans hle)
      (hrow.framed stretch hmem) (hrow.changes stretch hmem) (hrow.opens stretch hmem)
  have hlengths : passages.map (·.gap.length) = shown.map Hunk.Stretch.gap := by
    simpa [Function.comp_def] using congrArg (List.map (·.1)) hmap
  have hprinted : passages.map (String.join ·.printed) = shown.map (·.hunk.print old new) := by
    simpa [Function.comp_def] using congrArg (List.map (·.2.1)) hmap
  have hbodies : passages.map Passage.body = shown.map (·.hunk.body old new) := by
    simpa [Function.comp_def] using congrArg (List.map (·.2.2)) hmap
  have hends : ∀ stretch ∈ shown, (stretch.hunk.map Block.isKept).getLast? = some true →
      leadingChange (stretch.hunk.body old new).reverse = [] := fun stretch hmem hlast => by
    obtain ⟨q, s, hstretch, hs⟩ := hleads.exists_of_mem Hunk.Stretch.Leads.le hmem
    exact Hunk.leadingChange_reverse_body hstretch.leads (hs.trans hle) hlast
  refine ⟨passages, (Range.mk m.old old.size).slice old,
    ⟨⟨m, hcovers, hle, rfl, ?_⟩, ?_, ?_, ?_⟩, ?_⟩
  · rw [hsizes.1, hsizes.2]
    exact hagrees.slice_eq
  · intro passage hmem hnil
    have hlength : passage.gap.length ∈ (shown.map Hunk.Stretch.gap).tail := by
      rw [← hlengths, ← List.map_tail]
      exact List.mem_map_of_mem hmem
    rw [← List.map_tail] at hlength
    obtain ⟨stretch, hstretch, hgap⟩ := List.mem_map.mp hlength
    have hpos := hrow.spaced stretch hstretch
    simp [hgap, hnil] at hpos
  · intro passage hmem
    have hbody : passage.body ∈ (shown.dropLast).map (·.hunk.body old new) := by
      rw [List.map_dropLast, ← hbodies, ← List.map_dropLast]
      exact List.mem_map_of_mem hmem
    obtain ⟨stretch, hstretch, heq⟩ := List.mem_map.mp hbody
    rw [← heq]
    exact hends stretch ((List.dropLast_subset shown) hstretch) (hrow.closes stretch hstretch)
  · intro hclosing passage hmem
    have hpos : 0 < size := Nat.pos_of_ne_zero fun hzero => hclosing <| slice_eq_nil <| by
      simp [Range.size, hsizes.1, hzero]
    have hbody : passage.body ∈ (shown.map (·.hunk.body old new)).getLast? := by
      rw [← hbodies, List.getLast?_map, Option.mem_def.mp hmem, Option.map_some, Option.mem_def]
    rw [List.getLast?_map] at hbody
    obtain ⟨stretch, hstretch, heq⟩ := Option.map_eq_some_iff.mp hbody
    rw [← heq]
    exact hends stretch (List.mem_of_getLast? hstretch) (hrow.closes_last hpos stretch hstretch)
  · rw [← hshown, List.map_map, hprinted]
    rfl

end Passages

/-! ### Texts -/

section Texts

variable {old new : String} {passages : List Passage} {closing : List String}

/-- The passages are those of the two texts, and they are what is printed. -/
structure Accounts (old new : String) (passages : List Passage) (closing : List String) : Prop
    extends Passages (lines old).toArray (lines new).toArray passages closing where
  printed : unified old new = String.join (passages.flatMap Passage.printed)

theorem slice_zero_size (sequence : List String) :
    (Range.mk 0 sequence.toArray.size).slice sequence.toArray = sequence := by
  rw [slice_mk, Array.extract_size]

theorem join_map_join (pieces : List (List String)) :
    String.join (pieces.map String.join) = String.join pieces.flatten := by
  induction pieces with
  | nil => rfl
  | cons piece pieces ih =>
      rw [List.map_cons, String.join_cons, ih, List.flatten_cons, String.join_append]

/-- Equal texts are left out as a whole. -/
theorem exists_accounts (old new : String) :
    ∃ passages closing, Accounts old new passages closing := by
  by_cases heq : old = new
  · have hwhole := (slice_zero_size (lines new)).symm
    refine ⟨[], lines old, ⟨⟨⟨0, 0⟩, .nil _, ⟨Nat.zero_le _, Nat.zero_le _⟩, ?_, ?_⟩, nofun, nofun,
      fun _ => nofun⟩, ?_⟩
    · rw [heq]
      exact hwhole
    · rw [heq]
      exact hwhole
    · rw [unified, if_pos heq]
      rfl
  · obtain ⟨passages, closing, hpassages, hprinted⟩ :=
      exists_passages (lines old).toArray (lines new).toArray
    refine ⟨passages, closing, hpassages, ?_⟩
    have hjoined : unified old new = String.join ((hunks (lines old).toArray
        (lines new).toArray).map (·.print (lines old).toArray (lines new).toArray)) := if_neg heq
    rw [hjoined, hprinted, List.flatMap_def, ← join_map_join, List.map_map]
    rfl

theorem Accounts.old_eq (haccounts : Accounts old new passages closing) :
    lines old = passages.flatMap Passage.oldLines ++ closing := by
  obtain ⟨m, hcovers, hle, hclosing, -⟩ := haccounts.covers
  rw [Passage.flatMap_oldLines hcovers, hclosing, slice_append (Nat.zero_le m.old) hle.1,
    slice_zero_size]

theorem Accounts.new_eq (haccounts : Accounts old new passages closing) :
    lines new = passages.flatMap Passage.newLines ++ closing := by
  obtain ⟨m, hcovers, hle, -, hclosing⟩ := haccounts.covers
  rw [Passage.flatMap_newLines hcovers, hclosing, slice_append (Nat.zero_le m.new) hle.2,
    slice_zero_size]

theorem Accounts.framed (haccounts : Accounts old new passages closing) {passage : Passage}
    (hmem : passage ∈ passages) : FramedBody passage.body := by
  obtain ⟨m, hcovers, -⟩ := haccounts.covers
  obtain ⟨q, s, hpassage, -⟩ := hcovers.exists_of_mem Passage.Covers.le hmem
  exact hpassage.framed

/-- A line of a body is a line of one of the texts. -/
theorem Accounts.unbroken (haccounts : Accounts old new passages closing) {passage : Passage}
    (hmem : passage ∈ passages) {line : Mark × String} (hline : line ∈ passage.body) :
    Unbroken line.2.toList := by
  by_cases hmark : line.1 = .added
  · have hside : line.2 ∈ passage.newLines :=
      List.mem_append_right _ (mem_linesWithout hline (by simp [hmark]))
    have hnew : line.2 ∈ lines new := by
      rw [haccounts.new_eq]
      exact List.mem_append_left _ (List.mem_flatMap.mpr ⟨passage, hmem, hside⟩)
    exact (unbroken_of_mem_lines hnew).2
  · have hside : line.2 ∈ passage.oldLines :=
      List.mem_append_right _ (mem_linesWithout hline hmark)
    have hold : line.2 ∈ lines old := by
      rw [haccounts.old_eq]
      exact List.mem_append_left _ (List.mem_flatMap.mpr ⟨passage, hmem, hside⟩)
    exact (unbroken_of_mem_lines hold).2

/-- Every printed piece is a line of its own. -/
theorem Accounts.lines_unified (haccounts : Accounts old new passages closing) :
    lines (unified old new) = passages.flatMap Passage.printed := by
  rw [haccounts.printed]
  refine lines_join fun piece hpiece => ?_
  obtain ⟨passage, hmem, hprinted⟩ := List.mem_flatMap.mp hpiece
  obtain rfl | hbody := List.mem_cons.mp hprinted
  · exact printedLine_header ..
  · obtain ⟨line, hline, rfl⟩ := List.mem_map.mp hbody
    exact printedLine_signed line.1 (haccounts.unbroken hmem hline)

theorem Accounts.unified_eq_empty_iff (haccounts : Accounts old new passages closing) :
    unified old new = "" ↔ old = new := by
  constructor
  · intro hempty
    have hnone := haccounts.lines_unified
    rw [hempty, show lines "" = [] from rfl] at hnone
    have hpassages : passages = [] := List.eq_nil_iff_forall_not_mem.mpr fun passage hmem =>
      List.cons_ne_nil _ _ (List.flatMap_eq_nil_iff.mp hnone.symm passage hmem)
    refine lines_injective ?_
    rw [haccounts.old_eq, haccounts.new_eq, hpassages]
    rfl
  · intro heq
    rw [unified, if_pos heq]

end Texts

end Hush.Diff
