import Hush.Proofs.Diff.Passage

/-!
# What the headers state

The header of a hunk states where the hunk begins and how many lines it has on each side. It always
states where to find the old lines, so a reader who replaces them there gets the new text. All else
is right on a side on which the ends of the hunk anchor it. Where a hunk begins or ends with a
change of one side only, the other side may be misstated: the change can have moved past another
one, which leaves its position there behind.
-/

namespace Hush.Diff

/-- How a header spells that so many lines follow on so many others. -/
def spelled (before count : Nat) : String :=
  toString (if count = 0 then before else before + 1) ++
    if count = 1 then "" else "," ++ toString count

theorem Range.header_eq_spelled (range : Range) :
    range.header = spelled range.start range.size := by
  unfold Range.header spelled
  match range.size with
  | 0 => rfl
  | 1 => exact String.append_empty.symm
  | count + 2 => simp [String.append_assoc]

theorem Range.header_ofSize (before count : Nat) :
    (Range.ofSize before count).header = spelled before count := by
  rw [header_eq_spelled, start_ofSize, size_ofSize]

namespace Passage

/-- Where the passage has its hunk in the old text, so many lines before it. -/
def trueOldRange (passage : Passage) (before : Nat) : Range :=
  .ofSize (before + passage.gap.length) (Diff.oldLines passage.body).length

def trueNewRange (passage : Passage) (before : Nat) : Range :=
  .ofSize (before + passage.gap.length) (Diff.newLines passage.body).length

/-- Replaces the old lines of the hunk by its new ones where the header says that it begins. -/
def replace (passage : Passage) (lines : List String) : List String :=
  lines.take passage.oldRange.start ++ Diff.newLines passage.body ++
    lines.drop (passage.oldRange.start + (Diff.oldLines passage.body).length)

end Passage

/-- Replaces the old lines of every hunk, from the last hunk to the first so that the stated places
stay those of the old text. -/
def patch (passages : List Passage) (lines : List String) : List String :=
  passages.foldr Passage.replace lines

section Numbering

variable {old new : String} {passages before after : List Passage} {passage : Passage}
  {front closing : List String}

theorem Passage.replace_append
    (hstart : passage.oldRange.start = front.length + passage.gap.length) :
    passage.replace (front ++ passage.oldLines ++ closing) =
      front ++ passage.newLines ++ closing := by
  have hlines : front ++ passage.oldLines ++ closing =
      (front ++ passage.gap) ++ (Diff.oldLines passage.body ++ closing) := by
    simp only [oldLines, List.append_assoc]
  rw [replace, hstart, ← List.length_append, hlines, List.take_left, ← List.drop_drop,
    List.drop_left, List.drop_left, newLines, List.append_assoc front]

theorem patch_append
    (hstarts : ∀ before passage after, passages = before ++ passage :: after →
      passage.oldRange.start =
        (front ++ before.flatMap Passage.oldLines).length + passage.gap.length) :
    patch passages (front ++ passages.flatMap Passage.oldLines ++ closing) =
      front ++ passages.flatMap Passage.newLines ++ closing := by
  induction passages generalizing front with
  | nil => rfl
  | cons passage passages ih =>
      have hfirst : passage.oldRange.start = front.length + passage.gap.length := by
        simpa using hstarts [] passage passages rfl
      have hrest : ∀ before later after, passages = before ++ later :: after →
          later.oldRange.start =
            (front ++ passage.oldLines ++ before.flatMap Passage.oldLines).length +
              later.gap.length := by
        intro before later after heq
        have hlater := hstarts (passage :: before) later after (congrArg (passage :: ·) heq)
        rwa [List.flatMap_cons, ← List.append_assoc] at hlater
      have hpatched := ih hrest
      rw [List.flatMap_cons, List.flatMap_cons, ← List.append_assoc front,
        ← List.append_assoc front]
      rw [patch, List.foldr_cons, ← patch, hpatched, List.append_assoc _ _ closing,
        Passage.replace_append hfirst, List.append_assoc _ _ closing]

/-- As many lines stand before a passage, and as many in it, as the points say that it leads
between. -/
theorem Accounts.exists_covers (haccounts : Accounts old new passages closing)
    (hsplit : passages = before ++ passage :: after) :
    ∃ p q : Point, passage.Covers (lines old).toArray (lines new).toArray p q ∧
      p.old = (before.flatMap Passage.oldLines).length ∧
      p.new = (before.flatMap Passage.newLines).length ∧
      q.old = p.old + passage.oldLines.length ∧ q.new = p.new + passage.newLines.length := by
  obtain ⟨m, hcovers, hle, -⟩ := haccounts.covers
  rw [hsplit] at hcovers
  obtain ⟨p, hbefore, hrest⟩ := Trace.append_iff.mp hcovers
  obtain ⟨q, hpassage, hafter⟩ := Trace.cons_iff.mp hrest
  have hq := (hafter.le Passage.Covers.le).trans hle
  have hp := hpassage.le.trans hq
  refine ⟨p, q, hpassage, ?_, ?_, ?_, ?_⟩
  · rw [Passage.flatMap_oldLines hbefore, length_slice hp.1, Nat.sub_zero]
  · rw [Passage.flatMap_newLines hbefore, length_slice hp.2, Nat.sub_zero]
  · rw [hpassage.old_eq, length_slice hq.1, Nat.add_sub_cancel' hpassage.le.1]
  · rw [hpassage.new_eq, length_slice hq.2, Nat.add_sub_cancel' hpassage.le.2]

theorem Accounts.before_eq_nil (haccounts : Accounts old new passages closing)
    (hsplit : passages = before ++ passage :: after) (hgap : passage.gap = []) : before = [] := by
  by_contra hbefore
  refine haccounts.gaps passage ?_ hgap
  rw [hsplit, List.tail_append_of_ne_nil hbefore]
  exact List.mem_append_right _ List.mem_cons_self

/-- Only where nothing comes before a hunk can it begin with a change. -/
theorem Accounts.anchored_start {mark : Mark} (haccounts : Accounts old new passages closing)
    (hsplit : passages = before ++ passage :: after)
    (hstart : before = [] → passage.gap = [] → Anchored mark passage.body) :
    Anchored mark passage.body := by
  obtain ⟨p, q, hpassage, -⟩ := haccounts.exists_covers hsplit
  by_cases hgap : passage.gap = []
  · exact hstart (haccounts.before_eq_nil hsplit hgap) hgap
  · exact anchored_of_leadingChange_eq_nil (hpassage.opens hgap)

/-- Only where nothing comes after a hunk can it end with a change. -/
theorem Accounts.anchored_stop {mark : Mark} (haccounts : Accounts old new passages closing)
    (hsplit : passages = before ++ passage :: after)
    (hstop : after = [] → closing = [] → Anchored mark passage.body.reverse) :
    Anchored mark passage.body.reverse := by
  by_cases hafter : after = []
  · by_cases hclosing : closing = []
    · exact hstop hafter hclosing
    · refine anchored_of_leadingChange_eq_nil (haccounts.closes_last hclosing passage ?_)
      simp [hsplit, hafter]
  · refine anchored_of_leadingChange_eq_nil (haccounts.closes passage ?_)
    rw [hsplit, List.dropLast_append_of_ne_nil (List.cons_ne_nil _ _),
      List.dropLast_cons_of_ne_nil hafter]
    exact List.mem_append_right _ List.mem_cons_self

theorem Accounts.start_eq (haccounts : Accounts old new passages closing)
    (hsplit : passages = before ++ passage :: after) :
    passage.oldRange.start =
      (before.flatMap Passage.oldLines).length + passage.gap.length := by
  obtain ⟨p, q, hpassage, hp, -⟩ := haccounts.exists_covers hsplit
  rw [← hp]
  refine hpassage.start_eq fun hgap => ?_
  rw [hp, haccounts.before_eq_nil hsplit hgap]
  rfl

theorem Accounts.oldRange_eq (haccounts : Accounts old new passages closing)
    (hsplit : passages = before ++ passage :: after)
    (hstop : after = [] → closing = [] → Anchored .added passage.body.reverse) :
    passage.oldRange = passage.trueOldRange (before.flatMap Passage.oldLines).length := by
  obtain ⟨p, q, hpassage, hp, -, hq, -⟩ := haccounts.exists_covers hsplit
  have hstart := haccounts.start_eq hsplit
  have hstop := hpassage.stop_eq (haccounts.anchored_stop hsplit hstop)
  rw [hq, hp, Passage.oldLines, List.length_append, ← Nat.add_assoc, ← hstart] at hstop
  rw [Passage.trueOldRange, Range.ofSize, ← hstart, ← hstop]

theorem Accounts.newRange_eq (haccounts : Accounts old new passages closing)
    (hsplit : passages = before ++ passage :: after)
    (hstart : before = [] → passage.gap = [] → Anchored .removed passage.body)
    (hstop : after = [] → closing = [] → Anchored .removed passage.body.reverse) :
    passage.newRange = passage.trueNewRange (before.flatMap Passage.newLines).length := by
  obtain ⟨p, q, hpassage, -, hp, -, hq⟩ := haccounts.exists_covers hsplit
  rw [hpassage.newRange_eq (haccounts.anchored_start hsplit hstart)
    (haccounts.anchored_stop hsplit hstop), hq, ← hp, Passage.newLines, List.length_append,
    ← Nat.add_assoc]
  rfl

/-- **A diff is a patch.** The header of a hunk always states the place of its old lines, so the old
lines of all hunks replaced there by the new ones give the new text. All else in the header is right
too, the number of old lines, the place of the new ones and their number, with these exceptions: the
number of old lines of a hunk that nothing comes after and that ends with added lines only, and what
is stated of the new lines of a hunk that nothing comes before and that begins with removed lines
only, or that nothing comes after and that ends with such. -/
theorem unified_numbers (old new : String) :
    ∃ (passages : List Passage) (closing : List String),
      lines old = passages.flatMap Passage.oldLines ++ closing ∧
      lines new = passages.flatMap Passage.newLines ++ closing ∧
      lines (unified old new) = passages.flatMap Passage.printed ∧
      patch passages (lines old) = lines new ∧
      ∀ before passage after, passages = before ++ passage :: after →
        passage.oldRange.header =
            spelled ((before.flatMap Passage.oldLines).length + passage.gap.length)
              passage.oldRange.size ∧
        ((after = [] → closing = [] → Anchored .added passage.body.reverse) →
          passage.oldRange.header =
            spelled ((before.flatMap Passage.oldLines).length + passage.gap.length)
              (oldLines passage.body).length) ∧
        ((before = [] → passage.gap = [] → Anchored .removed passage.body) →
          (after = [] → closing = [] → Anchored .removed passage.body.reverse) →
          passage.newRange.header =
            spelled ((before.flatMap Passage.newLines).length + passage.gap.length)
              (newLines passage.body).length) := by
  obtain ⟨passages, closing, haccounts⟩ := exists_accounts old new
  refine ⟨passages, closing, haccounts.old_eq, haccounts.new_eq, haccounts.lines_unified, ?_,
    fun before passage after hsplit => ⟨?_, fun hstop => ?_, fun hstart hstop => ?_⟩⟩
  · have hpatched : patch passages ([] ++ passages.flatMap Passage.oldLines ++ closing) =
        [] ++ passages.flatMap Passage.newLines ++ closing :=
      patch_append fun before passage after hsplit => haccounts.start_eq hsplit
    rw [haccounts.old_eq, haccounts.new_eq]
    exact hpatched
  · rw [Range.header_eq_spelled, haccounts.start_eq hsplit]
  · rw [haccounts.oldRange_eq hsplit hstop]
    exact Range.header_ofSize ..
  · rw [haccounts.newRange_eq hsplit hstart hstop]
    exact Range.header_ofSize ..

/-- Where a line is commented that stands above its own comment, the comment below is kept. The
removed line and the added one have changed places, and the header counts one line on each side
where there are two, the new one at the wrong place. -/
theorem unified_misnumbers :
    let old := "console.log(1)\n// console.log(1)\n"
    let new := "// console.log(1)\n// console.log(1)\n"
    let body := [(Mark.removed, "console.log(1)\n"), (.context, "// console.log(1)\n"),
      (.added, "// console.log(1)\n")]
    unified old new = "@@ -1 +2 @@\n" ++ String.join (body.map signed) ∧
      lines old = oldLines body ∧ lines new = newLines body ∧
      spelled 0 (oldLines body).length = "1,2" ∧ spelled 0 (newLines body).length = "1,2" := by
  decide +kernel

end Numbering

end Hush.Diff
