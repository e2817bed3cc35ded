import Hush.Proofs.Diff.PrintedLine
import Hush.Source.Report

/-!
# Reading a report

A report is read from its start. The number of calls ends at the end of its line and says how many
spans follow. A span ends with its line, and the sign behind its first number tells a single line
from a range. What is left is the difference, which may be any text.
-/

namespace Hush

variable {m n : Nat} {rest rest' : List Char}

/-! ### Numbers -/

theorem takeWhile_isDigit_append (hrest : ∀ c ∈ rest.head?, c.isDigit = false) :
    ((toString n).toList ++ rest).takeWhile Char.isDigit = (toString n).toList := by
  rw [List.takeWhile_append_of_pos fun c => Diff.isDigit_of_mem_toString]
  cases rest with
  | nil => simp
  | cons c rest => simp [hrest c rfl]

theorem toList_toString_injective : Function.Injective fun n : Nat => (toString n).toList := by
  intro m n heq
  have hvalue := congrArg (Nat.ofDigitChars 10 · 0) heq
  simpa using hvalue

/-- A number ends where something else than a digit follows. -/
theorem toString_append_inj (hrest : ∀ c ∈ rest.head?, c.isDigit = false)
    (hrest' : ∀ c ∈ rest'.head?, c.isDigit = false)
    (heq : (toString m).toList ++ rest = (toString n).toList ++ rest') : m = n ∧ rest = rest' := by
  have hdigits : (toString m).toList = (toString n).toList := by
    rw [← takeWhile_isDigit_append hrest, heq, takeWhile_isDigit_append hrest']
  refine ⟨toList_toString_injective hdigits, ?_⟩
  rw [hdigits] at heq
  exact List.append_cancel_left heq

/-! ### Spans -/

namespace Span

variable {span other : Span}

theorem toList_report_append_of_isSingle (hsingle : span.isSingle = true) (rest : List Char) :
    span.report.toList ++ rest = 'L' :: ((toString span.first).toList ++ '\n' :: rest) := by
  simp [report, hsingle]

theorem toList_report_append_of_not_isSingle (hsingle : span.isSingle = false)
    (rest : List Char) :
    span.report.toList ++ rest =
      'L' :: ((toString span.first).toList ++ '-' :: 'L' ::
        ((toString span.last).toList ++ ' ' :: '(' ::
          ((toString span.size).toList ++ (" lines)\n".toList ++ rest)))) := by
  simp [report, hsingle]

/-- The sign behind the first number tells a single line from a range. -/
theorem isSingle_of_report_append (heq : span.report.toList ++ rest = other.report.toList ++ rest')
    (hsingle : span.isSingle = true) : other.isSingle = true := by
  cases hother : other.isSingle with
  | true => rfl
  | false =>
      rw [toList_report_append_of_isSingle hsingle,
        toList_report_append_of_not_isSingle hother] at heq
      obtain ⟨-, hrest⟩ := toString_append_inj (by simp) (by simp) (List.cons.inj heq).2
      cases hrest

theorem report_append_inj (heq : span.report.toList ++ rest = other.report.toList ++ rest') :
    span = other ∧ rest = rest' := by
  cases hsingle : span.isSingle with
  | true =>
      have hother : other.isSingle = true := isSingle_of_report_append heq hsingle
      rw [toList_report_append_of_isSingle hsingle,
        toList_report_append_of_isSingle hother] at heq
      obtain ⟨hfirst, hrest⟩ :=
        toString_append_inj (by simp) (by simp) (List.cons.inj heq).2
      have hextra : span.extra = 0 := by simpa [isSingle] using hsingle
      have hextra' : other.extra = 0 := by simpa [isSingle] using hother
      refine ⟨eq_of_bounds hfirst ?_, (List.cons.inj hrest).2⟩
      rw [last, last, hfirst, hextra, hextra']
  | false =>
      have hother : other.isSingle = false := by
        rw [← Bool.not_eq_true] at hsingle ⊢
        exact fun hother => hsingle (isSingle_of_report_append heq.symm hother)
      rw [toList_report_append_of_not_isSingle hsingle,
        toList_report_append_of_not_isSingle hother] at heq
      obtain ⟨hfirst, hrange⟩ :=
        toString_append_inj (by simp) (by simp) (List.cons.inj heq).2
      obtain ⟨hlast, hsize⟩ :=
        toString_append_inj (by simp) (by simp) (List.cons.inj (List.cons.inj hrange).2).2
      obtain ⟨-, hrest⟩ :=
        toString_append_inj (by simp) (by simp) (List.cons.inj (List.cons.inj hsize).2).2
      exact ⟨eq_of_bounds hfirst hlast, List.append_cancel_left hrest⟩

theorem reports_append_inj {spans others : List Span} (hlength : spans.length = others.length)
    (heq : (String.join (spans.map report)).toList ++ rest =
      (String.join (others.map report)).toList ++ rest') : spans = others ∧ rest = rest' := by
  induction spans generalizing others with
  | nil =>
      obtain rfl : others = [] := List.length_eq_zero_iff.mp hlength.symm
      exact ⟨rfl, by simpa using heq⟩
  | cons span spans ih =>
      cases others with
      | nil => cases hlength
      | cons other others =>
          simp only [String.toList_join, List.map_cons, List.flatMap_cons, List.append_assoc]
            at heq ih
          obtain ⟨rfl, hspans⟩ := report_append_inj heq
          obtain ⟨rfl, hrest⟩ := ih (Nat.succ.inj hlength) hspans
          exact ⟨rfl, hrest⟩

end Span

/-! ### The whole report -/

namespace Revision

variable {revision other : Revision}

/-- The line that names the file, if a path is given. -/
def heading : Option String → String
  | some path => "// FILE: " ++ path ++ "\n"
  | none => ""

theorem report_eq (revision : Revision) (path : Option String) :
    revision.report path =
      heading path ++ "// Commented calls: " ++ toString revision.spans.length ++ "\n" ++
        revision.findings := by
  cases path <;> rfl

theorem exists_toList_report (revision : Revision) (path : String) :
    ∃ rest, (revision.report (some path)).toList = "// FILE: ".toList ++ rest := by
  rw [report_eq, heading]
  simp only [String.toList_append, List.append_assoc]
  exact ⟨_, rfl⟩

theorem findings_of_spans_eq_nil (hspans : revision.spans = []) :
    revision.findings = "[No console calls found]\n" := by
  simp [findings, hspans]

theorem findings_of_spans_ne_nil (hspans : revision.spans ≠ []) :
    revision.findings =
      "\n// Spans:\n" ++ String.join (revision.spans.map Span.report) ++ "\n// Diff:\n" ++
        Diff.unified revision.before revision.after := by
  simp [findings, hspans]

/-- The findings are read with the number of spans known. -/
theorem findings_inj (hlength : revision.spans.length = other.spans.length)
    (heq : revision.findings = other.findings) :
    revision.spans = other.spans ∧
      (revision.spans ≠ [] →
        Diff.unified revision.before revision.after = Diff.unified other.before other.after) := by
  by_cases hspans : revision.spans = []
  · have hother : other.spans = [] := by
      rw [← List.length_eq_zero_iff, ← hlength, hspans, List.length_nil]
    exact ⟨hspans.trans hother.symm, fun hne => absurd hspans hne⟩
  · have hother : other.spans ≠ [] := by
      rwa [← List.length_pos_iff, ← hlength, List.length_pos_iff]
    rw [findings_of_spans_ne_nil hspans, findings_of_spans_ne_nil hother,
      ← String.toList_inj] at heq
    simp only [String.toList_append, List.append_assoc] at heq
    obtain ⟨hsame, hdiff⟩ := Span.reports_append_inj hlength (List.append_cancel_left heq)
    refine ⟨hsame, fun _ => ?_⟩
    rw [← String.toList_inj]
    exact List.append_cancel_left hdiff

theorem findings_congr (hspans : revision.spans = other.spans)
    (hdiff : revision.spans ≠ [] →
      Diff.unified revision.before revision.after = Diff.unified other.before other.after) :
    revision.findings = other.findings := by
  by_cases hnone : revision.spans = []
  · have hother : other.spans = [] := hspans.symm.trans hnone
    rw [findings_of_spans_eq_nil hnone, findings_of_spans_eq_nil hother]
  · have hother : other.spans ≠ [] := fun heq => hnone (hspans.trans heq)
    rw [findings_of_spans_ne_nil hnone, findings_of_spans_ne_nil hother, hspans, hdiff hnone]

theorem length_findings_of_report_eq {path : Option String}
    (heq : revision.report path = other.report path) :
    revision.spans.length = other.spans.length ∧ revision.findings = other.findings := by
  rw [report_eq, report_eq, ← String.toList_inj] at heq
  simp only [String.toList_append, List.append_assoc] at heq
  have hcounts := List.append_cancel_left (List.append_cancel_left heq)
  obtain ⟨hlength, hfindings⟩ := toString_append_inj (by simp) (by simp) hcounts
  exact ⟨hlength, String.toList_inj.mp (List.append_cancel_left hfindings)⟩

/-- **What a report tells.** Under one heading two reports are the same text exactly if they tell of
the same spans and, if there are any, of the same difference. -/
theorem report_eq_iff (path : Option String) (revision other : Revision) :
    revision.report path = other.report path ↔
      revision.spans = other.spans ∧
        (revision.spans ≠ [] →
          Diff.unified revision.before revision.after =
            Diff.unified other.before other.after) := by
  constructor
  · intro heq
    obtain ⟨hlength, hfindings⟩ := length_findings_of_report_eq heq
    exact findings_inj hlength hfindings
  · rintro ⟨hspans, hdiff⟩
    rw [report_eq, report_eq, findings_congr hspans hdiff, hspans]

end Revision

end Hush
