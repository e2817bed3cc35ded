import Hush.Proofs.Source.Rewriting

/-!
# Nothing is left to comment

The scan never leaves a live line behind, inside a call or outside, and a text without live lines is
a fixed point. So one pass is enough.
-/

namespace Hush

/-- No line of the text starts a call that is still live. -/
def Settled (text : String) : Prop := ∀ line ∈ linesOf text, line.isLive = false

/-- One line. What becomes of it is not live: a line of a call is a comment now, and a line outside
every call was not live before. -/
theorem Scan.not_isLive_of_mem_lines_next {scan : Scan}
    (hlines : ∀ old ∈ scan.lines, old.isLive = false) (line : Line) :
    ∀ new ∈ (scan.next line).lines, new.isLive = false := by
  rw [lines_next, List.forall_mem_cons]
  refine ⟨?_, hlines⟩
  cases hcall : scan.callAt line with
  | none => exact (callAt_eq_none hcall).2
  | some span => exact Line.isLive_eq_false_of_isComment (Line.isComment_silence line)

theorem Scan.not_isLive_of_mem_lines_ofLines (lines : List Line) :
    ∀ line ∈ (ofLines lines).lines, line.isLive = false := by
  induction lines using List.reverseRecOn with
  | nil => exact fun line hmem => nomatch hmem
  | append_singleton lines line ih =>
      rw [ofLines_append_singleton]
      exact not_isLive_of_mem_lines_next ih line

theorem settled_silence_after (text : String) : Settled (silence text).after := by
  intro line hmem
  rw [linesOf_silence_after] at hmem
  have hlines := Scan.lines_ofLines (linesOf text)
  change (Scan.ofLines (linesOf text)).lines.reverse =
    markLines (silence text).spans (linesOf text) at hlines
  rw [← hlines, List.mem_reverse] at hmem
  exact Scan.not_isLive_of_mem_lines_ofLines (linesOf text) line hmem

theorem isSpanList_nil {lines : List Line} (hlines : ∀ line ∈ lines, line.isLive = false) :
    IsSpanList lines [] where
  ordered := List.Pairwise.nil
  calls := fun span hspan => nomatch hspan
  covers := by
    rintro number ⟨line, hmem, hcall, hcomment⟩
    have hnot := hlines line (List.fst_mem_of_mem_zipIdx hmem)
    simp [Line.isLive, hcall, hcomment] at hnot

theorem Settled.silence_eq {text : String} (hsettled : Settled text) :
    silence text = { before := text, after := text, spans := [] } := by
  have hspans : (silence text).spans = [] :=
    (Scan.ofLines_tracks (linesOf text)).spans.unique (isSpanList_nil hsettled)
  have hafter := silence_after_of_spans_eq_nil hspans
  calc silence text
      = { before := text, after := (silence text).after, spans := (silence text).spans } := rfl
    _ = { before := text, after := text, spans := [] } := by rw [hafter, hspans]

/-- **One pass is enough.** No live line is left, and a second pass records no span and changes
nothing. -/
theorem silence_silence_after (text : String) :
    (∀ line ∈ linesOf (silence text).after, ¬(line.hasCall = true ∧ line.isComment = false)) ∧
      (silence (silence text).after).spans = [] ∧
      (silence (silence text).after).after = (silence text).after ∧
      (silence (silence text).after).changed = false := by
  have hsettled := settled_silence_after text
  rw [hsettled.silence_eq]
  refine ⟨?_, rfl, rfl, ?_⟩
  · intro line hmem hlive
    have hnot := hsettled line hmem
    simp [Line.isLive, hlive] at hnot
  · simp [Revision.changed]

theorem silence_silence_after_unclosed :
    "\t// 1".toList ∈ linesOf (silence "  console.log(\n\t1").after ∧
      ¬(Line.hasCall "\t// 1".toList = true ∧ Line.isComment "\t// 1".toList = false) ∧
      (silence (silence "  console.log(\n\t1").after).changed = false := by
  obtain ⟨hlines, -, -, hchanged⟩ := silence_silence_after "  console.log(\n\t1"
  have hmem : "\t// 1".toList ∈ linesOf (silence "  console.log(\n\t1").after := by decide +kernel
  exact ⟨hmem, hlines _ hmem, hchanged⟩

end Hush
