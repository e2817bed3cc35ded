import Hush.Proofs.Source.Tracking

/-!
# What the scan does to the lines

A line changes only if it lies in a recorded span and is not a comment yet, and then only by the
marker behind its indentation. So the text keeps its lines, grows by three bytes for each line that
changes, and can be had back.
-/

namespace Hush

/-- The line lies in one of the spans and is not a comment already. -/
def Marked (spans : List Span) (numberedLine : Line × Nat) : Prop :=
  Covered spans numberedLine.2 ∧ numberedLine.1.isComment = false

instance (spans : List Span) : DecidablePred (Marked spans) :=
  fun numberedLine => inferInstanceAs
    (Decidable (Covered spans numberedLine.2 ∧ numberedLine.1.isComment = false))

/-- A line with the marker and a blank written behind its longest blank beginning. -/
def IsCommentOf (line commented : Line) : Prop :=
  ∃ blank rest, line = blank ++ rest ∧ (∀ c ∈ blank, Text.isBlank c = true) ∧
    (∀ c, rest.head? = some c → Text.isBlank c = false) ∧
    commented = blank ++ "// ".toList ++ rest

theorem isCommentOf_comment (line : Line) : IsCommentOf line line.comment :=
  ⟨line.indent, line.content, line.indent_append_content.symm,
    fun _ hmem => Line.isBlank_of_mem_indent hmem,
    fun _ hhead => Line.not_isBlank_head_content hhead, line.comment_eq_append⟩

def markLines (spans : List Span) (lines : List Line) : List Line :=
  (numbered lines).map fun numberedLine =>
    if Marked spans numberedLine then numberedLine.1.comment else numberedLine.1

def markCount (spans : List Span) (lines : List Line) : Nat :=
  (numbered lines).countP fun numberedLine => Marked spans numberedLine

section Lines

variable {spans : List Span} {lines : List Line}

@[simp]
theorem length_markLines (spans : List Span) (lines : List Line) :
    (markLines spans lines).length = lines.length := by
  simp [markLines, numbered]

theorem markLines_nil (lines : List Line) : markLines [] lines = lines := by
  have hnone : ∀ numberedLine, ¬Marked [] numberedLine := by
    intro numberedLine hmarked
    obtain ⟨span, hspan, -⟩ := hmarked.1
    cases hspan
  simp [markLines, hnone, numbered]

theorem markLines_congr {other : List Span}
    (hcovered : ∀ number ≤ lines.length, Covered spans number ↔ Covered other number) :
    markLines spans lines = markLines other lines := by
  apply List.map_congr_left
  rintro ⟨line, number⟩ hmem
  have hiff := hcovered number (bounds_of_mem_numbered hmem).2
  exact if_congr (and_congr_left fun _ => hiff) rfl rfl

theorem ite_marked (spans : List Span) (line : Line) (number : Nat) :
    (if Marked spans (line, number) then line.comment else line) =
      if Covered spans number then line.silence else line := by
  unfold Line.silence
  by_cases hcovered : Covered spans number
  · rw [if_pos hcovered]
    by_cases hcomment : line.isComment = true
    · rw [if_pos hcomment, if_neg fun hmarked => absurd hmarked.2 (by simp [hcomment])]
    · rw [if_neg hcomment, if_pos ⟨hcovered, by simpa using hcomment⟩]
  · rw [if_neg hcovered, if_neg fun hmarked => hcovered hmarked.1]

theorem markLines_append_singleton (spans : List Span) (lines : List Line) (line : Line) :
    markLines spans (lines ++ [line]) =
      markLines spans lines ++
        [if Covered spans (lines.length + 1) then line.silence else line] := by
  rw [markLines, numbered_append_singleton, List.map_append, List.map_singleton, ite_marked]
  rfl

/-- One line more. The lines read before keep what became of them. -/
theorem Scan.Tracks.lines_next {scan : Scan} (htracks : scan.Tracks lines)
    (hlines : scan.lines.reverse = markLines scan.spans lines) (line : Line) :
    (scan.next line).lines.reverse = markLines (scan.next line).spans (lines ++ [line]) := by
  have hold : markLines (scan.next line).spans lines = markLines scan.spans lines :=
    markLines_congr fun number hnumber => htracks.covered_next_iff hnumber
  have hnew : Covered (scan.next line).spans (lines.length + 1) ↔
      (scan.callAt line).isSome = true := htracks.covered_next_last_iff
  rw [Scan.lines_next, List.reverse_cons, hlines, markLines_append_singleton, hold]
  simp only [hnew]

theorem Scan.lines_ofLines (lines : List Line) :
    (ofLines lines).lines.reverse = markLines (ofLines lines).spans lines := by
  induction lines using List.reverseRecOn with
  | nil => rfl
  | append_singleton lines line ih =>
      rw [ofLines_append_singleton]
      exact (ofLines_tracks lines).lines_next ih line

theorem newline_notMem_of_mem_markLines (hnewline : ∀ line ∈ lines, '\n' ∉ line) :
    ∀ line ∈ markLines spans lines, '\n' ∉ line := by
  intro line hmem
  obtain ⟨⟨old, number⟩, hold, rfl⟩ := List.mem_map.mp hmem
  have hplain := hnewline old (List.fst_mem_of_mem_zipIdx hold)
  dsimp only
  split
  · exact Line.newline_notMem_comment hplain
  · exact hplain

theorem sum_size_markLines (spans : List Span) (lines : List Line) :
    ((markLines spans lines).map fun line => (String.ofList line).utf8ByteSize + 1).sum =
      (lines.map fun line => (String.ofList line).utf8ByteSize + 1).sum +
        3 * markCount spans lines := by
  have hall : ∀ pairs : List (Line × Nat),
      ((pairs.map fun pair => if Marked spans pair then pair.1.comment else pair.1).map
          fun line => (String.ofList line).utf8ByteSize + 1).sum =
        ((pairs.map Prod.fst).map fun line => (String.ofList line).utf8ByteSize + 1).sum +
          3 * pairs.countP fun pair => Marked spans pair := by
    intro pairs
    induction pairs with
    | nil => rfl
    | cons pair pairs ih =>
        have hsize := Line.utf8ByteSize_comment pair.1
        rw [List.countP_cons]
        simp only [List.map_cons, List.sum_cons, ih]
        by_cases hmarked : Marked spans pair
        · simp only [hmarked, if_true, hsize, decide_true]
          omega
        · simp only [hmarked, if_false, decide_false, Bool.false_eq_true]
          omega
  have hnumbered := hall (numbered lines)
  rwa [map_fst_numbered] at hnumbered

theorem zipWith_uncomment_markLines (spans : List Span) (lines : List Line) :
    (numbered lines).zipWith (fun numberedLine line =>
        if Marked spans numberedLine then line.uncomment else line) (markLines spans lines) =
      lines := by
  have hundo : ∀ numberedLine : Line × Nat,
      (if Marked spans numberedLine then
        Line.uncomment (if Marked spans numberedLine then numberedLine.1.comment
          else numberedLine.1)
      else if Marked spans numberedLine then numberedLine.1.comment else numberedLine.1) =
        numberedLine.1 := by
    intro numberedLine
    split <;> simp
  rw [markLines, List.zipWith_map_right, List.zipWith_self]
  simp only [hundo]
  exact map_fst_numbered lines

theorem forall₂_markLines (spans : List Span) (lines : List Line) :
    List.Forall₂ (fun numberedLine line =>
        if Marked spans numberedLine then IsCommentOf numberedLine.1 line
        else line = numberedLine.1)
      (numbered lines) (markLines spans lines) := by
  rw [markLines, List.forall₂_map_right_iff, List.forall₂_same]
  intro numberedLine _
  split
  · exact isCommentOf_comment numberedLine.1
  · rfl

theorem markCount_pos (hspans : IsSpanList lines spans) (hne : spans ≠ []) :
    0 < markCount spans lines := by
  obtain ⟨span, hspan⟩ := List.exists_mem_of_ne_nil spans hne
  obtain ⟨line, hmem, -, hcomment⟩ := (hspans.calls span hspan).opens
  refine List.countP_pos_iff.mpr ⟨(line, span.first), hmem, decide_eq_true ⟨?_, hcomment⟩⟩
  exact ⟨span, hspan, Nat.le_refl _, span.first_le_last⟩

end Lines

theorem linesOf_silence_after (text : String) :
    linesOf (silence text).after = markLines (silence text).spans (linesOf text) := by
  have hlines : (silence text).after =
      ofLines (markLines (silence text).spans (linesOf text)) :=
    congrArg ofLines (Scan.lines_ofLines (linesOf text))
  rw [hlines]
  refine linesOf_ofLines ?_ ?_
  · rw [← List.length_pos_iff, length_markLines, List.length_pos_iff]
    exact linesOf_ne_nil text
  · exact newline_notMem_of_mem_markLines fun line hmem => newline_notMem_of_mem_linesOf hmem

theorem utf8ByteSize_eq (text : String) :
    text.utf8ByteSize + 1 =
      ((linesOf text).map fun line => (String.ofList line).utf8ByteSize + 1).sum := by
  rw [← utf8ByteSize_ofLines (linesOf_ne_nil text), ofLines_linesOf]

theorem utf8ByteSize_silence_after (text : String) :
    (silence text).after.utf8ByteSize =
      text.utf8ByteSize + 3 * markCount (silence text).spans (linesOf text) := by
  have hbefore := utf8ByteSize_eq text
  have hafter := utf8ByteSize_eq (silence text).after
  rw [linesOf_silence_after, sum_size_markLines] at hafter
  omega

theorem silence_after_of_spans_eq_nil {text : String} (hspans : (silence text).spans = []) :
    (silence text).after = text := by
  rw [← ofLines_linesOf (silence text).after, linesOf_silence_after, hspans, markLines_nil,
    ofLines_linesOf]

theorem silence_changed_iff (text : String) :
    (silence text).changed = true ↔ (silence text).spans ≠ [] := by
  have hchanged : (silence text).changed = true ↔ (silence text).after ≠ text := by
    rw [Revision.changed, bne_iff_ne, ne_comm]
    rfl
  rw [hchanged, not_iff_not]
  constructor
  · intro hsame
    by_contra hne
    have hpos := markCount_pos (Scan.ofLines_tracks (linesOf text)).spans hne
    have hsize := utf8ByteSize_silence_after text
    rw [hsame] at hsize
    change 0 < markCount (silence text).spans (linesOf text) at hpos
    omega
  · exact silence_after_of_spans_eq_nil

/-- **What becomes of a text.** Its lines stay in place, and a line is either kept or, if a span
covers it and it is no comment yet, commented. The size and the loss-free way back follow, and a
text changes exactly if it has a call. -/
theorem silence_marks_lines (text : String) :
    (linesOf (silence text).after).length = (linesOf text).length ∧
      List.Forall₂ (fun numberedLine line =>
          if Covered (silence text).spans numberedLine.2 ∧ numberedLine.1.isComment = false then
            IsCommentOf numberedLine.1 line
          else line = numberedLine.1)
        (numbered (linesOf text)) (linesOf (silence text).after) ∧
      (silence text).after.utf8ByteSize =
        text.utf8ByteSize + 3 * markCount (silence text).spans (linesOf text) ∧
      ofLines ((numbered (linesOf text)).zipWith (fun numberedLine line =>
          if Marked (silence text).spans numberedLine then line.uncomment else line)
        (linesOf (silence text).after)) = text ∧
      ((silence text).changed = true ↔ (silence text).spans ≠ []) := by
  refine ⟨?_, ?_, utf8ByteSize_silence_after text, ?_, silence_changed_iff text⟩
  · rw [linesOf_silence_after, length_markLines]
  · rw [linesOf_silence_after]
    exact forall₂_markLines (silence text).spans (linesOf text)
  · rw [linesOf_silence_after, zipWith_uncomment_markLines, ofLines_linesOf]

end Hush
