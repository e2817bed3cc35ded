import Hush.Proofs.Line.Call
import Hush.Proofs.Source.Rewriting

/-!
# Blanks around the lines

The scan asks of a line whether it is live and whether it closes a call. Blanks in front of the line
or behind it change neither answer. So two texts that differ in such blanks only, line by line, have
the same spans, and the same lines of them are commented.
-/

namespace Hush

namespace Line

variable {front line other tail : Line}

def trim (line : Line) : Line := Text.trimEnd (Text.trimStart line)

theorem trimEnd_append_of_isBlank (htail : ∀ c ∈ tail, Text.isBlank c = true) (line : Line) :
    Text.trimEnd (line ++ tail) = Text.trimEnd line := by
  rw [Text.trimEnd, Text.trimEnd, List.reverse_append, List.dropWhile_append_of_pos]
  simpa using htail

theorem exists_eq_trimEnd_append (line : Line) :
    ∃ tail, (∀ c ∈ tail, Text.isBlank c = true) ∧ line = Text.trimEnd line ++ tail := by
  refine ⟨(line.reverse.takeWhile Text.isBlank).reverse, ?_, ?_⟩
  · intro c hmem
    exact List.all_eq_true.mp List.all_takeWhile c (List.mem_reverse.mp hmem)
  · rw [Text.trimEnd, ← List.reverse_append, List.takeWhile_append_dropWhile, List.reverse_reverse]

theorem exists_eq_append_trim_append (line : Line) :
    ∃ front tail, (∀ c ∈ front, Text.isBlank c = true) ∧ (∀ c ∈ tail, Text.isBlank c = true) ∧
      line = front ++ (trim line ++ tail) := by
  obtain ⟨tail, htail, hcontent⟩ := exists_eq_trimEnd_append line.content
  refine ⟨line.indent, tail, fun c hmem => isBlank_of_mem_indent hmem, htail, ?_⟩
  calc line = line.indent ++ line.content := line.indent_append_content.symm
    _ = line.indent ++ (trim line ++ tail) := congrArg (line.indent ++ ·) hcontent

theorem content_append_of_isBlank (hfront : ∀ c ∈ front, Text.isBlank c = true) (line : Line) :
    content (front ++ line) = content line :=
  List.dropWhile_append_of_pos hfront

theorem isComment_append_of_isBlank (htail : ∀ c ∈ tail, Text.isBlank c = true) (line : Line) :
    isComment (line ++ tail) = isComment line := by
  have hmarker : ∀ c ∈ tail, c ∉ commentMarker.toList := by
    rintro c hc hmem
    obtain rfl : c = '/' := by simpa [commentMarker] using hmem
    exact absurd (htail '/' hc) (by decide)
  have happend : commentMarker.toList <+: content (line ++ tail) ↔
      commentMarker.toList <+: content line := by
    rw [content, Text.trimStart, List.dropWhile_append]
    -- On a blank line the blanks behind it are indentation too.
    split <;> rename_i hempty
    · have hnil : content line = [] := List.isEmpty_iff.mp hempty
      rw [List.dropWhile_eq_nil_iff.mpr htail, hnil]
    · exact prefix_append_iff hmarker
  rw [Bool.eq_iff_iff, isComment, isComment, List.isPrefixOf_iff_prefix, List.isPrefixOf_iff_prefix,
    happend]

/-- A property of lines that blanks at the ends do not change is a property of what is between
them. -/
theorem apply_trim {α : Type} {f : Line → α}
    (hfront : ∀ front line : Line,
      (∀ c ∈ front, Text.isBlank c = true) → f (front ++ line) = f line)
    (htail : ∀ line tail : Line,
      (∀ c ∈ tail, Text.isBlank c = true) → f (line ++ tail) = f line)
    (line : Line) : f (trim line) = f line := by
  obtain ⟨front, tail, hfrontBlank, htailBlank, hline⟩ := exists_eq_append_trim_append line
  calc f (trim line) = f (trim line ++ tail) := (htail _ _ htailBlank).symm
    _ = f (front ++ (trim line ++ tail)) := (hfront _ _ hfrontBlank).symm
    _ = f line := congrArg f hline.symm

theorem hasCall_trim (line : Line) : hasCall (trim line) = hasCall line := by
  apply apply_trim
  · intro front line hfront
    apply hasCall_append_of_not_isWordChar
    exact fun c hc => Text.isWordChar_eq_false_of_isBlank (hfront c hc)
  · exact fun line tail htail => hasCall_append_of_isBlank htail line

theorem isComment_trim (line : Line) : isComment (trim line) = isComment line := by
  apply apply_trim
  · intro front line hfront
    rw [isComment, content_append_of_isBlank hfront, isComment]
  · exact fun line tail htail => isComment_append_of_isBlank htail line

theorem closesCall_trim (line : Line) : closesCall (trim line) = closesCall line := by
  apply apply_trim
  · intro front line hfront
    exact closesCall_append_front (fun hmem => absurd (hfront ')' hmem) (by decide)) line
  · exact fun line tail htail => closesCall_append_of_isBlank htail line

theorem trim_eq_of_content_eq (hcontent : line.content = other.content) :
    trim line = trim other :=
  congrArg Text.trimEnd hcontent

theorem trim_append_return (line : Line) : trim (line ++ ['\r']) = trim line := by
  have hreturn : ∀ c ∈ ['\r'], Text.isBlank c = true := List.forall_mem_singleton.mpr (by decide)
  rw [trim, trim, Text.trimStart, List.dropWhile_append]
  split <;> rename_i hempty
  · rw [List.dropWhile_eq_nil_iff.mpr hreturn, Text.trimStart, List.isEmpty_iff.mp hempty]
  · exact trimEnd_append_of_isBlank hreturn _

end Line

/-! ### Two scans -/

/-- The scan cannot tell one line from the other. -/
structure Line.SameToScan (line other : Line) : Prop where
  hasCall_eq : line.hasCall = other.hasCall
  isComment_eq : line.isComment = other.isComment
  closesCall_eq : line.closesCall = other.closesCall

theorem Line.sameToScan_of_trim {line other : Line} (htrim : line.trim = other.trim) :
    line.SameToScan other where
  hasCall_eq := by rw [← line.hasCall_trim, htrim, other.hasCall_trim]
  isComment_eq := by rw [← line.isComment_trim, htrim, other.isComment_trim]
  closesCall_eq := by rw [← line.closesCall_trim, htrim, other.closesCall_trim]

namespace Scan

variable {scan scan' : Scan} {line other : Line}

/-- The two scans have read equally many lines and found the same calls. -/
structure SameCalls (scan scan' : Scan) : Prop where
  count_eq : scan.count = scan'.count
  finished_eq : scan.finished = scan'.finished
  current_eq : scan.current = scan'.current

theorem SameCalls.callAt_eq (hscans : scan.SameCalls scan') (hlines : line.SameToScan other) :
    scan.callAt line = scan'.callAt other := by
  have hlive : line.isLive = other.isLive := by
    rw [Line.isLive, hlines.hasCall_eq, hlines.isComment_eq, Line.isLive]
  rw [callAt, callAt, hscans.current_eq, hscans.count_eq, hlive]

/-- **One line.** -/
theorem SameCalls.next (hscans : scan.SameCalls scan') (hlines : line.SameToScan other) :
    (scan.next line).SameCalls (scan'.next other) := by
  have hcount : scan.count + 1 = scan'.count + 1 := congrArg (· + 1) hscans.count_eq
  unfold Scan.next
  rw [hscans.callAt_eq hlines, hlines.closesCall_eq]
  cases scan'.callAt other with
  | none => exact ⟨hcount, hscans.finished_eq, hscans.current_eq⟩
  | some span =>
      dsimp only
      split
      · exact ⟨hcount, congrArg (span :: ·) hscans.finished_eq, rfl⟩
      · exact ⟨hcount, hscans.finished_eq, rfl⟩

theorem SameCalls.spans_eq (hscans : scan.SameCalls scan') : scan.spans = scan'.spans := by
  rw [spans, spans, hscans.finished_eq, hscans.current_eq]

theorem sameCalls_ofLines {lines others : List Line}
    (hlines : List.Forall₂ Line.SameToScan lines others) :
    (ofLines lines).SameCalls (ofLines others) :=
  List.rel_foldl (fun _ _ hscans _ _ hline => hscans.next hline) ⟨rfl, rfl, rfl⟩ hlines

end Scan

/-- Tells of each line of a text whether it is commented out. -/
def commentedOut (text : String) : List Bool :=
  List.zipWith (fun line later => line != later) (linesOf text) (linesOf (silence text).after)

/-- The two texts have the same spans, and the same of their lines are commented out. -/
structure CommentedAlike (text other : String) : Prop where
  spans_eq : (silence text).spans = (silence other).spans
  commentedOut_eq : commentedOut text = commentedOut other

theorem Line.comment_ne (line : Line) : line.comment ≠ line := by
  intro heq
  have hsize := line.utf8ByteSize_comment
  rw [heq] at hsize
  omega

theorem zipWith_ne_markLines (spans : List Span) (lines : List Line) :
    List.zipWith (fun line later => line != later) lines (markLines spans lines) =
      (numbered lines).map fun numberedLine => decide (Marked spans numberedLine) := by
  calc List.zipWith (fun line later => line != later) lines (markLines spans lines)
      = List.zipWith (fun line later => line != later) ((numbered lines).map Prod.fst)
          (markLines spans lines) := by rw [map_fst_numbered]
    _ = (numbered lines).map fun numberedLine => decide (Marked spans numberedLine) := by
        rw [markLines, List.zipWith_map, List.zipWith_self]
        apply List.map_congr_left
        intro numberedLine _
        by_cases hmarked : Marked spans numberedLine
        · simpa [hmarked] using (Line.comment_ne numberedLine.1).symm
        · simp [hmarked]

/-- Which lines are commented out depends on the spans, and on which lines are comments already. -/
theorem commentedOut_eq_map (text : String) :
    commentedOut text =
      (((linesOf text).map Line.isComment).zipIdx 1).map fun numberedAnswer =>
        decide (Covered (silence text).spans numberedAnswer.2 ∧ numberedAnswer.1 = false) := by
  rw [commentedOut, linesOf_silence_after, zipWith_ne_markLines, List.zipIdx_map, List.map_map]
  rfl

theorem commentedAlike_of_sameToScan {text other : String}
    (hlines : List.Forall₂ Line.SameToScan (linesOf text) (linesOf other)) :
    CommentedAlike text other := by
  have hspans : (silence text).spans = (silence other).spans :=
    (Scan.sameCalls_ofLines hlines).spans_eq
  refine ⟨hspans, ?_⟩
  have hcomments : (linesOf text).map Line.isComment = (linesOf other).map Line.isComment := by
    rw [← List.forall₂_eq_eq_eq, List.forall₂_map_left_iff, List.forall₂_map_right_iff]
    exact hlines.imp fun line other hsame => hsame.isComment_eq
  rw [commentedOut_eq_map, commentedOut_eq_map, hspans, hcomments]

/-- **Blanks around the lines.** Two texts with as many lines, which are the same line by line but
for blanks at the two ends, have the same spans, and the same of their lines are commented out. So it
is if some lines gain or lose a carriage return, and if some are indented in another way. -/
theorem silence_ignores_blanks (text other : String) :
    (List.Forall₂ (fun line line' => line.trim = line'.trim) (linesOf text) (linesOf other) →
        CommentedAlike text other) ∧
      (List.Forall₂ (fun line line' =>
            line' = line ∨ line' = line ++ ['\r'] ∨ line = line' ++ ['\r'])
          (linesOf text) (linesOf other) →
        CommentedAlike text other) ∧
      (List.Forall₂ (fun line line' => line.content = line'.content)
          (linesOf text) (linesOf other) →
        CommentedAlike text other) := by
  have htrim : List.Forall₂ (fun line line' => line.trim = line'.trim)
      (linesOf text) (linesOf other) → CommentedAlike text other :=
    fun hlines => commentedAlike_of_sameToScan (hlines.imp fun _ _ => Line.sameToScan_of_trim)
  refine ⟨htrim, fun hlines => htrim (hlines.imp ?_), fun hlines => htrim (hlines.imp ?_)⟩
  · rintro line line' (rfl | rfl | rfl)
    · rfl
    · exact (Line.trim_append_return line).symm
    · exact Line.trim_append_return line'
  · exact fun line line' hcontent => Line.trim_eq_of_content_eq hcontent

/-- A call of three lines with a comment in it. Its blanks are others at first, then some lines end
in carriage returns, and then they are indented in another way. -/
theorem silence_ignores_blanks_around_call :
    (silence "a\n  console.log(\n// 1\n2)\n").spans = [⟨2, 2⟩] ∧
      (silence "a \n\u3000console.log(\t\r\n // 1\n\t2)\u0085\n ").spans = [⟨2, 2⟩] ∧
      commentedOut "a\r\n  console.log(\n// 1\r\n2)\r\n" = [false, true, false, true, false] ∧
      commentedOut "\ta\nconsole.log(\n  // 1\n \u20282)\n  " =
        [false, true, false, true, false] := by
  have hspans : (silence "a\n  console.log(\n// 1\n2)\n").spans = [⟨2, 2⟩] := by decide +kernel
  have hcommented : commentedOut "a\n  console.log(\n// 1\n2)\n" =
      [false, true, false, true, false] := by decide +kernel
  obtain ⟨htrim, -, -⟩ := silence_ignores_blanks "a\n  console.log(\n// 1\n2)\n"
    "a \n\u3000console.log(\t\r\n // 1\n\t2)\u0085\n "
  obtain ⟨-, hreturns, -⟩ := silence_ignores_blanks "a\n  console.log(\n// 1\n2)\n"
    "a\r\n  console.log(\n// 1\r\n2)\r\n"
  obtain ⟨-, -, hindents⟩ := silence_ignores_blanks "a\n  console.log(\n// 1\n2)\n"
    "\ta\nconsole.log(\n  // 1\n \u20282)\n  "
  refine ⟨hspans, ?_, ?_, ?_⟩
  · rw [← hspans]
    exact (htrim (by decide +kernel)).spans_eq.symm
  · rw [← hcommented]
    exact (hreturns (by decide +kernel)).commentedOut_eq.symm
  · rw [← hcommented]
    exact (hindents (by decide +kernel)).commentedOut_eq.symm

end Hush
