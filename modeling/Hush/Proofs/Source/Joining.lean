import Hush.Proofs.Source.Rewriting

/-!
# Texts joined at a line break

Of the lines it has read, a scan remembers the call that waits for its end and nothing else. So
behind a text that leaves no call open, the lines that follow are scanned as if they stood alone.
Behind a text that leaves one open, the call takes the lines up to its end first, and those after it
are scanned as if they stood alone.
-/

namespace Hush

namespace Span

def shift (count : Nat) (span : Span) : Span := { span with first := span.first + count }

def growBy (count : Nat) (span : Span) : Span := { span with extra := span.extra + count }

theorem growBy_grow (span : Span) (count : Nat) :
    span.grow.growBy count = span.growBy (count + 1) := by
  simp only [grow, growBy, Span.mk.injEq, true_and]
  omega

theorem shift_single (count line : Nat) : (single line).shift count = single (line + count) := rfl

end Span

/-- The lines of a call that is open: those up to the first that closes it, or all of them. -/
def callLines : List Line → List Line
  | [] => []
  | line :: lines => if line.closesCall then [line] else line :: callLines lines

/-- The lines behind the first one that closes a call. -/
def laterLines : List Line → List Line
  | [] => []
  | line :: lines => if line.closesCall then lines else laterLines lines

theorem callLines_append_laterLines (lines : List Line) :
    callLines lines ++ laterLines lines = lines := by
  induction lines with
  | nil => rfl
  | cons line lines ih =>
      unfold callLines laterLines
      split
      · rfl
      · rw [List.cons_append, ih]

theorem callLines_ne_nil {lines : List Line} (hlines : lines ≠ []) : callLines lines ≠ [] := by
  cases lines with
  | nil => exact absurd rfl hlines
  | cons line lines =>
      unfold callLines
      split <;> exact List.cons_ne_nil _ _

namespace Scan

variable {scan earlier : Scan} {span : Span}

/-- What became of a line stays as it is. -/
theorem lines_suffix_foldl_next (scan : Scan) (lines : List Line) :
    scan.lines <:+ (lines.foldl next scan).lines := by
  induction lines generalizing scan with
  | nil => exact List.suffix_rfl
  | cons line lines ih =>
      refine List.IsSuffix.trans ?_ (ih (scan.next line))
      rw [lines_next]
      exact List.suffix_cons _ _

/-! ### Behind a scan without an open call -/

/-- The scan of some lines as it is when other lines stand before them. -/
def behind (scan earlier : Scan) : Scan where
  count := scan.count + earlier.count
  lines := scan.lines ++ earlier.lines
  finished := scan.finished.map (Span.shift earlier.count) ++ earlier.finished
  current := scan.current.map (Span.shift earlier.count)

theorem callAt_behind (scan earlier : Scan) (line : Line) :
    (scan.behind earlier).callAt line = (scan.callAt line).map (Span.shift earlier.count) := by
  unfold callAt behind
  cases scan.current with
  | some span => rfl
  | none =>
      simp only [Option.map_none]
      split
      · rw [Option.map_some, Span.shift_single, Nat.add_right_comm]
      · rfl

/-- **One line.** What stands before the lines has no part in what becomes of the next one. -/
theorem next_behind (scan earlier : Scan) (line : Line) :
    (scan.behind earlier).next line = (scan.next line).behind earlier := by
  unfold next
  rw [callAt_behind]
  cases scan.callAt line with
  | none => simp [behind, Nat.add_right_comm]
  | some span =>
      simp only [Option.map_some]
      split <;> simp [behind, Nat.add_right_comm]

theorem foldl_next_eq_behind (hcurrent : earlier.current = none) (lines : List Line) :
    lines.foldl next earlier = (ofLines lines).behind earlier := by
  -- From the back: the last line is read behind all the others, in both scans.
  induction lines using List.reverseRecOn with
  | nil =>
      rcases earlier with ⟨count, before, finished, current⟩
      obtain rfl : current = none := hcurrent
      simp [ofLines, behind]
  | append_singleton lines line ih =>
      rw [List.foldl_concat, ih, next_behind, ofLines_append_singleton]

theorem spans_behind (hcurrent : earlier.current = none) (scan : Scan) :
    (scan.behind earlier).spans = earlier.spans ++ scan.spans.map (Span.shift earlier.count) := by
  rw [spans_eq (scan.behind earlier), spans_eq earlier, spans_eq scan, hcurrent]
  cases hopen : scan.current <;> simp [behind, hopen]

/-! ### Behind a scan with an open call -/

/-- The scan goes on from another one by some lines, all of which went to the call that was open. -/
structure Continues (later scan : Scan) (span : Span) (call : List Line) : Prop where
  count_eq : later.count = scan.count + call.length
  lines_eq : later.lines = (call.map Line.silence).reverse ++ scan.lines
  spans_eq : later.spans = scan.finished.reverse ++ [span.growBy call.length]

theorem continues_nil (hcurrent : scan.current = some span) : scan.Continues scan span [] where
  count_eq := rfl
  lines_eq := rfl
  spans_eq := by rw [spans_eq, hcurrent]; rfl

/-- **One line of an open call.** -/
theorem continues_next (hcurrent : scan.current = some span) (line : Line) :
    (scan.next line).Continues scan span [line] := by
  have hcall : scan.callAt line = some span.grow := by rw [callAt, hcurrent]
  refine ⟨count_next scan line, ?_, spans_next_of_callAt_eq_some hcall⟩
  rw [lines_next, hcall]
  rfl

theorem Continues.cons {later last : Scan} {line : Line} {call : List Line}
    (hfirst : later.Continues scan span [line]) (hfinished : later.finished = scan.finished)
    (hrest : last.Continues later span.grow call) : last.Continues scan span (line :: call) where
  count_eq := by
    rw [hrest.count_eq, hfirst.count_eq, Nat.add_assoc, ← List.length_append, List.singleton_append]
  lines_eq := by
    rw [hrest.lines_eq, hfirst.lines_eq]
    simp
  spans_eq := by rw [hrest.spans_eq, hfinished, Span.growBy_grow, List.length_cons]

/-- An open call takes the lines up to its end. Then no call is open, unless no lines are left. -/
theorem continues_foldl_callLines (hcurrent : scan.current = some span) (lines : List Line) :
    ((callLines lines).foldl next scan).Continues scan span (callLines lines) ∧
      (((callLines lines).foldl next scan).current = none ∨ laterLines lines = []) := by
  induction lines generalizing scan span with
  | nil => exact ⟨continues_nil hcurrent, Or.inr rfl⟩
  | cons line lines ih =>
      have hcall : scan.callAt line = some span.grow := by rw [callAt, hcurrent]
      have hfirst := continues_next hcurrent line
      cases hcloses : line.closesCall with
      | true =>
          have hnone := (next_of_closesCall hcall hcloses).2
          simp only [callLines, hcloses, if_true]
          exact ⟨hfirst, Or.inl hnone⟩
      | false =>
          obtain ⟨hfinished, hopen⟩ := next_of_not_closesCall hcall hcloses
          obtain ⟨hrest, hend⟩ := ih hopen
          simp only [callLines, laterLines, hcloses, Bool.false_eq_true, if_false]
          exact ⟨hfirst.cons hfinished hrest, hend⟩

end Scan

/-- The last call of the text runs to its last line, and that line does not close it. -/
def LeavesOpen (text : String) : Prop :=
  ∃ span line, (silence text).spans.getLast? = some span ∧
    (linesOf text).getLast? = some line ∧ span.last = (linesOf text).length ∧
    line.closesCall = false

section Texts

variable {text : String} {span : Span} {lines : List Line}

theorem leavesOpen_of_current (hcurrent : (Scan.ofLines (linesOf text)).current = some span) :
    LeavesOpen text := by
  obtain ⟨before, line, hlines⟩ :=
    (List.eq_nil_or_concat' (linesOf text)).resolve_left (linesOf_ne_nil text)
  obtain ⟨hlast, hunclosed⟩ := (Scan.ofLines_tracks (linesOf text)).current span hcurrent
  refine ⟨span, line, ?_, by simp [hlines], hlast, ?_⟩
  · change (Scan.ofLines (linesOf text)).spans.getLast? = some span
    simp [Scan.spans_eq, hcurrent]
  · have hopen := hunclosed span.last span.first_le_last
    rwa [hlast, hlines, ClosesAt, lineAt_last_iff, Bool.not_eq_true] at hopen

theorem LeavesOpen.exists_current (hopen : LeavesOpen text) :
    ∃ span, (Scan.ofLines (linesOf text)).current = some span := by
  obtain ⟨span, line, hspan, hline, hlast, hcloses⟩ := hopen
  obtain ⟨before, hlines⟩ := List.getLast?_eq_some_iff.mp hline
  cases hcurrent : (Scan.ofLines (linesOf text)).current with
  | some current => exact ⟨current, rfl⟩
  | none =>
      -- With no call open the last span is a finished one, and its last line closes it.
      change (Scan.ofLines (linesOf text)).spans.getLast? = some span at hspan
      rw [Scan.spans_eq, hcurrent, Option.toList_none, List.append_nil] at hspan
      have hfinished := List.mem_reverse.mp (List.mem_of_getLast? hspan)
      have hclosed := (Scan.ofLines_tracks (linesOf text)).closed span hfinished
      rw [hlast, hlines, ClosesAt, lineAt_last_iff, hcloses] at hclosed
      cases hclosed

instance : DecidablePred LeavesOpen := fun text =>
  decidable_of_iff ((Scan.ofLines (linesOf text)).current.isSome = true) <| by
    rw [Option.isSome_iff_exists]
    exact ⟨fun ⟨_, hcurrent⟩ => leavesOpen_of_current hcurrent, LeavesOpen.exists_current⟩

theorem current_eq_none (hopen : ¬LeavesOpen text) :
    (Scan.ofLines (linesOf text)).current = none :=
  Option.eq_none_iff_forall_ne_some.mpr fun _ hcurrent => hopen (leavesOpen_of_current hcurrent)

theorem Scan.count_ofLines (lines : List Line) : (Scan.ofLines lines).count = lines.length :=
  (Scan.ofLines_tracks lines).count_eq

theorem Scan.length_lines_ofLines (lines : List Line) :
    (Scan.ofLines lines).lines.length = lines.length := by
  rw [← List.length_reverse, Scan.lines_ofLines, length_markLines]

theorem Scan.ofLines_linesOf_append (first second : String) :
    Scan.ofLines (linesOf (first ++ "\n" ++ second)) =
      (linesOf second).foldl Scan.next (Scan.ofLines (linesOf first)) := by
  rw [linesOf_append, Scan.ofLines, List.foldl_append]
  rfl

theorem lines_ofLines_ne_nil (text : String) : (Scan.ofLines (linesOf text)).lines ≠ [] := by
  rw [← List.length_pos_iff, Scan.length_lines_ofLines, List.length_pos_iff]
  exact linesOf_ne_nil text

theorem linesOf_silence_after_eq (text : String) :
    linesOf (silence text).after = (Scan.ofLines (linesOf text)).lines.reverse := by
  rw [linesOf_silence_after]
  exact (Scan.lines_ofLines (linesOf text)).symm

theorem linesOf_ofLines_laterLines (hlater : laterLines (linesOf text) ≠ []) :
    linesOf (ofLines (laterLines (linesOf text))) = laterLines (linesOf text) := by
  apply linesOf_ofLines hlater
  intro line hmem
  have hline : line ∈ linesOf text := by
    rw [← callLines_append_laterLines (linesOf text)]
    exact List.mem_append_right _ hmem
  exact newline_notMem_of_mem_linesOf hline

end Texts

section Append

variable {scan : Scan} {first : String} (second : String)

/-- Behind lines that leave no call open, a text is scanned as if it stood alone. -/
theorem foldl_next_linesOf (hcurrent : scan.current = none) (hlines : scan.lines ≠ []) :
    ofLines ((linesOf second).foldl Scan.next scan).lines.reverse =
        ofLines scan.lines.reverse ++ "\n" ++ (silence second).after ∧
      ((linesOf second).foldl Scan.next scan).spans =
        scan.spans ++ (silence second).spans.map (Span.shift scan.count) := by
  have hbefore : scan.lines.reverse ≠ [] := by simpa using hlines
  have hbehind : (Scan.ofLines (linesOf second)).lines.reverse ≠ [] := by
    simpa using lines_ofLines_ne_nil second
  rw [Scan.foldl_next_eq_behind hcurrent]
  constructor
  · calc ofLines ((Scan.ofLines (linesOf second)).behind scan).lines.reverse
        = ofLines (scan.lines.reverse ++ (Scan.ofLines (linesOf second)).lines.reverse) := by
          rw [← List.reverse_append]
          rfl
      _ = ofLines scan.lines.reverse ++ "\n" ++ (silence second).after :=
          ofLines_append hbefore hbehind
  · exact Scan.spans_behind hcurrent _

theorem ofLines_lines_of_continues {later : Scan} {span : Span} {call : List Line}
    (hcontinues : later.Continues scan span call) (hlines : scan.lines ≠ []) (hcall : call ≠ []) :
    ofLines later.lines.reverse =
      ofLines scan.lines.reverse ++ "\n" ++ ofLines (call.map Line.silence) := by
  rw [hcontinues.lines_eq, List.reverse_append, List.reverse_reverse]
  exact ofLines_append (by simpa using hlines) (by simpa using hcall)

theorem silence_append_of_not_leavesOpen (hopen : ¬LeavesOpen first) :
    (silence (first ++ "\n" ++ second)).after =
        (silence first).after ++ "\n" ++ (silence second).after ∧
      (silence (first ++ "\n" ++ second)).spans =
        (silence first).spans ++
          (silence second).spans.map (Span.shift (linesOf first).length) := by
  obtain ⟨hafter, hspans⟩ :=
    foldl_next_linesOf second (current_eq_none hopen) (lines_ofLines_ne_nil first)
  rw [Scan.count_ofLines] at hspans
  rw [silence, Scan.ofLines_linesOf_append]
  exact ⟨hafter, hspans⟩

theorem silence_append_of_leavesOpen (hopen : LeavesOpen first) :
    ∃ before last, (silence first).spans = before ++ [last] ∧
      (silence (first ++ "\n" ++ second)).after =
        (silence first).after ++ "\n" ++ ofLines ((callLines (linesOf second)).map Line.silence) ++
          (if laterLines (linesOf second) = [] then ""
          else "\n" ++ (silence (ofLines (laterLines (linesOf second)))).after) ∧
      (silence (first ++ "\n" ++ second)).spans =
        before ++ [last.growBy (callLines (linesOf second)).length] ++
          (silence (ofLines (laterLines (linesOf second)))).spans.map
            (Span.shift ((linesOf first).length + (callLines (linesOf second)).length)) := by
  obtain ⟨last, hcurrent⟩ := hopen.exists_current
  obtain ⟨hcontinues, hend⟩ := Scan.continues_foldl_callLines hcurrent (linesOf second)
  have hcall : callLines (linesOf second) ≠ [] := callLines_ne_nil (linesOf_ne_nil second)
  have hscan := Scan.ofLines_linesOf_append first second
  rw [← callLines_append_laterLines (linesOf second), List.foldl_append] at hscan
  -- From here on only what is known of the scan at the end of the call is used.
  generalize (callLines (linesOf second)).foldl Scan.next (Scan.ofLines (linesOf first)) = scan at *
  have htaken : ofLines scan.lines.reverse =
      (silence first).after ++ "\n" ++ ofLines ((callLines (linesOf second)).map Line.silence) :=
    ofLines_lines_of_continues hcontinues (lines_ofLines_ne_nil first) hcall
  refine ⟨(Scan.ofLines (linesOf first)).finished.reverse, last, ?_, ?_⟩
  · change (Scan.ofLines (linesOf first)).spans = _
    rw [Scan.spans_eq, hcurrent]
    rfl
  rw [silence, hscan, ← htaken, ← hcontinues.spans_eq, ← Scan.count_ofLines (linesOf first),
    ← hcontinues.count_eq]
  by_cases hlater : laterLines (linesOf second) = []
  · have hnone : (silence (ofLines [])).spans = [] := rfl
    rw [if_pos hlater, hlater, hnone, List.map_nil, List.append_nil, String.append_empty]
    exact ⟨rfl, rfl⟩
  · have hlines : scan.lines ≠ [] := by
      rw [hcontinues.lines_eq]
      exact List.append_ne_nil_of_left_ne_nil (by simpa using hcall) _
    have hrest := foldl_next_linesOf (ofLines (laterLines (linesOf second)))
      (hend.resolve_right hlater) hlines
    rw [linesOf_ofLines_laterLines hlater] at hrest
    rw [if_neg hlater, ← String.append_assoc]
    exact hrest

end Append

/-- **Texts joined at a line break.** If the first text leaves no call open, the two are revised
each for itself. If it leaves one open, that call takes the lines of the second text up to the first
that closes it, and only what is behind that line is revised for itself. Either way the lines of the
first text become what they become without the second. -/
theorem silence_append (first second : String) :
    let whole := silence (first ++ "\n" ++ second)
    let call := callLines (linesOf second)
    let later := laterLines (linesOf second)
    (¬LeavesOpen first →
      whole.after = (silence first).after ++ "\n" ++ (silence second).after ∧
        whole.spans = (silence first).spans ++
          (silence second).spans.map (Span.shift (linesOf first).length)) ∧
      (LeavesOpen first → ∃ before last, (silence first).spans = before ++ [last] ∧
        whole.after = (silence first).after ++ "\n" ++ ofLines (call.map Line.silence) ++
          (if later = [] then "" else "\n" ++ (silence (ofLines later)).after) ∧
        whole.spans = before ++ [last.growBy call.length] ++
          (silence (ofLines later)).spans.map
            (Span.shift ((linesOf first).length + call.length))) ∧
      linesOf (silence first).after <+: linesOf whole.after := by
  refine ⟨fun hopen => silence_append_of_not_leavesOpen second hopen,
    fun hopen => silence_append_of_leavesOpen second hopen, ?_⟩
  rw [linesOf_silence_after_eq, linesOf_silence_after_eq, Scan.ofLines_linesOf_append,
    List.reverse_prefix]
  exact Scan.lines_suffix_foldl_next _ _

/-- A call cut apart at a line of its own, with a comment in it and another call behind it, and two
texts without such a call. -/
theorem silence_append_unclosed :
    LeavesOpen "f()\nconsole.log(" ∧
      (silence ("f()\nconsole.log(" ++ "\n" ++ "  // 1\n  2);\nconsole.log(3)")).after =
        "f()\n// console.log(\n  // 1\n  // 2);\n// console.log(3)" ∧
      (silence ("f()\nconsole.log(" ++ "\n" ++ "  // 1\n  2);\nconsole.log(3)")).spans =
        [⟨2, 2⟩, ⟨5, 0⟩] ∧
      ¬LeavesOpen "f(\nconsole.log(1)" ∧
      (silence ("f(\nconsole.log(1)" ++ "\n" ++ "2)\nconsole.log(3")).spans = [⟨2, 0⟩, ⟨4, 0⟩] := by
  have hopen : LeavesOpen "f()\nconsole.log(" := by decide +kernel
  have hclosed : ¬LeavesOpen "f(\nconsole.log(1)" := by decide +kernel
  obtain ⟨-, hcut, -⟩ := silence_append "f()\nconsole.log(" "  // 1\n  2);\nconsole.log(3)"
  obtain ⟨hapart, -, -⟩ := silence_append "f(\nconsole.log(1)" "2)\nconsole.log(3"
  obtain ⟨before, last, hspans, hafter, hall⟩ := hcut hopen
  have hfirst : (silence "f()\nconsole.log(").spans = [] ++ [⟨2, 0⟩] := by decide +kernel
  obtain ⟨rfl, hlast⟩ := List.append_inj' (hfirst.symm.trans hspans) rfl
  obtain rfl := List.singleton_injective hlast
  refine ⟨hopen, ?_, ?_, hclosed, ?_⟩
  · rw [hafter]
    decide +kernel
  · rw [hall]
    decide +kernel
  · rw [(hapart hclosed).2]
    decide +kernel

end Hush
