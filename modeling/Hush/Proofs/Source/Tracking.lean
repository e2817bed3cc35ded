import Hush.Proofs.Line.Comment
import Hush.Proofs.Source.SpanList

/-!
# The scan finds the calls

After any number of lines the scan holds the calls of these lines, the last of which may still wait
for its closing line. One line keeps that, and so the spans of a text are its calls.
-/

namespace Hush

namespace Scan

variable {scan : Scan} {lines : List Line} {line : Line} {span : Span}

/-! ### One line -/

theorem spans_eq (scan : Scan) :
    scan.spans = scan.finished.reverse ++ scan.current.toList := by
  cases hcurrent : scan.current <;> simp [spans, hcurrent]

theorem callAt_eq_some (hcall : scan.callAt line = some span) :
    (∃ open', scan.current = some open' ∧ span = open'.grow) ∨
      scan.current = none ∧ line.isLive = true ∧ span = .single (scan.count + 1) := by
  unfold callAt at hcall
  cases hcurrent : scan.current with
  | some open' =>
      rw [hcurrent] at hcall
      exact Or.inl ⟨open', rfl, (Option.some.inj hcall).symm⟩
  | none =>
      simp only [hcurrent] at hcall
      split at hcall <;> rename_i hlive
      · exact Or.inr ⟨rfl, hlive, (Option.some.inj hcall).symm⟩
      · cases hcall

theorem callAt_eq_none (hcall : scan.callAt line = none) :
    scan.current = none ∧ line.isLive = false := by
  unfold callAt at hcall
  cases hcurrent : scan.current with
  | some open' => simp [hcurrent] at hcall
  | none => simpa [hcurrent] using hcall

@[simp]
theorem count_next (scan : Scan) (line : Line) : (scan.next line).count = scan.count + 1 := by
  unfold next
  split
  · rfl
  · split <;> rfl

theorem lines_next (scan : Scan) (line : Line) :
    (scan.next line).lines =
      (if (scan.callAt line).isSome then line.silence else line) :: scan.lines := by
  unfold next
  cases scan.callAt line with
  | none => rfl
  | some span =>
      dsimp only
      split <;> rfl

theorem next_of_callAt_eq_none (hcall : scan.callAt line = none) :
    (scan.next line).finished = scan.finished ∧ (scan.next line).current = scan.current := by
  simp [next, hcall]

theorem next_of_closesCall (hcall : scan.callAt line = some span)
    (hcloses : line.closesCall = true) :
    (scan.next line).finished = span :: scan.finished ∧ (scan.next line).current = none := by
  simp [next, hcall, hcloses]

theorem next_of_not_closesCall (hcall : scan.callAt line = some span)
    (hcloses : line.closesCall = false) :
    (scan.next line).finished = scan.finished ∧ (scan.next line).current = some span := by
  simp [next, hcall, hcloses]

theorem spans_next_of_callAt_eq_some (hcall : scan.callAt line = some span) :
    (scan.next line).spans = scan.finished.reverse ++ [span] := by
  rw [spans_eq]
  cases hcloses : line.closesCall with
  | true =>
      obtain ⟨hfinished, hcurrent⟩ := next_of_closesCall hcall hcloses
      simp [hfinished, hcurrent]
  | false =>
      obtain ⟨hfinished, hcurrent⟩ := next_of_not_closesCall hcall hcloses
      simp [hfinished, hcurrent]

theorem spans_next_of_callAt_eq_none (hcall : scan.callAt line = none) :
    (scan.next line).spans = scan.spans := by
  obtain ⟨hfinished, hcurrent⟩ := next_of_callAt_eq_none hcall
  rw [spans_eq, spans_eq, hfinished, hcurrent]

theorem ofLines_append_singleton (lines : List Line) (line : Line) :
    ofLines (lines ++ [line]) = (ofLines lines).next line := by
  simp [ofLines]

/-! ### The invariant -/

/-- A call that the last of the lines belongs to, below some other calls. Only that line may close
it. -/
structure Running (lines : List Line) (before : List Span) (span : Span) : Prop where
  one_le : 1 ≤ span.first
  last_eq : span.last = lines.length
  opens : LiveAt lines span.first
  below : ∀ other ∈ before, other.last < span.first
  unclosed : ∀ number, span.first ≤ number → number < span.last → ¬ClosesAt lines number

theorem Running.isCall {before : List Span} (hrunning : Running lines before span) :
    IsCall lines span where
  bounds := ⟨hrunning.one_le, span.first_le_last, hrunning.last_eq.le⟩
  opens := hrunning.opens
  ends := (endsAt_iff span.first_le_last).mpr ⟨hrunning.unclosed, Or.inr hrunning.last_eq⟩

/-- The scan has read the lines: its spans are their calls, the finished ones are closed, and the
current one is not. -/
structure Tracks (scan : Scan) (lines : List Line) : Prop where
  count_eq : scan.count = lines.length
  spans : IsSpanList lines scan.spans
  closed : ∀ span ∈ scan.finished, ClosesAt lines span.last
  current : ∀ span, scan.current = some span →
    span.last = lines.length ∧ ∀ number, span.first ≤ number → ¬ClosesAt lines number

namespace Tracks

theorem mem_spans_of_mem_finished (hmem : span ∈ scan.finished) : span ∈ scan.spans := by
  rw [spans_eq]
  exact List.mem_append_left _ (List.mem_reverse.mpr hmem)

theorem mem_spans_of_current (hcurrent : scan.current = some span) : span ∈ scan.spans := by
  rw [spans_eq, hcurrent]
  exact List.mem_append_right _ (List.mem_singleton_self span)

theorem finished_below_current (htracks : scan.Tracks lines) (hcurrent : scan.current = some span) :
    ∀ other ∈ scan.finished, other.last < span.first := by
  intro other hother
  have hordered := htracks.spans.ordered
  rw [spans_eq, hcurrent, List.pairwise_append] at hordered
  exact hordered.2.2 other (List.mem_reverse.mpr hother) span (List.mem_singleton_self span)

theorem running (htracks : scan.Tracks lines) (hcall : scan.callAt line = some span) :
    Running (lines ++ [line]) scan.finished span := by
  rcases callAt_eq_some hcall with ⟨open', hcurrent, rfl⟩ | ⟨hcurrent, hlive, rfl⟩
  · have hopen := htracks.spans.calls open' (mem_spans_of_current hcurrent)
    obtain ⟨hlast, hunclosed⟩ := htracks.current open' hcurrent
    refine ⟨hopen.bounds.1, by simp [hlast], lineAt_append_singleton.mpr (Or.inl hopen.opens),
      fun other hother => htracks.finished_below_current hcurrent other hother, ?_⟩
    intro number hge hlt hcloses
    rw [Span.last_grow, hlast] at hlt
    rcases lineAt_append_singleton.mp hcloses with hold | ⟨hnew, -⟩
    · exact hunclosed number hge hold
    · omega
  · have hfirst : (Span.single (scan.count + 1)).first = lines.length + 1 := by
      rw [htracks.count_eq]
      rfl
    refine ⟨by omega, by simp [htracks.count_eq], ?_, ?_, ?_⟩
    · rw [hfirst]
      exact lineAt_append_singleton.mpr (Or.inr ⟨rfl, Line.isLive_iff.mp hlive⟩)
    · intro other hother
      have hbounds := (htracks.spans.calls other (mem_spans_of_mem_finished hother)).bounds
      omega
    · intro number hge hlt _
      rw [Span.last_single, htracks.count_eq] at hlt
      omega

/-- A line that belongs to a call is covered by it, and no line before it is covered anew. -/
theorem covered_next_iff (htracks : scan.Tracks lines) {number : Nat}
    (hnumber : number ≤ lines.length) :
    Covered (scan.next line).spans number ↔ Covered scan.spans number := by
  cases hcall : scan.callAt line with
  | none => rw [spans_next_of_callAt_eq_none hcall]
  | some span =>
      rw [spans_next_of_callAt_eq_some hcall, spans_eq]
      have hlast : number ∈ span ↔
          ∃ current, scan.current = some current ∧ number ∈ current := by
        rcases callAt_eq_some hcall with ⟨open', hcurrent, rfl⟩ | ⟨hcurrent, -, rfl⟩
        · have hopen := (htracks.current open' hcurrent).1
          rw [hcurrent, Span.mem_iff, Span.last_grow]
          simp only [Option.some.injEq, exists_eq_left', Span.mem_iff]
          have hfirst : open'.grow.first = open'.first := rfl
          omega
        · rw [hcurrent, Span.mem_iff, htracks.count_eq]
          simp only [reduceCtorEq, false_and, exists_false, iff_false, not_and]
          intro hge
          change lines.length + 1 ≤ number at hge
          omega
      simp only [Covered, List.mem_append, List.mem_singleton, or_and_right, exists_or,
        exists_eq_left, hlast, Option.mem_toList]

theorem covered_next_last_iff (htracks : scan.Tracks lines) :
    Covered (scan.next line).spans (lines.length + 1) ↔ (scan.callAt line).isSome = true := by
  have hold : ∀ other ∈ scan.spans, lines.length + 1 ∉ other := by
    intro other hother hmem
    have hbounds := (htracks.spans.calls other hother).bounds
    rw [Span.mem_iff] at hmem
    omega
  cases hcall : scan.callAt line with
  | none =>
      rw [spans_next_of_callAt_eq_none hcall]
      simpa [Covered] using hold
  | some span =>
      rw [spans_next_of_callAt_eq_some hcall]
      have hrunning := htracks.running hcall
      have hlast := hrunning.last_eq
      rw [List.length_append, List.length_singleton] at hlast
      have hle := span.first_le_last
      simp only [Option.isSome_some, iff_true]
      refine ⟨span, List.mem_append_right _ (List.mem_singleton_self span), ?_⟩
      exact ⟨by omega, by omega⟩

theorem isSpanList_next_of_none (htracks : scan.Tracks lines) (hcall : scan.callAt line = none) :
    IsSpanList (lines ++ [line]) (scan.next line).spans := by
  obtain ⟨hcurrent, hlive⟩ := callAt_eq_none hcall
  have hfinished : scan.spans = scan.finished.reverse := by simp [spans_eq, hcurrent]
  rw [spans_next_of_callAt_eq_none hcall]
  refine ⟨htracks.spans.ordered, ?_, ?_⟩
  · intro span hspan
    have hclosed := htracks.closed span (by simpa [hfinished] using hspan)
    exact (htracks.spans.calls span hspan).append_singleton hclosed line
  · intro number hnumber
    rcases lineAt_append_singleton.mp hnumber with hold | ⟨-, hnew⟩
    · exact htracks.spans.covers number hold
    · rw [← Line.isLive_iff, hlive] at hnew
      cases hnew

theorem isSpanList_next_of_some (htracks : scan.Tracks lines)
    (hcall : scan.callAt line = some span) :
    IsSpanList (lines ++ [line]) (scan.next line).spans := by
  have hrunning := htracks.running hcall
  refine ⟨?_, ?_, ?_⟩
  · have hordered := htracks.spans.ordered
    rw [spans_eq, List.pairwise_append] at hordered
    rw [spans_next_of_callAt_eq_some hcall, List.pairwise_append]
    refine ⟨hordered.1, List.pairwise_singleton _ _, ?_⟩
    intro other hother last hlast
    rw [List.mem_singleton.mp hlast]
    exact hrunning.below other (List.mem_reverse.mp hother)
  · intro other hother
    rw [spans_next_of_callAt_eq_some hcall, List.mem_append] at hother
    rcases hother with hother | hother
    · have hfinished := List.mem_reverse.mp hother
      have hspan := htracks.spans.calls other (mem_spans_of_mem_finished hfinished)
      exact hspan.append_singleton (htracks.closed other hfinished) line
    · rw [List.mem_singleton.mp hother]
      exact hrunning.isCall
  · intro number hnumber
    rcases lineAt_append_singleton.mp hnumber with hold | ⟨rfl, -⟩
    · exact (htracks.covered_next_iff hold.bounds.2).mpr (htracks.spans.covers number hold)
    · rw [htracks.covered_next_last_iff, hcall]
      rfl

/-- **One line.** The scan keeps track of the lines it has read. -/
theorem next (htracks : scan.Tracks lines) (line : Line) :
    (scan.next line).Tracks (lines ++ [line]) := by
  have hcount : (scan.next line).count = (lines ++ [line]).length := by
    simp [htracks.count_eq]
  have hclosed : ∀ span ∈ scan.finished, ClosesAt (lines ++ [line]) span.last :=
    fun span hspan => lineAt_append_singleton.mpr (Or.inl (htracks.closed span hspan))
  cases hcall : scan.callAt line with
  | none =>
      obtain ⟨hfinished, hcurrent⟩ := next_of_callAt_eq_none hcall
      refine ⟨hcount, htracks.isSpanList_next_of_none hcall, ?_, ?_⟩
      · rwa [hfinished]
      · rw [hcurrent, (callAt_eq_none hcall).1]
        exact fun span hspan => nomatch hspan
  | some span =>
      have hrunning := htracks.running hcall
      have hlast := hrunning.last_eq
      rw [List.length_append, List.length_singleton] at hlast
      cases hcloses : line.closesCall with
      | true =>
          obtain ⟨hfinished, hcurrent⟩ := next_of_closesCall hcall hcloses
          refine ⟨hcount, htracks.isSpanList_next_of_some hcall, ?_, ?_⟩
          · rw [hfinished, List.forall_mem_cons]
            exact ⟨lineAt_append_singleton.mpr (Or.inr ⟨hlast, hcloses⟩), hclosed⟩
          · rw [hcurrent]
            exact fun span hspan => nomatch hspan
      | false =>
          obtain ⟨hfinished, hcurrent⟩ := next_of_not_closesCall hcall hcloses
          refine ⟨hcount, htracks.isSpanList_next_of_some hcall, ?_, ?_⟩
          · rwa [hfinished]
          · intro other hother
            rw [hcurrent, Option.some.injEq] at hother
            subst hother
            refine ⟨hrunning.last_eq, ?_⟩
            intro number hge hnumber
            by_cases hlt : number < span.last
            · exact hrunning.unclosed number hge hlt hnumber
            · rcases lineAt_append_singleton.mp hnumber with hold | ⟨-, hnew⟩
              · have hle := hold.bounds.2
                omega
              · rw [hcloses] at hnew
                cases hnew

end Tracks

theorem ofLines_tracks (lines : List Line) : (ofLines lines).Tracks lines := by
  induction lines using List.reverseRecOn with
  | nil =>
      refine ⟨rfl, ⟨List.Pairwise.nil, ?_, ?_⟩, ?_, ?_⟩
      · exact fun span hspan => nomatch hspan
      · exact fun number hnumber => absurd (hnumber.bounds.1.trans hnumber.bounds.2) (by simp)
      · exact fun span hspan => nomatch hspan
      · exact fun span hspan => nomatch hspan
  | append_singleton lines line ih =>
      rw [ofLines_append_singleton]
      exact ih.next line

end Scan

/-- **The spans of a text.** The recorded spans are the calls of its lines, and no other list of
spans is. -/
theorem isSpanList_iff_eq_spans (text : String) (spans : List Span) :
    IsSpanList (linesOf text) spans ↔ spans = (silence text).spans := by
  have hrecorded : IsSpanList (linesOf text) (silence text).spans :=
    (Scan.ofLines_tracks (linesOf text)).spans
  constructor
  · exact fun hspans => hspans.unique hrecorded
  · rintro rfl
    exact hrecorded

end Hush
