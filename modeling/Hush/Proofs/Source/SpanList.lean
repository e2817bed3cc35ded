import Hush.Proofs.Source.Lines

/-!
# The calls of a text

Which lists of spans describe the calls of some lines is said without the scan: the spans stand
apart in increasing order, each starts at a live line and ends where its call is closed, and no live
line is left out. At most one list does so.
-/

namespace Hush

instance : Membership Nat Span where
  mem span number := span.first ≤ number ∧ number ≤ span.last

theorem Span.mem_iff {span : Span} {number : Nat} :
    number ∈ span ↔ span.first ≤ number ∧ number ≤ span.last :=
  Iff.rfl

instance (span : Span) (number : Nat) : Decidable (number ∈ span) :=
  inferInstanceAs (Decidable (span.first ≤ number ∧ number ≤ span.last))

def Covered (spans : List Span) (number : Nat) : Prop := ∃ span ∈ spans, number ∈ span

instance (spans : List Span) (number : Nat) : Decidable (Covered spans number) :=
  inferInstanceAs (Decidable (∃ span ∈ spans, number ∈ span))

/-- The line of this number has the property. -/
def LineAt (property : Line → Prop) (lines : List Line) (number : Nat) : Prop :=
  ∃ line, (line, number) ∈ numbered lines ∧ property line

def LiveAt : List Line → Nat → Prop :=
  LineAt fun line => line.hasCall = true ∧ line.isComment = false

def ClosesAt : List Line → Nat → Prop := LineAt fun line => line.closesCall = true

/-- A call ends at the first line from its start on that closes it, or at the last line if there is
none. -/
def EndsAt (lines : List Line) (first last : Nat) : Prop :=
  IsLeast {number | first ≤ number ∧ ClosesAt lines number} last ∨
    (∀ number, first ≤ number → ¬ClosesAt lines number) ∧ last = lines.length

/-- The span of a call: the lines from a live one to the one that ends its call. -/
structure IsCall (lines : List Line) (span : Span) : Prop where
  bounds : 1 ≤ span.first ∧ span.first ≤ span.last ∧ span.last ≤ lines.length
  opens : LiveAt lines span.first
  ends : EndsAt lines span.first span.last

structure IsSpanList (lines : List Line) (spans : List Span) : Prop where
  ordered : spans.Pairwise fun span later => span.last < later.first
  calls : ∀ span ∈ spans, IsCall lines span
  covers : ∀ number, LiveAt lines number → Covered spans number

section Append

variable {property : Line → Prop} {lines : List Line} {line : Line} {number : Nat}

theorem LineAt.bounds (hline : LineAt property lines number) :
    1 ≤ number ∧ number ≤ lines.length := by
  obtain ⟨line, hmem, -⟩ := hline
  exact bounds_of_mem_numbered hmem

theorem lineAt_append_singleton :
    LineAt property (lines ++ [line]) number ↔
      LineAt property lines number ∨ number = lines.length + 1 ∧ property line := by
  simp only [LineAt, numbered_append_singleton, List.mem_append, List.mem_singleton,
    Prod.mk.injEq]
  constructor
  · rintro ⟨other, hmem | ⟨rfl, rfl⟩, hproperty⟩
    · exact Or.inl ⟨other, hmem, hproperty⟩
    · exact Or.inr ⟨rfl, hproperty⟩
  · rintro (⟨other, hmem, hproperty⟩ | ⟨rfl, hproperty⟩)
    · exact ⟨other, Or.inl hmem, hproperty⟩
    · exact ⟨line, Or.inr ⟨rfl, rfl⟩, hproperty⟩

theorem lineAt_last_iff :
    LineAt property (lines ++ [line]) (lines ++ [line]).length ↔ property line := by
  rw [lineAt_append_singleton, List.length_append, List.length_singleton]
  constructor
  · rintro (hold | ⟨-, hproperty⟩)
    · have hle := hold.bounds.2
      omega
    · exact hproperty
  · exact fun hproperty => Or.inr ⟨rfl, hproperty⟩

end Append

section Ends

variable {lines : List Line} {first last : Nat}

/-- Within the lines, the end of a call is the one line up to which nothing closes it, and which
closes it or is the last. -/
theorem endsAt_iff (hfirst : first ≤ last) :
    EndsAt lines first last ↔
      (∀ number, first ≤ number → number < last → ¬ClosesAt lines number) ∧
        (ClosesAt lines last ∨ last = lines.length) := by
  constructor
  · rintro (⟨⟨_, hcloses⟩, hleast⟩ | ⟨hnone, heq⟩)
    · refine ⟨?_, Or.inl hcloses⟩
      intro number hge hlt hnumber
      have hle : last ≤ number := hleast ⟨hge, hnumber⟩
      omega
    · exact ⟨fun number hge _ => hnone number hge, Or.inr heq⟩
  · rintro ⟨hbefore, hend⟩
    by_cases hcloses : ClosesAt lines last
    · refine Or.inl ⟨⟨hfirst, hcloses⟩, ?_⟩
      intro number hnumber
      by_contra hlt
      exact hbefore number hnumber.1 (by omega) hnumber.2
    · have heq : last = lines.length := hend.resolve_left hcloses
      refine Or.inr ⟨?_, heq⟩
      intro number hge hnumber
      rcases Nat.lt_trichotomy number last with hlt | hsame | hgt
      · exact hbefore number hge hlt hnumber
      · exact hcloses (hsame ▸ hnumber)
      · have hle := hnumber.bounds.2
        omega

theorem EndsAt.eq {other : Nat} (hlast : EndsAt lines first last)
    (hother : EndsAt lines first other) : last = other := by
  rcases hlast with hlast | ⟨hnone, heq⟩ <;> rcases hother with hother | ⟨hnone', heq'⟩
  · exact hlast.unique hother
  · exact absurd hlast.1.2 (hnone' last hlast.1.1)
  · exact absurd hother.1.2 (hnone other hother.1.1)
  · exact heq.trans heq'.symm

/-- A line that closes a call ends it whatever follows. -/
theorem IsCall.append_singleton {span : Span} (hcall : IsCall lines span)
    (hcloses : ClosesAt lines span.last) (line : Line) : IsCall (lines ++ [line]) span := by
  obtain ⟨hfirst, hle, hlast⟩ := hcall.bounds
  have hends := (endsAt_iff hle).mp hcall.ends
  have hlength : (lines ++ [line]).length = lines.length + 1 := by simp
  refine ⟨⟨hfirst, hle, by omega⟩, lineAt_append_singleton.mpr (Or.inl hcall.opens), ?_⟩
  rw [endsAt_iff hle]
  refine ⟨?_, Or.inl (lineAt_append_singleton.mpr (Or.inl hcloses))⟩
  intro number hge hlt hnumber
  rcases lineAt_append_singleton.mp hnumber with hold | ⟨hnew, -⟩
  · exact hends.1 number hge hlt hold
  · omega

end Ends

namespace IsSpanList

variable {lines : List Line} {left right : List Span}

theorem eq_of_mem (hleft : IsSpanList lines left) {span other : Span} (hspan : span ∈ left)
    (hother : other ∈ left) {number : Nat} (hnumber : number ∈ span)
    (hnumber' : number ∈ other) : span = other := by
  let Apart (a b : Span) : Prop := ∀ number ∈ a, number ∈ b → a = b
  have hforward : left.Pairwise Apart := by
    apply hleft.ordered.imp
    intro a b hlt n ha hb
    rw [Span.mem_iff] at ha hb
    omega
  have hbackward : left.Pairwise (flip Apart) := by
    apply hleft.ordered.imp
    intro a b hlt n hb ha
    rw [Span.mem_iff] at ha hb
    omega
  have hall := hforward.forall_of_forall_of_flip (fun _ _ _ _ _ => rfl) hbackward
  exact hall hspan hother number hnumber hnumber'

/-- A live line that starts a span of one list is covered by the other. A span that covers it from
further up would be in both lists by induction, where it shares that line with the first. -/
theorem mem_of_mem (number : Nat) :
    ∀ {left right : List Span}, IsSpanList lines left → IsSpanList lines right →
      ∀ span ∈ left, span.first = number → span ∈ right := by
  induction number using Nat.strong_induction_on with
  | _ number ih =>
      intro left right hleft hright span hspan hfirst
      obtain ⟨other, hother, hcovers⟩ := hright.covers span.first (hleft.calls span hspan).opens
      have hstart : span.first ∈ span := ⟨Nat.le_refl _, span.first_le_last⟩
      have heq : span = other := by
        rcases Nat.lt_or_eq_of_le hcovers.1 with hlt | hsame
        · have hback : other ∈ left := ih other.first (by omega) hright hleft other hother rfl
          exact hleft.eq_of_mem hspan hback hstart hcovers
        · have hend := (hright.calls other hother).ends
          rw [hsame] at hend
          have hlast : span.last = other.last := (hleft.calls span hspan).ends.eq hend
          exact Span.eq_of_bounds hsame.symm hlast
      exact heq ▸ hother

theorem unique (hleft : IsSpanList lines left) (hright : IsSpanList lines right) :
    left = right := by
  have hirrefl : Std.Irrefl fun span later : Span => span.last < later.first :=
    ⟨fun span hlt => by have hle := span.first_le_last; omega⟩
  have hantisymm : Std.Antisymm fun span later : Span => span.last < later.first :=
    ⟨fun span later hlt hgt => by
      have hspan := span.first_le_last
      have hlater := later.first_le_last
      omega⟩
  apply hleft.ordered.eq_of_mem_iff hright.ordered
  intro span
  constructor
  · exact fun hspan => mem_of_mem span.first hleft hright span hspan rfl
  · exact fun hspan => mem_of_mem span.first hright hleft span hspan rfl

end IsSpanList

end Hush
