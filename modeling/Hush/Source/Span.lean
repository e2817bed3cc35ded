/-!
# Spans

The lines of one commented call, counted from one. A span stores its first line and how many lines
follow it, so it holds at least one line by construction.
-/

namespace Hush

structure Span where
  first : Nat
  /-- The number of lines after the first. -/
  extra : Nat
  deriving DecidableEq

namespace Span

def single (line : Nat) : Span := ⟨line, 0⟩

def last (span : Span) : Nat := span.first + span.extra

def size (span : Span) : Nat := span.extra + 1

def isSingle (span : Span) : Bool := span.extra == 0

def grow (span : Span) : Span := { span with extra := span.extra + 1 }

def ofBounds? (first last : Nat) : Option Span :=
  if first ≤ last then some ⟨first, last - first⟩ else none

@[simp] theorem last_single (line : Nat) : (single line).last = line := rfl

@[simp] theorem last_grow (span : Span) : span.grow.last = span.last + 1 := rfl

theorem first_le_last (span : Span) : span.first ≤ span.last :=
  Nat.le_add_right _ _

theorem eq_of_bounds {span other : Span} (hfirst : span.first = other.first)
    (hlast : span.last = other.last) : span = other := by
  rcases span with ⟨first, extra⟩
  rcases other with ⟨first', extra'⟩
  simp only [last] at hfirst hlast
  simp only [mk.injEq]
  omega

theorem ofBounds?_eq_some_iff {first last : Nat} {span : Span} :
    ofBounds? first last = some span ↔ span.first = first ∧ span.last = last := by
  rcases span with ⟨start, extra⟩
  unfold ofBounds?
  split
  · simp only [Option.some.injEq, Span.mk.injEq, Span.last]
    omega
  · simp only [reduceCtorEq, Span.last, false_iff, not_and]
    omega

end Span

end Hush
