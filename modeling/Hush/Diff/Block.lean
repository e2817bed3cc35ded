import Hush.Diff.Slide

/-!
# Blocks

A compact script read as an alternation of kept runs and changes. All deletions between two kept
runs form one side of a change and all insertions the other, in whatever order they stood.
-/

namespace Hush.Diff

/-- A half-open range of line positions. -/
structure Range where
  start : Nat
  stop : Nat
  deriving DecidableEq

namespace Range

def ofSize (start size : Nat) : Range := ⟨start, start + size⟩

def size (range : Range) : Nat := range.stop - range.start

def upTo (first last : Range) : Range := ⟨first.start, last.stop⟩

end Range

inductive Block
  | kept (old new size : Nat)
  | change (old new : Range)
  deriving DecidableEq

namespace Block

def oldRange : Block → Range
  | kept old _ size => .ofSize old size
  | change old _ => old

def newRange : Block → Range
  | kept _ new size => .ofSize new size
  | change _ new => new

/-- The last lines of a kept run; a change stays whole. -/
def takeLast (limit : Nat) : Block → Block
  | kept old new size => kept (old + (size - limit)) (new + (size - limit)) (min size limit)
  | block => block

def takeFirst (limit : Nat) : Block → Block
  | kept old new size => kept old new (min size limit)
  | block => block

def isKept : Block → Bool
  | kept .. => true
  | change .. => false

/-- Joins edits of one kind to one edit at the place of the first. -/
def joined? : List Edit → Option Edit
  | [] => none
  | first :: rest =>
    some { first with size := rest.foldl (fun size edit => size + edit.size) first.size }

/-- The block of a run of edits that are all kept or all changed. A change with one side only
takes the place of its other side from that edit. -/
def ofRun? (run : List Edit) : Option Block :=
  match joined? (run.filter (·.kind = .equal)) with
  | some equal => some (kept equal.old equal.new equal.size)
  | none =>
    match joined? (run.filter (·.kind = .delete)), joined? (run.filter (·.kind = .insert)) with
    | some deleted, some inserted =>
      some (change (.ofSize deleted.old deleted.size) (.ofSize inserted.new inserted.size))
    | some deleted, none =>
      some (change (.ofSize deleted.old deleted.size) (.ofSize deleted.new 0))
    | none, some inserted =>
      some (change (.ofSize inserted.old 0) (.ofSize inserted.new inserted.size))
    | none, none => none

def ofScript (script : List Edit) : List Block :=
  (script.splitBy fun a b => a.isEqual == b.isEqual).filterMap ofRun?

end Block

end Hush.Diff
