import Hush.Diff.Edit

/-!
# Sliding edits together

A script is made compact by moving each change as far up as it goes and then as far down as it
goes. A change joins a neighbour of its own kind, changes places with one of the other kind, and
slides over kept lines as long as the script stays a script. First all deletions are moved, then
all insertions.

Changing places leaves the recorded positions alone, so a deletion's position among the new lines
and an insertion's among the old ones may lag behind the lines that now precede it.
-/

namespace Hush.Diff

namespace Edit

def dropFirst (edit : Edit) (size : Nat) : Edit :=
  { edit with old := edit.old + size, new := edit.new + size, size := edit.size - size }

def dropLast (edit : Edit) (size : Nat) : Edit := { edit with size := edit.size - size }

def shiftDown (edit : Edit) (size : Nat) : Edit :=
  { edit with old := edit.old + size, new := edit.new + size }

def shiftUp (edit : Edit) (size : Nat) : Edit :=
  { edit with old := edit.old - size, new := edit.new - size }

def growDown (edit : Edit) (size : Nat) : Edit := { edit with size := edit.size + size }

def growUp (edit : Edit) (size : Nat) : Edit := (edit.shiftUp size).growDown size

end Edit

/-- A script with one edit in view. The edits before it are listed with the nearest first. -/
structure Cursor where
  before : List Edit
  this : Edit
  after : List Edit

namespace Cursor

def script (cursor : Cursor) : List Edit := cursor.before.reverse ++ cursor.this :: cursor.after

variable {α : Type} [BEq α]

/-- How many of the kept lines above an insertion it may slide over: as many as agree, from the
last one on, with its own last lines and the lines before those. -/
def roomAbove (old new : Array α) (kept this : Edit) : Nat :=
  if this.kind = .insert then
    runBefore old new (kept.old + kept.size) (this.new + this.size) kept.size
  else 0

/-- How many of the kept lines below an insertion it may slide over. -/
def roomBelow (old new : Array α) (this kept : Edit) : Nat :=
  if this.kind = .insert then runFrom old new kept.old this.new kept.size else 0

/-- Hands kept lines from above a change to the kept lines below it. -/
def keepBelow (kept this : Edit) (size : Nat) (after : List Edit) : List Edit :=
  if size = 0 then after
  else
    let handed := ⟨.equal, kept.old + kept.size - size, this.new + this.size - size, size⟩
    match after with
    | [] => [handed]
    | next :: rest => if next.isEqual then next.growUp size :: rest else handed :: next :: rest

/-- Hands kept lines from below a change to the kept lines above it. -/
def keepAbove (this kept : Edit) (size : Nat) (before : List Edit) : List Edit :=
  if size = 0 then before
  else
    let handed := ⟨.equal, kept.old, this.new, size⟩
    match before with
    | [] => [handed]
    | previous :: rest =>
      if previous.isEqual then previous.growDown size :: rest else handed :: previous :: rest

/-- Moves a change up until kept lines stop it. -/
def moveUp (old new : Array α) : List Edit → Edit → List Edit → Cursor
  | [], this, after => ⟨[], this, after⟩
  | previous :: before, this, after =>
    if previous.isEqual then
      let size := roomAbove old new previous this
      let moved := this.shiftUp size
      let after := keepBelow previous this size after
      if size = previous.size then moveUp old new before moved after
      else ⟨previous.dropLast size :: before, moved, after⟩
    else if previous.kind = this.kind then
      moveUp old new before (previous.growDown this.size) after
    else moveUp old new before this (previous :: after)

/-- Moves a change down until kept lines stop it. -/
def moveDown (old new : Array α) (before : List Edit) (this : Edit) : List Edit → Cursor
  | [] => ⟨before, this, []⟩
  | next :: after =>
    if next.isEqual then
      let size := roomBelow old new this next
      let moved := this.shiftDown size
      let before := keepAbove this next size before
      if size = next.size then moveDown old new before moved after
      else ⟨before, moved, next.dropFirst size :: after⟩
    else if next.kind = this.kind then
      moveDown old new before (this.growDown next.size) after
    else moveDown old new (next :: before) this after

def settle (old new : Array α) (cursor : Cursor) : Cursor :=
  let raised := moveUp old new cursor.before cursor.this cursor.after
  moveDown old new raised.before raised.this raised.after

def seek (kind : Edit.Kind) (before : List Edit) : List Edit → Option Cursor
  | [] => none
  | edit :: after =>
    if edit.kind = kind then some ⟨before, edit, after⟩ else seek kind (edit :: before) after

/-- Settles the edits of a kind from first to last. -/
def settleAll (old new : Array α) (kind : Edit.Kind) :
    (turns : Nat) → (before after : List Edit) → List Edit
  | 0, before, after => before.reverse ++ after
  | turns + 1, before, after =>
    match seek kind before after with
    | none => before.reverse ++ after
    | some cursor =>
      let settled := cursor.settle old new
      settleAll old new kind turns (settled.this :: settled.before) settled.after

end Cursor

variable {α : Type} [BEq α]

/-- Settles all edits of a kind. No settled edit leaves another of its kind ahead that was not
there before, so there are no more turns than edits of the kind. -/
def settleKind (old new : Array α) (kind : Edit.Kind) (script : List Edit) : List Edit :=
  Cursor.settleAll old new kind (script.countP (·.kind = kind)) [] script

def compact (old new : Array α) (script : List Edit) : List Edit :=
  settleKind old new .insert (settleKind old new .delete script)

end Hush.Diff
