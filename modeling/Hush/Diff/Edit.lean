import Hush.Diff.Box

/-!
# Edit scripts

A script is a list of edits that leads from the old sequence to the new one. The common runs at
the ends of a box are kept, and the script of its core is put together from those of its two parts.
-/

namespace Hush.Diff

inductive Edit.Kind
  | equal
  | delete
  | insert
  deriving DecidableEq

/-- A run of lines that are kept, deleted or inserted, with its position on both sides. -/
structure Edit where
  kind : Edit.Kind
  old : Nat
  new : Nat
  size : Nat
  deriving DecidableEq

namespace Edit

def isEqual (edit : Edit) : Bool := edit.kind == .equal

def oldSize (edit : Edit) : Nat := if edit.kind = .insert then 0 else edit.size

def newSize (edit : Edit) : Nat := if edit.kind = .delete then 0 else edit.size

/-- The edit as a script, which is empty when the edit is. -/
def toScript (edit : Edit) : List Edit := if edit.size = 0 then [] else [edit]

end Edit

namespace Box

variable {α : Type} [BEq α]

def deletion (box : Box) : Edit := ⟨.delete, box.i, box.j, box.n⟩

def insertion (box : Box) : Edit := ⟨.insert, box.i, box.j, box.m⟩

/-- The kept lines between the start of a box and its core. -/
def leading (box core : Box) : Edit := ⟨.equal, box.i, box.j, core.i - box.i⟩

def trailing (box core : Box) : Edit :=
  ⟨.equal, core.i + core.n, core.j + core.m, box.i + box.n - (core.i + core.n)⟩

/-- The script of a box. A box with one side only is deleted or inserted as a whole. -/
def script (old new : Array α) (box : Box) : List Edit :=
  let core := box.core old new
  let middle :=
    if hm : core.m = 0 then core.deletion.toScript
    else if hn : core.n = 0 then core.insertion.toScript
    else
      let split := core.split old new (endsDiffer_core hn hm)
      split.before.script old new ++ split.after.script old new
  (box.leading core).toScript ++ middle ++ (box.trailing core).toScript
termination_by box.size
decreasing_by
  · exact Nat.lt_of_lt_of_le (Split.size_before_lt _) (box.size_core_le old new)
  · exact Nat.lt_of_lt_of_le (Split.size_after_lt _) (box.size_core_le old new)

end Box

def script {α : Type} [BEq α] (old new : Array α) : List Edit :=
  Box.script old new ⟨0, old.size, 0, new.size⟩

end Hush.Diff
