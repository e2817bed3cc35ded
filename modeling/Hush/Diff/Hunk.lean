import Hush.Diff.Block

/-!
# Hunks

Changes that lie close together are shown in one hunk with a few kept lines around them. A kept run
longer than the context of both its neighbours is left out between two hunks.
-/

namespace Hush.Diff

/-- The number of kept lines shown on each side of a change. -/
def contextRadius : Nat := 3

abbrev Hunk := List Block

namespace Hunk

/-- Cuts the kept runs at both ends of a script down to the context. -/
def trimEnds (blocks : List Block) : List Block :=
  let trimmed := blocks.modifyHead (·.takeLast contextRadius)
  (trimmed.reverse.modifyHead (·.takeFirst contextRadius)).reverse

/-- Gathers blocks to hunks. The blocks of the hunk at hand are pending, with the latest first. -/
def gather (pending : List Block) : List Block → List Hunk
  | [] => [pending.reverse]
  | block :: rest =>
    if block.isKept && 2 * contextRadius < block.oldRange.size then
      (block.takeFirst contextRadius :: pending).reverse ::
        gather [block.takeLast contextRadius] rest
    else gather (block :: pending) rest

/-- What is gathered without a change, after the last one, is not shown. -/
def ofBlocks (blocks : List Block) : List Hunk :=
  (gather [] (trimEnds blocks)).filter fun hunk => hunk.any fun block => !block.isKept

def oldRange : Hunk → Range
  | [] => ⟨0, 0⟩
  | first :: rest => first.oldRange.upTo ((first :: rest).getLast (by simp)).oldRange

def newRange : Hunk → Range
  | [] => ⟨0, 0⟩
  | first :: rest => first.newRange.upTo ((first :: rest).getLast (by simp)).newRange

end Hunk

/-- What a printed line stands for. -/
inductive Mark
  | context
  | removed
  | added
  deriving DecidableEq

namespace Range

def slice {α : Type} (range : Range) (sequence : Array α) : List α :=
  (sequence.extract range.start range.stop).toList

end Range

variable {α : Type}

/-- The lines of a block, kept ones as they stand on the old side. -/
def Block.body (old new : Array α) (block : Block) : List (Mark × α) :=
  match block with
  | kept .. => (block.oldRange.slice old).map (.context, ·)
  | change oldRange newRange =>
    (oldRange.slice old).map (.removed, ·) ++ (newRange.slice new).map (.added, ·)

def Hunk.body (old new : Array α) (hunk : Hunk) : List (Mark × α) := hunk.flatMap (·.body old new)

def hunks [BEq α] (old new : Array α) : List Hunk :=
  Hunk.ofBlocks (Block.ofScript (compact old new (script old new)))

end Hush.Diff
