import Hush.FileSystem.Mode
import Hush.FileSystem.Path

/-!
# Directory trees

Directories are numbered, and each lists what its names stand for. A directory has a larger number
than the one that lists it, so none stands below itself and every way down comes to an end.
-/

namespace Hush

inductive Entry
  | file (inode : Nat)
  | directory (number : Nat)
  | link (target : RawText)
  deriving DecidableEq

/-- Whether the entry may be listed in a directory. -/
def Entry.isBelow (number : Nat) : Entry → Bool
  | directory child => number < child
  | _ => true

/-- At most one entry for each name. -/
structure Listing where
  entries : List (Name × Entry) := []
  nodup : (entries.map Prod.fst).Nodup := by exact List.nodup_nil

namespace Listing

def find? (listing : Listing) (name : Name) : Option Entry :=
  (listing.entries.find? (·.1 = name)).map Prod.snd

/-- Enters a name, in place of what it stood for. -/
def insert (listing : Listing) (name : Name) (entry : Entry) : Listing :=
  if h : name ∈ listing.entries.map Prod.fst then
    { entries := listing.entries.map fun old => (old.1, if old.1 = name then entry else old.2)
      nodup := by simpa [Function.comp_def] using listing.nodup }
  else
    { entries := (name, entry) :: listing.entries
      nodup := by simpa using ⟨by simpa using h, listing.nodup⟩ }

@[simp] theorem find?_insert_self (listing : Listing) (name : Name) (entry : Entry) :
    (listing.insert name entry).find? name = some entry := by
  unfold insert find?
  split
  · next hmem =>
    obtain ⟨old, hold, rfl⟩ := List.mem_map.1 hmem
    rw [List.find?_map, Option.map_map]
    cases hfound : List.find? (fun other => decide (other.1 = old.1)) listing.entries with
    | none => exact absurd (List.find?_eq_none.1 hfound old hold) (by simp)
    | some found =>
      have hfirst : found.1 = old.1 := by simpa using List.find?_some hfound
      simp [Function.comp_def, hfound, hfirst]
  · simp

theorem find?_insert_of_ne (listing : Listing) {name other : Name} (entry : Entry)
    (hne : other ≠ name) : (listing.insert name entry).find? other = listing.find? other := by
  unfold insert find?
  split
  · rw [List.find?_map, Option.map_map]
    cases hfound : List.find? (fun old => decide (old.1 = other)) listing.entries with
    | none => simp [Function.comp_def, hfound]
    | some found =>
      have hfirst : found.1 = other := by simpa using List.find?_some hfound
      simp [Function.comp_def, hfound, hfirst, hne]
  · simp [hne.symm]

theorem entry_of_mem_insert {listing : Listing} {name : Name} {entry : Entry}
    {pair : Name × Entry} (hmem : pair ∈ (listing.insert name entry).entries) :
    pair ∈ listing.entries ∨ pair.2 = entry := by
  unfold insert at hmem
  split at hmem
  · obtain ⟨old, hold, rfl⟩ := List.mem_map.1 hmem
    by_cases hname : old.1 = name
    · exact Or.inr (if_pos hname)
    · exact Or.inl (by simpa [hname] using hold)
  · rcases List.mem_cons.1 hmem with rfl | hold
    · exact Or.inr rfl
    · exact Or.inl hold

end Listing

structure Directory where
  mode : Mode := .ofDirectory
  /-- What the file system states as the size of the directory itself. -/
  size : Nat := 4096
  /-- The number of the directory above. The root is above itself. -/
  parent : Nat
  listing : Listing := {}

/-- The directories in the order of their numbers, the root first. -/
structure Tree where
  directories : Array Directory
  ordered : ∀ {number : Nat} {directory : Directory}, directories[number]? = some directory →
    ∀ pair ∈ directory.listing.entries, pair.2.isBelow number = true

namespace Tree

def root : Tree where
  directories := #[{ parent := 0 }]
  ordered := by
    intro number directory hfound pair hmem
    obtain ⟨_, rfl⟩ : number = 0 ∧ directory = { parent := 0 } := by
      rw [Array.getElem?_singleton] at hfound
      grind
    exact absurd hmem List.not_mem_nil

def child? (tree : Tree) (number : Nat) (name : Name) : Option Entry :=
  tree.directories[number]?.bind (·.listing.find? name)

def setMode (tree : Tree) (number : Nat) (mode : Mode) : Tree where
  directories := tree.directories.modify number fun directory => { directory with mode := mode }
  ordered := by
    intro other directory hfound pair hmem
    rw [Array.getElem?_modify] at hfound
    split at hfound
    · obtain ⟨old, hold, rfl⟩ := Option.map_eq_some_iff.1 hfound
      exact tree.ordered hold pair hmem
    · exact tree.ordered hfound pair hmem

/-- Enters a name in a directory, unless the entry may not be listed there. -/
def insert (tree : Tree) (number : Nat) (name : Name) (entry : Entry) : Tree :=
  if h : entry.isBelow number = true then
    { directories := tree.directories.modify number fun directory =>
        { directory with listing := directory.listing.insert name entry }
      ordered := by
        intro other directory hfound pair hmem
        rw [Array.getElem?_modify] at hfound
        split at hfound
        · next heq =>
          obtain ⟨old, hold, rfl⟩ := Option.map_eq_some_iff.1 hfound
          rcases Listing.entry_of_mem_insert hmem with hmem | hentry
          · exact tree.ordered hold pair hmem
          · rw [hentry, ← heq]
            exact h
        · exact tree.ordered hfound pair hmem }
  else tree

/-- A directory without entries, under the next number. It is not listed yet. -/
def push (tree : Tree) (parent : Nat) : Tree where
  directories := tree.directories.push { parent := parent }
  ordered := by
    intro number directory hfound pair hmem
    rw [Array.getElem?_push] at hfound
    split at hfound
    · obtain rfl := Option.some.inj hfound
      exact absurd hmem List.not_mem_nil
    · exact tree.ordered hfound pair hmem

def addDirectory (tree : Tree) (number : Nat) (name : Name) : Tree :=
  (tree.push number).insert number name (.directory tree.directories.size)

/-- The ways from a directory down to each entry below it. Every directory on the way can be
listed. -/
def descents (tree : Tree) (number : Nat) : List (List Name) :=
  match _hfound : tree.directories[number]? with
  | none => []
  | some directory =>
    if directory.mode.isReadable then
      directory.listing.entries.attach.flatMap fun ⟨(name, entry), _hmem⟩ =>
        [name] ::
          match entry with
          | .directory child => (tree.descents child).map (name :: ·)
          | _ => []
    else []
termination_by tree.directories.size - number
decreasing_by
  have hchild := tree.ordered _hfound _ _hmem
  have hsize := (Array.getElem?_eq_some_iff.1 _hfound).1
  simp only [Entry.isBelow, decide_eq_true_eq] at hchild
  omega

end Tree

end Hush
