import Hush.FileSystem.Access
import Mathlib

/-!
# Files apart from the tree

Paths are resolved in the tree alone, so what is done to the files of a file system moves no path.
Files are changed by number: a change at one number leaves the others, and a change that settles a
file can be made at any numbers, in any order and any number of times.
-/

namespace Hush

namespace FileSystem

/-- The same tree over other files. -/
def withFiles (disk : FileSystem) (files : Array File) : FileSystem := { disk with files := files }

section WithFiles

variable (disk : FileSystem) (files : Array File) (user : User)

@[simp]
theorem withFiles_files : disk.withFiles disk.files = disk := rfl

@[simp]
theorem directory?_withFiles (number : Nat) :
    (disk.withFiles files).directory? number = disk.directory? number := rfl

@[simp]
theorem searchable?_withFiles (number : Nat) :
    (disk.withFiles files).searchable? user number = disk.searchable? user number := rfl

theorem walk_withFiles (follow : Nat → RawText → List Step → Option Place) (place : Place)
    (steps : List Step) :
    (disk.withFiles files).walk user follow place steps = disk.walk user follow place steps := by
  fun_induction disk.walk user follow place steps with
  | case1 place => simp [walk]
  | case2 => rfl
  | case3 number rest ih => simp only [walk, directory?_withFiles, ih]
  | case4 number rest ih => simp only [walk, searchable?_withFiles, ih]
  | case5 number rest ih => simp only [walk, searchable?_withFiles, ih]
  | case6 number name rest ihfile ihdirectory =>
      simp only [walk, searchable?_withFiles, ihfile, ihdirectory]

theorem walkLinks_withFiles (links : Nat) :
    (disk.withFiles files).walkLinks user links = disk.walkLinks user links := by
  induction links with
  | zero =>
      funext place steps
      exact disk.walk_withFiles files user _ place steps
  | succ links ih =>
      funext place steps
      simp only [walkLinks, ih]
      exact disk.walk_withFiles files user _ place steps

@[simp]
theorem resolve_withFiles (path : RawText) :
    (disk.withFiles files).resolve user path = disk.resolve user path := by
  simp only [resolve, walkLinks_withFiles]
  rfl

end WithFiles

theorem lookup?_eq_of_file {disk : FileSystem} {user : User} {path : RawText} {inode : Nat}
    (hresolve : disk.resolve user path = some (.file inode)) :
    disk.lookup? user path = disk.files[inode]?.map (.file inode) := by
  simp [lookup?, hresolve, node?]

theorem lookup?_ne_file {disk : FileSystem} {user : User} {path : RawText}
    (hresolve : ∀ inode, disk.resolve user path ≠ some (.file inode)) (inode : Nat) (file : File) :
    disk.lookup? user path ≠ some (.file inode file) := by
  intro hlookup
  obtain ⟨place, hplace, hnode⟩ := Option.bind_eq_some_iff.mp hlookup
  cases place with
  | file other => exact hresolve other hplace
  | directory number =>
      obtain ⟨directory, -, heq⟩ := Option.map_eq_some_iff.mp hnode
      cases heq

def inode? (disk : FileSystem) (path : RawText) : Option Nat :=
  match disk.resolve .owner path with
  | some (.file inode) => some inode
  | _ => none

theorem inode?_eq_some_iff {disk : FileSystem} {path : RawText} {inode : Nat} :
    disk.inode? path = some inode ↔ disk.resolve .owner path = some (.file inode) := by
  unfold inode?
  split <;> rename_i hresolve
  · simp [hresolve]
  · simp only [reduceCtorEq, false_iff]
    exact hresolve inode

@[simp]
theorem inode?_withFiles (disk : FileSystem) (files : Array File) (path : RawText) :
    (disk.withFiles files).inode? path = disk.inode? path := by
  simp [inode?]

end FileSystem

section Modify

variable {α : Type} {items : Array α} {i : Nat} {a : α} {f g : α → α}

theorem modify_congr (h : ∀ a, items[i]? = some a → f a = g a) :
    items.modify i f = items.modify i g := by
  apply Array.ext_getElem?
  intro j
  rw [Array.getElem?_modify, Array.getElem?_modify]
  split <;> rename_i heq
  · subst heq
    exact Option.map_congr fun a hitem => h a hitem
  · rfl

theorem modify_eq_self (h : ∀ a, items[i]? = some a → f a = a) : items.modify i f = items := by
  rw [modify_congr (g := id) h]
  apply Array.ext_getElem?
  intro j
  rw [Array.getElem?_modify, Option.map_id]
  exact ite_self _

/-- A change that has nothing more to do after it was made once: wherever it is made, and however
often, it is made once. -/
theorem getElem?_foldl_modify (hidem : ∀ a, f (f a) = f a) (places : List Nat) (items : Array α)
    (j : Nat) :
    (places.foldl (fun items i => items.modify i f) items)[j]? =
      items[j]?.map fun a => if j ∈ places then f a else a := by
  induction places generalizing items with
  | nil => simp
  | cons i places ih =>
      rw [List.foldl_cons, ih, Array.getElem?_modify]
      by_cases heq : i = j
      · subst heq
        rw [if_pos rfl, Option.map_map]
        apply Option.map_congr
        intro a _
        simp only [Function.comp_apply, List.mem_cons, true_or, if_true, hidem, ite_self]
      · have hne : j ≠ i := fun h => heq h.symm
        simp [heq, hne]

end Modify

end Hush
