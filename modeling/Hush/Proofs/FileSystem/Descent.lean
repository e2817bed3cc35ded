import Hush.FileSystem.Resolve
import Mathlib

/-!
# The way down

A search lists names level by level, and a resolution looks them up again one by one. On a way down
that was listed both meet the same entries, so a path is led by the entry of its last name: to the
file or directory that it stands for, or along the symbolic link that it is.
-/

namespace Hush

theorem Listing.find?_eq_some_iff {listing : Listing} {name : Name} {entry : Entry} :
    listing.find? name = some entry ↔ (name, entry) ∈ listing.entries := by
  unfold Listing.find?
  constructor
  · intro hfind
    obtain ⟨pair, hpair, rfl⟩ := Option.map_eq_some_iff.mp hfind
    have hname : pair.1 = name := by simpa using List.find?_some hpair
    rw [← hname]
    exact List.mem_of_find?_eq_some hpair
  · intro hmem
    cases hfind : listing.entries.find? (·.1 = name) with
    | none =>
        have hother : ¬name = name := by simpa using List.find?_eq_none.mp hfind _ hmem
        exact absurd rfl hother
    | some pair =>
        have hname : pair.1 = name := by simpa using List.find?_some hfind
        have hsame := List.inj_on_of_nodup_map listing.nodup
          (List.mem_of_find?_eq_some hfind) hmem hname
        rw [hsame]
        rfl

namespace Tree

variable {tree : Tree} {number : Nat} {name : Name} {rest names : List Name}

def IsListable (tree : Tree) (number : Nat) : Prop :=
  ∃ directory, tree.directories[number]? = some directory ∧ directory.mode.isReadable = true

theorem child?_eq_some_iff {entry : Entry} :
    tree.child? number name = some entry ↔
      ∃ directory, tree.directories[number]? = some directory ∧
        (name, entry) ∈ directory.listing.entries := by
  simp only [child?, Option.bind_eq_some_iff, Listing.find?_eq_some_iff]

/-- The ways down that start with an entry. -/
def waysBy (tree : Tree) (name : Name) (entry : Entry) : List (List Name) :=
  [name] ::
    match entry with
    | .directory child => (tree.descents child).map (name :: ·)
    | _ => []

theorem mem_waysBy_iff {entry : Entry} :
    names ∈ tree.waysBy name entry ↔
      ∃ rest, names = name :: rest ∧
        (rest = [] ∨ ∃ child, entry = .directory child ∧ rest ∈ tree.descents child) := by
  cases entry with
  | file inode => simp [waysBy]
  | link target => simp [waysBy]
  | directory child =>
      simp only [waysBy, List.mem_cons, List.mem_map, Entry.directory.injEq, exists_eq_left']
      constructor
      · rintro (rfl | ⟨rest, hrest, rfl⟩)
        · exact ⟨[], rfl, Or.inl rfl⟩
        · exact ⟨rest, rfl, Or.inr hrest⟩
      · rintro ⟨rest, rfl, rfl | hrest⟩
        · exact Or.inl rfl
        · exact Or.inr ⟨rest, hrest, rfl⟩

theorem mem_descents_iff :
    names ∈ tree.descents number ↔
      ∃ directory, tree.directories[number]? = some directory ∧
        directory.mode.isReadable = true ∧
        ∃ pair ∈ directory.listing.entries, names ∈ tree.waysBy pair.1 pair.2 := by
  rw [descents]
  split <;> rename_i hfound
  · simp [hfound]
  · rename_i directory
    simp only [hfound, Option.some.injEq, exists_eq_left']
    split <;> rename_i hmode
    · simp only [hmode, true_and, List.mem_flatMap, List.mem_attach, Subtype.exists]
      -- The recursive call carries a proof about the entry, which goes once the entry is known.
      constructor
      · rintro ⟨⟨name, entry⟩, hmem, hways⟩
        refine ⟨(name, entry), hmem, ?_⟩
        cases entry <;> exact hways
      · rintro ⟨⟨name, entry⟩, hmem, hways⟩
        refine ⟨(name, entry), hmem, ?_⟩
        cases entry <;> exact hways
    · simp [hmode]

/-- A way down goes by the entry of its first name, and further down only if that is a directory. -/
theorem cons_mem_descents_iff :
    name :: rest ∈ tree.descents number ↔
      tree.IsListable number ∧ ∃ entry, tree.child? number name = some entry ∧
        (rest = [] ∨ ∃ child, entry = .directory child ∧ rest ∈ tree.descents child) := by
  rw [mem_descents_iff]
  simp only [mem_waysBy_iff, List.cons.injEq, child?_eq_some_iff, IsListable]
  constructor
  · rintro ⟨directory, hfound, hmode, ⟨_, entry⟩, hmem, _, ⟨rfl, rfl⟩, hrest⟩
    exact ⟨⟨directory, hfound, hmode⟩, entry, ⟨directory, hfound, hmem⟩, hrest⟩
  · rintro ⟨⟨directory, hfound, hmode⟩, entry, ⟨other, hother, hmem⟩, hrest⟩
    have hsame := Option.some.inj (hfound.symm.trans hother)
    rw [← hsame] at hmem
    exact ⟨directory, hfound, hmode, (name, entry), hmem, rest, ⟨rfl, rfl⟩, hrest⟩

theorem nil_notMem_descents : [] ∉ tree.descents number := by
  rw [mem_descents_iff]
  rintro ⟨directory, -, -, pair, -, hways⟩
  obtain ⟨rest, hnil, -⟩ := mem_waysBy_iff.mp hways
  cases hnil

end Tree

namespace FileSystem

variable {disk : FileSystem} {user : User} {links number : Nat} {place last : Place}

/-- Follows a symbolic link if one may still be followed. -/
def followLink (disk : FileSystem) (user : User) :
    (links base : Nat) → (target : RawText) → List Step → Option Place
  | 0, _, _, _ => none
  | links + 1, base, target, rest =>
    (Path.ofRaw? target).bind fun path =>
      disk.walkLinks user links (origin path base) (path.steps ++ rest)

theorem walkLinks_eq_walk (links : Nat) :
    disk.walkLinks user links = disk.walk user (disk.followLink user links) := by
  cases links <;> rfl

/-- The longer walk goes on with further steps from where the shorter one ends, if it ends
somewhere. -/
def GoesOn (disk : FileSystem) (user : User) (rest : List Step) (first whole : Option Place) :
    Prop :=
  match first with
  | none => whole = none
  | some mid => ∃ links, whole = disk.walkLinks user links mid rest

theorem walkLinks_append_of_followLink {rest : List Step}
    (hfollow : ∀ base target steps, disk.GoesOn user rest
      (disk.followLink user links base target steps)
      (disk.followLink user links base target (steps ++ rest)))
    (place : Place) (steps : List Step) :
    disk.GoesOn user rest (disk.walkLinks user links place steps)
      (disk.walkLinks user links place (steps ++ rest)) := by
  rw [walkLinks_eq_walk]
  fun_induction disk.walk user (disk.followLink user links) place steps with
  | case1 place => exact ⟨links, by rw [List.nil_append, walkLinks_eq_walk]⟩
  | case2 => rfl
  | case3 number steps ih =>
      rw [List.cons_append, walk]
      cases disk.directory? number with
      | none => rfl
      | some directory => exact ih
  | case4 number steps ih =>
      rw [List.cons_append, walk]
      cases disk.searchable? user number with
      | none => rfl
      | some directory => exact ih
  | case5 number steps ih =>
      rw [List.cons_append, walk]
      cases disk.searchable? user number with
      | none => rfl
      | some directory => exact ih directory
  | case6 number name steps ihfile ihdirectory =>
      rw [List.cons_append, walk]
      cases disk.searchable? user number with
      | none => rfl
      | some directory =>
          simp only [Option.bind_some]
          cases directory.listing.find? name with
          | none => rfl
          | some entry =>
              cases entry with
              | file inode => exact ihfile inode
              | directory child => exact ihdirectory child
              | link target => exact hfollow number target steps

theorem walkLinks_append (disk : FileSystem) (user : User) (links : Nat) (place : Place)
    (steps rest : List Step) :
    disk.GoesOn user rest (disk.walkLinks user links place steps)
      (disk.walkLinks user links place (steps ++ rest)) := by
  -- Each link costs one of the links left, and the steps behind it go along with its target.
  induction links generalizing place steps with
  | zero =>
      apply walkLinks_append_of_followLink
      exact fun base target steps => rfl
  | succ links ih =>
      apply walkLinks_append_of_followLink
      intro base target steps
      rw [followLink, followLink]
      cases Path.ofRaw? target with
      | none => rfl
      | some path =>
          rw [Option.bind_some, Option.bind_some, ← List.append_assoc]
          exact ih _ _

theorem exists_walkLinks_of_append {steps rest : List Step}
    (hwalk : disk.walkLinks user links place (steps ++ rest) = some last) :
    ∃ mid left, disk.walkLinks user links place steps = some mid ∧
      disk.walkLinks user left mid rest = some last := by
  have hgoes := disk.walkLinks_append user links place steps rest
  cases hmid : disk.walkLinks user links place steps with
  | none =>
      rw [hmid, hwalk] at hgoes
      cases hgoes
  | some mid =>
      rw [hmid, hwalk] at hgoes
      obtain ⟨left, hleft⟩ := hgoes
      exact ⟨mid, left, rfl, hleft.symm⟩

@[simp]
theorem walkLinks_nil : disk.walkLinks user links place [] = some place := by
  rw [walkLinks_eq_walk, walk]

theorem eq_of_walkLinks_slash (hwalk : disk.walkLinks user links place [.slash] = some last) :
    place = last := by
  rw [walkLinks_eq_walk] at hwalk
  cases place with
  | file inode => cases hwalk
  | directory number =>
      obtain ⟨directory, -, hend⟩ := Option.bind_eq_some_iff.mp hwalk
      rw [walk] at hend
      exact Option.some.inj hend

/-- Where an entry of a directory leads. -/
def EntryLeadsTo (disk : FileSystem) (user : User) (number : Nat) (place : Place) : Entry → Prop
  | .file inode => place = .file inode
  | .directory child => place = .directory child
  | .link target => ∃ path links, Path.ofRaw? target = some path ∧
      disk.walkLinks user links (origin path number) path.steps = some place

theorem exists_entry_of_walkLinks {name : Name}
    (hwalk : disk.walkLinks user links (.directory number) [.enter name] = some place) :
    ∃ entry, disk.tree.child? number name = some entry ∧
      disk.EntryLeadsTo user number place entry := by
  rw [walkLinks_eq_walk, walk] at hwalk
  obtain ⟨directory, hsearch, hentry⟩ := Option.bind_eq_some_iff.mp hwalk
  have hdirectory : disk.tree.directories[number]? = some directory :=
    (Option.filter_eq_some_iff.mp hsearch).1
  cases hfind : directory.listing.find? name with
  | none =>
      rw [hfind] at hentry
      cases hentry
  | some entry =>
      refine ⟨entry, by rw [Tree.child?, hdirectory, Option.bind_some, hfind], ?_⟩
      rw [hfind] at hentry
      cases entry with
      | file inode => exact (Option.some.inj hentry).symm
      | directory child => exact (Option.some.inj hentry).symm
      | link target =>
          cases links with
          | zero => cases hentry
          | succ links =>
              obtain ⟨path, hpath, hlink⟩ := Option.bind_eq_some_iff.mp hentry
              rw [List.append_nil] at hlink
              exact ⟨path, links, hpath, hlink⟩

theorem exists_entry_of_mem_descents {names : List Name}
    (hnames : names ∈ disk.tree.descents number)
    (hwalk : disk.walkLinks user links (.directory number) (names.map .enter) = some place) :
    ∃ holder last entry, names.getLast? = some last ∧
      disk.tree.child? holder last = some entry ∧ disk.EntryLeadsTo user holder place entry := by
  induction names generalizing number links with
  | nil => exact absurd hnames Tree.nil_notMem_descents
  | cons name rest ih =>
      obtain ⟨-, entry, hentry, hrest⟩ := Tree.cons_mem_descents_iff.mp hnames
      rw [List.map_cons, ← List.singleton_append] at hwalk
      obtain ⟨mid, left, hfirst, hlast⟩ := exists_walkLinks_of_append hwalk
      obtain ⟨found, hfound, hleads⟩ := exists_entry_of_walkLinks hfirst
      obtain rfl := Option.some.inj (hentry.symm.trans hfound)
      rcases hrest with rfl | ⟨child, rfl, hrest⟩
      · rw [List.map_nil, walkLinks_nil] at hlast
        obtain rfl := Option.some.inj hlast
        exact ⟨number, name, entry, rfl, hentry, hleads⟩
      · obtain rfl : mid = .directory child := hleads
        obtain ⟨holder, last, entry, hlast, hfound⟩ := ih hrest hlast
        refine ⟨holder, last, entry, ?_, hfound⟩
        rw [List.getLast?_cons, hlast]
        rfl

end FileSystem
end Hush
