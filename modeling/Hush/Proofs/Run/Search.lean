import Hush.FileSystem.Outside
import Hush.Proofs.FileSystem.Ways
import Hush.Proofs.Run.Discovery

/-!
# What a run finds, and how often

A run searches once for each extension that it is given. One search finds a file under each path
that leads down to it, if the last name has the extension, and no path twice. So how often a run
finds a path is how often an extension of the last name was asked for.
-/

namespace Hush

namespace FileSystem

variable {disk : FileSystem} {config : Config} {top path : RawText} {root : Nat}
  {names : List Name} {last : Name} {extension : Extension}

/-- The path leads to this directory. -/
def IsRoot (disk : FileSystem) (top : RawText) (root : Nat) : Prop :=
  ∃ directory, disk.lookup? .owner top = some (.directory root directory)

/-- The path is that of a directory with names that lead down from there, and it leads to a file,
by symbolic links or without. -/
structure Reaches (disk : FileSystem) (top : RawText) (root : Nat) (path : RawText)
    (names : List Name) : Prop where
  join_eq : joinPath top names = path
  descends : disk.tree.Descends root names
  leads : ∃ inode file, disk.LeadsTo path inode file

theorem Reaches.unique {others : List Name} (hreaches : disk.Reaches top root path names)
    (hothers : disk.Reaches top root path others) : names = others :=
  joinPath_inj hreaches.descends.ne_nil hothers.descends.ne_nil
    (hreaches.join_eq.trans hothers.join_eq.symm)

theorem isFile_iff_exists_leadsTo :
    disk.isFile path = true ↔ ∃ inode file, disk.LeadsTo path inode file := by
  rw [isFile_eq_true_iff]
  constructor
  · rintro ⟨inode, hresolve, hinode⟩
    exact ⟨inode, disk.files[inode], hresolve, Array.getElem?_eq_getElem hinode⟩
  · rintro ⟨inode, file, hresolve, hfile⟩
    exact ⟨inode, hresolve, (Array.getElem?_eq_some_iff.mp hfile).1⟩

/-- What one search gives is what leads to a file by a last name with the extension. -/
theorem mem_map_matching_iff :
    path ∈ (disk.matching top root extension).map (joinPath top) ↔
      ∃ names last, disk.Reaches top root path names ∧ names.getLast? = some last ∧
        extension.selects last = true := by
  simp only [List.mem_map, mem_matching_iff, Tree.mem_descents_iff_descends,
    isFile_iff_exists_leadsTo]
  constructor
  · rintro ⟨names, ⟨hdescends, hleads, last, hlast, hselects⟩, rfl⟩
    exact ⟨names, last, ⟨rfl, hdescends, hleads⟩, hlast, hselects⟩
  · rintro ⟨names, last, ⟨rfl, hdescends, hleads⟩, hlast, hselects⟩
    exact ⟨names, ⟨hdescends, hleads, last, hlast, hselects⟩, rfl⟩

theorem nodup_map_matching : ((disk.matching top root extension).map (joinPath top)).Nodup := by
  refine List.Nodup.map_on ?_ ((Tree.nodup_descents _ _).filter _)
  intro names hnames others hothers hjoin
  have hdescends := Tree.mem_descents_iff_descends.mp (mem_matching_iff.mp hnames).1
  have hother := Tree.mem_descents_iff_descends.mp (mem_matching_iff.mp hothers).1
  exact joinPath_inj hdescends.ne_nil hother.ne_nil hjoin

theorem Reaches.count_map_matching (hreaches : disk.Reaches top root path names)
    (hlast : names.getLast? = some last) :
    ((disk.matching top root extension).map (joinPath top)).count path =
      if extension.selects last then 1 else 0 := by
  rw [nodup_map_matching.count]
  refine if_congr ?_ rfl rfl
  rw [mem_map_matching_iff]
  constructor
  · rintro ⟨others, other, hothers, hother, hselects⟩
    rw [hothers.unique hreaches, hlast] at hother
    rwa [Option.some.inj hother]
  · exact fun hselects => ⟨names, last, hreaches, hlast, hselects⟩

theorem IsRoot.discover_eq (hroot : disk.IsRoot config.root root) :
    disk.discover config =
      { value := config.extensions.flatMap fun extension =>
          (disk.matching config.root root extension).map (joinPath config.root)
        disk } := by
  obtain ⟨directory, hroot⟩ := hroot
  exact discover_of_lookup hroot

theorem Reaches.count_flatMap_matching (hreaches : disk.Reaches top root path names)
    (hlast : names.getLast? = some last) (extensions : List Extension) :
    (extensions.flatMap fun extension =>
      (disk.matching top root extension).map (joinPath top)).count path =
      extensions.countP (·.selects last) := by
  induction extensions with
  | nil => rfl
  | cons extension extensions ih =>
      rw [List.flatMap_cons, List.count_append, hreaches.count_map_matching hlast, ih,
        List.countP_cons, Nat.add_comm]

theorem discover_value_eq_nil (hroot : ∀ root, ¬disk.IsRoot config.root root) :
    (disk.discover config).value = [] := by
  rw [discover_of_not_lookup]
  rintro ⟨root, directory, hfound⟩
  exact hroot root ⟨directory, hfound⟩

theorem IsRoot.exists_reaches_of_mem (hroot : disk.IsRoot config.root root)
    (hfound : path ∈ (disk.discover config).value) :
    ∃ names last, disk.Reaches config.root root path names ∧ names.getLast? = some last := by
  rw [hroot.discover_eq, List.mem_flatMap] at hfound
  obtain ⟨extension, -, hsearch⟩ := hfound
  obtain ⟨names, last, hreaches, hlast, -⟩ := mem_map_matching_iff.mp hsearch
  exact ⟨names, last, hreaches, hlast⟩

theorem IsRoot.count_discover (hroot : disk.IsRoot config.root root)
    (hreaches : disk.Reaches config.root root path names) (hlast : names.getLast? = some last) :
    (disk.discover config).value.count path = config.extensions.countP (·.selects last) := by
  rw [hroot.discover_eq, hreaches.count_flatMap_matching hlast]

end FileSystem

theorem Extension.eq_of_selects {first second : Extension} {name : Name}
    (hfirst : first.selects name = true) (hsecond : second.selects name = true) :
    first = second := by
  have htext : (RawText.ofString first.text).bytes.reverse =
      (RawText.ofString second.text).bytes.reverse := by
    rw [← takeWhile_reverse_of_selects hfirst, takeWhile_reverse_of_selects hsecond]
  cases first <;> cases second
  · rfl
  · cases htext
  · cases htext
  · rfl

theorem Extension.countP_selects_le_one {extensions : List Extension} (hnodup : extensions.Nodup)
    (name : Name) : extensions.countP (·.selects name) ≤ 1 := by
  rw [List.countP_eq_length_filter]
  cases hselected : extensions.filter (·.selects name) with
  | nil => exact Nat.zero_le _
  | cons first rest =>
      have hmem : ∀ extension ∈ first :: rest, extension.selects name = true := by
        rw [← hselected]
        exact fun extension hextension => (List.mem_filter.mp hextension).2
      have hrest : rest = [] := by
        rw [List.eq_nil_iff_forall_not_mem]
        intro extension hextension
        have hsame := Extension.eq_of_selects (hmem first List.mem_cons_self)
          (hmem extension (List.mem_cons_of_mem _ hextension))
        have hdistinct : (first :: rest).Nodup := hselected ▸ hnodup.filter _
        exact (List.nodup_cons.mp hdistinct).1 (hsame ▸ hextension)
      simp [hrest]

theorem FileSystem.nodup_discover {disk : FileSystem} {config : Config}
    (hnodup : config.extensions.Nodup) : (disk.discover config).value.Nodup := by
  rw [List.nodup_iff_count_le_one]
  intro path
  by_cases hfound : path ∈ (disk.discover config).value
  · obtain ⟨root, directory, hroot, -⟩ := mem_discover_iff.mp hfound
    have hroot : disk.IsRoot config.root root := ⟨directory, hroot⟩
    obtain ⟨names, last, hreaches, hlast⟩ := hroot.exists_reaches_of_mem hfound
    rw [hroot.count_discover hreaches hlast]
    exact Extension.countP_selects_le_one hnodup last
  · rw [List.count_eq_zero_of_not_mem hfound]
    exact Nat.zero_le _

/-- **What a run finds.** Under a root that is no directory it finds nothing. Under a directory it
finds each path of a way down that leads to a file, once for each place of the list of extensions
whose extension the last name has, and nothing else. The paths come search by search, in the order
of the extensions; none comes twice in one search, or at all if the extensions differ. A name has
an extension if it is text and its bytes end in the suffix. Then it is never a compiled one, so
nothing is passed over for that. -/
theorem discover_count (disk : FileSystem) (config : Config) :
    let found := (disk.discover config).value
    ((∀ root, ¬disk.IsRoot config.root root) → found = []) ∧
      (∀ root, disk.IsRoot config.root root →
        (∀ path names last, disk.Reaches config.root root path names →
          names.getLast? = some last →
            found.count path = config.extensions.countP (·.selects last)) ∧
        (∀ path, (∀ names, ¬disk.Reaches config.root root path names) → found.count path = 0) ∧
        ∃ searches : List (List RawText), found = searches.flatten ∧
          List.Forall₂ (fun extension paths => paths.Nodup ∧ ∀ path ∈ paths, ∃ names last,
              disk.Reaches config.root root path names ∧ names.getLast? = some last ∧
                extension.selects last = true)
            config.extensions searches) ∧
      (config.extensions.Nodup → found.Nodup) ∧
      (∀ (extension : Extension) (name : Name), extension.selects name = true →
        name.isCompiled = false) ∧
      (∀ (extension : Extension) (name : Name), extension.selects name = true ↔
        name.raw.text?.isSome = true ∧
          (RawText.ofString extension.suffix).bytes <:+ name.raw.bytes) ∧
      ∀ path, Event.skipped path ∉ (disk.discover config).events := by
  intro found
  refine ⟨FileSystem.discover_value_eq_nil, fun root hroot => ⟨?_, ?_, ?_⟩,
    FileSystem.nodup_discover, fun extension name => Extension.isCompiled_eq_false,
    fun extension name => Extension.selects_iff, ?_⟩
  · intro path names last hreaches hlast
    exact hroot.count_discover hreaches hlast
  · intro path hnone
    rw [List.count_eq_zero]
    intro hfound
    obtain ⟨names, last, hreaches, -⟩ := hroot.exists_reaches_of_mem hfound
    exact hnone names hreaches
  · refine ⟨config.extensions.map fun extension =>
      (disk.matching config.root root extension).map (joinPath config.root), ?_, ?_⟩
    · rw [← List.flatMap_def]
      exact congrArg Run.value hroot.discover_eq
    · rw [List.forall₂_map_right_iff, List.forall₂_same]
      intro extension _
      exact ⟨FileSystem.nodup_map_matching, fun path => FileSystem.mem_map_matching_iff.mp⟩
  · intro path hskipped
    cases FileSystem.eq_rootMissing_of_mem_events hskipped

theorem Tree.isListable_iff {tree : Tree} {number : Nat} :
    tree.IsListable number ↔
      tree.directories[number]?.any (fun directory => directory.mode.isReadable) = true := by
  rw [Option.any_eq_true]
  rfl

/-- A file two levels down, a link to it, and a link to the directory that it stands in. -/
def searchedDisk : FileSystem :=
  let disk := (FileSystem.scratch ⟨"site", by decide⟩).addFile "s/d/a.ts" (.ofString "")
  (disk.addLink "s/b.ts" "d/a.ts").addLink "s/e" "d"

theorem discover_count_searchedDisk :
    let count := (searchedDisk.discover ⟨"s", [.ts, .vue, .ts]⟩).value.count
    count ↑"s/d/a.ts" = 2 ∧ count ↑"s/b.ts" = 2 ∧
      (∃ inode file, searchedDisk.LeadsTo "s/e/a.ts" inode file) ∧ count ↑"s/e/a.ts" = 0 := by
  intro count
  have hroot : searchedDisk.IsRoot "s" 2 := ⟨_, by cbv⟩
  have hlistable : searchedDisk.tree.IsListable 2 ∧ searchedDisk.tree.IsListable 3 := by
    rw [Tree.isListable_iff, Tree.isListable_iff]
    decide +kernel
  have hd : searchedDisk.tree.child? 2 ⟨"d", by decide⟩ = some (.directory 3) := by decide +kernel
  have ha : searchedDisk.tree.child? 3 ⟨"a.ts", by decide⟩ = some (.file 0) := by decide +kernel
  have hb : searchedDisk.tree.child? 2 ⟨"b.ts", by decide⟩ = some (.link "d/a.ts") := by
    decide +kernel
  have he : searchedDisk.tree.child? 2 ⟨"e", by decide⟩ = some (.link "d") := by decide +kernel
  have hleads : ∀ path, searchedDisk.isFile path = true →
      ∃ inode file, searchedDisk.LeadsTo path inode file :=
    fun path => FileSystem.isFile_iff_exists_leadsTo.mp
  have hdown : searchedDisk.Reaches "s" 2 "s/d/a.ts" [⟨"d", by decide⟩, ⟨"a.ts", by decide⟩] :=
    ⟨by decide, .enter hlistable.1 hd (.last hlistable.2 ha), hleads _ (by decide +kernel)⟩
  have hlink : searchedDisk.Reaches "s" 2 "s/b.ts" [⟨"b.ts", by decide⟩] :=
    ⟨by decide, .last hlistable.1 hb, hleads _ (by decide +kernel)⟩
  obtain ⟨-, hfound, -, -⟩ := discover_count searchedDisk ⟨"s", [.ts, .vue, .ts]⟩
  obtain ⟨hcount, hnone, -⟩ := hfound 2 hroot
  refine ⟨(hcount _ _ _ hdown rfl).trans (by decide), (hcount _ _ _ hlink rfl).trans (by decide),
    hleads _ (by decide +kernel), hnone _ ?_⟩
  rintro names ⟨hjoin, hdescends, -⟩
  have hpath : joinPath "s" [⟨"e", by decide⟩, ⟨"a.ts", by decide⟩] = "s/e/a.ts" := by decide
  obtain rfl := joinPath_inj hdescends.ne_nil (List.cons_ne_nil _ _) (hjoin.trans hpath.symm)
  cases hdescends with
  | enter _ hentry _ => cases he.symm.trans hentry

/-- A name that is no text, with the suffix of an extension at its end. -/
def brokenName : Name := ⟨⟨[0xff]⟩ ++ ".ts", by decide⟩

/-- A file in a directory that can be searched and not listed, and one under a name that is no
text. -/
def overlookedDisk : FileSystem :=
  let disk := FileSystem.scratch ⟨"site", by decide⟩
  let disk := (disk.addFile "s/a.ts" (.ofString "")).setMode "s" ⟨0o300⟩
  disk.addFile (joinPath "t" [brokenName]) (.ofString "")

/-- Both roots lead to directories, the paths are theirs joined with one name, so that no directory
stands between, both lead to files, and the bytes of both names end in the suffix. The one file is
not found because its root cannot be listed, the other because its name is not looked at. -/
theorem discover_overlookedDisk :
    let suffix := (RawText.ofString (Extension.suffix .ts)).bytes
    ((∃ root, overlookedDisk.IsRoot "s" root) ∧ joinPath "s" [⟨"a.ts", by decide⟩] = "s/a.ts" ∧
      (∃ inode file, overlookedDisk.LeadsTo "s/a.ts" inode file) ∧
      suffix <:+ (RawText.ofString "a.ts").bytes ∧
      ↑"s/a.ts" ∉ (overlookedDisk.discover ⟨"s", [.ts]⟩).value) ∧
    ((∃ root, overlookedDisk.IsRoot "t" root ∧ overlookedDisk.tree.IsListable root) ∧
      (∃ inode file, overlookedDisk.LeadsTo (joinPath "t" [brokenName]) inode file) ∧
      suffix <:+ brokenName.raw.bytes ∧ brokenName.raw.text? = none ∧
      joinPath "t" [brokenName] ∉ (overlookedDisk.discover ⟨"t", [.ts]⟩).value) := by
  intro suffix
  have hunlisted : overlookedDisk.IsRoot "s" 2 := ⟨_, by cbv⟩
  have hroot : overlookedDisk.IsRoot "t" 3 := ⟨_, by cbv⟩
  have hlistable : ¬overlookedDisk.tree.IsListable 2 := by
    rw [Tree.isListable_iff]
    decide +kernel
  have hnone : brokenName.raw.text? = none := by decide +kernel
  refine ⟨⟨⟨2, hunlisted⟩, by decide, ?_, by decide, ?_⟩, ⟨3, hroot, ?_⟩, ?_, by decide, hnone, ?_⟩
  · exact FileSystem.isFile_iff_exists_leadsTo.mp (by decide +kernel)
  · rw [hunlisted.discover_eq]
    simp [FileSystem.matching, Tree.descents_eq_nil hlistable]
  · rw [Tree.isListable_iff]
    decide +kernel
  · exact FileSystem.isFile_iff_exists_leadsTo.mp (by decide +kernel)
  · rw [hroot.discover_eq, List.mem_flatMap]
    rintro ⟨extension, -, hfound⟩
    obtain ⟨names, last, ⟨hjoin, hdescends, -⟩, hlast, hselects⟩ :=
      FileSystem.mem_map_matching_iff.mp hfound
    obtain rfl := joinPath_inj hdescends.ne_nil (List.cons_ne_nil _ _) hjoin
    obtain rfl : brokenName = last := Option.some.inj hlast
    have htext := (Extension.selects_iff.mp hselects).1
    rw [hnone] at htext
    cases htext

end Hush
