import Hush.Proofs.FileSystem.JoinPath
import Hush.Proofs.Run.Discovery
import Hush.Proofs.Run.Tally

/-!
# Compiled output

The filter looks at the name under which a file is found, and the write goes to the file itself. So
a file with a compiled name is safe from a run as long as no source name leads to it. One can lead
there in two ways: as a second name of the file, or as a symbolic link.
-/

namespace Hush

/-- How a path below the root of a run leads to a file. Its last name has one of the extensions and
is not a compiled one, and the entry that stands there is the file's own or a link to it. -/
structure Finding (disk : FileSystem) (config : Config) (path : RawText) where
  names : List Name
  last : Name
  holder : Nat
  entry : Entry
  inode : Nat
  join_eq : joinPath config.root names = path
  last_eq : names.getLast? = some last
  selected : ∃ extension ∈ config.extensions, extension.selects last = true
  not_compiled : last.isCompiled = false
  child_eq : disk.tree.child? holder last = some entry
  leads : disk.EntryLeadsTo .owner holder (.file inode) entry
  resolve_eq : disk.resolve .owner path = some (.file inode)

variable {disk : FileSystem} {config : Config} {path : RawText}

theorem nonempty_finding (hfound : path ∈ (disk.discover config).value) :
    Nonempty (Finding disk config path) := by
  obtain ⟨root, directory, hroot, extension, hextension, names, hnames, rfl⟩ :=
    FileSystem.mem_discover_iff.mp hfound
  obtain ⟨hdescends, hfile, last, hlast, hselects⟩ := FileSystem.mem_matching_iff.mp hnames
  obtain ⟨inode, hresolve, -⟩ := FileSystem.isFile_eq_true_iff.mp hfile
  have hdirectory := (FileSystem.lookup?_eq_directory_iff.mp hroot).1
  obtain ⟨holder, final, entry, hfinal, hchild, hleads⟩ :=
    FileSystem.exists_entry_of_resolve_joinPath hdirectory hdescends hresolve
  obtain rfl : last = final := Option.some.inj (hlast.symm.trans hfinal)
  exact ⟨⟨names, last, holder, entry, inode, rfl, hlast, ⟨extension, hextension, hselects⟩,
    Extension.isCompiled_eq_false hselects, hchild, hleads, hresolve⟩⟩

/-- **Compiled output.** Whatever the order of the discovered paths, none of them ends in a compiled
name, and a file that stands in a directory under a compiled name is not written, unless it is found
under another name as well. -/
theorem processInOrder_compiled (disk : FileSystem) (config : Config) {order : List RawText}
    (horder : order.Perm (disk.discover config).value) :
    let later := (processInOrder disk config order).disk
    later = (processDirectory disk config).disk ∧
      (∀ path ∈ order, ∃ finding : Finding disk config path, finding.last.isCompiled = false) ∧
      ∀ number inode name, disk.tree.child? number name = some (.file inode) →
        name.isCompiled = true →
        later.tree.child? number name = some (.file inode) ∧
          ((∀ path ∈ order, ∀ finding : Finding disk config path,
              finding.last ≠ name → finding.inode ≠ inode) →
            later.files[inode]? = disk.files[inode]? ∧ later.bytes? inode = disk.bytes? inode) := by
  intro later
  have hlater : later = disk.reviseAll order := visitAll_disk disk order
  refine ⟨?_, ?_, fun number inode name hentry hcompiled => ⟨?_, fun hapart => ?_⟩⟩
  · rw [hlater, processDirectory_disk]
    exact disk.reviseAll_congr fun path => horder.mem_iff
  · intro path hpath
    obtain ⟨finding⟩ := nonempty_finding (horder.subset hpath)
    exact ⟨finding, finding.not_compiled⟩
  · rw [hlater]
    exact hentry
  · have hunchanged : later.files[inode]? = disk.files[inode]? := by
      rw [hlater]
      apply FileSystem.getElem?_files_reviseAll_of_not
      rintro ⟨path, hpath, text, file, ⟨hresolve, -⟩, -⟩
      obtain ⟨finding⟩ := nonempty_finding (horder.subset hpath)
      have hother : finding.last ≠ name := by
        rintro rfl
        rw [finding.not_compiled] at hcompiled
        cases hcompiled
      apply hapart path hpath finding hother
      rw [finding.resolve_eq] at hresolve
      exact Place.file.inj (Option.some.inj hresolve)
    refine ⟨hunchanged, ?_⟩
    rw [FileSystem.bytes?, FileSystem.bytes?, hunchanged]

/-- A compiled file beside its source, both with a call. -/
def builtDisk : FileSystem :=
  let disk := FileSystem.scratch ⟨"build", by decide⟩
  let disk := disk.addFile "s/a.js" (.ofString "console.log(1)")
  disk.addFile "s/a.ts" (.ofString "console.log(2)")

theorem processInOrder_compiled_builtDisk :
    let order : List RawText := ["s/a.ts"]
    let run := processInOrder builtDisk ⟨"s", [.vue, .ts]⟩ order
    builtDisk.tree.child? 2 ⟨"a.js", by decide⟩ = some (.file 0) ∧
      run.value.modified = order ∧ run.disk.bytes? 0 = builtDisk.bytes? 0 := by
  intro order run
  have hentry : builtDisk.tree.child? 2 ⟨"a.js", by decide⟩ = some (.file 0) := by decide +kernel
  have hfound : (builtDisk.discover ⟨"s", [.vue, .ts]⟩).value = order := by cbv
  have hresolve : builtDisk.resolve .owner "s/a.ts" = some (.file 1) := by decide +kernel
  have horder : order.Perm (builtDisk.discover ⟨"s", [.vue, .ts]⟩).value := by
    rw [hfound]
  have hapart : ∀ path ∈ order,
      ∀ finding : Finding builtDisk ⟨"s", [.vue, .ts]⟩ path,
        finding.last ≠ ⟨"a.js", by decide⟩ → finding.inode ≠ 0 := by
    intro path hpath finding _ hinode
    rw [List.mem_singleton] at hpath
    have hother := finding.resolve_eq
    rw [hinode, hpath, hresolve] at hother
    cases hother
  obtain ⟨-, -, hcompiled⟩ := processInOrder_compiled builtDisk ⟨"s", [.vue, .ts]⟩ horder
  obtain ⟨-, hunchanged⟩ := hcompiled 2 0 ⟨"a.js", by decide⟩ hentry (by decide)
  refine ⟨hentry, ?_, (hunchanged hapart).2⟩
  decide +kernel

/-- A compiled file that has a source name too, and one that a link with a source name leads to. -/
def sharedDisk : FileSystem :=
  let disk := FileSystem.scratch ⟨"build", by decide⟩
  let disk := disk.addFile "s/a.js" (.ofString "console.log(1)")
  let disk := (disk.addHardLink "s/a.ts" "s/a.js").addFile "s/b.js" (.ofString "console.log(2)")
  disk.addLink "s/b.ts" "b.js"

theorem processDirectory_sharedDisk :
    sharedDisk.tree.child? 2 ⟨"a.js", by decide⟩ = some (.file 0) ∧
      sharedDisk.tree.child? 2 ⟨"b.js", by decide⟩ = some (.file 1) ∧
      Name.isCompiled ⟨"a.js", by decide⟩ = true ∧ Name.isCompiled ⟨"b.js", by decide⟩ = true ∧
      (processDirectory sharedDisk ⟨"s", [.vue, .ts]⟩).disk.bytes? 0 ≠ sharedDisk.bytes? 0 ∧
      (processDirectory sharedDisk ⟨"s", [.vue, .ts]⟩).disk.bytes? 1 ≠ sharedDisk.bytes? 1 := by
  have hfound : (sharedDisk.discover ⟨"s", [.vue, .ts]⟩).value =
      (["s/b.ts", "s/a.ts"] : List RawText) := by cbv
  refine ⟨by decide +kernel, by decide +kernel, by decide, by decide, ?_, ?_⟩
  · rw [processDirectory_disk, hfound]
    decide +kernel
  · rw [processDirectory_disk, hfound]
    decide +kernel

end Hush
