import Hush.FileSystem.Outside
import Hush.Proofs.Run.File
import Hush.Run.Directory

/-!
# What a run does to the disk

A run revises the files that its paths lead to, each one once: the visits before a visit have
moved no path, and a file that was revised stays as it is. Only which files are reached matters, not
the order of the paths or how many of them reach one file.
-/

namespace Hush

namespace FileSystem

/-- The file system with every file revised that one of the paths leads to. -/
def reviseAll (disk : FileSystem) (paths : List RawText) : FileSystem :=
  { disk with
    files := disk.files.mapIdx fun inode file =>
      if ∃ path ∈ paths, disk.resolve .owner path = some (.file inode) then file.revise else file }

theorem getElem?_files_reviseAll (disk : FileSystem) (paths : List RawText) (inode : Nat) :
    (disk.reviseAll paths).files[inode]? = disk.files[inode]?.map fun file =>
      if ∃ path ∈ paths, disk.resolve .owner path = some (.file inode) then file.revise
      else file :=
  Array.getElem?_mapIdx

theorem inode?_reviseAlong (disk : FileSystem) (first : RawText) :
    (disk.reviseAlong first).inode? = disk.inode? := by
  funext path
  unfold reviseAlong
  split
  · exact inode?_withFiles disk _ path
  · rfl

theorem mem_filterMap_inode?_iff {disk : FileSystem} {paths : List RawText} {inode : Nat} :
    inode ∈ paths.filterMap disk.inode? ↔
      ∃ path ∈ paths, disk.resolve .owner path = some (.file inode) := by
  simp only [List.mem_filterMap, inode?_eq_some_iff]

end FileSystem

theorem visit_disk (disk : FileSystem) (path : RawText) :
    (visit disk path).disk = disk.reviseAlong path :=
  commentFile_disk disk path

theorem visit_of_revises {disk : FileSystem} {path : RawText} {text : String} {inode : Nat}
    (hrevises : disk.Revises path inode text) :
    (visit disk path).disk = disk.reviseAt inode ∧
      (visit disk path).value.modified? = some ⟨path, true, (silence text).spans⟩ := by
  rw [visit, commentFile_of_revises hrevises]
  exact ⟨rfl, rfl⟩

theorem visit_of_not_revises {disk : FileSystem} {path : RawText}
    (hnone : ∀ inode text, ¬disk.Revises path inode text) :
    (visit disk path).disk = disk ∧ (visit disk path).value.modified? = none ∧
      ∀ path' size, .replaced path' size ∉ (visit disk path).events := by
  obtain ⟨result, heq, hresult⟩ := commentFile_of_not_revises hnone
  have hvisit : visit disk path =
      { value := ⟨path, result⟩
        disk
        events := .processing path :: (Visit.mk path result).verdict } := by
    rw [visit, heq]
    rfl
  rw [hvisit]
  refine ⟨rfl, ?_, ?_⟩
  · cases hvalue : result with
    | error error => rfl
    | ok outcome => rw [hresult outcome hvalue]; rfl
  · intro path' size hmem
    cases hvalue : result with
    | error error => simp [Visit.verdict, hvalue] at hmem
    | ok outcome => simp [Visit.verdict, hvalue, hresult outcome hvalue] at hmem

theorem length_visitAll (disk : FileSystem) (paths : List RawText) :
    (visitAll disk paths).value.length = paths.length := by
  induction paths generalizing disk with
  | nil => rfl
  | cons path paths ih => rw [visitAll_cons, List.length_cons, ih, List.length_cons]

/-- Each visit revises a file by number, and the numbers are those of the paths at the start. -/
theorem visitAll_disk_eq_foldl (disk : FileSystem) (paths : List RawText) :
    (visitAll disk paths).disk =
      disk.withFiles ((paths.filterMap disk.inode?).foldl
        (fun files inode => files.modify inode File.revise) disk.files) := by
  induction paths generalizing disk with
  | nil => rfl
  | cons path paths ih =>
      have hfirst := ih (visit disk path).disk
      rw [visit_disk, FileSystem.inode?_reviseAlong] at hfirst
      rw [visitAll_cons]
      simp only [visit_disk, hfirst]
      cases hinode : disk.inode? path with
      | none => rw [List.filterMap_cons_none hinode, FileSystem.reviseAlong, hinode]
      | some inode =>
          rw [List.filterMap_cons_some hinode, List.foldl_cons, FileSystem.reviseAlong, hinode]
          rfl

theorem visitAll_disk (disk : FileSystem) (paths : List RawText) :
    (visitAll disk paths).disk = disk.reviseAll paths := by
  rw [visitAll_disk_eq_foldl]
  apply congrArg disk.withFiles
  apply Array.ext_getElem?
  intro inode
  rw [getElem?_foldl_modify File.revise_revise, Array.getElem?_mapIdx]
  simp only [FileSystem.mem_filterMap_inode?_iff]

theorem FileSystem.modes_reviseAll (disk : FileSystem) (paths : List RawText) :
    (disk.reviseAll paths).files.map File.mode = disk.files.map File.mode := by
  apply Array.ext_getElem?
  intro inode
  rw [Array.getElem?_map, getElem?_files_reviseAll, Option.map_map, Array.getElem?_map]
  apply Option.map_congr
  intro file _
  rw [Function.comp_apply, apply_ite File.mode, File.mode_revise, ite_self]

theorem FileSystem.reviseAll_congr (disk : FileSystem) {paths others : List RawText}
    (hmem : ∀ path, path ∈ paths ↔ path ∈ others) :
    disk.reviseAll paths = disk.reviseAll others := by
  simp only [reviseAll, hmem]

/-- A visit that fails can be left out: the other visits end as before, on the same disk. -/
theorem visitAll_eraseIdx (disk : FileSystem) (paths : List RawText) {i : Nat} {failed : Visit}
    {error : CommentError} (hvisit : (visitAll disk paths).value[i]? = some failed)
    (herror : failed.result = .error error) :
    (visitAll disk (paths.eraseIdx i)).value = (visitAll disk paths).value.eraseIdx i ∧
      (visitAll disk (paths.eraseIdx i)).disk = (visitAll disk paths).disk := by
  induction paths generalizing disk i with
  | nil => cases hvisit
  | cons path paths ih =>
      cases i with
      | zero =>
          have hfirst : (visit disk path).value = failed := Option.some.inj hvisit
          have hvalue : (commentFile disk path).value = .error error := by
            rw [← herror, ← hfirst]
            rfl
          have hdisk : (visit disk path).disk = disk := commentFile_disk_of_error disk path hvalue
          simp [visitAll_cons, hdisk]
      | succ i =>
          obtain ⟨hvalue, hdisk⟩ := ih (visit disk path).disk hvisit
          simp [visitAll_cons, hvalue, hdisk]

@[simp]
theorem FileSystem.discover_disk (disk : FileSystem) (config : Config) :
    (disk.discover config).disk = disk := by
  unfold discover
  split <;> rfl

theorem processDirectory_disk (disk : FileSystem) (config : Config) :
    (processDirectory disk config).disk = disk.reviseAll (disk.discover config).value := by
  simp [processDirectory_eq, visitAll_disk]

/-- A run that visits the discovered paths in a given order. -/
def processInOrder (disk : FileSystem) (config : Config) (order : List RawText) : Run Summary :=
  let visits := visitAll disk order
  { value := .ofVisits visits.value
    disk := visits.disk
    events := (disk.discover config).events ++ visits.events }

theorem processDirectory_eq_processInOrder (disk : FileSystem) (config : Config) :
    processDirectory disk config = processInOrder disk config (disk.discover config).value := by
  simp [processDirectory_eq, processInOrder]

/-- **A run over a directory.** Whatever the order of the discovered paths, the disk changes in the
files that they lead to and nowhere else, each file is revised once, and a visit that fails has no
part in what the others do. -/
theorem processDirectory_reviseAll (disk : FileSystem) (config : Config) {order : List RawText}
    (horder : order.Perm (disk.discover config).value) :
    (processDirectory disk config).disk = (visitAll disk order).disk ∧
      (visitAll disk order).disk =
        { disk with
          files := disk.files.mapIdx fun inode file =>
            if ∃ path ∈ (disk.discover config).value,
                disk.resolve .owner path = some (.file inode) then
              file.revise
            else file } ∧
      (visitAll disk order).disk.files.map File.mode = disk.files.map File.mode ∧
      ∀ i failed error, (visitAll disk order).value[i]? = some failed →
        failed.result = .error error →
        (visitAll disk (order.eraseIdx i)).value = (visitAll disk order).value.eraseIdx i ∧
          (visitAll disk (order.eraseIdx i)).disk = (visitAll disk order).disk := by
  have hdisk : (visitAll disk order).disk = disk.reviseAll (disk.discover config).value := by
    rw [visitAll_disk]
    exact disk.reviseAll_congr fun path => horder.mem_iff
  refine ⟨?_, hdisk, ?_, ?_⟩
  · rw [processDirectory_disk, hdisk]
  · rw [hdisk, FileSystem.modes_reviseAll]
  · intro i failed error hvisit herror
    exact visitAll_eraseIdx disk order hvisit herror

/-- One file under two names, and a second file that may be written but not read. -/
def linkedDisk : FileSystem :=
  let disk := (FileSystem.scratch ⟨"home", by decide⟩).addFile "s/a.ts" (.ofString "console.log(1)")
  let disk := (disk.addHardLink "s/b.ts" "s/a.ts").addFile "s/c.ts" (.ofString "console.log(2)")
  disk.setMode "s/c.ts" ⟨0o200⟩

theorem processDirectory_reviseAll_linkedDisk :
    let order : List RawText := ["s/a.ts", "s/c.ts", "s/b.ts"]
    order.Perm (linkedDisk.discover ⟨"s", [.ts]⟩).value ∧
      (processDirectory linkedDisk ⟨"s", [.ts]⟩).disk = (visitAll linkedDisk order).disk ∧
      (visitAll linkedDisk order).disk.files.map
          (fun file => (String.fromUTF8? file.content.toBytes, file.writes)) =
        #[(some "// console.log(1)", 1), (some "console.log(2)", 0)] := by
  intro order
  have hfound : (linkedDisk.discover ⟨"s", [.ts]⟩).value =
      (["s/c.ts", "s/b.ts", "s/a.ts"] : List RawText) := by cbv
  have horder : order.Perm (linkedDisk.discover ⟨"s", [.ts]⟩).value := by
    rw [hfound]
    decide
  obtain ⟨hrun, hdisk, -, -⟩ := processDirectory_reviseAll linkedDisk ⟨"s", [.ts]⟩ horder
  refine ⟨horder, hrun, ?_⟩
  rw [hdisk, hfound]
  decide +kernel

end Hush
