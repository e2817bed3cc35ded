import Hush.FileSystem.Outside
import Hush.Proofs.FileSystem.Access
import Hush.Proofs.Text.ValidEnd
import Hush.Run.File

/-!
# What a replacement reaches

A file may have several names, and symbolic links and roundabout paths may lead to each of them.
All of them show the new text after a replacement, and nothing else shows a difference. Paths are
resolved in the tree, which a replacement leaves alone, so this comes down to what becomes of the
files by their numbers.
-/

namespace Hush

theorem Content.decode_ofString (text : String) :
    (ofString text).decode =
      if 0 ∈ text.toUTF8.data.toList.take 8192 then .error .binary else .ok text := by
  by_cases hmem : 0 ∈ text.toUTF8.data.toList.take 8192
  · rw [if_pos hmem, decode_eq, Text.decode_eq_binary_iff, ← Bool.not_eq_false,
      Text.looksBinary_eq_false_iff]
    exact not_not_intro hmem
  · rw [if_neg hmem]
    exact decode_eq_ok_iff.mpr ⟨Text.looksBinary_eq_false_iff.mpr hmem, rfl⟩

namespace FileSystem

/-- A file was given a new text, and nothing else is different. -/
structure Replaces (disk later : FileSystem) (inode : Nat) (file : File) (text : String) :
    Prop where
  tree_eq : later.tree = disk.tree
  workingDirectory_eq : later.workingDirectory = disk.workingDirectory
  file_eq : later.files[inode]? =
    some { file with content := .ofString text, writes := file.writes + 1 }
  others_eq : ∀ other, other ≠ inode → later.files[other]? = disk.files[other]?

theorem replaces_overwrite {disk : FileSystem} {inode : Nat} {file : File}
    (hfile : disk.files[inode]? = some file) (text : String) :
    disk.Replaces (disk.overwrite inode (.ofString text)) inode file text where
  tree_eq := rfl
  workingDirectory_eq := rfl
  file_eq := by
    rw [overwrite, Array.getElem?_modify, if_pos rfl, hfile]
    rfl
  others_eq := by
    intro other hne
    rw [overwrite, Array.getElem?_modify, if_neg hne.symm]

theorem LeadsTo.readText_eq {disk : FileSystem} {path : RawText} {inode limit : Nat} {file : File}
    (hleads : disk.LeadsTo path inode file) (hsize : file.content.size ≤ limit)
    (hmode : file.mode.isReadable = true) :
    disk.readText path limit = file.content.decode.mapError .ofDecode := by
  rw [hleads.readText_eq_ite, if_neg (Nat.not_lt_of_le hsize), if_pos hmode]

namespace Replaces

variable {disk later : FileSystem} {inode : Nat} {file : File} {path : RawText} {text : String}

theorem resolve_eq (hreplaces : disk.Replaces later inode file text) (user : User)
    (path : RawText) : later.resolve user path = disk.resolve user path := by
  have hlater : later = disk.withFiles later.files := by
    rw [withFiles, ← hreplaces.tree_eq, ← hreplaces.workingDirectory_eq]
  rw [hlater, resolve_withFiles]

theorem node?_eq (hreplaces : disk.Replaces later inode file text) {place : Place}
    (hplace : place ≠ .file inode) : later.node? place = disk.node? place := by
  cases place with
  | file other =>
      have hne : other ≠ inode := fun heq => hplace (congrArg Place.file heq)
      rw [node?, node?, hreplaces.others_eq other hne]
  | directory number => rw [node?, node?, directory?, directory?, hreplaces.tree_eq]

theorem lookup?_eq (hreplaces : disk.Replaces later inode file text) {user : User}
    (hpath : disk.resolve user path ≠ some (.file inode)) :
    later.lookup? user path = disk.lookup? user path := by
  rw [lookup?, lookup?, hreplaces.resolve_eq]
  cases hplace : disk.resolve user path with
  | none => rfl
  | some place =>
      apply hreplaces.node?_eq
      rintro rfl
      exact hpath hplace

theorem readText_eq_of_ne (hreplaces : disk.Replaces later inode file text)
    (hpath : disk.resolve .owner path ≠ some (.file inode)) (limit : Nat) :
    later.readText path limit = disk.readText path limit := by
  rw [readText, readText, hreplaces.lookup?_eq hpath]

theorem readText_eq (hreplaces : disk.Replaces later inode file text)
    (hpath : disk.resolve .owner path = some (.file inode)) (hmode : file.mode.isReadable = true)
    {limit : Nat} (hsize : text.utf8ByteSize ≤ limit) :
    later.readText path limit =
      if 0 ∈ text.toUTF8.data.toList.take 8192 then .error .binary else .ok text := by
  have hleads : later.LeadsTo path inode _ :=
    ⟨(hreplaces.resolve_eq .owner path).trans hpath, hreplaces.file_eq⟩
  rw [hleads.readText_eq hsize hmode, Content.decode_ofString]
  split <;> rfl

end Replaces

end FileSystem

theorem replaceFile_cases (disk : FileSystem) (path : RawText) (text : String) :
    (∃ inode file, disk.LeadsTo path inode file ∧ file.mode.isWritable = true ∧
      replaceFile disk path text =
        { value := .ok ()
          disk := disk.overwrite inode (.ofString text)
          events := [.replaced path text.utf8ByteSize] }) ∨
    ((¬∃ inode file, disk.LeadsTo path inode file ∧ file.mode.isWritable = true) ∧
      ∃ cause, replaceFile disk path text = { value := .error cause, disk }) := by
  cases hwrite : disk.writeText path text with
  | ok written =>
      obtain ⟨inode, file, hleads, hmode, rfl⟩ := FileSystem.writeText_eq_ok_iff.mp hwrite
      exact Or.inl ⟨inode, file, hleads, hmode, by rw [replaceFile, hwrite]⟩
  | error cause =>
      refine Or.inr ⟨?_, cause, by rw [replaceFile, hwrite]⟩
      rintro ⟨inode, file, hleads, hmode⟩
      rw [FileSystem.writeText_eq_ok_iff.mpr ⟨inode, file, hleads, hmode, rfl⟩] at hwrite
      cases hwrite

/-- **Replacement.** It succeeds exactly where a path leads to a file that may be written. Then that
file holds the bytes of the text, all paths lead where they led, those that lead to the file read
as the text, and the others read as before. A replacement that fails changes nothing. -/
theorem replaceFile_replaces_or_refuses (disk : FileSystem) (path : RawText) (text : String) :
    let run := replaceFile disk path text
    (run.value = .ok () ↔
        ∃ inode file, disk.LeadsTo path inode file ∧ file.mode.isWritable = true) ∧
      (run.value = .ok () → ∃ inode file, disk.LeadsTo path inode file ∧
        (run.disk.files[inode]?.map fun new => new.content.toBytes) = some text.toUTF8 ∧
        disk.Replaces run.disk inode file text ∧
        (∀ user other, run.disk.resolve user other = disk.resolve user other) ∧
        (∀ other limit, disk.resolve .owner other = some (.file inode) →
          file.mode.isReadable = true → text.utf8ByteSize ≤ limit →
            run.disk.readText other limit =
              if 0 ∈ text.toUTF8.data.toList.take 8192 then .error .binary else .ok text) ∧
        ∀ other limit, disk.resolve .owner other ≠ some (.file inode) →
          run.disk.readText other limit = disk.readText other limit) ∧
      ∀ cause, run.value = .error cause → run.disk = disk := by
  intro run
  rcases replaceFile_cases disk path text with ⟨inode, file, hleads, hmode, heq⟩ |
      ⟨hnone, cause, heq⟩
  · have hrun : run = _ := heq
    have hreplaces := FileSystem.replaces_overwrite hleads.2 text
    rw [hrun]
    refine ⟨iff_of_true rfl ⟨inode, file, hleads, hmode⟩, fun _ => ?_, fun cause hvalue => ?_⟩
    · refine ⟨inode, file, hleads, ?_, hreplaces, hreplaces.resolve_eq, ?_, ?_⟩
      · rw [hreplaces.file_eq]
        rfl
      · intro other limit hother hreadable hsize
        exact hreplaces.readText_eq hother hreadable hsize
      · exact fun other limit hother => hreplaces.readText_eq_of_ne hother limit
    · cases hvalue
  · have hrun : run = _ := heq
    rw [hrun]
    refine ⟨iff_of_false nofun hnone, fun hvalue => ?_, fun _ _ => rfl⟩
    cases hvalue

/-- A file with a second name, a link to that name, and another file. -/
def aliasedDisk : FileSystem :=
  let disk := (FileSystem.scratch ⟨"main", by decide⟩).addFile "s/a.ts" (.ofString "a(1)\nb(2)\n")
  let disk := (disk.addHardLink "s/b.ts" "s/a.ts").addLink "s/c.ts" "./b.ts"
  disk.addFile "s/d.ts" (.ofString "d(4)\n")

theorem replaceFile_aliasedDisk :
    let run := replaceFile aliasedDisk "s/../s/c.ts" "e(5)"
    run.value = .ok () ∧ run.disk.readText "s/a.ts" 4 = .ok "e(5)" ∧
      run.disk.readText "s/d.ts" 5 = .ok "d(4)\n" ∧
      (replaceFile aliasedDisk "s" "e(5)").disk = aliasedDisk := by
  intro run
  have hpath : aliasedDisk.resolve .owner "s/../s/c.ts" = some (.file 0) := by decide +kernel
  have hname : aliasedDisk.resolve .owner "s/a.ts" = some (.file 0) := by decide +kernel
  have hother : aliasedDisk.resolve .owner "s/d.ts" = some (.file 1) := by decide +kernel
  have hfiles : aliasedDisk.files[0]?.map File.mode = some .ofFile := by decide +kernel
  obtain ⟨file, hfile, hmode⟩ := Option.map_eq_some_iff.mp hfiles
  have hleads : aliasedDisk.LeadsTo "s/../s/c.ts" 0 file := ⟨hpath, hfile⟩
  have hreadable : file.mode.isReadable = true := by
    rw [hmode]
    rfl
  have hwritable : file.mode.isWritable = true := by
    rw [hmode]
    rfl
  obtain ⟨hsucceeds, hreplaces, -⟩ :=
    replaceFile_replaces_or_refuses aliasedDisk "s/../s/c.ts" "e(5)"
  have hvalue : run.value = .ok () := hsucceeds.mpr ⟨0, file, hleads, hwritable⟩
  obtain ⟨inode, found, hfound, -, -, -, hreads, hkeeps⟩ := hreplaces hvalue
  obtain ⟨rfl, rfl⟩ := hleads.unique hfound
  refine ⟨hvalue, ?_, ?_, ?_⟩
  · rw [hreads "s/a.ts" 4 hname hreadable (by decide)]
    exact if_neg (by decide +kernel)
  · rw [hkeeps "s/d.ts" 5 (by simp [hother])]
    decide +kernel
  · obtain ⟨-, -, hrefuses⟩ := replaceFile_replaces_or_refuses aliasedDisk "s" "e(5)"
    exact hrefuses (.refused .isDirectory) (by decide +kernel)

end Hush
