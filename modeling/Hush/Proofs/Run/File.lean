import Hush.Proofs.FileSystem.Access
import Hush.Proofs.Source.Settled
import Hush.Proofs.Text.Decoding
import Hush.Run.File

/-!
# What a visit does to a file

A visit ends in one of four ways. Seen from the disk there are two: the file that the path leads to
is revised, which depends on that file alone, or nothing happens. A revised file has nothing left to
revise.
-/

namespace Hush

/-- The text that a visit puts in the place of a file's content. There is none unless the file may
be read and written, is not too large, and holds a text that changes. -/
def File.revision? (file : File) : Option String :=
  if file.mode.isReadable ∧ file.mode.isWritable ∧ file.content.size ≤ maxFileSize then
    match file.content.decode with
    | .ok text => if (silence text).changed then some (silence text).after else none
    | .error _ => none
  else none

def File.revise (file : File) : File :=
  match file.revision? with
  | some text => { file with content := .ofString text, writes := file.writes + 1 }
  | none => file

/-- The file may be read and written, is not too large, and holds this text, which changes. -/
structure File.Revises (file : File) (text : String) : Prop where
  readable : file.mode.isReadable = true
  writable : file.mode.isWritable = true
  size_le : file.content.size ≤ maxFileSize
  decode_eq : file.content.decode = .ok text
  changed : (silence text).changed = true

namespace File

variable {file : File} {text : String}

theorem revision?_eq_some_iff {after : String} :
    file.revision? = some after ↔ ∃ text, file.Revises text ∧ (silence text).after = after := by
  unfold revision?
  split <;> rename_i hopen
  · cases hdecode : file.content.decode with
    | error error =>
        simp only [reduceCtorEq, false_iff, not_exists, not_and]
        intro text hrevises
        rw [hrevises.decode_eq] at hdecode
        cases hdecode
    | ok found =>
        dsimp only
        constructor
        · intro hsome
          split at hsome <;> rename_i hchanged
          · exact ⟨found, ⟨hopen.1, hopen.2.1, hopen.2.2, hdecode, hchanged⟩, Option.some.inj hsome⟩
          · cases hsome
        · rintro ⟨text, hrevises, rfl⟩
          have hsame : text = found :=
            Except.ok.inj (hrevises.decode_eq.symm.trans hdecode)
          rw [← hsame]
          exact if_pos hrevises.changed
  · simp only [reduceCtorEq, false_iff, not_exists, not_and]
    intro text hrevises
    exact absurd ⟨hrevises.readable, hrevises.writable, hrevises.size_le⟩ hopen

theorem revise_of_revises (hrevises : file.Revises text) :
    file.revise =
      { file with content := .ofString (silence text).after, writes := file.writes + 1 } := by
  have hrevision := revision?_eq_some_iff.mpr ⟨text, hrevises, rfl⟩
  rw [revise, hrevision]

theorem revise_eq_self (hnone : ∀ text, ¬file.Revises text) : file.revise = file := by
  cases hrevision : file.revision? with
  | none => rw [revise, hrevision]
  | some after =>
      obtain ⟨text, hrevises, -⟩ := revision?_eq_some_iff.mp hrevision
      exact absurd hrevises (hnone text)

@[simp]
theorem mode_revise (file : File) : file.revise.mode = file.mode := by
  unfold revise
  split <;> rfl

/-- A second visit finds a text without live calls, or no text that it may read. -/
theorem not_revises_revise (file : File) (text : String) : ¬file.revise.Revises text := by
  intro hagain
  by_cases hfirst : ∃ first, file.Revises first
  · obtain ⟨first, hrevises⟩ := hfirst
    have hdecode := hagain.decode_eq
    rw [revise_of_revises hrevises] at hdecode
    have hchanged := hagain.changed
    rw [Content.eq_of_decode_ofString hdecode, (settled_silence_after first).silence_eq] at hchanged
    simp [Revision.changed] at hchanged
  · rw [not_exists] at hfirst
    rw [revise_eq_self hfirst] at hagain
    exact hfirst text hagain

@[simp]
theorem revise_revise (file : File) : file.revise.revise = file.revise :=
  revise_eq_self (not_revises_revise file)

end File

section Cases

variable (disk : FileSystem) (path : RawText)

/-- The four ends of a visit: the file cannot be read, it has nothing to comment, it cannot be
replaced, or it is replaced. -/
theorem commentFile_cases :
    (∃ cause, disk.readText path maxFileSize = .error cause ∧
      commentFile disk path = { value := .error (.read path cause), disk }) ∨
    (∃ text, disk.readText path maxFileSize = .ok text ∧ (silence text).changed = false ∧
      commentFile disk path = { value := .ok ⟨path, false, (silence text).spans⟩, disk }) ∨
    (∃ text cause, disk.readText path maxFileSize = .ok text ∧ (silence text).changed = true ∧
      disk.writeText path (silence text).after = .error cause ∧
      commentFile disk path = { value := .error (.write path cause), disk }) ∨
    (∃ text written, disk.readText path maxFileSize = .ok text ∧ (silence text).changed = true ∧
      disk.writeText path (silence text).after = .ok written ∧
      commentFile disk path =
        { value := .ok ⟨path, true, (silence text).spans⟩
          disk := written
          events := [.replaced path (silence text).after.utf8ByteSize,
            .revised path (silence text)] }) := by
  unfold commentFile
  cases hread : disk.readText path maxFileSize with
  | error cause => exact Or.inl ⟨cause, rfl, rfl⟩
  | ok text =>
      refine Or.inr ?_
      cases hchanged : (silence text).changed with
      | false => exact Or.inl ⟨text, rfl, hchanged, by simp [hchanged]⟩
      | true =>
          refine Or.inr ?_
          cases hwrite : disk.writeText path (silence text).after with
          | error cause =>
              exact Or.inl ⟨text, cause, rfl, hchanged, hwrite,
                by simp [hchanged, replaceFile, hwrite]⟩
          | ok written =>
              exact Or.inr ⟨text, written, rfl, hchanged, hwrite,
                by simp [hchanged, replaceFile, hwrite]⟩

theorem commentFile_disk_of_error {error : CommentError}
    (hvalue : (commentFile disk path).value = .error error) :
    (commentFile disk path).disk = disk := by
  rcases commentFile_cases disk path with ⟨cause, -, heq⟩ | ⟨text, -, -, heq⟩ |
      ⟨text, cause, -, -, -, heq⟩ | ⟨text, written, -, -, -, heq⟩
  · rw [heq]
  · rw [heq]
  · rw [heq]
  · rw [heq] at hvalue
    cases hvalue

theorem commentFile_path {outcome : FileOutcome}
    (hok : (commentFile disk path).value = .ok outcome) : outcome.path = path := by
  rcases commentFile_cases disk path with ⟨cause, -, heq⟩ | ⟨text, -, -, heq⟩ |
      ⟨text, cause, -, -, -, heq⟩ | ⟨text, written, -, -, -, heq⟩
  · rw [heq] at hok
    cases hok
  · rw [heq] at hok
    rw [← Except.ok.inj hok]
  · rw [heq] at hok
    cases hok
  · rw [heq] at hok
    rw [← Except.ok.inj hok]

end Cases

namespace FileSystem

def reviseAt (disk : FileSystem) (inode : Nat) : FileSystem :=
  disk.withFiles (disk.files.modify inode File.revise)

/-- The file system after the file that a path leads to was revised, if it leads to one. -/
def reviseAlong (disk : FileSystem) (path : RawText) : FileSystem :=
  match disk.inode? path with
  | some inode => disk.reviseAt inode
  | none => disk

/-- The path leads to this file, and a visit changes its text. -/
def Revises (disk : FileSystem) (path : RawText) (inode : Nat) (text : String) : Prop :=
  ∃ file, disk.LeadsTo path inode file ∧ file.Revises text

variable {disk : FileSystem} {path : RawText}

theorem reviseAlong_eq_self (hnone : ∀ inode text, ¬disk.Revises path inode text) :
    disk.reviseAlong path = disk := by
  unfold reviseAlong
  split <;> rename_i hinode
  · have hresolve := inode?_eq_some_iff.mp hinode
    rw [reviseAt, modify_eq_self, withFiles_files]
    intro file hfile
    exact File.revise_eq_self fun text hrevises =>
      hnone _ text ⟨file, ⟨hresolve, hfile⟩, hrevises⟩
  · rfl

theorem reviseAlong_of_leadsTo {inode : Nat} {file : File} (hleads : disk.LeadsTo path inode file) :
    disk.reviseAlong path = disk.reviseAt inode := by
  rw [reviseAlong, inode?_eq_some_iff.mpr hleads.1]

theorem reviseAt_eq_overwrite {inode : Nat} {file : File} {text : String}
    (hfile : disk.files[inode]? = some file) (hrevises : file.Revises text) :
    disk.reviseAt inode = disk.overwrite inode (.ofString (silence text).after) := by
  rw [reviseAt, overwrite_eq_withFiles]
  refine congrArg disk.withFiles (modify_congr fun found hfound => ?_)
  have hsame : file = found := Option.some.inj (hfile.symm.trans hfound)
  rw [← hsame, File.revise_of_revises hrevises]

end FileSystem

section Ends

variable {disk : FileSystem} {path : RawText}

theorem commentFile_of_revises {inode : Nat} {text : String}
    (hrevises : disk.Revises path inode text) :
    commentFile disk path =
      { value := .ok ⟨path, true, (silence text).spans⟩
        disk := disk.reviseAt inode
        events := [.replaced path (silence text).after.utf8ByteSize,
          .revised path (silence text)] } := by
  obtain ⟨file, hleads, hfile⟩ := hrevises
  have hread : disk.readText path maxFileSize = .ok text :=
    FileSystem.readText_eq_ok_iff.mpr
      ⟨inode, file, hleads, hfile.size_le, hfile.readable, hfile.decode_eq⟩
  have hwrite : disk.writeText path (silence text).after = .ok (disk.reviseAt inode) :=
    FileSystem.writeText_eq_ok_iff.mpr
      ⟨inode, file, hleads, hfile.writable, FileSystem.reviseAt_eq_overwrite hleads.2 hfile⟩
  simp [commentFile, replaceFile, hread, hfile.changed, hwrite]

theorem exists_revises {text : String} {written : FileSystem}
    (hread : disk.readText path maxFileSize = .ok text) (hchanged : (silence text).changed = true)
    (hwrite : disk.writeText path (silence text).after = .ok written) :
    ∃ inode, disk.Revises path inode text := by
  obtain ⟨inode, file, hleads, hsize, hreadable, hdecode⟩ :=
    FileSystem.readText_eq_ok_iff.mp hread
  obtain ⟨other, found, hother, hwritable, -⟩ := FileSystem.writeText_eq_ok_iff.mp hwrite
  obtain ⟨rfl, rfl⟩ := hleads.unique hother
  exact ⟨inode, file, hleads, ⟨hreadable, hwritable, hsize, hdecode, hchanged⟩⟩

/-- A visit that revises nothing fails, or it finds no call. It says nothing and leaves the disk
alone. -/
theorem commentFile_of_not_revises (hnone : ∀ inode text, ¬disk.Revises path inode text) :
    ∃ result, commentFile disk path = { value := result, disk } ∧
      ∀ outcome, result = .ok outcome → outcome = ⟨path, false, []⟩ := by
  rcases commentFile_cases disk path with ⟨cause, -, heq⟩ | ⟨text, -, hchanged, heq⟩ |
      ⟨text, cause, -, -, -, heq⟩ | ⟨text, written, hread, hchanged, hwrite, -⟩
  · exact ⟨_, heq, fun outcome herror => nomatch herror⟩
  · refine ⟨_, heq, ?_⟩
    rintro outcome ⟨⟩
    have hspans : (silence text).spans = [] := by
      by_contra hne
      rw [(silence_changed_iff text).mpr hne] at hchanged
      cases hchanged
    rw [hspans]
  · exact ⟨_, heq, fun outcome herror => nomatch herror⟩
  · obtain ⟨inode, hrevises⟩ := exists_revises hread hchanged hwrite
    exact absurd hrevises (hnone inode text)

end Ends

/-- **One visit.** The disk is left with the file of the path revised. -/
theorem commentFile_disk (disk : FileSystem) (path : RawText) :
    (commentFile disk path).disk = disk.reviseAlong path := by
  by_cases hrevises : ∃ inode text, disk.Revises path inode text
  · obtain ⟨inode, text, file, hleads, hfile⟩ := hrevises
    rw [commentFile_of_revises ⟨file, hleads, hfile⟩, FileSystem.reviseAlong_of_leadsTo hleads]
  · simp only [not_exists] at hrevises
    obtain ⟨result, heq, -⟩ := commentFile_of_not_revises hrevises
    rw [heq, FileSystem.reviseAlong_eq_self hrevises]

end Hush
