import Hush.Proofs.FileSystem.Files

/-!
# When a file is read and when it is replaced

A path is read exactly if it leads to a file that may be read, is not too large, and holds text. It
is written exactly if it leads to a file that may be written, and then that file alone changes.
-/

namespace Hush.FileSystem

variable {disk : FileSystem} {path : RawText}

/-- A path leads to a file with this number and content. -/
def LeadsTo (disk : FileSystem) (path : RawText) (inode : Nat) (file : File) : Prop :=
  disk.resolve .owner path = some (.file inode) ∧ disk.files[inode]? = some file

theorem lookup?_eq_file_iff {inode : Nat} {file : File} :
    disk.lookup? .owner path = some (.file inode file) ↔ disk.LeadsTo path inode file := by
  constructor
  · intro hlookup
    cases hresolve : disk.resolve .owner path with
    | none => simp [lookup?, hresolve] at hlookup
    | some place =>
        cases place with
        | file other =>
            rw [lookup?_eq_of_file hresolve] at hlookup
            obtain ⟨found, hfound, heq⟩ := Option.map_eq_some_iff.mp hlookup
            obtain ⟨rfl, rfl⟩ := Node.file.inj heq
            exact ⟨hresolve, hfound⟩
        | directory number =>
            refine absurd hlookup (lookup?_ne_file (fun other hfile => ?_) inode file)
            rw [hresolve] at hfile
            cases hfile
  · rintro ⟨hresolve, hfile⟩
    rw [lookup?_eq_of_file hresolve, hfile]
    rfl

theorem lookup?_eq_directory_iff {user : User} {number : Nat} {directory : Directory} :
    disk.lookup? user path = some (.directory number directory) ↔
      disk.resolve user path = some (.directory number) ∧
        disk.directory? number = some directory := by
  unfold lookup?
  cases disk.resolve user path with
  | none => simp
  | some place =>
      cases place with
      | file inode => simp [node?]
      | directory other =>
          simp only [node?, Option.bind_some, Option.map_eq_some_iff, Node.directory.injEq,
            Option.some.injEq, Place.directory.injEq]
          constructor
          · rintro ⟨found, hfound, rfl, rfl⟩
            exact ⟨rfl, hfound⟩
          · rintro ⟨rfl, hfound⟩
            exact ⟨directory, hfound, rfl, rfl⟩

theorem LeadsTo.unique {inode other : Nat} {file found : File}
    (hleads : disk.LeadsTo path inode file) (hother : disk.LeadsTo path other found) :
    inode = other ∧ file = found := by
  have hinode := Option.some.inj (hleads.1.symm.trans hother.1)
  cases hinode
  exact ⟨rfl, Option.some.inj (hleads.2.symm.trans hother.2)⟩

theorem LeadsTo.readText_eq_ite {inode : Nat} {file : File} (hleads : disk.LeadsTo path inode file)
    (limit : Nat) :
    disk.readText path limit =
      if limit < file.content.size then .error (.tooLarge file.content.size limit)
      else if file.mode.isReadable then file.content.decode.mapError .ofDecode
      else .error (.refused .permissionDenied) := by
  rw [readText, lookup?_eq_file_iff.mpr hleads]
  rfl

theorem LeadsTo.of_readText {limit : Nat} {text : String}
    (hread : disk.readText path limit = .ok text) : ∃ inode file, disk.LeadsTo path inode file := by
  unfold readText at hread
  split at hread
  · cases hread
  · rename_i node hlookup
    cases node with
    | file inode file => exact ⟨inode, file, lookup?_eq_file_iff.mp hlookup⟩
    | directory number directory =>
        dsimp only at hread
        split at hread
        · cases hread
        · split at hread <;> cases hread

theorem readText_eq_ok_iff {limit : Nat} {text : String} :
    disk.readText path limit = .ok text ↔
      ∃ inode file, disk.LeadsTo path inode file ∧ file.content.size ≤ limit ∧
        file.mode.isReadable = true ∧ file.content.decode = .ok text := by
  constructor
  · intro hread
    obtain ⟨inode, file, hleads⟩ := LeadsTo.of_readText hread
    rw [hleads.readText_eq_ite] at hread
    split at hread <;> rename_i hsize
    · cases hread
    split at hread <;> rename_i hmode
    · refine ⟨inode, file, hleads, by omega, hmode, ?_⟩
      cases hdecode : file.content.decode with
      | ok found => simpa [hdecode, Except.mapError] using hread
      | error error => simp [hdecode, Except.mapError] at hread
    · cases hread
  · rintro ⟨inode, file, hleads, hsize, hmode, hdecode⟩
    rw [hleads.readText_eq_ite, if_neg (by omega), if_pos hmode, hdecode]
    rfl

theorem readText_eq_tooLarge {inode limit : Nat} {file : File}
    (hleads : disk.LeadsTo path inode file) (hsize : limit < file.content.size) :
    disk.readText path limit = .error (.tooLarge file.content.size limit) := by
  rw [hleads.readText_eq_ite, if_pos hsize]

theorem setLength_utf8ByteSize (text : String) (old : Content) :
    (Draft.mk text.toUTF8 old).setLength text.utf8ByteSize = .ofString text := by
  rw [Draft.setLength_eq]
  exact congrArg Content.bytes (Draft.resize_size_written ⟨text.toUTF8, old⟩)

theorem writeText_eq_ok_iff {text : String} {written : FileSystem} :
    disk.writeText path text = .ok written ↔
      ∃ inode file, disk.LeadsTo path inode file ∧ file.mode.isWritable = true ∧
        written = disk.overwrite inode (.ofString text) := by
  constructor
  · intro hwrite
    unfold writeText at hwrite
    split at hwrite
    · cases hwrite
    · cases hwrite
    · rename_i inode file hlookup
      simp only [setLength_utf8ByteSize] at hwrite
      split at hwrite <;> rename_i hmode
      · exact ⟨inode, file, lookup?_eq_file_iff.mp hlookup, hmode, (Except.ok.inj hwrite).symm⟩
      · cases hwrite
  · rintro ⟨inode, file, hleads, hmode, rfl⟩
    rw [writeText, lookup?_eq_file_iff.mpr hleads]
    simp only [setLength_utf8ByteSize]
    rw [if_pos hmode]

theorem overwrite_eq_withFiles (disk : FileSystem) (inode : Nat) (content : Content) :
    disk.overwrite inode content =
      disk.withFiles (disk.files.modify inode fun file =>
        { file with content := content, writes := file.writes + 1 }) := rfl

end Hush.FileSystem
