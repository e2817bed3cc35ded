import Hush.Proofs.Run.File
import Hush.Proofs.Run.Replacement

/-!
# One write or none

A visit checks, reads, revises and opens for writing, and any of these may fail. Nothing is written
before all of them are done, and what is written goes down at once. So the disk after a visit is the
disk before it, the counts of replacements included, or one file of it was replaced once.
-/

namespace Hush

variable {disk : FileSystem} {path : RawText}

theorem FileSystem.Revises.replaces {inode : Nat} {text : String}
    (hrevises : disk.Revises path inode text) :
    ∃ file, disk.LeadsTo path inode file ∧ file.Revises text ∧
      disk.Replaces (commentFile disk path).disk inode file (silence text).after := by
  obtain ⟨file, hleads, hfile⟩ := hrevises
  refine ⟨file, hleads, hfile, ?_⟩
  rw [commentFile_of_revises ⟨file, hleads, hfile⟩]
  change disk.Replaces (disk.reviseAt inode) inode file (silence text).after
  rw [reviseAt_eq_overwrite hleads.2 hfile]
  exact replaces_overwrite hleads.2 _

theorem commentFile_error_path {error : CommentError}
    (hvalue : (commentFile disk path).value = .error error) : error.path = path := by
  rcases commentFile_cases disk path with ⟨cause, -, heq⟩ | ⟨text, -, -, heq⟩ |
      ⟨text, cause, -, -, -, heq⟩ | ⟨text, written, -, -, -, heq⟩
  · rw [heq] at hvalue
    rw [← Except.error.inj hvalue]
    rfl
  · rw [heq] at hvalue
    cases hvalue
  · rw [heq] at hvalue
    rw [← Except.error.inj hvalue]
    rfl
  · rw [heq] at hvalue
    cases hvalue

theorem processFile_disk (disk : FileSystem) (path : RawText) :
    (processFile disk path).disk = (commentFile disk path).disk := by
  unfold processFile
  dsimp only
  split <;> rfl

theorem processFile_eq_true_iff :
    (processFile disk path).value = true ↔
      ∃ outcome, (commentFile disk path).value = .ok outcome ∧ outcome.changed = true := by
  unfold processFile
  dsimp only
  split <;> rename_i hvalue
  · simp [hvalue]
  · simp [hvalue]

/-- **One write or none.** A visit fails, finds nothing to change, or replaces the file that its
path leads to, once, by the revision of the text in it. In the first two cases nothing is written
and the disk is what it was. It replaces a file exactly if that can be read and written and its text
changes, and this is also when a visit that only reports says that the file was changed. -/
theorem commentFile_writes_once_or_never (disk : FileSystem) (path : RawText) :
    let run := commentFile disk path
    ((∃ error, run.value = .error error ∧ error.path = path ∧ run.disk = disk ∧ run.events = []) ∨
      (run.value = .ok ⟨path, false, []⟩ ∧ run.disk = disk ∧ run.events = []) ∨
      ∃ inode file text, disk.LeadsTo path inode file ∧ file.content.decode = .ok text ∧
        (silence text).spans ≠ [] ∧ run.value = .ok ⟨path, true, (silence text).spans⟩ ∧
        disk.Replaces run.disk inode file (silence text).after ∧
        run.events =
          [.replaced path (silence text).after.utf8ByteSize, .revised path (silence text)]) ∧
      ((∃ outcome, run.value = .ok outcome ∧ outcome.changed = true) ↔
        ∃ inode text, disk.Revises path inode text) ∧
      ((processFile disk path).value = true ↔
        ∃ outcome, run.value = .ok outcome ∧ outcome.changed = true) ∧
      (processFile disk path).disk = run.disk := by
  intro run
  by_cases hrevises : ∃ inode text, disk.Revises path inode text
  · obtain ⟨inode, text, hrevises⟩ := hrevises
    obtain ⟨file, hleads, hfile, hreplaces⟩ := hrevises.replaces
    have hrun : run = _ := commentFile_of_revises hrevises
    have hvalue : run.value = .ok ⟨path, true, (silence text).spans⟩ := by rw [hrun]
    refine ⟨Or.inr (Or.inr ?_), ?_, processFile_eq_true_iff, processFile_disk disk path⟩
    · refine ⟨inode, file, text, hleads, hfile.decode_eq, ?_, hvalue, hreplaces, by rw [hrun]⟩
      exact (silence_changed_iff text).mp hfile.changed
    · exact iff_of_true ⟨_, hvalue, rfl⟩ ⟨inode, text, hrevises⟩
  · simp only [not_exists] at hrevises
    obtain ⟨result, heq, hresult⟩ := commentFile_of_not_revises hrevises
    have hrun : run = { value := result, disk } := heq
    refine ⟨?_, ?_, processFile_eq_true_iff, processFile_disk disk path⟩
    · cases result with
      | error error =>
          refine Or.inl ⟨error, by rw [hrun], ?_, by rw [hrun], by rw [hrun]⟩
          exact commentFile_error_path (congrArg Run.value heq)
      | ok outcome =>
          refine Or.inr (Or.inl ⟨?_, by rw [hrun], by rw [hrun]⟩)
          rw [hrun, hresult outcome rfl]
    · refine iff_of_false ?_ (by simpa using hrevises)
      rintro ⟨outcome, hok, hchanged⟩
      rw [hrun] at hok
      rw [hresult outcome hok] at hchanged
      cases hchanged

end Hush
