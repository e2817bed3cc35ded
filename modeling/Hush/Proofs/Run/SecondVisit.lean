import Hush.Proofs.Run.File
import Hush.Proofs.Source.Readable

/-!
# A second visit to the same file

A file that was commented once is settled, so a second visit has nothing to do. It can still fail,
and in one way only: the file outgrew the size above which it is not read.
-/

namespace Hush

variable {disk : FileSystem} {path : RawText} {inode : Nat} {file : File} {text : String}

theorem commentFile_of_tooLarge (hleads : disk.LeadsTo path inode file)
    (hsize : maxFileSize < file.content.size) :
    commentFile disk path =
      { value := .error (.read path (.tooLarge file.content.size maxFileSize)), disk } := by
  rw [commentFile, FileSystem.readText_eq_tooLarge hleads hsize]

theorem commentFile_of_settled (hread : disk.readText path maxFileSize = .ok text)
    (hsettled : Settled text) :
    commentFile disk path = { value := .ok ⟨path, false, []⟩, disk } := by
  simp [commentFile, hread, hsettled.silence_eq, Revision.changed]

theorem settled_of_changed_eq_false (hchanged : (silence text).changed = false) : Settled text := by
  have hsame : (silence text).before = (silence text).after := by
    simpa [Revision.changed] using hchanged
  have hsettled := settled_silence_after text
  rwa [← hsame] at hsettled

theorem FileSystem.LeadsTo.reviseAt (hleads : disk.LeadsTo path inode file) :
    (disk.reviseAt inode).LeadsTo path inode file.revise := by
  refine ⟨?_, ?_⟩
  · rw [FileSystem.reviseAt, FileSystem.resolve_withFiles, hleads.1]
  · change (disk.files.modify inode File.revise)[inode]? = some file.revise
    rw [Array.getElem?_modify, if_pos rfl, hleads.2]
    rfl

theorem File.Revises.decode_revise (hrevises : file.Revises text) :
    file.revise.content.decode = .ok (silence text).after := by
  obtain ⟨hbinary, hbytes⟩ := Content.decode_eq_ok_iff.mp hrevises.decode_eq
  rw [hbytes] at hbinary
  rw [File.revise_of_revises hrevises, Content.decode_eq_ok_iff]
  exact ⟨looksBinary_silence_after hbinary, rfl⟩

/-- **A second visit.** After a visit that did not fail, another one leaves the disk alone. It finds
no call, unless the first visit made the file too large to be read. -/
theorem commentFile_again {outcome : FileOutcome}
    (hok : (commentFile disk path).value = .ok outcome) :
    ∃ inode file, (commentFile disk path).disk.LeadsTo path inode file ∧
      (maxFileSize < file.content.size → outcome.changed = true) ∧
      commentFile (commentFile disk path).disk path =
        { value :=
            if file.content.size ≤ maxFileSize then .ok ⟨path, false, []⟩
            else .error (.read path (.tooLarge file.content.size maxFileSize))
          disk := (commentFile disk path).disk } := by
  rcases commentFile_cases disk path with ⟨cause, -, heq⟩ | ⟨text, hread, hchanged, heq⟩ |
      ⟨text, cause, -, -, -, heq⟩ | ⟨text, written, hread, hchanged, hwrite, -⟩
  · rw [heq] at hok
    cases hok
  · obtain ⟨inode, file, hleads, hsize, -, -⟩ := FileSystem.readText_eq_ok_iff.mp hread
    rw [heq]
    refine ⟨inode, file, hleads, fun hlarge => absurd hsize (by omega), ?_⟩
    rw [if_pos hsize, commentFile_of_settled hread (settled_of_changed_eq_false hchanged)]
  · rw [heq] at hok
    cases hok
  · obtain ⟨inode, file, hleads, hfile⟩ := exists_revises hread hchanged hwrite
    have hagain := hleads.reviseAt
    rw [commentFile_of_revises ⟨file, hleads, hfile⟩] at hok ⊢
    refine ⟨inode, file.revise, hagain, ?_, ?_⟩
    · rw [← Except.ok.inj hok]
      exact fun _ => rfl
    -- The new text is read back, and it is settled. Only its size can be in the way.
    by_cases hsize : file.revise.content.size ≤ maxFileSize
    · have hreadable : file.revise.mode.isReadable = true := by
        rw [File.mode_revise, hfile.readable]
      have hread : (disk.reviseAt inode).readText path maxFileSize = .ok (silence text).after :=
        FileSystem.readText_eq_ok_iff.mpr
          ⟨inode, file.revise, hagain, hsize, hreadable, hfile.decode_revise⟩
      rw [if_pos hsize, commentFile_of_settled hread (settled_silence_after text)]
    · rw [if_neg hsize, commentFile_of_tooLarge hagain (by omega)]

section Filled

/-- A line, three empty ones, and filler that takes the text to a wanted size. -/
def filledText (first : Line) (count : Nat) : String :=
  ofLines [first, [], [], [], List.replicate count 'a']

theorem utf8ByteSize_filledText (first : Line) (count : Nat) :
    (filledText first count).utf8ByteSize = (String.ofList first).utf8ByteSize + count + 4 := by
  have hchar : 'a'.utf8Size = 1 := by decide
  have hfiller : (String.ofList (List.replicate count 'a')).utf8ByteSize = count := by
    rw [← String.size_toByteArray, String.toByteArray_ofList, List.utf8Encode,
      List.size_toByteArray]
    simp [hchar]
  have hempty : (String.ofList []).utf8ByteSize = 0 := by decide
  have hsize := @utf8ByteSize_ofLines [first, [], [], [], List.replicate count 'a']
    (List.cons_ne_nil _ _)
  simp only [List.map_cons, List.map_nil, List.sum_cons, List.sum_nil, hfiller, hempty] at hsize
  rw [filledText]
  omega

variable (count : Nat)

theorem linesOf_filledText :
    linesOf (filledText "console.log(1)".toList count) =
      ["console.log(1)".toList, [], [], [], List.replicate count 'a'] := by
  apply linesOf_ofLines (List.cons_ne_nil _ _)
  simp only [List.forall_mem_cons, List.not_mem_nil, not_false_eq_true, List.mem_replicate,
    true_and]
  exact ⟨by decide, by simp⟩

theorem looksBinary_filledText :
    Text.looksBinary (filledText "console.log(1)".toList count).toUTF8 = false := by
  have hchars : (filledText "console.log(1)".toList count).toList =
      "console.log(1)\n\n\n\n".toList ++ List.replicate count 'a' := by
    simp [filledText, ofLines, List.intercalate_cons_cons]
  have hfiller : Inserted (· = 'a') [] (List.replicate count 'a') :=
    Inserted.of_forall fun c hmem => List.eq_of_mem_replicate hmem
  have hinserted := (Inserted.refl (· = 'a') "console.log(1)\n\n\n\n".toList).append hfiller
  rw [List.append_nil, ← hchars] at hinserted
  refine Text.looksBinary_of_inserted ?_ hinserted (by decide +kernel)
  rintro c rfl
  decide

theorem isLive_filler : Line.isLive (List.replicate count 'a') = false := by
  have hcall : ∀ previous, Line.hasCallAfter previous (List.replicate count 'a') = false := by
    induction count with
    | zero => exact fun previous => rfl
    | succ count ih =>
        intro previous
        have hstart : Line.startsCall ('a' :: List.replicate count 'a') = false := rfl
        rw [List.replicate_succ, Line.hasCallAfter, hstart, ih]
        rfl
  simp [Line.isLive, Line.hasCall, hcall]

theorem silence_filledText :
    silence (filledText "console.log(1)".toList count) =
      { before := filledText "console.log(1)".toList count
        after := filledText "// console.log(1)".toList count
        spans := [.single 1] } := by
  have hhead : Scan.ofLines ["console.log(1)".toList, [], [], []] =
      { count := 4
        lines := [[], [], [], "// console.log(1)".toList]
        finished := [.single 1] } := rfl
  have hscan : Scan.ofLines (linesOf (filledText "console.log(1)".toList count)) =
      { count := 5
        lines := [List.replicate count 'a', [], [], [], "// console.log(1)".toList]
        finished := [.single 1] } := by
    rw [linesOf_filledText]
    change (Scan.ofLines ["console.log(1)".toList, [], [], []]).next (List.replicate count 'a') = _
    rw [hhead]
    simp [Scan.next, Scan.callAt, isLive_filler]
  rw [silence, hscan]
  rfl

end Filled

/-- One file in the root directory, of a wanted size. -/
def filledDisk (count : Nat) : FileSystem where
  tree := Tree.root.insert 0 ⟨"a.ts", by decide⟩ (.file 0)
  files := #[{ content := .ofString (filledText "console.log(1)".toList count) }]

theorem resolve_filledDisk (count : Nat) :
    (filledDisk count).resolve .owner "a.ts" = some (.file 0) := by
  let bare : FileSystem := { tree := Tree.root.insert 0 ⟨"a.ts", by decide⟩ (.file 0) }
  have hbare : bare.resolve .owner "a.ts" = some (.file 0) := by decide +kernel
  rw [← hbare]
  exact bare.resolve_withFiles (filledDisk count).files .owner "a.ts"

/-- The first visit to a file that fits and that three more bytes may take past the limit. -/
theorem commentFile_filledDisk {count : Nat} (hfits : count + 18 ≤ maxFileSize) :
    (commentFile (filledDisk count) "a.ts").value = .ok ⟨"a.ts", true, [.single 1]⟩ ∧
      ∃ file, (commentFile (filledDisk count) "a.ts").disk.LeadsTo "a.ts" 0 file ∧
        file.content.size = count + 21 := by
  have hcall : (String.ofList "console.log(1)".toList).utf8ByteSize = 14 := by decide
  have hcomment : (String.ofList "// console.log(1)".toList).utf8ByteSize = 17 := by decide
  have hmode : Mode.ofFile.isReadable = true ∧ Mode.ofFile.isWritable = true := by decide
  let file : File := { content := .ofString (filledText "console.log(1)".toList count) }
  have hleads : (filledDisk count).LeadsTo "a.ts" 0 file := ⟨resolve_filledDisk count, rfl⟩
  have hrevises : file.Revises (filledText "console.log(1)".toList count) := by
    refine ⟨hmode.1, hmode.2, ?_, ?_, ?_⟩
    · rw [Content.size_ofString, utf8ByteSize_filledText, hcall]
      omega
    · rw [Content.decode_eq_ok_iff]
      exact ⟨looksBinary_filledText count, rfl⟩
    · rw [silence_changed_iff, silence_filledText]
      exact List.cons_ne_nil _ _
  rw [commentFile_of_revises ⟨file, hleads, hrevises⟩]
  refine ⟨?_, file.revise, hleads.reviseAt, ?_⟩
  · rw [silence_filledText]
  · rw [File.revise_of_revises hrevises, Content.size_ofString, silence_filledText,
      utf8ByteSize_filledText, hcomment]
    omega

/-- A file that a visit takes to the limit can be visited again. -/
theorem commentFile_again_filledDisk :
    (commentFile (filledDisk 16777195) "a.ts").value = .ok ⟨"a.ts", true, [.single 1]⟩ ∧
      commentFile (commentFile (filledDisk 16777195) "a.ts").disk "a.ts" =
        { value := .ok ⟨"a.ts", false, []⟩
          disk := (commentFile (filledDisk 16777195) "a.ts").disk } := by
  have hfits : 16777195 + 18 ≤ maxFileSize := by decide
  obtain ⟨hok, found, hfound, hsize⟩ := commentFile_filledDisk hfits
  obtain ⟨inode, file, hleads, -, hagain⟩ := commentFile_again hok
  obtain ⟨-, rfl⟩ := hleads.unique hfound
  refine ⟨hok, ?_⟩
  rw [hagain, hsize]
  rfl

/-- A file at the limit is taken past it by its first visit, and the second one fails. -/
theorem commentFile_filledDisk_tooLarge :
    (commentFile (filledDisk 16777198) "a.ts").value = .ok ⟨"a.ts", true, [.single 1]⟩ ∧
      (commentFile (commentFile (filledDisk 16777198) "a.ts").disk "a.ts").value =
        .error (.read "a.ts" (.tooLarge 16777219 16777216)) := by
  have hfits : 16777198 + 18 ≤ maxFileSize := by decide
  obtain ⟨hok, file, hleads, hsize⟩ := commentFile_filledDisk hfits
  have hlarge : maxFileSize < file.content.size := by
    rw [hsize]
    decide
  refine ⟨hok, ?_⟩
  rw [commentFile_of_tooLarge hleads hlarge, hsize]
  rfl

end Hush
