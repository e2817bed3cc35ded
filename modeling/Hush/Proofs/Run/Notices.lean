import Hush.Proofs.Run.OneWrite
import Hush.Proofs.Run.Search
import Hush.Proofs.Run.Visits
import Hush.Proofs.Source.Report

/-!
# What a run tells

Who follows a run sees notices: a level, a message and some named values. The notices of a visit
come from the replacement of the file, from the revision of its text and from the run itself, and
yet they tell what the visit returned and what it left on the disk. So what is read off the notices
of a whole run agrees with its summary and with the disk.
-/

namespace Hush

/-- What is seen of an event. -/
structure Notice where
  level : Level
  message : String
  fields : List (String × String) := []
  deriving DecidableEq

def Event.notice (event : Event) : Notice := ⟨event.level, event.message, event.fields⟩

def Notice.startsWith (words : String) (notice : Notice) : Bool :=
  words.toList.isPrefixOf notice.message.toList

/-- How many of the notices start with these words. -/
def timesTold (words : String) (notices : List Notice) : Nat :=
  notices.countP (Notice.startsWith words)

/-- These notices tell of a visit to the path, and the visit did what they say. -/
inductive VisitTold (disk : FileSystem) (path : RawText) : List Notice → Prop
  /-- The file of the path was replaced by the revision of its text. -/
  | modified {inode : Nat} {file : File} {text : String}
      (leads : disk.LeadsTo path inode file)
      (decode_eq : file.content.decode = .ok text)
      (replaces : disk.Replaces (commentFile disk path).disk inode file (silence text).after)
      (value_eq : (commentFile disk path).value = .ok ⟨path, true, (silence text).spans⟩) :
      VisitTold disk path
        [{ level := .info, message := "Processing: " ++ path.display },
          { level := .debug
            message := "replaced file content"
            fields :=
              [("path", path.display),
                ("bytes", toString (Content.ofString (silence text).after).size)] },
          { level := .debug, message := (silence text).report (some path.display) },
          { level := .info, message := "  ✓ Modified" }]
  /-- There was nothing to change. -/
  | unchanged
      (disk_eq : (commentFile disk path).disk = disk)
      (value_eq : (commentFile disk path).value = .ok ⟨path, false, []⟩) :
      VisitTold disk path
        [{ level := .info, message := "Processing: " ++ path.display },
          { level := .info, message := "  - No changes" }]
  /-- The visit failed and left the disk alone. -/
  | failed {error : CommentError}
      (disk_eq : (commentFile disk path).disk = disk)
      (value_eq : (commentFile disk path).value = .error error) :
      VisitTold disk path
        [{ level := .info, message := "Processing: " ++ path.display },
          { level := .error
            message := "Error processing " ++ path.display ++ ": " ++ error.message },
          { level := .info, message := "  - No changes" }]

/-- A block of notices for each path tells of the visit to it, on the disk that the visits before it
left. -/
inductive VisitsTold : FileSystem → List RawText → List (List Notice) → FileSystem → Prop
  | nil {disk : FileSystem} : VisitsTold disk [] [] disk
  | cons {disk later : FileSystem} {path : RawText} {paths : List RawText} {block : List Notice}
      {blocks : List (List Notice)} (first : VisitTold disk path block)
      (rest : VisitsTold (commentFile disk path).disk paths blocks later) :
      VisitsTold disk (path :: paths) (block :: blocks) later

/-! ### Files that are written -/

/-- How often files have been replaced in place. -/
def FileSystem.writeCount (disk : FileSystem) : Nat := (disk.files.toList.map File.writes).sum

theorem sum_set_succ {counts : List Nat} {i n : Nat} (hcount : counts[i]? = some n) :
    (counts.set i (n + 1)).sum = counts.sum + 1 := by
  induction counts generalizing i with
  | nil => cases hcount
  | cons count counts ih =>
      cases i with
      | zero =>
          obtain rfl : count = n := Option.some.inj hcount
          rw [List.set_cons_zero, List.sum_cons, List.sum_cons]
          omega
      | succ i =>
          rw [List.set_cons_succ, List.sum_cons, List.sum_cons, ih hcount, Nat.add_assoc]

theorem FileSystem.Replaces.writeCount_eq {disk later : FileSystem} {inode : Nat} {file : File}
    {text : String} (hreplaces : disk.Replaces later inode file text)
    (hfile : disk.files[inode]? = some file) : later.writeCount = disk.writeCount + 1 := by
  have hwrites : (disk.files.toList.map File.writes)[inode]? = some file.writes := by
    rw [List.getElem?_map, Array.getElem?_toList, hfile]
    rfl
  have hlater : later.files.toList.map File.writes =
      (disk.files.toList.map File.writes).set inode (file.writes + 1) := by
    apply List.ext_getElem?
    intro other
    rw [List.getElem?_set', List.getElem?_map, List.getElem?_map, Array.getElem?_toList,
      Array.getElem?_toList]
    split <;> rename_i hother
    · rw [← hother, hreplaces.file_eq, hfile]
      rfl
    · rw [hreplaces.others_eq other (Ne.symm hother)]
  rw [writeCount, hlater, sum_set_succ hwrites, writeCount]

section Visit

variable {disk later : FileSystem} {path : RawText} {paths : List RawText} {block : List Notice}
  {blocks : List (List Notice)}

/-! ### The notices of a visit -/

theorem visitTold_visit (disk : FileSystem) (path : RawText) :
    VisitTold disk path ((visit disk path).events.map Event.notice) := by
  by_cases hrevises : ∃ inode text, disk.Revises path inode text
  · obtain ⟨inode, text, hrevises⟩ := hrevises
    obtain ⟨file, hleads, hfile, hreplaces⟩ := hrevises.replaces
    have hrun := commentFile_of_revises hrevises
    rw [visit, hrun]
    exact .modified hleads hfile.decode_eq hreplaces (by rw [hrun])
  · simp only [not_exists] at hrevises
    obtain ⟨result, hrun, hresult⟩ := commentFile_of_not_revises hrevises
    rw [visit, hrun]
    cases result with
    | error error => exact .failed (by rw [hrun]) (by rw [hrun])
    | ok outcome =>
        obtain rfl := hresult outcome rfl
        exact .unchanged (by rw [hrun]) (by rw [hrun])

theorem exists_visitsTold_visitAll (disk : FileSystem) (paths : List RawText) :
    ∃ blocks, VisitsTold disk paths blocks (visitAll disk paths).disk ∧
      (visitAll disk paths).events.map Event.notice = blocks.flatten := by
  induction paths generalizing disk with
  | nil => exact ⟨[], .nil, rfl⟩
  | cons path paths ih =>
      obtain ⟨blocks, htold, hevents⟩ := ih (visit disk path).disk
      refine ⟨_ :: blocks, .cons (visitTold_visit disk path) htold, ?_⟩
      rw [visitAll_cons, List.map_append, hevents, List.flatten_cons]

/-! ### What is counted -/

/-- The notices say as much of some visits as these returned and wrote. -/
structure Tally (disk : FileSystem) (visits : List Visit) (notices : List Notice)
    (later : FileSystem) : Prop where
  processing : timesTold "Processing: " notices = visits.length
  modified : timesTold "  ✓ Modified" notices = (visits.filterMap Visit.modified?).length
  failed : timesTold "Error processing " notices = (visits.filterMap Visit.error?).length
  written : later.writeCount = disk.writeCount + timesTold "replaced file content" notices

theorem Tally.append {middle : FileSystem} {visits others : List Visit}
    {notices more : List Notice} (hfirst : Tally disk visits notices middle)
    (hrest : Tally middle others more later) :
    Tally disk (visits ++ others) (notices ++ more) later := by
  have happend : ∀ words,
      timesTold words (notices ++ more) = timesTold words notices + timesTold words more :=
    fun _ => List.countP_append
  constructor
  · rw [happend, hfirst.processing, hrest.processing, List.length_append]
  · rw [happend, hfirst.modified, hrest.modified, List.filterMap_append, List.length_append]
  · rw [happend, hfirst.failed, hrest.failed, List.filterMap_append, List.length_append]
  · rw [happend, hrest.written, hfirst.written, Nat.add_assoc]

theorem VisitTold.tally (htold : VisitTold disk path block) :
    Tally disk [(visit disk path).value] block (commentFile disk path).disk := by
  cases htold with
  | @modified inode file text leads decode_eq replaces value_eq =>
      -- The report may hold any text, but no other message starts like it.
      obtain ⟨rest, hreport⟩ := (silence text).exists_toList_report path.display
      constructor
      · simp [timesTold, Notice.startsWith, hreport]
      · simp [timesTold, Notice.startsWith, hreport, visit, Visit.modified?, value_eq]
      · simp [timesTold, Notice.startsWith, hreport, visit, Visit.error?, value_eq,
          List.filterMap_cons]
      · rw [replaces.writeCount_eq leads.2]
        simp [timesTold, Notice.startsWith, hreport]
  | unchanged disk_eq value_eq =>
      constructor
      · simp [timesTold, Notice.startsWith]
      · simp [timesTold, Notice.startsWith, visit, Visit.modified?, value_eq]
      · simp [timesTold, Notice.startsWith, visit, Visit.error?, value_eq, List.filterMap_cons]
      · simp [timesTold, Notice.startsWith, disk_eq]
  | failed disk_eq value_eq =>
      constructor
      · simp [timesTold, Notice.startsWith]
      · simp [timesTold, Notice.startsWith, visit, Visit.modified?, value_eq, List.filterMap_cons]
      · simp [timesTold, Notice.startsWith, visit, Visit.error?, value_eq]
      · simp [timesTold, Notice.startsWith, disk_eq]

theorem VisitsTold.tally (htold : VisitsTold disk paths blocks later) :
    Tally disk (visitAll disk paths).value blocks.flatten later := by
  induction htold with
  | nil => exact ⟨rfl, rfl, rfl, rfl⟩
  | cons first rest ih => exact first.tally.append ih

end Visit

/-- **The notices of a run.** Whatever the order of the discovered paths, a run tells of one visit
after the other, each in a block of its own: that the file was replaced, with its size and the
report, that there was nothing to change, or why the visit failed. The search itself tells nothing,
as nothing that it selects is compiled output that it would pass over. So what is read off the
notices is what the summary says and what was written. -/
theorem processInOrder_notices (disk : FileSystem) (config : Config) {root : Nat}
    {order : List RawText} (hroot : disk.IsRoot config.root root)
    (horder : order.Perm (disk.discover config).value) :
    let run := processInOrder disk config order
    let notices := run.events.map Event.notice
    processDirectory disk config = processInOrder disk config (disk.discover config).value ∧
      (∃ blocks, VisitsTold disk order blocks run.disk ∧ notices = blocks.flatten) ∧
      (∀ extension ∈ config.extensions, ∀ name : Name, extension.selects name = true →
        name.isCompiled = false) ∧
      run.value.scanned = (disk.discover config).value.length ∧
      timesTold "Processing: " notices = run.value.scanned ∧
      timesTold "  ✓ Modified" notices = run.value.modifiedCount ∧
      run.disk.writeCount = disk.writeCount + timesTold "replaced file content" notices ∧
      timesTold "Error processing " notices = run.value.errors.length := by
  intro run notices
  obtain ⟨blocks, htold, hblocks⟩ := exists_visitsTold_visitAll disk order
  have hquiet : (disk.discover config).events = [] := congrArg Run.events hroot.discover_eq
  have hnotices : notices = blocks.flatten := by
    rw [← hblocks]
    change ((disk.discover config).events ++ _).map Event.notice = _
    rw [hquiet, List.nil_append]
  have htally : Tally disk (visitAll disk order).value notices run.disk := hnotices ▸ htold.tally
  have hscanned : run.value.scanned = (visitAll disk order).value.length := rfl
  refine ⟨processDirectory_eq_processInOrder disk config, ⟨blocks, htold, hnotices⟩,
    fun extension _ name => Extension.isCompiled_eq_false, ?_, htally.processing, ?_,
    htally.written, htally.failed⟩
  · rw [hscanned, length_visitAll, horder.length_eq]
  · rw [htally.modified]
    exact (List.length_map _).symm

/-- Three visits, each with another end. -/
theorem processInOrder_notices_linkedDisk :
    let order : List RawText := ["s/a.ts", "s/c.ts", "s/b.ts"]
    let run := processInOrder linkedDisk ⟨"s", [.ts]⟩ order
    let notices := run.events.map Event.notice
    linkedDisk.IsRoot "s" 2 ∧ order.Perm (linkedDisk.discover ⟨"s", [.ts]⟩).value ∧
      timesTold "Processing: " notices = 3 ∧
      timesTold "  ✓ Modified" notices = 1 ∧
      timesTold "replaced file content" notices = 1 ∧
      timesTold "Error processing " notices = 1 := by
  intro order run notices
  have hroot : linkedDisk.IsRoot "s" 2 := ⟨_, by cbv⟩
  have horder : order.Perm (linkedDisk.discover ⟨"s", [.ts]⟩).value := by
    have hfound : (linkedDisk.discover ⟨"s", [.ts]⟩).value =
        (["s/c.ts", "s/b.ts", "s/a.ts"] : List RawText) := by cbv
    rw [hfound]
    decide
  obtain ⟨-, -, -, -, hprocessing, hmodified, hwritten, hfailed⟩ :=
    processInOrder_notices linkedDisk ⟨"s", [.ts]⟩ hroot horder
  have hcounts : run.value.scanned = 3 ∧ run.value.modifiedCount = 1 ∧
      run.disk.writeCount = linkedDisk.writeCount + 1 ∧ run.value.errors.length = 1 := by
    decide +kernel
  obtain ⟨hscanned, hchanged, hwrites, herrors⟩ := hcounts
  refine ⟨hroot, horder, hprocessing.trans hscanned, hmodified.trans hchanged, ?_,
    hfailed.trans herrors⟩
  exact Nat.add_left_cancel (hwritten.symm.trans hwrites)

end Hush
