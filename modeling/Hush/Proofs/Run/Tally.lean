import Hush.Proofs.Run.Rerun

/-!
# What a run counts

The summary of a run agrees with the disk. A file may be visited under many names, but only the
first visit that can revise it finds a text to revise: to every later one it is settled. So the
visits that change something go with the files that change, one to one.
-/

namespace Hush

namespace FileSystem

def bytes? (disk : FileSystem) (inode : Nat) : Option ByteArray :=
  disk.files[inode]?.map fun file => file.content.toBytes

def text? (disk : FileSystem) (inode : Nat) : Option String :=
  disk.files[inode]?.bind fun file => file.content.decode.toOption

/-- The number of calls that a scan of the file finds. -/
def spanCount (disk : FileSystem) (inode : Nat) : Nat :=
  (disk.text? inode).elim 0 fun text => (silence text).spans.length

/-- The numbers of the files whose bytes are others later on. -/
def changedFiles (disk later : FileSystem) : List Nat :=
  (List.range (max disk.files.size later.files.size)).filter fun inode =>
    disk.bytes? inode ≠ later.bytes? inode

/-- A visit to one of the paths would change the text of this file. -/
def RevisesAlong (disk : FileSystem) (paths : List RawText) (inode : Nat) : Prop :=
  ∃ path ∈ paths, ∃ text, disk.Revises path inode text

end FileSystem

/-! ### Files that change -/

theorem File.Revises.toBytes_revise_ne {file : File} {text : String}
    (hrevises : file.Revises text) : file.revise.content.toBytes ≠ file.content.toBytes := by
  have hchanged : text ≠ (silence text).after := by
    simpa [Revision.changed, silence] using hrevises.changed
  rw [(Content.decode_eq_ok_iff.mp hrevises.decode_eq).2, File.revise_of_revises hrevises]
  exact fun hbytes => hchanged (String.toByteArray_inj.mp hbytes.symm)

namespace FileSystem

variable {disk later : FileSystem} {path : RawText} {text : String} {paths : List RawText}
  {inode other : Nat}

theorem nodup_changedFiles : (disk.changedFiles later).Nodup := List.nodup_range.filter _

theorem mem_changedFiles_iff :
    inode ∈ disk.changedFiles later ↔ disk.bytes? inode ≠ later.bytes? inode := by
  rw [changedFiles, List.mem_filter, List.mem_range, decide_eq_true_iff, and_iff_right_iff_imp]
  intro hne
  by_contra hbeyond
  have hold : disk.files[inode]? = none := Array.getElem?_eq_none (by omega)
  have hnew : later.files[inode]? = none := Array.getElem?_eq_none (by omega)
  apply hne
  rw [bytes?, bytes?, hold, hnew]

theorem getElem?_files_reviseAll_of_not (hnone : ¬disk.RevisesAlong paths inode) :
    (disk.reviseAll paths).files[inode]? = disk.files[inode]? := by
  rw [getElem?_files_reviseAll]
  cases hfile : disk.files[inode]? with
  | none => rfl
  | some file =>
      refine congrArg some ?_
      split <;> rename_i hreached
      · obtain ⟨path, hpath, hresolve⟩ := hreached
        apply File.revise_eq_self
        exact fun text hrevises =>
          hnone ⟨path, hpath, text, file, ⟨hresolve, hfile⟩, hrevises⟩
      · rfl

theorem mem_changedFiles_reviseAll_iff :
    inode ∈ disk.changedFiles (disk.reviseAll paths) ↔ disk.RevisesAlong paths inode := by
  rw [mem_changedFiles_iff, bytes?, bytes?]
  constructor
  · intro hne
    by_contra hnone
    rw [getElem?_files_reviseAll_of_not hnone] at hne
    exact hne rfl
  · rintro ⟨path, hpath, text, file, ⟨hresolve, hfile⟩, hrevises⟩
    rw [getElem?_files_reviseAll, hfile, Option.map_some, Option.map_some, Option.map_some,
      if_pos ⟨path, hpath, hresolve⟩]
    exact fun hsame => hrevises.toBytes_revise_ne (Option.some.inj hsame).symm

theorem Revises.text?_eq (hrevises : disk.Revises path inode text) :
    disk.text? inode = some text := by
  obtain ⟨file, hleads, hfile⟩ := hrevises
  rw [text?, hleads.2, Option.bind_some, hfile.decode_eq]
  rfl

theorem Revises.unique {text' : String} (hrevises : disk.Revises path inode text)
    (hother : disk.Revises path other text') : inode = other := by
  obtain ⟨file, hleads, -⟩ := hrevises
  obtain ⟨found, hfound, -⟩ := hother
  exact (hleads.unique hfound).1

theorem revises_reviseAt_iff :
    (disk.reviseAt inode).Revises path other text ↔
      other ≠ inode ∧ disk.Revises path other text := by
  have hfiles : (disk.reviseAt inode).files[other]? =
      if inode = other then disk.files[other]?.map File.revise else disk.files[other]? :=
    Array.getElem?_modify
  have hresolve : (disk.reviseAt inode).resolve .owner path = disk.resolve .owner path :=
    disk.resolve_withFiles _ .owner path
  simp only [Revises, LeadsTo, hresolve, hfiles]
  -- The revised file has nothing left to revise, and the other files are what they were.
  by_cases hsame : inode = other
  · simp only [hsame, if_true, ne_eq, not_true_eq_false, false_and, iff_false]
    rintro ⟨file, ⟨-, hfile⟩, hrevises⟩
    obtain ⟨old, -, rfl⟩ := Option.map_eq_some_iff.mp hfile
    exact old.not_revises_revise text hrevises
  · rw [if_neg hsame]
    exact (and_iff_right (fun heq => hsame heq.symm)).symm

/-- What the first path revises is out of reach for the paths after it. -/
theorem revisesAlong_cons_iff (hrevises : disk.Revises path inode text) :
    disk.RevisesAlong (path :: paths) other ↔
      other = inode ∨ (disk.reviseAt inode).RevisesAlong paths other := by
  simp only [RevisesAlong, revises_reviseAt_iff]
  constructor
  · rintro ⟨later, hlater, text, hother⟩
    by_cases hsame : other = inode
    · exact Or.inl hsame
    · refine Or.inr ⟨later, List.mem_of_ne_of_mem ?_ hlater, text, hsame, hother⟩
      rintro rfl
      exact hsame (hother.unique hrevises)
  · rintro (rfl | ⟨later, hlater, text, -, hother⟩)
    · exact ⟨path, List.mem_cons_self, text, hrevises⟩
    · exact ⟨later, List.mem_cons_of_mem _ hlater, text, hother⟩

theorem revisesAlong_cons_iff_of_not (hnone : ∀ inode text, ¬disk.Revises path inode text) :
    disk.RevisesAlong (path :: paths) other ↔ disk.RevisesAlong paths other := by
  simp [RevisesAlong, hnone]

end FileSystem

/-! ### Visits that change a file -/

/-- This is what a visit returns that revises the file of this number. -/
def FileOutcome.Tells (outcome : FileOutcome) (disk : FileSystem) (inode : Nat) : Prop :=
  ∃ text, disk.Revises outcome.path inode text ∧ outcome.spans = (silence text).spans

theorem FileOutcome.Tells.resolve_eq {disk : FileSystem} {outcome : FileOutcome} {inode : Nat}
    (htells : outcome.Tells disk inode) :
    disk.resolve .owner outcome.path = some (.file inode) := by
  obtain ⟨text, ⟨file, hleads, -⟩, -⟩ := htells
  exact hleads.1

theorem FileOutcome.Tells.length_spans {disk : FileSystem} {outcome : FileOutcome} {inode : Nat}
    (htells : outcome.Tells disk inode) : outcome.spans.length = disk.spanCount inode := by
  obtain ⟨text, hrevises, hspans⟩ := htells
  rw [FileSystem.spanCount, hrevises.text?_eq, hspans]
  rfl

/-- The outcomes that count as changes go with the numbers of the files that the paths revise. -/
theorem exists_forall₂_modified (disk : FileSystem) (paths : List RawText) :
    ∃ inodes : List Nat, inodes.Nodup ∧
      (∀ inode, inode ∈ inodes ↔ disk.RevisesAlong paths inode) ∧
      List.Forall₂ (fun outcome inode => outcome.Tells disk inode)
        ((visitAll disk paths).value.filterMap Visit.modified?) inodes := by
  induction paths generalizing disk with
  | nil => exact ⟨[], List.nodup_nil, by simp [FileSystem.RevisesAlong], .nil⟩
  | cons path paths ih =>
      by_cases hfirst : ∃ inode text, disk.Revises path inode text
      · obtain ⟨inode, text, hrevises⟩ := hfirst
        obtain ⟨hdisk, hmodified⟩ := visit_of_revises hrevises
        -- The later visits see the disk with this file revised. That keeps its number out of theirs.
        obtain ⟨inodes, hnodup, hmem, htells⟩ := ih (disk.reviseAt inode)
        refine ⟨inode :: inodes, List.nodup_cons.mpr ⟨fun hagain => ?_, hnodup⟩, ?_, ?_⟩
        · obtain ⟨later, -, text, hlater⟩ := (hmem inode).mp hagain
          exact (FileSystem.revises_reviseAt_iff.mp hlater).1 rfl
        · intro other
          rw [List.mem_cons, hmem, FileSystem.revisesAlong_cons_iff hrevises]
        · rw [visitAll_cons]
          simp only [hdisk]
          rw [List.filterMap_cons_some hmodified]
          refine .cons ⟨text, hrevises, rfl⟩ (htells.imp ?_)
          rintro outcome other ⟨text, hother, hspans⟩
          exact ⟨text, (FileSystem.revises_reviseAt_iff.mp hother).2, hspans⟩
      · simp only [not_exists] at hfirst
        obtain ⟨hdisk, hmodified, -⟩ := visit_of_not_revises hfirst
        obtain ⟨inodes, hnodup, hmem, htells⟩ := ih disk
        refine ⟨inodes, hnodup, ?_, ?_⟩
        · intro inode
          rw [hmem, FileSystem.revisesAlong_cons_iff_of_not hfirst]
        · rw [visitAll_cons]
          simp only [hdisk]
          rwa [List.filterMap_cons_none hmodified]

theorem map_eq_map_of_forall₂ {α β γ : Type} {R : α → β → Prop} {f : α → γ} {g : β → γ}
    {as : List α} {bs : List β} (hlists : List.Forall₂ R as bs) (hR : ∀ a b, R a b → f a = g b) :
    as.map f = bs.map g := by
  rw [← List.forall₂_eq_eq_eq, List.forall₂_map_left_iff, List.forall₂_map_right_iff]
  exact hlists.imp fun a b hab => hR a b hab

/-! ### What the visits return -/

/-- What `commentFile` returns for each path, on the disk that the visits before it left. -/
def visitResults (disk : FileSystem) (paths : List RawText) :
    List (RawText × Except CommentError FileOutcome) :=
  paths.mapIdx fun i path => (path, (commentFile (visitAll disk (paths.take i)).disk path).value)

theorem visitAll_value (disk : FileSystem) (paths : List RawText) :
    (visitAll disk paths).value =
      (visitResults disk paths).map fun result => ⟨result.1, result.2⟩ := by
  induction paths generalizing disk with
  | nil => rfl
  | cons path paths ih =>
      rw [visitAll_cons, visitResults, List.mapIdx_cons]
      simp only [ih]
      rfl

theorem length_modified_add_length_errors_le (visits : List Visit) :
    (Summary.ofVisits visits).modifiedCount + (Summary.ofVisits visits).errors.length ≤
      visits.length := by
  have hcount : (Summary.ofVisits visits).modifiedCount =
      visits.countP fun visit => visit.modified?.isSome := by
    rw [Summary.modifiedCount, Summary.ofVisits, List.length_map,
      List.length_filterMap_eq_countP]
  have herrors : (Summary.ofVisits visits).errors.length =
      visits.countP fun visit => visit.error?.isSome := List.length_filterMap_eq_countP
  -- A visit that changes its file has not failed.
  have hle : (visits.countP fun visit => visit.modified?.isSome) ≤
      visits.countP fun visit => ¬visit.error?.isSome = true := by
    apply List.countP_mono_left
    rintro ⟨path, error | outcome⟩ - hmodified
    · cases hmodified
    · rfl
  have hsplit := List.length_eq_countP_add_countP (fun visit : Visit => visit.error?.isSome)
    (l := visits)
  omega

theorem spans_ofVisits (visits : List Visit) :
    (Summary.ofVisits visits).spans =
      ((visits.filterMap Visit.modified?).map fun outcome => outcome.spans.length).sum := by
  rw [List.sum_eq_foldl, List.foldl_map]
  rfl

theorem modified_ofVisits_visitAll (disk : FileSystem) (paths : List RawText) :
    (Summary.ofVisits (visitAll disk paths).value).modified =
      (visitResults disk paths).filterMap fun (path, result) =>
        match result with
        | .ok outcome => if outcome.changed then some path else none
        | .error _ => none := by
  simp only [Summary.ofVisits, visitAll_value, List.filterMap_map, List.map_filterMap]
  apply List.filterMap_congr
  rintro ⟨path, result⟩ hresult
  cases result with
  | error error => rfl
  | ok outcome =>
      obtain ⟨i, hi, heq⟩ := List.mem_mapIdx.mp hresult
      obtain ⟨rfl, hok⟩ := Prod.mk.inj heq
      cases hchanged : outcome.changed <;>
        simp [Visit.modified?, hchanged, commentFile_path _ _ hok]

theorem errors_ofVisits_visitAll (disk : FileSystem) (paths : List RawText) :
    (Summary.ofVisits (visitAll disk paths).value).errors =
      (visitResults disk paths).filterMap fun (path, result) =>
        match result with
        | .ok _ => none
        | .error error => some (path, error.message) := by
  simp only [Summary.ofVisits, visitAll_value, List.filterMap_map]
  apply List.filterMap_congr
  rintro ⟨path, error | outcome⟩ -
  · rfl
  · rfl

/-- **The summary of a run.** Whatever the order of the discovered paths, the changed ones lead to
the files whose bytes are others afterwards, one path to each, and the spans are those of the texts
that these files held at first. -/
theorem processInOrder_tally (disk : FileSystem) (config : Config) {order : List RawText}
    (horder : order.Perm (disk.discover config).value) :
    let run := processInOrder disk config order
    let changed := disk.changedFiles run.disk
    processDirectory disk config = processInOrder disk config (disk.discover config).value ∧
      run.value.scanned = (disk.discover config).value.length ∧
      (∀ inode, inode ∈ changed ↔ disk.bytes? inode ≠ run.disk.bytes? inode) ∧
      changed.Nodup ∧
      (run.value.modified.map (disk.resolve .owner)).Perm (changed.map (some ∘ Place.file)) ∧
      run.value.modifiedCount = changed.length ∧
      (∀ inode ∈ changed, (disk.text? inode).isSome = true) ∧
      run.value.spans = (changed.map disk.spanCount).sum ∧
      (run.value.modified = (visitResults disk order).filterMap fun (path, result) =>
        match result with
        | .ok outcome => if outcome.changed then some path else none
        | .error _ => none) ∧
      (run.value.errors = (visitResults disk order).filterMap fun (path, result) =>
        match result with
        | .ok _ => none
        | .error error => some (path, error.message)) ∧
      run.value.modifiedCount + run.value.errors.length ≤ run.value.scanned := by
  intro run changed
  obtain ⟨inodes, hnodup, hmem, htells⟩ := exists_forall₂_modified disk order
  have hperm : inodes.Perm changed := by
    rw [List.perm_ext_iff_of_nodup hnodup FileSystem.nodup_changedFiles]
    intro inode
    rw [hmem, ← FileSystem.mem_changedFiles_reviseAll_iff, ← visitAll_disk]
    rfl
  refine ⟨processDirectory_eq_processInOrder disk config, ?_,
    fun inode => FileSystem.mem_changedFiles_iff, FileSystem.nodup_changedFiles, ?_, ?_, ?_, ?_,
    modified_ofVisits_visitAll disk order, errors_ofVisits_visitAll disk order,
    length_modified_add_length_errors_le _⟩
  · calc run.value.scanned = (visitResults disk order).length := by
          rw [← List.length_map, ← visitAll_value]
          rfl
      _ = order.length := List.length_mapIdx
      _ = (disk.discover config).value.length := horder.length_eq
  · have hresolve : run.value.modified.map (disk.resolve .owner) =
        inodes.map (some ∘ Place.file) := by
      apply List.map_map.trans
      exact map_eq_map_of_forall₂ htells fun outcome inode => FileOutcome.Tells.resolve_eq
    rw [hresolve]
    exact hperm.map _
  · calc run.value.modifiedCount = ((visitAll disk order).value.filterMap Visit.modified?).length :=
          List.length_map _
      _ = inodes.length := htells.length_eq
      _ = changed.length := hperm.length_eq
  · intro inode hinode
    obtain ⟨path, -, text, hrevises⟩ := (hmem inode).mp (hperm.mem_iff.mpr hinode)
    rw [hrevises.text?_eq]
    rfl
  · calc run.value.spans = (inodes.map disk.spanCount).sum := by
          rw [← map_eq_map_of_forall₂ htells fun outcome inode => FileOutcome.Tells.length_spans]
          exact spans_ofVisits _
      _ = (changed.map disk.spanCount).sum := (hperm.map _).sum_eq

/-- One file is found four times and counted once, and the one that cannot be read is an error
twice. -/
theorem processInOrder_tally_linkedDisk :
    let order : List RawText := ["s/a.ts", "s/c.ts", "s/b.ts", "s/b.ts", "s/c.ts", "s/a.ts"]
    let run := processInOrder linkedDisk ⟨"s", [.ts, .ts]⟩ order
    order.Perm (linkedDisk.discover ⟨"s", [.ts, .ts]⟩).value ∧
      run.value.scanned = 6 ∧ run.value.modifiedCount = 1 ∧ run.value.spans = 1 := by
  intro order run
  have horder : order.Perm (linkedDisk.discover ⟨"s", [.ts, .ts]⟩).value := by
    rw [discover_linkedDisk]
    decide
  obtain ⟨-, hscanned, -, -, -, hcount, -, hspans, -⟩ :=
    processInOrder_tally linkedDisk ⟨"s", [.ts, .ts]⟩ horder
  have hchanged : linkedDisk.changedFiles run.disk = [0] := by decide +kernel
  refine ⟨horder, ?_, ?_, ?_⟩
  · rw [hscanned, discover_linkedDisk]
    rfl
  · rw [hcount, hchanged]
    rfl
  · rw [hspans, hchanged]
    decide +kernel

end Hush
