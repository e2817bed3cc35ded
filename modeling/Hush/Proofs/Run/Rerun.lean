import Hush.Proofs.Run.Discovery
import Hush.Proofs.Run.Visits

/-!
# Runs that follow one another

A run leaves nothing to revise along its paths, whatever became of the single visits. The next run
finds the same paths, in the same order or another, and is idle.
-/

namespace Hush

/-- No visit to one of the paths would change a text. -/
def FileSystem.SettledAlong (disk : FileSystem) (paths : List RawText) : Prop :=
  ∀ path ∈ paths, ∀ inode text, ¬disk.Revises path inode text

/-- A run that leaves the disk as it was, replaces no file and counts none. -/
structure Run.Idle (run : Run Summary) (disk : FileSystem) : Prop where
  disk_eq : run.disk = disk
  not_replaced : ∀ path size, .replaced path size ∉ run.events
  modifiedCount_eq : run.value.modifiedCount = 0
  spans_eq : run.value.spans = 0

/-- Runs one after the other, each in an order of its own and on the disk that the one before
left. -/
def processRepeatedly (disk : FileSystem) (config : Config) :
    List (List RawText) → List (Run Summary)
  | [] => []
  | order :: orders =>
    let run := processInOrder disk config order
    run :: processRepeatedly run.disk config orders

section Settled

variable {disk : FileSystem} {config : Config} {path : RawText} {paths order : List RawText}

theorem FileSystem.settledAlong_reviseAll (disk : FileSystem) (paths : List RawText) :
    (disk.reviseAll paths).SettledAlong paths := by
  rintro path hpath inode text ⟨file, ⟨hresolve, hfile⟩, hrevises⟩
  have hreached : ∃ path ∈ paths, disk.resolve .owner path = some (.file inode) :=
    ⟨path, hpath, by rwa [← disk.resolve_withFiles (disk.reviseAll paths).files]⟩
  rw [getElem?_files_reviseAll] at hfile
  obtain ⟨old, -, rfl⟩ := Option.map_eq_some_iff.mp hfile
  rw [if_pos hreached] at hrevises
  exact old.not_revises_revise text hrevises

theorem visitAll_of_settledAlong (hsettled : disk.SettledAlong order) :
    (visitAll disk order).disk = disk ∧
      (visitAll disk order).value.filterMap Visit.modified? = [] ∧
      ∀ path size, .replaced path size ∉ (visitAll disk order).events := by
  induction order with
  | nil => exact ⟨rfl, rfl, fun path size => List.not_mem_nil⟩
  | cons path order ih =>
      rw [FileSystem.SettledAlong, List.forall_mem_cons] at hsettled
      obtain ⟨hdisk, hmodified, hevents⟩ := visit_of_not_revises hsettled.1
      obtain ⟨hrest, hnone, hrestEvents⟩ := ih hsettled.2
      simp only [visitAll_cons, hdisk]
      refine ⟨hrest, ?_, ?_⟩
      · rw [List.filterMap_cons_none hmodified, hnone]
      · intro other size hmem
        rcases List.mem_append.mp hmem with hfirst | hlater
        · exact hevents other size hfirst
        · exact hrestEvents other size hlater

theorem processInOrder_of_settledAlong (config : Config) (hsettled : disk.SettledAlong order) :
    (processInOrder disk config order).Idle disk := by
  obtain ⟨hdisk, hmodified, hevents⟩ := visitAll_of_settledAlong hsettled
  refine ⟨hdisk, ?_, ?_, ?_⟩
  · intro path size hmem
    rcases List.mem_append.mp hmem with hfound | hvisits
    · cases FileSystem.eq_rootMissing_of_mem_events hfound
    · exact hevents path size hvisits
  · simp [processInOrder, Summary.modifiedCount, Summary.ofVisits, hmodified]
  · simp [processInOrder, Summary.ofVisits, hmodified]

theorem idle_of_mem_processRepeatedly {orders : List (List RawText)}
    (hsettled : ∀ order ∈ orders, disk.SettledAlong order) :
    ∀ run ∈ processRepeatedly disk config orders, run.Idle disk := by
  induction orders with
  | nil => exact fun run hrun => nomatch hrun
  | cons order orders ih =>
      rw [List.forall_mem_cons] at hsettled
      -- An idle run leaves the disk, so what was settled before it is settled for the next one.
      have hfirst := processInOrder_of_settledAlong config hsettled.1
      rw [processRepeatedly]
      simp only [hfirst.disk_eq, List.forall_mem_cons]
      exact ⟨hfirst, ih hsettled.2⟩

end Settled

theorem FileSystem.discover_reviseAll (disk : FileSystem) (config : Config) (paths : List RawText) :
    ((disk.reviseAll paths).discover config).value = (disk.discover config).value :=
  discover_withFiles Array.size_mapIdx config

/-- **Runs after a run.** Whatever the order of the paths in the first run and in each of those that
follow, the later runs find the same paths, leave the disk as the first one left it, and count
nothing. -/
theorem rerun_idle (disk : FileSystem) (config : Config) {first : List RawText}
    {orders : List (List RawText)} (hfirst : first.Perm (disk.discover config).value)
    (horders : ∀ order ∈ orders, order.Perm (disk.discover config).value) :
    let settled := (processDirectory disk config).disk
    (processInOrder disk config first).disk = settled ∧
      (settled.discover config).value = (disk.discover config).value ∧
      (∀ run ∈ processRepeatedly settled config orders, run.Idle settled) ∧
      ∀ n, (processDirectory
        ((fun disk => (processDirectory disk config).disk)^[n] settled) config).Idle settled := by
  intro settled
  have hdisk : settled = disk.reviseAll (disk.discover config).value :=
    processDirectory_disk disk config
  have hfound : (settled.discover config).value = (disk.discover config).value := by
    rw [hdisk, FileSystem.discover_reviseAll]
  have hsettled : ∀ order : List RawText, order.Perm (disk.discover config).value →
      settled.SettledAlong order := by
    intro order horder path hpath
    rw [hdisk]
    exact disk.settledAlong_reviseAll _ path (horder.subset hpath)
  have hagain : (processDirectory settled config).Idle settled := by
    rw [processDirectory_eq_processInOrder, hfound]
    exact processInOrder_of_settledAlong config (hsettled _ (List.Perm.refl _))
  refine ⟨?_, hfound, ?_, ?_⟩
  · rw [hdisk, ← disk.reviseAll_congr fun path => hfirst.mem_iff]
    exact visitAll_disk disk first
  · exact idle_of_mem_processRepeatedly fun order horder => hsettled order (horders order horder)
  · intro n
    rw [Function.iterate_fixed hagain.disk_eq]
    exact hagain

theorem discover_linkedDisk : (linkedDisk.discover ⟨"s", [.ts, .ts]⟩).value =
    (["s/c.ts", "s/b.ts", "s/a.ts", "s/c.ts", "s/b.ts", "s/a.ts"] : List RawText) := by cbv

/-- The extension is listed twice, a file has two names, and another one cannot be read. -/
theorem rerun_idle_linkedDisk :
    let first : List RawText := ["s/a.ts", "s/c.ts", "s/b.ts", "s/b.ts", "s/c.ts", "s/a.ts"]
    let orders : List (List RawText) :=
      [["s/b.ts", "s/b.ts", "s/c.ts", "s/c.ts", "s/a.ts", "s/a.ts"],
        ["s/a.ts", "s/b.ts", "s/c.ts", "s/a.ts", "s/b.ts", "s/c.ts"]]
    let settled := (processDirectory linkedDisk ⟨"s", [.ts, .ts]⟩).disk
    first.Perm (linkedDisk.discover ⟨"s", [.ts, .ts]⟩).value ∧
      settled.files.map File.writes = #[1, 0] ∧
      ∀ run ∈ processRepeatedly settled ⟨"s", [.ts, .ts]⟩ orders, run.Idle settled := by
  intro first orders settled
  have hfirst : first.Perm (linkedDisk.discover ⟨"s", [.ts, .ts]⟩).value := by
    rw [discover_linkedDisk]
    decide
  have horders : ∀ order ∈ orders, order.Perm (linkedDisk.discover ⟨"s", [.ts, .ts]⟩).value := by
    rw [discover_linkedDisk]
    decide
  obtain ⟨hrun, -, hidle, -⟩ := rerun_idle linkedDisk ⟨"s", [.ts, .ts]⟩ hfirst horders
  have hsettled : settled = (processInOrder linkedDisk ⟨"s", [.ts, .ts]⟩ first).disk := hrun.symm
  refine ⟨hfirst, ?_, hidle⟩
  rw [hsettled]
  decide +kernel

end Hush
