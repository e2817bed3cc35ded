import Hush.Proofs.Run.Tally

/-!
# Runs in several passes

A run searches for its extensions one after the other and visits only then. Visits move no path, so
the later searches could as well wait until the files of the earlier ones were visited: a run over
some extensions and then others does what a run over the former and a run over the latter do.
-/

namespace Hush

/-- A run does and tells what two runs do and tell, one after the other. -/
structure Run.Joins (whole first second : Run Summary) : Prop where
  disk_eq : whole.disk = second.disk
  scanned_eq : whole.value.scanned = first.value.scanned + second.value.scanned
  spans_eq : whole.value.spans = first.value.spans + second.value.spans
  modified_eq : whole.value.modified = first.value.modified ++ second.value.modified
  errors_eq : whole.value.errors = first.value.errors ++ second.value.errors

variable (disk : FileSystem)

theorem visitAll_append (paths others : List RawText) :
    (visitAll disk (paths ++ others)).value =
        (visitAll disk paths).value ++ (visitAll (visitAll disk paths).disk others).value ∧
      (visitAll disk (paths ++ others)).disk =
        (visitAll (visitAll disk paths).disk others).disk := by
  induction paths generalizing disk with
  | nil => exact ⟨rfl, rfl⟩
  | cons path paths ih =>
      obtain ⟨hvalue, hdisk⟩ := ih (visit disk path).disk
      simp only [List.cons_append, visitAll_cons, hvalue, hdisk, and_self]

theorem FileSystem.discover_append (root : RawText) (extensions others : List Extension) :
    (disk.discover ⟨root, extensions ++ others⟩).value =
      (disk.discover ⟨root, extensions⟩).value ++ (disk.discover ⟨root, others⟩).value := by
  unfold discover
  cases disk.lookup? .owner root with
  | none => rfl
  | some node =>
      cases node with
      | file inode file => rfl
      | directory number directory =>
          simp only [List.map_append, List.flatMap_append]

theorem processInOrder_joins (config former latter : Config) (order order' : List RawText) :
    (processInOrder disk config (order ++ order')).Joins (processInOrder disk former order)
      (processInOrder (processInOrder disk former order).disk latter order') := by
  obtain ⟨hvalue, hdisk⟩ := visitAll_append disk order order'
  simp only [processInOrder, hvalue, hdisk]
  refine ⟨rfl, List.length_append, ?_, ?_, List.filterMap_append⟩
  · simp only [spans_ofVisits, List.filterMap_append, List.map_append, List.sum_append]
  · simp only [Summary.ofVisits, List.filterMap_append, List.map_append]

theorem FileSystem.discover_processInOrder (config other : Config) (order : List RawText) :
    ((processInOrder disk config order).disk.discover other).value =
      (disk.discover other).value := by
  rw [processInOrder, visitAll_disk, discover_reviseAll]

/-- **Runs in several passes.** A run over some extensions and then others leaves the disk as a run
over the former and then one over the latter do, and tells what the two tell together. The second
of the two finds what it would have found at first. This holds whatever the orders in which the two
visit what they find, if the run over all extensions visits it in the same orders. -/
theorem processDirectory_append (root : RawText) (extensions others : List Extension) :
    let first := processDirectory disk ⟨root, extensions⟩
    (processDirectory disk ⟨root, extensions ++ others⟩).Joins first
        (processDirectory first.disk ⟨root, others⟩) ∧
      ∀ order order' : List RawText, order.Perm (disk.discover ⟨root, extensions⟩).value →
        order'.Perm (disk.discover ⟨root, others⟩).value →
        let first := processInOrder disk ⟨root, extensions⟩ order
        order'.Perm (first.disk.discover ⟨root, others⟩).value ∧
          (order ++ order').Perm (disk.discover ⟨root, extensions ++ others⟩).value ∧
          (processInOrder disk ⟨root, extensions ++ others⟩ (order ++ order')).Joins first
            (processInOrder first.disk ⟨root, others⟩ order') := by
  intro first
  refine ⟨?_, fun order order' horder horder' => ⟨?_, ?_, ?_⟩⟩
  · simp only [first, processDirectory_eq_processInOrder, FileSystem.discover_append,
      FileSystem.discover_processInOrder]
    exact processInOrder_joins disk _ _ _ _ _
  · rwa [FileSystem.discover_processInOrder]
  · rw [FileSystem.discover_append]
    exact horder.append horder'
  · exact processInOrder_joins disk _ _ _ _ _

/-- A file, a symbolic link to it with the other extension, and a second file. -/
def crossedDisk : FileSystem :=
  let disk := FileSystem.scratch ⟨"page", by decide⟩
  let disk := disk.addFile "s/a.vue" (.ofString "console.log(1)")
  (disk.addLink "s/a.ts" "a.vue").addFile "s/b.ts" (.ofString "console.log(2)")

/-- The first file is found three times in all, and changes in the first run. -/
theorem processDirectory_append_crossedDisk :
    let order : List RawText := ["s/a.vue"]
    let order' : List RawText := ["s/a.ts", "s/b.ts", "s/a.vue"]
    let whole := processInOrder crossedDisk ⟨"s", [.vue] ++ [.ts, .vue]⟩ (order ++ order')
    order.Perm (crossedDisk.discover ⟨"s", [.vue]⟩).value ∧
      order'.Perm (crossedDisk.discover ⟨"s", [.ts, .vue]⟩).value ∧
      whole.value.scanned = 1 + 3 ∧ whole.value.spans = 1 + 1 ∧
      whole.value.modified = (["s/a.vue"] ++ ["s/b.ts"] : List RawText) ∧
      whole.disk.files.map File.writes = #[1, 1] := by
  intro order order' whole
  have hvue : (crossedDisk.discover ⟨"s", [.vue]⟩).value = order := by cbv
  have hboth : (crossedDisk.discover ⟨"s", [.ts, .vue]⟩).value =
      (["s/b.ts", "s/a.ts", "s/a.vue"] : List RawText) := by cbv
  have horder : order.Perm (crossedDisk.discover ⟨"s", [.vue]⟩).value := by
    rw [hvue]
  have horder' : order'.Perm (crossedDisk.discover ⟨"s", [.ts, .vue]⟩).value := by
    rw [hboth]
    decide
  obtain ⟨-, hall⟩ := processDirectory_append crossedDisk "s" [.vue] [.ts, .vue]
  obtain ⟨-, -, hjoins⟩ := hall order order' horder horder'
  refine ⟨horder, horder', hjoins.scanned_eq, ?_, ?_, ?_⟩
  · rw [hjoins.spans_eq]
    decide +kernel
  · rw [hjoins.modified_eq]
    decide +kernel
  · rw [hjoins.disk_eq]
    decide +kernel

end Hush
