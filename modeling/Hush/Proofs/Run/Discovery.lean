import Hush.Proofs.FileSystem.Access
import Hush.Proofs.Text.Raw
import Hush.Run.Discover

/-!
# What is discovered

A search looks at the tree and at which numbers stand for files. What the files hold plays no part,
so the same paths are found before and after files are revised. None of them is passed over as
compiled output, because a name with one of the extensions has no other.
-/

namespace Hush

namespace Extension

variable {extension : Extension} {name : Name}

theorem selects_iff_exists :
    extension.selects name = true ↔
      ∃ text : String, name.raw = text ∧ extension.suffix.toList <:+ text.toList := by
  simp only [selects, Option.any_eq_true, RawText.text?_eq_some_iff, List.isSuffixOf_iff_suffix]

theorem toNat_lt_of_mem_suffix (extension : Extension) :
    ∀ c ∈ extension.suffix.toList, c.toNat < 0x80 := by
  cases extension <;> simp [suffix, text]

/-- A name is selected if it is text and its bytes end in those of the suffix. -/
theorem selects_iff :
    extension.selects name = true ↔
      name.raw.text?.isSome = true ∧
        (RawText.ofString extension.suffix).bytes <:+ name.raw.bytes := by
  rw [selects_iff_exists, Option.isSome_iff_exists]
  constructor
  · rintro ⟨text, htext, hsuffix⟩
    rw [htext]
    exact ⟨⟨text, RawText.text?_ofString text⟩,
      (RawText.suffix_bytes_iff extension.toNat_lt_of_mem_suffix).mpr hsuffix⟩
  · rintro ⟨⟨text, htext⟩, hsuffix⟩
    rw [RawText.text?_eq_some_iff] at htext
    rw [htext] at hsuffix
    exact ⟨text, htext, (RawText.suffix_bytes_iff extension.toNat_lt_of_mem_suffix).mp hsuffix⟩

theorem bytes_suffix (extension : Extension) :
    (RawText.ofString extension.suffix).bytes = dot :: (RawText.ofString extension.text).bytes := by
  cases extension <;> decide

theorem dot_notMem_text (extension : Extension) :
    dot ∉ (RawText.ofString extension.text).bytes := by
  cases extension <;> decide

theorem map_toLowerByte_text_ne (extension : Extension) :
    (RawText.ofString extension.text).bytes.map toLowerByte ≠
      (RawText.ofString compiledExtension).bytes := by
  cases extension <;> decide

/-- The last dot of a selected name is the one before the extension. -/
theorem takeWhile_reverse_of_selects (hselects : extension.selects name = true) :
    name.raw.bytes.reverse.takeWhile (· != dot) =
      (RawText.ofString extension.text).bytes.reverse := by
  obtain ⟨-, before, hbefore⟩ := selects_iff.mp hselects
  have hreversed : name.raw.bytes.reverse =
      (RawText.ofString extension.text).bytes.reverse ++ dot :: before.reverse := by
    rw [← hbefore, bytes_suffix]
    simp
  rw [hreversed, List.takeWhile_append_of_pos]
  · simp
  · intro byte hbyte
    rw [bne_iff_ne]
    rintro rfl
    exact extension.dot_notMem_text (List.mem_reverse.mp hbyte)

theorem isCompiled_eq_false (hselects : extension.selects name = true) :
    name.isCompiled = false := by
  rw [Name.isCompiled, Name.extension?, takeWhile_reverse_of_selects hselects,
    List.reverse_reverse]
  split
  · rfl
  · rfl
  · exact beq_false_of_ne extension.map_toLowerByte_text_ne

end Extension

namespace FileSystem

variable {disk : FileSystem} {config : Config} {path : RawText} {files : Array File} {root : Nat}
  {extension : Extension}

theorem isFile_eq_true_iff :
    disk.isFile path = true ↔
      ∃ inode, disk.resolve .owner path = some (.file inode) ∧ inode < disk.files.size := by
  unfold isFile lookup?
  cases disk.resolve .owner path with
  | none => simp
  | some place =>
      cases place with
      | directory number => cases hnode : disk.directory? number <;> simp [node?, hnode]
      | file inode => by_cases hinode : inode < disk.files.size <;> simp [node?, hinode]

theorem isFile_withFiles (hsize : files.size = disk.files.size) :
    (disk.withFiles files).isFile = disk.isFile := by
  funext path
  rw [Bool.eq_iff_iff, isFile_eq_true_iff, isFile_eq_true_iff, resolve_withFiles, ← hsize]
  rfl

theorem matching_withFiles (hsize : files.size = disk.files.size) :
    (disk.withFiles files).matching = disk.matching := by
  unfold matching
  rw [isFile_withFiles hsize]
  rfl

theorem mem_matching_iff {names : List Name} :
    names ∈ disk.matching path root extension ↔
      names ∈ disk.tree.descents root ∧ disk.isFile (joinPath path names) = true ∧
        ∃ last, names.getLast? = some last ∧ extension.selects last = true := by
  rw [matching, List.mem_filter, Bool.and_eq_true, Option.any_eq_true]

/-- The branch that passes compiled output over is never taken. -/
theorem partition_matching (disk : FileSystem) (path : RawText) (root : Nat)
    (extension : Extension) :
    (disk.matching path root extension).partition (·.getLast?.any Name.isCompiled) =
      ([], disk.matching path root extension) := by
  have hnone : ∀ names ∈ disk.matching path root extension,
      names.getLast?.any Name.isCompiled = false := by
    intro names hnames
    obtain ⟨-, -, last, hlast, hselects⟩ := mem_matching_iff.mp hnames
    rw [hlast, Option.any_some]
    exact Extension.isCompiled_eq_false hselects
  rw [List.partition_eq_filter_filter, Prod.mk.injEq, List.filter_eq_nil_iff,
    List.filter_eq_self]
  refine ⟨fun names hnames => ?_, fun names hnames => ?_⟩
  · simp [hnone names hnames]
  · simp [hnone names hnames]

theorem search_eq (disk : FileSystem) (path : RawText) (root : Nat) (extension : Extension) :
    disk.search path root extension =
      { value := (disk.matching path root extension).map (joinPath path), disk } := by
  rw [search, partition_matching]
  rfl

/-- What a run finds below a directory, search by search. -/
theorem discover_of_lookup {directory : Directory}
    (hroot : disk.lookup? .owner config.root = some (.directory root directory)) :
    disk.discover config =
      { value := config.extensions.flatMap fun extension =>
          (disk.matching config.root root extension).map (joinPath config.root)
        disk } := by
  rw [discover, hroot]
  simp [search_eq, List.flatMap_map]

theorem discover_of_not_lookup
    (hroot : ¬∃ root directory,
      disk.lookup? .owner config.root = some (.directory root directory)) :
    disk.discover config = { value := [], disk, events := [.rootMissing config.root] } := by
  unfold discover
  split <;> rename_i hfound
  · exact absurd ⟨_, _, hfound⟩ hroot
  · rfl

theorem mem_discover_iff :
    path ∈ (disk.discover config).value ↔
      ∃ root directory, disk.lookup? .owner config.root = some (.directory root directory) ∧
        ∃ extension ∈ config.extensions, ∃ names ∈ disk.matching config.root root extension,
          joinPath config.root names = path := by
  by_cases hroot : ∃ root directory,
      disk.lookup? .owner config.root = some (.directory root directory)
  · obtain ⟨root, directory, hroot⟩ := hroot
    simp [discover_of_lookup hroot, hroot]
  · rw [discover_of_not_lookup hroot]
    simp only [List.not_mem_nil, false_iff]
    rintro ⟨root, directory, hfound, -⟩
    exact hroot ⟨root, directory, hfound⟩

theorem discover_withFiles (hsize : files.size = disk.files.size) (config : Config) :
    ((disk.withFiles files).discover config).value = (disk.discover config).value := by
  have hlookup : ∀ root directory,
      (disk.withFiles files).lookup? .owner config.root = some (.directory root directory) ↔
        disk.lookup? .owner config.root = some (.directory root directory) := by
    intro root directory
    rw [lookup?_eq_directory_iff, lookup?_eq_directory_iff, resolve_withFiles,
      directory?_withFiles]
  by_cases hroot : ∃ root directory,
      disk.lookup? .owner config.root = some (.directory root directory)
  · obtain ⟨root, directory, hroot⟩ := hroot
    rw [discover_of_lookup hroot, discover_of_lookup ((hlookup _ _).mpr hroot),
      matching_withFiles hsize]
  · have hother : ¬∃ root directory,
        (disk.withFiles files).lookup? .owner config.root = some (.directory root directory) := by
      simpa only [hlookup] using hroot
    rw [discover_of_not_lookup hroot, discover_of_not_lookup hother]

theorem eq_rootMissing_of_mem_events {event : Event}
    (hmem : event ∈ (disk.discover config).events) : event = .rootMissing config.root := by
  by_cases hroot : ∃ root directory,
      disk.lookup? .owner config.root = some (.directory root directory)
  · obtain ⟨root, directory, hroot⟩ := hroot
    rw [discover_of_lookup hroot] at hmem
    cases hmem
  · rw [discover_of_not_lookup hroot] at hmem
    exact List.mem_singleton.mp hmem

end FileSystem

end Hush
