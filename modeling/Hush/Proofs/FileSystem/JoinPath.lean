import Hush.Proofs.FileSystem.Descent

/-!
# Paths below a directory

The path of something below a directory leads by way of the directory, whether or not the path of
the directory ends in a slash.
-/

namespace Hush

theorem Name.notMem_slash (name : Name) : slash ∉ name.raw.bytes := by
  have hname := name.isName_raw
  simp only [isName, Bool.and_eq_true, List.all_eq_true, bne_iff_ne] at hname
  exact fun hmem => (hname.2 slash hmem).1 rfl

theorem Step.ofRaw?_raw (name : Name) : Step.ofRaw? name.raw = some (.enter name) := by
  have hname := name.isName_raw
  simp only [isName, Bool.and_eq_true, bne_iff_ne, Bool.not_eq_true'] at hname
  obtain ⟨⟨⟨⟨hbytes, hdot⟩, hdotDot⟩, -⟩, -⟩ := hname
  have hempty : name.raw ≠ "" := by
    intro heq
    rw [heq] at hbytes
    cases hbytes
  rw [ofRaw?, if_neg hempty, if_neg hdot, if_neg hdotDot, Name.ofRaw?, dif_pos name.isName_raw]
  rfl

theorem mapM_ofRaw?_raw (names : List Name) :
    (names.map Name.raw).mapM Step.ofRaw? = some (names.map .enter) := by
  induction names with
  | nil => rfl
  | cons name names ih => simp [Step.ofRaw?_raw, ih]

theorem components_append_slash (before after : List UInt8) :
    components ⟨before ++ slash :: after⟩ = components ⟨before⟩ ++ components ⟨after⟩ := by
  have hcut : (before ++ slash :: after).splitOn slash =
      before.splitOn slash ++ after.splitOn slash :=
    List.splitOnP_append_cons before after (by simp)
  rw [components, hcut, List.map_append]
  rfl

theorem components_intercalate {names : List Name} (hnames : names ≠ []) :
    components ⟨[slash].intercalate (names.map (·.raw.bytes))⟩ = names.map Name.raw := by
  have hcut : ([slash].intercalate (names.map (·.raw.bytes))).splitOn slash =
      names.map (·.raw.bytes) := by
    apply List.splitOn_intercalate
    · simpa using fun name _ => name.notMem_slash
    · simpa using hnames
  rw [components, hcut, List.map_map]
  rfl

/-- The components of a path below a directory are those of the directory, but for a slash at its
end, and then the names. -/
theorem components_joinPath (directory : RawText) {names : List Name} (hnames : names ≠ []) :
    ∃ above, components (joinPath directory names) = above ++ names.map Name.raw ∧
      (components directory = above ∨ components directory = above ++ [("" : RawText)]) := by
  by_cases hslash : directory.bytes.getLast? = some slash
  · obtain ⟨before, hbefore⟩ := List.getLast?_eq_some_iff.mp hslash
    have hdirectory : directory = ⟨before ++ slash :: []⟩ := congrArg RawText.mk hbefore
    refine ⟨components ⟨before⟩, ?_, Or.inr ?_⟩
    · rw [joinPath, if_pos hslash, hbefore, List.append_nil, List.append_assoc,
        List.singleton_append, components_append_slash, components_intercalate hnames]
    · rw [hdirectory, components_append_slash]
      rfl
  · refine ⟨components directory, ?_, Or.inl rfl⟩
    rw [joinPath, if_neg hslash, List.append_assoc, List.singleton_append, components_append_slash,
      components_intercalate hnames]

/-- A path below a directory starts where the path of the directory does, and goes on from it. -/
theorem Path.ofRaw?_joinPath {directory : RawText} {names : List Name} {above path : Path}
    (habove : ofRaw? directory = some above) (hnames : names ≠ [])
    (hpath : ofRaw? (joinPath directory names) = some path) :
    path.isAbsolute = above.isAbsolute ∧
      ∃ steps, path.steps = steps ++ names.map .enter ∧
        (above.steps = steps ∨ above.steps = steps ++ [.slash]) := by
  unfold ofRaw? at habove hpath
  split at habove
  · cases habove
  split at hpath
  · cases hpath
  rename_i hdirectory hjoined
  obtain ⟨aboveSteps, haboveSteps, rfl⟩ := Option.map_eq_some_iff.mp habove
  obtain ⟨pathSteps, hpathSteps, rfl⟩ := Option.map_eq_some_iff.mp hpath
  refine ⟨?_, ?_⟩
  · have hfirst : (joinPath directory names).bytes.head? = directory.bytes.head? := by
      rw [joinPath, List.append_assoc]
      apply List.head?_append_of_ne_nil
      exact fun hempty => hdirectory (Or.inl (congrArg RawText.mk hempty))
    rw [hfirst]
  · obtain ⟨before, hbefore, hends⟩ := components_joinPath directory hnames
    rw [hbefore, List.mapM_append, mapM_ofRaw?_raw] at hpathSteps
    obtain ⟨steps, hsteps, hrest⟩ := Option.bind_eq_some_iff.mp hpathSteps
    refine ⟨steps, ?_, ?_⟩
    · simpa using hrest.symm
    · rcases hends with hends | hends
      · left
        rw [hends, hsteps] at haboveSteps
        exact (Option.some.inj haboveSteps).symm
      · right
        rw [hends, List.mapM_append, hsteps] at haboveSteps
        simpa [Step.ofRaw?] using haboveSteps.symm
namespace FileSystem

variable {disk : FileSystem} {user : User} {directory : RawText} {names : List Name} {number : Nat}
  {place : Place}

theorem resolve_eq_some_iff {path : RawText} :
    disk.resolve user path = some place ↔
      ∃ parsed, Path.ofRaw? path = some parsed ∧
        disk.walkLinks user linkMax (origin parsed disk.workingDirectory) parsed.steps =
          some place :=
  Option.bind_eq_some_iff

theorem exists_walkLinks_of_resolve_joinPath
    (hdirectory : disk.resolve user directory = some (.directory number)) (hnames : names ≠ [])
    (hresolve : disk.resolve user (joinPath directory names) = some place) :
    ∃ links, disk.walkLinks user links (.directory number) (names.map .enter) = some place := by
  obtain ⟨above, habove, hwalkAbove⟩ := resolve_eq_some_iff.mp hdirectory
  obtain ⟨path, hpath, hwalk⟩ := resolve_eq_some_iff.mp hresolve
  obtain ⟨habsolute, steps, hsteps, hends⟩ := Path.ofRaw?_joinPath habove hnames hpath
  have horigin : origin path disk.workingDirectory = origin above disk.workingDirectory := by
    rw [origin, origin, habsolute]
  rw [horigin, hsteps] at hwalk
  obtain ⟨mid, links, hmid, hdown⟩ := exists_walkLinks_of_append hwalk
  refine ⟨links, ?_⟩
  -- The two paths part where that of the directory ends, or just before its last slash.
  rcases hends with hends | hends
  · rw [hends, hmid] at hwalkAbove
    rwa [← Option.some.inj hwalkAbove]
  · rw [hends] at hwalkAbove
    obtain ⟨before, left, hbefore, hslash⟩ := exists_walkLinks_of_append hwalkAbove
    obtain rfl := Option.some.inj (hmid.symm.trans hbefore)
    rwa [← eq_of_walkLinks_slash hslash]

theorem exists_entry_of_resolve_joinPath
    (hdirectory : disk.resolve user directory = some (.directory number))
    (hnames : names ∈ disk.tree.descents number)
    (hresolve : disk.resolve user (joinPath directory names) = some place) :
    ∃ holder last entry, names.getLast? = some last ∧
      disk.tree.child? holder last = some entry ∧ disk.EntryLeadsTo user holder place entry := by
  have hne : names ≠ [] := by
    rintro rfl
    exact Tree.nil_notMem_descents hnames
  obtain ⟨links, hwalk⟩ := exists_walkLinks_of_resolve_joinPath hdirectory hne hresolve
  exact exists_entry_of_mem_descents hnames hwalk

end FileSystem

end Hush
