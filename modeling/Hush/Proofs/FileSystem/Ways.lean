import Hush.Proofs.FileSystem.JoinPath

/-!
# Ways down without the search

A search lists the ways down from a directory by recursion. Said without it, a way down is a row of
names, each of which stands in a directory that can be listed, and all but the last stand for a
directory themselves. The search lists each of them once, and no two of them have one path.
-/

namespace Hush

namespace Tree

variable {tree : Tree} {number : Nat} {names : List Name}

/-- The names lead down from a directory to an entry. Every directory on the way can be listed, the
first one included, and none but the first is reached by a symbolic link. -/
inductive Descends (tree : Tree) : Nat → List Name → Prop
  | last {number : Nat} {name : Name} {entry : Entry} (listable : tree.IsListable number)
      (child_eq : tree.child? number name = some entry) : Descends tree number [name]
  | enter {number child : Nat} {name : Name} {rest : List Name}
      (listable : tree.IsListable number)
      (child_eq : tree.child? number name = some (.directory child))
      (further : Descends tree child rest) : Descends tree number (name :: rest)

theorem mem_descents_iff_descends : names ∈ tree.descents number ↔ tree.Descends number names := by
  constructor
  · intro hmem
    induction names generalizing number with
    | nil => exact absurd hmem nil_notMem_descents
    | cons name rest ih =>
        obtain ⟨hlistable, entry, hentry, rfl | ⟨child, rfl, hrest⟩⟩ :=
          cons_mem_descents_iff.mp hmem
        · exact .last hlistable hentry
        · exact .enter hlistable hentry (ih hrest)
  · intro hdescends
    induction hdescends with
    | last hlistable hentry =>
        exact cons_mem_descents_iff.mpr ⟨hlistable, _, hentry, Or.inl rfl⟩
    | enter hlistable hentry _ ih =>
        exact cons_mem_descents_iff.mpr ⟨hlistable, _, hentry, Or.inr ⟨_, rfl, ih⟩⟩

theorem Descends.ne_nil (hdescends : tree.Descends number names) : names ≠ [] := by
  cases hdescends <;> exact List.cons_ne_nil _ _

theorem descents_eq_nil (hlistable : ¬tree.IsListable number) : tree.descents number = [] := by
  rw [List.eq_nil_iff_forall_not_mem]
  intro names hmem
  obtain ⟨directory, hfound, hmode, -⟩ := mem_descents_iff.mp hmem
  exact hlistable ⟨directory, hfound, hmode⟩

theorem descents_eq_flatMap {directory : Directory}
    (hfound : tree.directories[number]? = some directory)
    (hmode : directory.mode.isReadable = true) :
    tree.descents number =
      directory.listing.entries.flatMap fun pair => tree.waysBy pair.1 pair.2 := by
  rw [descents]
  split <;> rename_i hsame
  · cases hfound.symm.trans hsame
  · obtain rfl := Option.some.inj (hfound.symm.trans hsame)
    rw [if_pos hmode]
    -- The recursive call carries a proof about the entry, which goes once the entry is known.
    refine (List.flatMap_subtype ?_).trans (by rw [List.unattach_attach])
    rintro ⟨name, entry⟩ _
    cases entry <;> rfl

theorem nodup_waysBy {name : Name} {entry : Entry}
    (hchild : ∀ child, entry = .directory child → (tree.descents child).Nodup) :
    (tree.waysBy name entry).Nodup := by
  cases entry with
  | file inode => exact List.nodup_singleton _
  | link target => exact List.nodup_singleton _
  | directory child =>
      refine List.nodup_cons.mpr ⟨?_, (hchild child rfl).map List.cons_injective⟩
      intro hmem
      obtain ⟨rest, hrest, hnil⟩ := List.mem_map.mp hmem
      obtain rfl := List.cons.inj hnil |>.2
      exact nil_notMem_descents hrest

theorem disjoint_waysBy {name other : Name} {entry found : Entry} (hne : name ≠ other) :
    (tree.waysBy name entry).Disjoint (tree.waysBy other found) := by
  intro names hfirst hsecond
  obtain ⟨rest, rfl, -⟩ := mem_waysBy_iff.mp hfirst
  obtain ⟨further, heq, -⟩ := mem_waysBy_iff.mp hsecond
  exact hne (List.cons.inj heq).1

theorem nodup_descents (tree : Tree) (number : Nat) : (tree.descents number).Nodup := by
  induction number using descents.induct tree with
  | case1 number hfound =>
      rw [descents_eq_nil]
      · exact List.nodup_nil
      · rintro ⟨directory, hother, -⟩
        cases hfound.symm.trans hother
  | case2 number directory hfound hmode ih =>
      rw [descents_eq_flatMap hfound hmode, List.nodup_flatMap]
      refine ⟨?_, ?_⟩
      · rintro ⟨name, entry⟩ hmem
        apply nodup_waysBy
        rintro child rfl
        exact ih name child hmem
      · refine (List.pairwise_map.mp directory.listing.nodup).imp fun hne => ?_
        exact disjoint_waysBy hne
  | case3 number directory hfound hmode =>
      rw [descents_eq_nil]
      · exact List.nodup_nil
      · rintro ⟨other, hother, hreadable⟩
        obtain rfl := Option.some.inj (hfound.symm.trans hother)
        exact absurd hreadable hmode

end Tree

theorem Name.raw_injective : Function.Injective Name.raw := by
  rintro ⟨raw, _⟩ ⟨other, _⟩ rfl
  rfl

theorem joinPath_inj {directory : RawText} {names others : List Name} (hnames : names ≠ [])
    (hothers : others ≠ []) (hjoin : joinPath directory names = joinPath directory others) :
    names = others := by
  rw [joinPath, joinPath, RawText.mk.injEq, List.append_cancel_left_eq] at hjoin
  have hcomponents := congrArg (fun bytes => components ⟨bytes⟩) hjoin
  rw [components_intercalate hnames, components_intercalate hothers] at hcomponents
  exact List.map_injective_iff.mpr Name.raw_injective hcomponents

end Hush
