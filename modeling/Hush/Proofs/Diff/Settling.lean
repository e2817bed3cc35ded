import Hush.Proofs.Diff.Recorded

/-!
# No insertion comes to rest ahead

While an insertion is moved, it gets further ahead by every deletion that it passes on its way up.
On its way down it slides back over the kept lines that it has slid over, and passes those deletions
again, and all that it was recorded ahead of before. So wherever it comes to rest, it is recorded
there or further back.
-/

namespace Hush.Diff

variable {α : Type} [BEq α] {old new : Array α} {p q : Point}

/-! ### Insertions on the move -/

/-- An insertion that moves down from here passes the deletions that it is recorded ahead of. -/
inductive Returns (old new : Array α) : Edit → Nat → List Edit → Prop
  | here {this : Edit} {start : Nat} {after : List Edit} (old_le : this.old ≤ start) :
      Returns old new this start after
  | pass {this next : Edit} {start : Nat} {after : List Edit} (kind_eq : next.kind = .delete)
      (further : Returns old new this (start + next.size) after) :
      Returns old new this start (next :: after)
  | join {this next : Edit} {start : Nat} {after : List Edit} (kind_eq : next.kind = .insert)
      (further : Returns old new (this.growDown next.size) start after) :
      Returns old new this start (next :: after)
  | slide {this next : Edit} {start : Nat} {after : List Edit} (kind_eq : next.kind = .equal)
      (agrees : Agrees old new ⟨next.old, this.new⟩ next.size)
      (further : Returns old new (this.shiftDown next.size) (start + next.size) after) :
      Returns old new this start (next :: after)

section Insertions

variable {before after : List Edit} {this kept : Edit} {start size : Nat}

theorem Returns.of_cons_equal {next : Edit} (hkind : next.kind = .equal)
    (hreturns : Returns old new this start (next :: after)) :
    this.old ≤ start ∨ Agrees old new ⟨next.old, this.new⟩ next.size ∧
      Returns old new (this.shiftDown next.size) (start + next.size) after := by
  cases hreturns with
  | here hle => exact .inl hle
  | pass hkind' => cases hkind.symm.trans hkind'
  | join hkind' => cases hkind.symm.trans hkind'
  | slide _ hagrees further => exact .inr ⟨hagrees, further⟩

theorem Returns.of_cons_insert {next : Edit} (hkind : next.kind = .insert)
    (hreturns : Returns old new this start (next :: after)) :
    Returns old new (this.growDown next.size) start after := by
  cases hreturns with
  | here hle => exact .here hle
  | pass hkind' => cases hkind.symm.trans hkind'
  | join _ further => exact further
  | slide hkind' => cases hkind.symm.trans hkind'

theorem Returns.of_cons_delete {next : Edit} (hkind : next.kind = .delete)
    (hreturns : Returns old new this start (next :: after)) :
    Returns old new this (start + next.size) after := by
  cases hreturns with
  | here hle => exact .here (hle.trans (Nat.le_add_right ..))
  | pass _ further => exact further
  | join hkind' => cases hkind.symm.trans hkind'
  | slide hkind' => cases hkind.symm.trans hkind'

theorem returns_of_le_runLength (hle : this.old ≤ start + runLength after) :
    Returns old new this start after := by
  induction after generalizing this start with
  | nil => exact .here hle
  | cons next after ih =>
      cases hkind : next.kind with
      | equal =>
          rw [runLength_cons_of_equal hkind] at hle
          exact .here hle
      | delete =>
          rw [runLength_cons_of_change (by simp [hkind]), Edit.oldSize_eq_size (by simp [hkind]),
            ← Nat.add_assoc] at hle
          exact .pass hkind (ih hle)
      | insert =>
          rw [runLength_cons_of_change (by simp [hkind]), Edit.oldSize_eq_zero hkind,
            Nat.zero_add] at hle
          exact .join hkind (ih hle)

/-- An insertion that slid up over kept lines can slide down over them again. -/
theorem Returns.slideUp (hkept : kept.kind = .equal) (hthis : this.kind = .insert)
    (hsize : size ≤ kept.size) (hleads : ScriptLeads old new (kept :: this :: after) p q)
    (hreturns : Returns old new this (start + size) after) :
    Returns old new (this.shiftUp size) start (Cursor.keepBelow kept this size after) := by
  by_cases hle : this.old ≤ start + size
  · exact .here (Nat.sub_le_of_le_add hle)
  obtain ⟨hroom, hlanding⟩ := hleads.agrees_above hkept hthis hsize
  obtain ⟨rfl, hbelow⟩ | ⟨-, next, rest, rfl, hkind, hbelow⟩ | ⟨-, hbelow⟩ :=
    Cursor.keepBelow_cases kept this size after
  · rw [hbelow]
    exact hreturns
  · rw [hbelow]
    obtain hle' | ⟨hagrees, further⟩ := hreturns.of_cons_equal hkind
    · exact absurd hle' hle
    have hnext : next.old = kept.old + kept.size :=
      hleads.old_eq_behind hkept hthis (by simp [hkind])
    rw [← hnext] at hlanding
    have hboth : Agrees old new ⟨next.old - size, this.new - size⟩ (next.size + size) := by
      rw [Nat.add_comm]
      refine agrees_add_iff.mpr ⟨hlanding, ?_⟩
      rwa [Point.add, Nat.sub_add_cancel (by omega), Nat.sub_add_cancel hroom]
    have hpast : (this.shiftUp size).shiftDown (next.size + size) =
        this.shiftDown next.size := by
      simp only [Edit.shiftUp, Edit.shiftDown, Edit.mk.injEq, true_and, and_true]
      omega
    refine .slide hkind hboth ?_
    rw [Edit.size_growUp, hpast, Nat.add_comm next.size, ← Nat.add_assoc]
    exact further
  · have hdown : (this.shiftUp size).shiftDown size = this := by
      simp only [Edit.shiftUp, Edit.shiftDown]
      rw [Nat.sub_add_cancel (by omega), Nat.sub_add_cancel hroom]
    rw [hbelow]
    refine .slide rfl hlanding ?_
    rwa [hdown]

theorem withinRuns_keepBelow (hwithin : WithinRuns (start + size) after) :
    WithinRuns start (Cursor.keepBelow kept this size after) := by
  obtain ⟨rfl, hbelow⟩ | ⟨-, next, rest, rfl, hkind, hbelow⟩ | ⟨-, hbelow⟩ :=
    Cursor.keepBelow_cases kept this size after
  · rw [hbelow]
    exact hwithin
  · rw [withinRuns_cons_iff (by simp [hkind])] at hwithin
    rw [hbelow, withinRuns_cons_iff (by simp [hkind])]
    rwa [Edit.size_growUp, Nat.add_comm next.size, ← Nat.add_assoc]
  · rwa [hbelow, withinRuns_cons_iff (by simp)]

/-- The edits before an insertion are not recorded ahead, those after it not ahead of their runs,
and the insertion will not be ahead when it has moved down. -/
structure Recovers (old new : Array α) (cursor : Cursor) : Prop where
  behind : Behind cursor.before
  returns : Returns old new cursor.this (oldLength cursor.before) cursor.after
  within : WithinRuns (oldLength cursor.before) cursor.after

theorem Recovers.slideUp (hkept : kept.kind = .equal) (hthis : this.kind = .insert)
    (hsize : size ≤ kept.size)
    (hleads : ScriptLeads old new (Cursor.script ⟨kept :: before, this, after⟩) p q)
    (hrecovers : Recovers old new ⟨kept :: before, this, after⟩) {start : Nat}
    (hstart : start = oldLength before + (kept.size - size)) :
    Returns old new (this.shiftUp size) start (Cursor.keepBelow kept this size after) ∧
      WithinRuns start (Cursor.keepBelow kept this size after) := by
  obtain ⟨-, hreturns, hwithin⟩ := hrecovers
  rw [Cursor.script_cons] at hleads
  obtain ⟨m, -, hhere⟩ := Trace.append_iff.mp hleads
  have hlength : oldLength (kept :: before) = start + size := by
    rw [oldLength_cons_of_ne_insert (by simp [hkept])]
    omega
  rw [hlength] at hreturns hwithin
  exact ⟨hreturns.slideUp hkept hthis hsize hhere, withinRuns_keepBelow hwithin⟩

theorem Recovers.moveUp (hthis : this.kind = .insert)
    (hleads : ScriptLeads old new (Cursor.script ⟨before, this, after⟩) p q)
    (hrecovers : Recovers old new ⟨before, this, after⟩) :
    Recovers old new (Cursor.moveUp old new before this after) := by
  fun_induction Cursor.moveUp old new before this after with
  | case1 this after => exact hrecovers
  | case2 previous before this after hequal size moved after' hsize ih =>
      have hstart : oldLength before = oldLength before + (previous.size - size) := by
        rw [hsize, Nat.sub_self, Nat.add_zero]
      have hslid := hrecovers.slideUp (Edit.isEqual_iff.mp hequal) hthis Cursor.roomAbove_le hleads
        hstart
      exact ih hthis (Cursor.leads_clearAbove hequal hsize hleads)
        ⟨hrecovers.behind.2, hslid.1, hslid.2⟩
  | case3 previous before this after hequal size moved after' hsize =>
      have hkept : previous.kind = .equal := Edit.isEqual_iff.mp hequal
      have hupper : (previous.dropLast size).kind ≠ .insert := by simp [hkept]
      have hslid := hrecovers.slideUp hkept hthis Cursor.roomAbove_le hleads
        (oldLength_cons_of_ne_insert hupper)
      exact ⟨hrecovers.behind.2.cons hupper, hslid.1, hslid.2⟩
  | case4 previous before this after hequal hkind ih =>
      have hinsert : previous.kind = .insert := hkind.trans hthis
      obtain ⟨hbehind, -, hwithin⟩ := hrecovers
      rw [oldLength_cons, Edit.oldSize_eq_zero hinsert, Nat.zero_add] at hwithin
      exact ih hinsert (Cursor.leads_joinAbove hkind hleads)
        ⟨hbehind.2, .here (hbehind.1 hinsert), hwithin⟩
  | case5 previous before this after hequal hkind ih =>
      have hne : previous.kind ≠ .insert := fun h => hkind (h.trans hthis.symm)
      have hdelete : previous.kind = .delete := Edit.kind_eq_delete hequal hne
      obtain ⟨hbehind, hreturns, hwithin⟩ := hrecovers
      rw [oldLength_cons_of_ne_insert hne] at hreturns hwithin
      exact ih hthis (Cursor.leads_passAbove (by simp [hthis]) hequal hkind hleads)
        ⟨hbehind.2, .pass hdelete hreturns, (withinRuns_cons_iff hne).mpr hwithin⟩

theorem Cursor.roomBelow_eq_of_agrees (hthis : this.kind = .insert)
    (hagrees : Agrees old new ⟨kept.old, this.new⟩ kept.size) :
    roomBelow old new this kept = kept.size := by
  rw [roomBelow, if_pos hthis]
  exact runFrom_eq_of_agrees hagrees

theorem behind_keepAbove (hbehind : Behind before) :
    Behind (Cursor.keepAbove this kept size before) ∧
      oldLength (Cursor.keepAbove this kept size before) = oldLength before + size := by
  obtain ⟨rfl, habove⟩ | ⟨-, previous, rest, rfl, hkind, habove⟩ | ⟨-, habove⟩ :=
    Cursor.keepAbove_cases this kept size before
  · rw [habove]
    exact ⟨hbehind, rfl⟩
  · have hgrown : (previous.growDown size).kind ≠ .insert := by simp [hkind]
    rw [habove, oldLength_cons_of_ne_insert hgrown, oldLength_cons_of_ne_insert (by simp [hkind])]
    exact ⟨hbehind.2.cons hgrown, (Nat.add_assoc ..).symm⟩
  · rw [habove, oldLength_cons_of_ne_insert (by simp)]
    exact ⟨hbehind.cons (by simp), rfl⟩

/-- An insertion that slides down over all of the kept lines below it may go on from there. -/
theorem Recovers.slideDown (hkept : kept.kind = .equal) (hwhole : size = kept.size)
    (hrecovers : Recovers old new ⟨before, this, kept :: after⟩) :
    Recovers old new ⟨Cursor.keepAbove this kept size before, this.shiftDown size, after⟩ := by
  obtain ⟨hbehind, hreturns, hwithin⟩ := hrecovers
  obtain ⟨habove, hlength⟩ :
      Behind (Cursor.keepAbove this kept size before) ∧
        oldLength (Cursor.keepAbove this kept size before) = oldLength before + size :=
    behind_keepAbove hbehind
  rw [withinRuns_cons_iff (by simp [hkept]), ← hwhole, ← hlength] at hwithin
  refine ⟨habove, ?_, hwithin⟩
  rw [hlength]
  obtain hle | ⟨-, further⟩ := hreturns.of_cons_equal hkept
  · exact .here (Nat.add_le_add_right hle size)
  · rwa [hwhole]

/-- An insertion that kept lines stop on its way down is not recorded ahead of the place where it
stops, because it would slide over all of them if it were. -/
theorem Recovers.stopBelow (hkept : kept.kind = .equal) (hthis : this.kind = .insert)
    (hsize : size = Cursor.roomBelow old new this kept) (hpart : size ≠ kept.size)
    (hrecovers : Recovers old new ⟨before, this, kept :: after⟩) :
    (this.shiftDown size).old ≤ oldLength (Cursor.keepAbove this kept size before) ∧
      Recovers old new ⟨Cursor.keepAbove this kept size before, this.shiftDown size,
        kept.dropFirst size :: after⟩ := by
  obtain ⟨hbehind, hreturns, hwithin⟩ := hrecovers
  obtain ⟨habove, hlength⟩ :
      Behind (Cursor.keepAbove this kept size before) ∧
        oldLength (Cursor.keepAbove this kept size before) = oldLength before + size :=
    behind_keepAbove hbehind
  have hle : (this.shiftDown size).old ≤ oldLength (Cursor.keepAbove this kept size before) := by
    rw [hlength]
    obtain hle | ⟨hagrees, -⟩ := hreturns.of_cons_equal hkept
    · exact Nat.add_le_add_right hle size
    · exact absurd (hsize.trans (Cursor.roomBelow_eq_of_agrees hthis hagrees)) hpart
  have hroom : size ≤ kept.size := hsize ▸ Cursor.roomBelow_le
  rw [withinRuns_cons_iff (by simp [hkept])] at hwithin
  refine ⟨hle, habove, .here hle, (withinRuns_cons_iff (by simp [hkept])).mpr ?_⟩
  rwa [hlength, Edit.size_dropFirst, Nat.add_assoc, Nat.add_sub_cancel' hroom]

theorem Recovers.passBelow {next : Edit} (hdelete : next.kind = .delete)
    (hrecovers : Recovers old new ⟨before, this, next :: after⟩) :
    Recovers old new ⟨next :: before, this, after⟩ := by
  obtain ⟨hbehind, hreturns, hwithin⟩ := hrecovers
  have hne : next.kind ≠ .insert := by simp [hdelete]
  have hlength : oldLength (next :: before) = oldLength before + next.size :=
    oldLength_cons_of_ne_insert hne
  rw [withinRuns_cons_iff hne, ← hlength] at hwithin
  refine ⟨hbehind.cons hne, ?_, hwithin⟩
  rw [hlength]
  exact hreturns.of_cons_delete hdelete

theorem Recovers.moveDown (hthis : this.kind = .insert)
    (hrecovers : Recovers old new ⟨before, this, after⟩) :
    (Cursor.moveDown old new before this after).this.old ≤
        oldLength (Cursor.moveDown old new before this after).before ∧
      Recovers old new (Cursor.moveDown old new before this after) := by
  fun_induction Cursor.moveDown old new before this after with
  | case1 before this =>
      refine ⟨?_, hrecovers⟩
      cases hrecovers.returns with
      | here hle => exact hle
  | case2 before this next after hequal size moved before' hsize ih =>
      exact ih hthis (hrecovers.slideDown (Edit.isEqual_iff.mp hequal) hsize)
  | case3 before this next after hequal size moved before' hsize =>
      exact hrecovers.stopBelow (Edit.isEqual_iff.mp hequal) hthis rfl hsize
  | case4 before this next after hequal hkind ih =>
      have hinsert : next.kind = .insert := hkind.trans hthis
      exact ih hthis ⟨hrecovers.behind, hrecovers.returns.of_cons_insert hinsert,
        hrecovers.within.tail hinsert⟩
  | case5 before this next after hequal hkind ih =>
      have hne : next.kind ≠ .insert := fun h => hkind (h.trans hthis.symm)
      exact ih hthis (hrecovers.passBelow (Edit.kind_eq_delete hequal hne))

/-! ### Enough turns for all insertions -/

def insertions (script : List Edit) : Nat := script.countP (·.kind = .insert)

theorem insertions_cons_of_ne {edit : Edit} {script : List Edit} (hkind : edit.kind ≠ .insert) :
    insertions (edit :: script) = insertions script :=
  List.countP_cons_of_neg (by simpa using hkind)

theorem insertions_cons {edit : Edit} {script : List Edit} (hkind : edit.kind = .insert) :
    insertions (edit :: script) = insertions script + 1 :=
  List.countP_cons_of_pos (by simpa using hkind)

theorem insertions_keepBelow :
    insertions (Cursor.keepBelow kept this size after) = insertions after := by
  obtain ⟨rfl, hbelow⟩ | ⟨-, next, rest, rfl, hkind, hbelow⟩ | ⟨-, hbelow⟩ :=
    Cursor.keepBelow_cases kept this size after
  · rw [hbelow]
  · rw [hbelow, insertions_cons_of_ne (by simp [hkind]), insertions_cons_of_ne (by simp [hkind])]
  · rw [hbelow, insertions_cons_of_ne (by simp)]

theorem insertions_moveUp (hthis : this.kind = .insert) :
    insertions (Cursor.moveUp old new before this after).after = insertions after := by
  fun_induction Cursor.moveUp old new before this after with
  | case1 this after => rfl
  | case2 previous before this after hequal size moved after' hsize ih =>
      exact (ih hthis).trans insertions_keepBelow
  | case3 previous before this after hequal size moved after' hsize => exact insertions_keepBelow
  | case4 previous before this after hequal hkind ih => exact ih (hkind.trans hthis)
  | case5 previous before this after hequal hkind ih =>
      exact (ih hthis).trans (insertions_cons_of_ne fun h => hkind (h.trans hthis.symm))

theorem insertions_moveDown :
    insertions (Cursor.moveDown old new before this after).after ≤ insertions after := by
  fun_induction Cursor.moveDown old new before this after with
  | case1 before this => exact le_rfl
  | case2 before this next after hequal size moved before' hsize ih =>
      exact ih.trans ((List.sublist_cons_self next after).countP_le)
  | case3 before this next after hequal size moved before' hsize =>
      have hkept : next.kind = .equal := Edit.isEqual_iff.mp hequal
      rw [insertions_cons_of_ne (by simp [hkept]),
        insertions_cons_of_ne (by simp [hkept])]
  | case4 before this next after hequal hkind ih =>
      exact ih.trans ((List.sublist_cons_self next after).countP_le)
  | case5 before this next after hequal hkind ih =>
      exact ih.trans ((List.sublist_cons_self next after).countP_le)

theorem insertions_settle {cursor : Cursor} (hthis : cursor.this.kind = .insert) :
    insertions (cursor.settle old new).after ≤ insertions cursor.after :=
  insertions_moveDown.trans (insertions_moveUp hthis).le

theorem Recovers.settle {cursor : Cursor} (hthis : cursor.this.kind = .insert)
    (hleads : ScriptLeads old new cursor.script p q) (hrecovers : Recovers old new cursor) :
    (cursor.settle old new).this.old ≤ oldLength (cursor.settle old new).before ∧
      Recovers old new (cursor.settle old new) :=
  (hrecovers.moveUp hthis hleads).moveDown (Cursor.kind_moveUp.trans hthis)

theorem behind_append (hnone : ∀ edit ∈ after, edit.kind ≠ .insert) (hbehind : Behind before) :
    Behind (after.reverse ++ before) := by
  induction after generalizing before with
  | nil => exact hbehind
  | cons edit after ih =>
      rw [List.forall_mem_cons] at hnone
      rw [List.reverse_cons, List.append_assoc, List.singleton_append]
      exact ih hnone.2 (hbehind.cons hnone.1)

theorem seek_eq_none {kind : Edit.Kind} (hnone : Cursor.seek kind before after = none) :
    ∀ edit ∈ after, edit.kind ≠ kind := by
  induction after generalizing before with
  | nil => simp
  | cons edit after ih =>
      rw [Cursor.seek] at hnone
      split at hnone <;> rename_i hkind
      · cases hnone
      · exact List.forall_mem_cons.mpr ⟨hkind, ih hnone⟩

/-- An insertion that is sought out among edits that are not ahead of their runs is not either. -/
theorem recovers_seek {cursor : Cursor} (hfound : Cursor.seek .insert before after = some cursor)
    (hbehind : Behind before) (hwithin : WithinRuns (oldLength before) after) :
    Recovers old new cursor ∧ insertions after = insertions cursor.after + 1 := by
  induction after generalizing before with
  | nil => cases hfound
  | cons edit after ih =>
      rw [Cursor.seek] at hfound
      split at hfound <;> rename_i hkind
      · obtain rfl := Option.some.inj hfound
        exact ⟨⟨hbehind, returns_of_le_runLength (hwithin.1 hkind), hwithin.tail hkind⟩,
          insertions_cons hkind⟩
      · rw [withinRuns_cons_iff hkind, ← oldLength_cons_of_ne_insert hkind] at hwithin
        rw [insertions_cons_of_ne hkind]
        exact ih hfound (hbehind.cons hkind) hwithin

theorem behind_settleAll {turns : Nat} (hturns : insertions after ≤ turns)
    (hleads : ScriptLeads old new (before.reverse ++ after) p q) (hbehind : Behind before)
    (hwithin : WithinRuns (oldLength before) after) :
    Behind (Cursor.settleAll old new .insert turns before after).reverse := by
  induction turns generalizing before after with
  | zero =>
      rw [Cursor.settleAll, List.reverse_append, List.reverse_reverse]
      refine behind_append (fun edit hmem hkind => ?_) hbehind
      have hpos : 0 < insertions after := List.countP_pos_iff.mpr ⟨edit, hmem, by simpa using hkind⟩
      omega
  | succ turns ih =>
      rw [Cursor.settleAll]
      split <;> rename_i hfound
      · rw [List.reverse_append, List.reverse_reverse]
        exact behind_append (seek_eq_none hfound) hbehind
      · rename_i cursor
        obtain ⟨hthis, hscript⟩ := Cursor.seek_eq_some hfound
        obtain ⟨hrecovers, hcount⟩ : Recovers old new cursor ∧
            insertions after = insertions cursor.after + 1 :=
          recovers_seek hfound hbehind hwithin
        rw [← hscript] at hleads
        obtain ⟨hle, hsettled⟩ := hrecovers.settle hthis hleads
        have hkind : (cursor.settle old new).this.kind = .insert :=
          (Cursor.kind_settle cursor).trans hthis
        have hfew : insertions (cursor.settle old new).after ≤ insertions cursor.after :=
          insertions_settle hthis
        refine ih (by omega) ?_ ⟨fun _ => hle, hsettled.behind⟩ ?_
        · have hlater := Cursor.leads_settle (by simp [hthis]) hleads
          rwa [List.reverse_cons, List.append_assoc]
        · rw [oldLength_cons, Edit.oldSize_eq_zero hkind, Nat.zero_add]
          exact hsettled.within

end Insertions

/-- However far edits are moved, none comes to rest ahead of where it stands. -/
theorem settled_compact {script : List Edit} (hsettled : ScriptSettled old new script ⟨0, 0⟩ q) :
    ScriptSettled old new (compact old new script) ⟨0, 0⟩ q := by
  have hdeletions : ScriptLeads old new (settleKind old new .delete script) ⟨0, 0⟩ q :=
    leads_settleKind (by decide) hsettled.leads
  have hwithin : WithinRuns 0 (settleKind old new .delete script) :=
    withinRuns_settleAll hsettled.withinRuns
  have hbehind : Behind (compact old new script).reverse :=
    behind_settleAll le_rfl hdeletions trivial hwithin
  exact ScriptLeads.settled hbehind (leads_compact hsettled.leads)

end Hush.Diff
