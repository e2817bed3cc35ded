import Hush.Diff.Slide
import Hush.Proofs.Diff.Script

/-!
# Moved edits lead where they led

Making a script compact joins two neighbours, lets them change places, or slides an insertion over
kept lines. None of the three moves the points between which the script leads. A deletion that
changes places with an insertion may keep a wrong position on the new side, and an insertion on the
old side, but these are the sides that they take no lines from.
-/

namespace Hush.Diff

variable {α : Type} [BEq α] {old new : Array α} {p q : Point}

/-! ### The moves -/

theorem Edit.isEqual_iff {edit : Edit} : edit.isEqual = true ↔ edit.kind = .equal := beq_iff_eq

theorem Edit.kind_eq_delete {edit : Edit} (hequal : ¬edit.isEqual = true)
    (hne : edit.kind ≠ .insert) : edit.kind = .delete := by
  cases hkind : edit.kind with
  | equal => exact absurd (isEqual_iff.mpr hkind) hequal
  | delete => rfl
  | insert => exact absurd hkind hne

@[simp] theorem Edit.kind_growUp (edit : Edit) (size : Nat) :
    (edit.growUp size).kind = edit.kind := rfl

@[simp] theorem Edit.kind_growDown (edit : Edit) (size : Nat) :
    (edit.growDown size).kind = edit.kind := rfl

@[simp] theorem Edit.kind_dropFirst (edit : Edit) (size : Nat) :
    (edit.dropFirst size).kind = edit.kind := rfl

@[simp] theorem Edit.kind_dropLast (edit : Edit) (size : Nat) :
    (edit.dropLast size).kind = edit.kind := rfl

@[simp] theorem Edit.size_growUp (edit : Edit) (size : Nat) :
    (edit.growUp size).size = edit.size + size := rfl

@[simp] theorem Edit.size_dropFirst (edit : Edit) (size : Nat) :
    (edit.dropFirst size).size = edit.size - size := rfl

theorem Edit.Leads.toScript_eq {edit : Edit} (hleads : edit.Leads old new p q) :
    edit.toScript = [edit] := if_neg (Nat.ne_of_gt hleads.size_pos)

theorem Edit.Leads.old_eq_of_insert {edit : Edit} (hleads : edit.Leads old new p q)
    (hkind : edit.kind = .insert) : q.old = p.old := by
  simp [hleads.target_eq, oldSize, hkind]

theorem Edit.Leads.new_eq_of_delete {edit : Edit} (hleads : edit.Leads old new p q)
    (hkind : edit.kind = .delete) : q.new = p.new := by
  simp [hleads.target_eq, newSize, hkind]

/-- Of two changes of different kinds, one inserts exactly when the other does not, and one deletes
exactly when the other does not. -/
theorem Edit.Kind.opposed {first second : Edit.Kind} (hfirst : first ≠ .equal)
    (hsecond : second ≠ .equal) (hkind : first ≠ second) :
    (first = .insert ↔ second ≠ .insert) ∧ (first = .delete ↔ second ≠ .delete) := by
  cases first <;> cases second <;> simp_all

theorem leads_kept {i j size : Nat} (hagrees : Agrees old new ⟨i, j⟩ size) :
    ScriptLeads old new (Edit.mk .equal i j size).toScript ⟨i, j⟩ ⟨i + size, j + size⟩ := by
  have hfits : (Edit.mk .equal i j size).Fits old new ⟨i, j⟩ :=
    ⟨fun _ => rfl, fun _ => rfl, fun _ => hagrees⟩
  exact (hfits.settled_toScript le_rfl).leads

theorem Edit.leads_insert_iff {edit : Edit} (hkind : edit.kind = .insert) :
    edit.Leads old new p q ↔ edit.new = p.new ∧ 0 < edit.size ∧ q = p.add 0 edit.size := by
  constructor
  · intro hleads
    have htarget := hleads.target_eq
    rw [oldSize, newSize, if_pos hkind, if_neg (by simp [hkind])] at htarget
    exact ⟨hleads.new_eq (by simp [hkind]), hleads.size_pos, htarget⟩
  · rintro ⟨hnew, hpos, htarget⟩
    exact ⟨⟨fun hkeeps => absurd hkind hkeeps, fun _ => hnew,
      fun hequal => by simp [hkind] at hequal⟩, hpos,
      by simpa [oldSize, newSize, hkind] using htarget⟩

theorem Edit.leads_delete_iff {edit : Edit} (hkind : edit.kind = .delete) :
    edit.Leads old new p q ↔ edit.old = p.old ∧ 0 < edit.size ∧ q = p.add edit.size 0 := by
  constructor
  · intro hleads
    have htarget := hleads.target_eq
    rw [oldSize, newSize, if_neg (by simp [hkind]), if_pos hkind] at htarget
    exact ⟨hleads.old_eq (by simp [hkind]), hleads.size_pos, htarget⟩
  · rintro ⟨hold, hpos, htarget⟩
    exact ⟨⟨fun _ => hold, fun hkeeps => absurd hkind hkeeps,
      fun hequal => by simp [hkind] at hequal⟩, hpos,
      by simpa [oldSize, newSize, hkind] using htarget⟩

theorem Edit.Leads.of_equal {edit : Edit} (hkind : edit.kind = .equal)
    (hleads : edit.Leads old new p q) :
    edit = ⟨.equal, p.old, p.new, edit.size⟩ ∧ q = p.add edit.size edit.size ∧
      Agrees old new p edit.size := by
  obtain ⟨kind, i, j, size⟩ := edit
  obtain rfl : kind = .equal := hkind
  have hold : i = p.old := hleads.old_eq nofun
  have hnew : j = p.new := hleads.new_eq nofun
  exact ⟨by rw [hold, hnew], hleads.target_eq, hleads.agrees rfl⟩

section Moves

variable {first second kept this : Edit} {after : List Edit} {size : Nat}

theorem ScriptLeads.merge (hkind : first.kind = second.kind)
    (hleads : ScriptLeads old new (first :: second :: after) p q) :
    ScriptLeads old new (first.growDown second.size :: after) p q := by
  obtain ⟨m, hfirst, hrest⟩ := Trace.cons_iff.mp hleads
  obtain ⟨r, hsecond, hafter⟩ := Trace.cons_iff.mp hrest
  refine .cons ⟨⟨hfirst.old_eq, hfirst.new_eq, fun hequal => ?_⟩, ?_, ?_⟩ hafter
  · have hm := hfirst.target_eq
    rw [Edit.oldSize, Edit.newSize, show first.kind = .equal from hequal] at hm
    refine agrees_add_iff.mpr ⟨hfirst.agrees hequal, ?_⟩
    have hagrees := hsecond.agrees (hkind.symm.trans hequal)
    rwa [hm] at hagrees
  · exact Nat.add_pos_left hfirst.size_pos _
  · rw [hsecond.target_eq, hfirst.target_eq, Point.add_add]
    cases hfirstKind : first.kind <;>
      simp [Edit.oldSize, Edit.newSize, Edit.growDown, ← hkind, hfirstKind]

/-- Kept lines joined to the kept lines after them. -/
theorem ScriptLeads.growUp (hfirst : first.kind = .equal) (hsecond : second.kind = .equal)
    (hleads : ScriptLeads old new (first :: second :: after) p q) :
    ScriptLeads old new (second.growUp first.size :: after) p q := by
  obtain ⟨m, hleadsFirst, hrest⟩ := Trace.cons_iff.mp hleads
  obtain ⟨r, hleadsSecond, -⟩ := Trace.cons_iff.mp hrest
  obtain ⟨hfirstEq, rfl, -⟩ := hleadsFirst.of_equal hfirst
  obtain ⟨hsecondEq, -, -⟩ := hleadsSecond.of_equal hsecond
  have hgrown : second.growUp first.size = first.growDown second.size := by
    rw [hsecondEq, hfirstEq]
    simp [Edit.growUp, Edit.growDown, Edit.shiftUp, Nat.add_comm]
  rw [hgrown]
  exact hleads.merge (hfirst.trans hsecond.symm)

/-- Neither edit takes lines from the side that the other one takes them from. -/
theorem ScriptLeads.swap (hfirst : first.kind ≠ .equal) (hsecond : second.kind ≠ .equal)
    (hkind : first.kind ≠ second.kind)
    (hleads : ScriptLeads old new (first :: second :: after) p q) :
    ScriptLeads old new (second :: first :: after) p q := by
  obtain ⟨m, hleadsFirst, hrest⟩ := Trace.cons_iff.mp hleads
  obtain ⟨r, hleadsSecond, hafter⟩ := Trace.cons_iff.mp hrest
  obtain ⟨hinsert, hdelete⟩ := Edit.Kind.opposed hfirst hsecond hkind
  have hturned : r = (p.add second.oldSize second.newSize).add first.oldSize first.newSize := by
    rw [hleadsSecond.target_eq, hleadsFirst.target_eq, Point.add_add, Point.add_add,
      Nat.add_comm first.oldSize, Nat.add_comm first.newSize]
  refine .cons ⟨⟨fun hkeeps => ?_, fun hkeeps => ?_, fun hequal => absurd hequal hsecond⟩,
    hleadsSecond.size_pos, rfl⟩
    (.cons ⟨⟨fun hkeeps => ?_, fun hkeeps => ?_, fun hequal => absurd hequal hfirst⟩,
      hleadsFirst.size_pos, hturned⟩ hafter)
  · rw [hleadsSecond.old_eq hkeeps, hleadsFirst.old_eq_of_insert (hinsert.mpr hkeeps)]
  · rw [hleadsSecond.new_eq hkeeps, hleadsFirst.new_eq_of_delete (hdelete.mpr hkeeps)]
  · have hinserts : second.kind = .insert := by_contra fun h => hkeeps (hinsert.mpr h)
    rw [hleadsFirst.old_eq hkeeps, Point.old_add, Edit.oldSize, if_pos hinserts, Nat.add_zero]
  · have hdeletes : second.kind = .delete := by_contra fun h => hkeeps (hdelete.mpr h)
    rw [hleadsFirst.new_eq hkeeps, Point.new_add, Edit.newSize, if_pos hdeletes, Nat.add_zero]

/-- The last of the kept lines above an insertion are the new lines just before it. -/
theorem ScriptLeads.agrees_above (hkept : kept.kind = .equal) (hthis : this.kind = .insert)
    (hsize : size ≤ kept.size) (hleads : ScriptLeads old new (kept :: this :: after) p q) :
    size ≤ this.new ∧ Agrees old new ⟨kept.old + kept.size - size, this.new - size⟩ size := by
  obtain ⟨m, hleadsKept, hrest⟩ := Trace.cons_iff.mp hleads
  obtain ⟨r, hleadsThis, -⟩ := Trace.cons_iff.mp hrest
  obtain ⟨hkeptEq, rfl, hagrees⟩ := hleadsKept.of_equal hkept
  obtain ⟨left, hleft⟩ := Nat.exists_eq_add_of_le' hsize
  have hold : kept.old = p.old := congrArg Edit.old hkeptEq
  have hnew : this.new = p.new + kept.size := ((Edit.leads_insert_iff hthis).mp hleadsThis).1
  have holdStart : kept.old + kept.size - size = p.old + left := by omega
  have hnewStart : this.new - size = p.new + left := by omega
  refine ⟨by omega, ?_⟩
  rw [holdStart, hnewStart]
  rw [hleft] at hagrees
  exact (agrees_add_iff.mp hagrees).2

/-- An insertion takes no old lines, so those after it go on where the kept lines above it end. -/
theorem ScriptLeads.old_eq_behind (hkept : kept.kind = .equal) (hthis : this.kind = .insert)
    {next : Edit} (hnext : next.kind ≠ .insert)
    (hleads : ScriptLeads old new (kept :: this :: next :: after) p q) :
    next.old = kept.old + kept.size := by
  obtain ⟨m, hleadsKept, hrest⟩ := Trace.cons_iff.mp hleads
  obtain ⟨r, hleadsThis, hbehind⟩ := Trace.cons_iff.mp hrest
  obtain ⟨s, hleadsNext, -⟩ := Trace.cons_iff.mp hbehind
  obtain ⟨hkeptEq, rfl, -⟩ := hleadsKept.of_equal hkept
  rw [hleadsNext.old_eq hnext, hleadsThis.old_eq_of_insert hthis, congrArg Edit.old hkeptEq]
  rfl

/-- An insertion slides up over kept lines when as many lines at its end agree with them. -/
theorem ScriptLeads.slideUp (hkept : kept.kind = .equal) (hthis : this.kind = .insert)
    (hsize : size ≤ kept.size)
    (hagrees : Agrees old new
      ⟨kept.old + kept.size - size, this.new + this.size - size⟩ size)
    (hleads : ScriptLeads old new (kept :: this :: after) p q) :
    ScriptLeads old new ((kept.dropLast size).toScript ++ this.shiftUp size ::
      ((Edit.mk .equal (kept.old + kept.size - size) (this.new + this.size - size) size).toScript ++
        after)) p q := by
  obtain ⟨m, hleadsKept, hrest⟩ := Trace.cons_iff.mp hleads
  obtain ⟨r, hleadsThis, hafter⟩ := Trace.cons_iff.mp hrest
  obtain ⟨hkeptEq, rfl, hkeptAgrees⟩ := hleadsKept.of_equal hkept
  obtain ⟨left, hleft⟩ := Nat.exists_eq_add_of_le' hsize
  obtain ⟨hnew, hpos, hr⟩ := (Edit.leads_insert_iff hthis).mp hleadsThis
  rw [Point.new_add, hleft, ← Nat.add_assoc] at hnew
  replace hr : r = ⟨p.old + left + size, p.new + left + this.size + size⟩ := by
    simp only [hr, hleft, Point.add, Point.mk.injEq]
    omega
  have hupper : (kept.dropLast size).toScript = (Edit.mk .equal p.old p.new left).toScript := by
    rw [hkeptEq, Edit.dropLast, hleft, Nat.add_sub_cancel]
  have hold : kept.old + kept.size - size = p.old + left := by
    rw [congrArg Edit.old hkeptEq, hleft, ← Nat.add_assoc, Nat.add_sub_cancel]
  have hlower : this.new + this.size - size = p.new + left + this.size := by omega
  rw [hold, hlower] at hagrees ⊢
  rw [hupper]
  have hmoved : (this.shiftUp size).Leads old new ⟨p.old + left, p.new + left⟩
      ⟨p.old + left, p.new + left + this.size⟩ :=
    (Edit.leads_insert_iff (by exact hthis)).mpr ⟨Nat.sub_eq_of_eq_add hnew, hpos, rfl⟩
  refine (leads_kept ?_).append (.cons hmoved ((leads_kept hagrees).append ?_))
  · rw [hleft] at hkeptAgrees
    exact (agrees_add_iff.mp hkeptAgrees).1
  · rwa [hr] at hafter

/-- An insertion slides down over kept lines when as many lines at its start agree with them. -/
theorem ScriptLeads.slideDown (hthis : this.kind = .insert) (hkept : kept.kind = .equal)
    (hsize : size ≤ kept.size) (hagrees : Agrees old new ⟨kept.old, this.new⟩ size)
    (hleads : ScriptLeads old new (this :: kept :: after) p q) :
    ScriptLeads old new ((Edit.mk .equal kept.old this.new size).toScript ++ this.shiftDown size ::
      ((kept.dropFirst size).toScript ++ after)) p q := by
  obtain ⟨m, hleadsThis, hrest⟩ := Trace.cons_iff.mp hleads
  obtain ⟨r, hleadsKept, hafter⟩ := Trace.cons_iff.mp hrest
  obtain ⟨hkeptEq, rfl, hkeptAgrees⟩ := hleadsKept.of_equal hkept
  obtain ⟨left, hleft⟩ := Nat.exists_eq_add_of_le hsize
  obtain ⟨hnew, hpos, hm⟩ := (Edit.leads_insert_iff hthis).mp hleadsThis
  have hold : kept.old = p.old := by rw [congrArg Edit.old hkeptEq, hm, Point.old_add, Nat.add_zero]
  have hlower : (kept.dropFirst size).toScript =
      (Edit.mk .equal (p.old + size) (p.new + size + this.size) left).toScript := by
    rw [hkeptEq, Edit.dropFirst, hleft, Nat.add_sub_cancel_left, hm, Nat.add_right_comm p.new]
    rfl
  rw [hold, hnew] at hagrees ⊢
  rw [hlower]
  have hmoved : (this.shiftDown size).Leads old new ⟨p.old + size, p.new + size⟩
      ⟨p.old + size, p.new + size + this.size⟩ :=
    (Edit.leads_insert_iff (by exact hthis)).mpr ⟨congrArg (· + size) hnew, hpos, rfl⟩
  refine (leads_kept hagrees).append (.cons hmoved (.append (leads_kept ?_) ?_))
  · rw [hleft] at hkeptAgrees
    have hrest := (agrees_add_iff.mp hkeptAgrees).2
    simpa only [hm, Point.add, Nat.add_right_comm p.new, Nat.add_zero] using hrest
  · rw [hm, hleft, ← Point.add_add] at hafter
    simpa only [Point.add, Nat.add_right_comm p.new, Nat.add_zero] using hafter

end Moves

/-! ### The walks -/

namespace Cursor

variable {before after : List Edit} {this kept : Edit} {kind : Edit.Kind}

theorem roomAbove_le : roomAbove old new kept this ≤ kept.size := by
  unfold roomAbove
  split
  · exact runBefore_le.1
  · exact Nat.zero_le _

theorem roomBelow_le : roomBelow old new this kept ≤ kept.size := by
  unfold roomBelow
  split
  · exact runFrom_le
  · exact Nat.zero_le _

theorem keepBelow_cases (kept this : Edit) (size : Nat) (after : List Edit) :
    (size = 0 ∧ keepBelow kept this size after = after) ∨
      (size ≠ 0 ∧ ∃ next rest, after = next :: rest ∧ next.kind = .equal ∧
        keepBelow kept this size after = next.growUp size :: rest) ∨
      (size ≠ 0 ∧ keepBelow kept this size after =
        ⟨.equal, kept.old + kept.size - size, this.new + this.size - size, size⟩ :: after) := by
  unfold keepBelow
  split <;> rename_i hsize
  · exact .inl ⟨hsize, rfl⟩
  split
  · exact .inr (.inr ⟨hsize, rfl⟩)
  split <;> rename_i hnext
  · exact .inr (.inl ⟨hsize, _, _, rfl, Edit.isEqual_iff.mp hnext, rfl⟩)
  · exact .inr (.inr ⟨hsize, rfl⟩)

theorem keepAbove_cases (this kept : Edit) (size : Nat) (before : List Edit) :
    (size = 0 ∧ keepAbove this kept size before = before) ∨
      (size ≠ 0 ∧ ∃ previous rest, before = previous :: rest ∧ previous.kind = .equal ∧
        keepAbove this kept size before = previous.growDown size :: rest) ∨
      (size ≠ 0 ∧ keepAbove this kept size before =
        ⟨.equal, kept.old, this.new, size⟩ :: before) := by
  unfold keepAbove
  split <;> rename_i hsize
  · exact .inl ⟨hsize, rfl⟩
  split
  · exact .inr (.inr ⟨hsize, rfl⟩)
  split <;> rename_i hprevious
  · exact .inr (.inl ⟨hsize, _, _, rfl, Edit.isEqual_iff.mp hprevious, rfl⟩)
  · exact .inr (.inr ⟨hsize, rfl⟩)

theorem leads_keepBelow {size : Nat}
    (hleads : ScriptLeads old new ((Edit.mk .equal (kept.old + kept.size - size)
      (this.new + this.size - size) size).toScript ++ after) p q) :
    ScriptLeads old new (keepBelow kept this size after) p q := by
  unfold Edit.toScript at hleads
  obtain ⟨hsize, hbelow⟩ | ⟨hsize, next, rest, rfl, hnext, hbelow⟩ | ⟨hsize, hbelow⟩ :=
    keepBelow_cases kept this size after
  · rw [hbelow]
    rwa [if_pos hsize] at hleads
  · rw [if_neg hsize] at hleads
    rw [hbelow]
    exact hleads.growUp rfl hnext
  · rw [hbelow]
    rwa [if_neg hsize] at hleads

theorem leads_keepAbove {size : Nat}
    (hleads : ScriptLeads old new (before.reverse ++
      (Edit.mk .equal kept.old this.new size).toScript) p q) :
    ScriptLeads old new (keepAbove this kept size before).reverse p q := by
  unfold Edit.toScript at hleads
  obtain ⟨hsize, habove⟩ | ⟨hsize, previous, rest, rfl, hprevious, habove⟩ | ⟨hsize, habove⟩ :=
    keepAbove_cases this kept size before
  · rw [habove]
    rwa [if_pos hsize, List.append_nil] at hleads
  · rw [if_neg hsize, List.reverse_cons, List.append_assoc] at hleads
    obtain ⟨m, hrest, hends⟩ := Trace.append_iff.mp hleads
    rw [habove, List.reverse_cons]
    exact hrest.append (ScriptLeads.merge hprevious hends)
  · rw [habove, List.reverse_cons]
    rwa [if_neg hsize] at hleads

/-- Above an insertion there is room for as many lines as agree. Above a deletion there is none, and
nothing changes. -/
theorem leads_slideUp (hkept : kept.kind = .equal)
    (hleads : ScriptLeads old new (kept :: this :: after) p q) :
    ScriptLeads old new ((kept.dropLast (roomAbove old new kept this)).toScript ++
      this.shiftUp (roomAbove old new kept this) ::
        keepBelow kept this (roomAbove old new kept this) after) p q := by
  by_cases hthis : this.kind = .insert
  · have hagrees : Agrees old new ⟨kept.old + kept.size - roomAbove old new kept this,
        this.new + this.size - roomAbove old new kept this⟩ (roomAbove old new kept this) := by
      rw [roomAbove, if_pos hthis]
      exact agrees_runBefore
    have hparts := hleads.slideUp hkept hthis roomAbove_le hagrees
    obtain ⟨m, habove, hrest⟩ := Trace.append_iff.mp hparts
    obtain ⟨r, hmoved, hbelow⟩ := Trace.cons_iff.mp hrest
    exact habove.append (.cons hmoved (leads_keepBelow hbelow))
  · obtain ⟨m, hleadsKept, hrest⟩ := Trace.cons_iff.mp hleads
    have htoScript : (kept.dropLast 0).toScript = [kept] := hleadsKept.toScript_eq
    rw [roomAbove, if_neg hthis, htoScript]
    exact hleads

/-- Below an insertion there is room for as many lines as agree. Below a deletion there is none, and
nothing changes. -/
theorem leads_slideDown (hkept : kept.kind = .equal)
    (hleads : ScriptLeads old new (before.reverse ++ this :: kept :: after) p q) :
    ScriptLeads old new ((keepAbove this kept (roomBelow old new this kept) before).reverse ++
      this.shiftDown (roomBelow old new this kept) ::
        ((kept.dropFirst (roomBelow old new this kept)).toScript ++ after)) p q := by
  obtain ⟨m, hbefore, hhere⟩ := Trace.append_iff.mp hleads
  by_cases hthis : this.kind = .insert
  · have hagrees : Agrees old new ⟨kept.old, this.new⟩ (roomBelow old new this kept) := by
      rw [roomBelow, if_pos hthis]
      exact agrees_runFrom
    have hparts := ScriptLeads.slideDown hthis hkept roomBelow_le hagrees hhere
    obtain ⟨r, habove, hrest⟩ := Trace.append_iff.mp hparts
    exact (leads_keepAbove (hbefore.append habove)).append hrest
  · obtain ⟨r, -, hrest⟩ := Trace.cons_iff.mp hhere
    obtain ⟨s, hleadsKept, -⟩ := Trace.cons_iff.mp hrest
    have htoScript : (kept.dropFirst 0).toScript = [kept] := hleadsKept.toScript_eq
    rw [roomBelow, if_neg hthis, htoScript]
    exact hleads

theorem script_cons {previous : Edit} :
    script ⟨previous :: before, this, after⟩ = before.reverse ++ previous :: this :: after := by
  simp [script]

theorem kind_moveUp : (moveUp old new before this after).this.kind = this.kind := by
  fun_induction moveUp old new before this after with
  | case1 this after => rfl
  | case2 previous before this after hequal size moved after' hsize ih => exact ih
  | case3 previous before this after hequal size moved after' hsize => rfl
  | case4 previous before this after hequal hkind ih => exact ih.trans hkind
  | case5 previous before this after hequal hkind ih => exact ih

theorem kind_moveDown : (moveDown old new before this after).this.kind = this.kind := by
  fun_induction moveDown old new before this after with
  | case1 before this => rfl
  | case2 before this next after hequal size moved before' hsize ih => exact ih
  | case3 before this next after hequal size moved before' hsize => rfl
  | case4 before this next after hequal hkind ih => exact ih
  | case5 before this next after hequal hkind ih => exact ih

theorem kind_settle (cursor : Cursor) : (cursor.settle old new).this.kind = cursor.this.kind :=
  kind_moveDown.trans kind_moveUp

/-! ### Moves up and down -/

theorem leads_clearAbove (hkept : kept.isEqual = true)
    (hwhole : roomAbove old new kept this = kept.size)
    (hleads : ScriptLeads old new (script ⟨kept :: before, this, after⟩) p q) :
    ScriptLeads old new (script ⟨before, this.shiftUp (roomAbove old new kept this),
      keepBelow kept this (roomAbove old new kept this) after⟩) p q := by
  rw [script_cons] at hleads
  obtain ⟨m, hbefore, hhere⟩ := Trace.append_iff.mp hleads
  have hslid := leads_slideUp (Edit.isEqual_iff.mp hkept) hhere
  have hnone : (kept.dropLast (roomAbove old new kept this)).toScript = [] := by
    rw [Edit.toScript, if_pos]
    exact Nat.sub_eq_zero_of_le (Nat.le_of_eq hwhole.symm)
  rw [hnone] at hslid
  exact hbefore.append hslid

theorem leads_joinAbove {previous : Edit} (hkind : previous.kind = this.kind)
    (hleads : ScriptLeads old new (script ⟨previous :: before, this, after⟩) p q) :
    ScriptLeads old new (script ⟨before, previous.growDown this.size, after⟩) p q := by
  rw [script_cons] at hleads
  obtain ⟨m, hbefore, hhere⟩ := Trace.append_iff.mp hleads
  exact hbefore.append (ScriptLeads.merge hkind hhere)

theorem leads_passAbove {previous : Edit} (hthis : this.kind ≠ .equal)
    (hequal : ¬previous.isEqual = true) (hkind : ¬previous.kind = this.kind)
    (hleads : ScriptLeads old new (script ⟨previous :: before, this, after⟩) p q) :
    ScriptLeads old new (script ⟨before, this, previous :: after⟩) p q := by
  rw [script_cons] at hleads
  obtain ⟨m, hbefore, hhere⟩ := Trace.append_iff.mp hleads
  have hprevious : previous.kind ≠ .equal := fun h => hequal (Edit.isEqual_iff.mpr h)
  exact hbefore.append (ScriptLeads.swap hprevious hthis hkind hhere)

theorem leads_moveUp (hthis : this.kind ≠ .equal)
    (hleads : ScriptLeads old new (script ⟨before, this, after⟩) p q) :
    ScriptLeads old new (moveUp old new before this after).script p q := by
  fun_induction moveUp old new before this after with
  | case1 this after => exact hleads
  | case2 previous before this after hequal size moved after' hsize ih =>
      exact ih hthis (leads_clearAbove hequal hsize hleads)
  | case3 previous before this after hequal size moved after' hsize =>
      rw [script_cons] at hleads
      obtain ⟨m, hbefore, hhere⟩ := Trace.append_iff.mp hleads
      have hslid := leads_slideUp (Edit.isEqual_iff.mp hequal) hhere
      have hsome : (previous.dropLast size).toScript = [previous.dropLast size] := by
        rw [Edit.toScript, if_neg]
        have : size ≤ previous.size := roomAbove_le
        simp only [Edit.dropLast]
        omega
      rw [show roomAbove old new previous this = size from rfl, hsome] at hslid
      rw [script_cons]
      exact hbefore.append hslid
  | case4 previous before this after hequal hkind ih =>
      exact ih (hkind ▸ hthis) (leads_joinAbove hkind hleads)
  | case5 previous before this after hequal hkind ih =>
      exact ih hthis (leads_passAbove hthis hequal hkind hleads)

theorem leads_moveDown (hthis : this.kind ≠ .equal)
    (hleads : ScriptLeads old new (script ⟨before, this, after⟩) p q) :
    ScriptLeads old new (moveDown old new before this after).script p q := by
  fun_induction moveDown old new before this after with
  | case1 before this => exact hleads
  | case2 before this next after hequal size moved before' hsize ih =>
      have hslid := leads_slideDown (Edit.isEqual_iff.mp hequal) hleads
      have hnone : (next.dropFirst size).toScript = [] := by
        rw [Edit.toScript, if_pos]
        exact Nat.sub_eq_zero_of_le (Nat.le_of_eq hsize.symm)
      rw [show roomBelow old new this next = size from rfl, hnone] at hslid
      exact ih hthis hslid
  | case3 before this next after hequal size moved before' hsize =>
      have hslid := leads_slideDown (Edit.isEqual_iff.mp hequal) hleads
      have hsome : (next.dropFirst size).toScript = [next.dropFirst size] := by
        rw [Edit.toScript, if_neg]
        have : size ≤ next.size := roomBelow_le
        simp only [Edit.dropFirst]
        omega
      rw [show roomBelow old new this next = size from rfl, hsome] at hslid
      exact hslid
  | case4 before this next after hequal hkind ih =>
      obtain ⟨m, hbefore, hhere⟩ := Trace.append_iff.mp hleads
      exact ih hthis (hbefore.append (ScriptLeads.merge hkind.symm hhere))
  | case5 before this next after hequal hkind ih =>
      obtain ⟨m, hbefore, hhere⟩ := Trace.append_iff.mp hleads
      have hnext : next.kind ≠ .equal := fun h => hequal (Edit.isEqual_iff.mpr h)
      rw [script_cons] at ih
      exact ih hthis (hbefore.append (ScriptLeads.swap hthis hnext (Ne.symm hkind) hhere))

/-! ### The whole script -/

theorem leads_settle {cursor : Cursor} (hthis : cursor.this.kind ≠ .equal)
    (hleads : ScriptLeads old new cursor.script p q) :
    ScriptLeads old new (cursor.settle old new).script p q := by
  have hraised : (moveUp old new cursor.before cursor.this cursor.after).this.kind ≠ .equal := by
    rwa [kind_moveUp]
  exact leads_moveDown hraised (leads_moveUp hthis hleads)

theorem seek_eq_some {cursor : Cursor} (hfound : seek kind before after = some cursor) :
    cursor.this.kind = kind ∧ cursor.script = before.reverse ++ after := by
  induction after generalizing before with
  | nil => cases hfound
  | cons edit after ih =>
      rw [seek] at hfound
      split at hfound <;> rename_i hkind
      · obtain rfl := Option.some.inj hfound
        exact ⟨hkind, rfl⟩
      · simpa using ih hfound

theorem leads_settleAll {turns : Nat} (hkind : kind ≠ .equal)
    (hleads : ScriptLeads old new (before.reverse ++ after) p q) :
    ScriptLeads old new (settleAll old new kind turns before after) p q := by
  induction turns generalizing before after with
  | zero => exact hleads
  | succ turns ih =>
      rw [settleAll]
      split
      · exact hleads
      · rename_i cursor hfound
        obtain ⟨hthis, hscript⟩ := seek_eq_some hfound
        have hsettled := leads_settle (hthis ▸ hkind) (hscript ▸ hleads)
        refine ih ?_
        rwa [List.reverse_cons, List.append_assoc]

end Cursor

theorem leads_settleKind {script : List Edit} {kind : Edit.Kind} (hkind : kind ≠ .equal)
    (hleads : ScriptLeads old new script p q) :
    ScriptLeads old new (settleKind old new kind script) p q :=
  Cursor.leads_settleAll hkind hleads

/-- However far edits are moved, the script leads where it led. -/
theorem leads_compact {script : List Edit} (hleads : ScriptLeads old new script p q) :
    ScriptLeads old new (compact old new script) p q :=
  leads_settleKind (by decide) (leads_settleKind (by decide) hleads)

end Hush.Diff
