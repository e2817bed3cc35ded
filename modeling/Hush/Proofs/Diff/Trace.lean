import Hush.Diff.Agreement
import Mathlib.Data.List.Basic
import Mathlib.Order.Monotone.Basic

/-!
# From point to point

A script is read in two sequences at once. Each item of it leads from a pair of positions to a
later pair, and the next item goes on from there. What the items are, edits or blocks or whole
hunks, plays no part in how such readings are cut and joined.
-/

namespace Hush.Diff

/-- A position in the old sequence and one in the new. -/
@[ext]
structure Point where
  old : Nat
  new : Nat

namespace Point

def add (p : Point) (old new : Nat) : Point := ⟨p.old + old, p.new + new⟩

@[simp] theorem old_add (p : Point) (old new : Nat) : (p.add old new).old = p.old + old := rfl

@[simp] theorem new_add (p : Point) (old new : Nat) : (p.add old new).new = p.new + new := rfl

@[simp] theorem add_zero (p : Point) : p.add 0 0 = p := rfl

theorem add_add (p : Point) (old new old' new' : Nat) :
    (p.add old new).add old' new' = p.add (old + old') (new + new') := by
  simp [add, Nat.add_assoc]

/-- One point comes before another on both sides. -/
instance : Preorder Point where
  le p q := p.old ≤ q.old ∧ p.new ≤ q.new
  le_refl p := ⟨Nat.le_refl p.old, Nat.le_refl p.new⟩
  le_trans _ _ _ hpq hqr := ⟨Nat.le_trans hpq.1 hqr.1, Nat.le_trans hpq.2 hqr.2⟩

theorem le_add (p : Point) (old new : Nat) : p ≤ p.add old new :=
  ⟨Nat.le_add_right p.old old, Nat.le_add_right p.new new⟩

theorem monotone_old : Monotone Point.old := fun _ _ hle => hle.1

theorem monotone_new : Monotone Point.new := fun _ _ hle => hle.2

end Point

/-- The items lead from one point to another, each of them on from where the one before it ends. -/
inductive Trace {β : Type} (Leads : β → Point → Point → Prop) : List β → Point → Point → Prop
  | nil (p : Point) : Trace Leads [] p p
  | cons {item : β} {items : List β} {p q r : Point} (head : Leads item p q)
      (tail : Trace Leads items q r) : Trace Leads (item :: items) p r

namespace Trace

variable {β γ : Type} {Leads : β → Point → Point → Prop} {item : β} {items others : List β}
  {p q r : Point}

theorem nil_iff : Trace Leads [] p q ↔ p = q := by
  constructor
  · rintro ⟨⟩
    rfl
  · rintro rfl
    exact .nil p

theorem cons_iff :
    Trace Leads (item :: items) p r ↔ ∃ q, Leads item p q ∧ Trace Leads items q r := by
  constructor
  · rintro ⟨⟩
    exact ⟨_, by assumption, by assumption⟩
  · rintro ⟨q, hhead, htail⟩
    exact .cons hhead htail

theorem singleton_iff : Trace Leads [item] p q ↔ Leads item p q := by
  simp [cons_iff, nil_iff]

theorem append_iff :
    Trace Leads (items ++ others) p r ↔ ∃ q, Trace Leads items p q ∧ Trace Leads others q r := by
  induction items generalizing p with
  | nil => simp [nil_iff]
  | cons item items ih =>
      simp only [List.cons_append, cons_iff, ih]
      constructor
      · rintro ⟨mid, hhead, q, htail, hothers⟩
        exact ⟨q, ⟨mid, hhead, htail⟩, hothers⟩
      · rintro ⟨q, ⟨mid, hhead, htail⟩, hothers⟩
        exact ⟨mid, hhead, q, htail, hothers⟩

theorem append (hitems : Trace Leads items p q) (hothers : Trace Leads others q r) :
    Trace Leads (items ++ others) p r := append_iff.mpr ⟨q, hitems, hothers⟩

theorem le (hle : ∀ {item p q}, Leads item p q → p ≤ q) (hitems : Trace Leads items p q) :
    p ≤ q := by
  induction hitems with
  | nil p => exact le_refl p
  | cons head _ ih => exact le_trans (hle head) ih

theorem exists_of_mem (hle : ∀ {item p q}, Leads item p q → p ≤ q)
    (hitems : Trace Leads items p r) (hmem : item ∈ items) :
    ∃ q s, Leads item q s ∧ s ≤ r := by
  obtain ⟨before, after, rfl⟩ := List.append_of_mem hmem
  obtain ⟨q, -, hrest⟩ := append_iff.mp hitems
  obtain ⟨s, hhead, htail⟩ := cons_iff.mp hrest
  exact ⟨q, s, hhead, htail.le hle⟩

theorem exists_getLast (hitems : Trace Leads items p r) (hne : items ≠ []) :
    ∃ q, Leads (items.getLast hne) q r := by
  rw [← List.dropLast_append_getLast hne] at hitems
  obtain ⟨q, -, hlast⟩ := append_iff.mp hitems
  exact ⟨q, singleton_iff.mp hlast⟩

theorem mono {Leads' : β → Point → Point → Prop}
    (himp : ∀ {item p q}, Leads item p q → Leads' item p q) (hitems : Trace Leads items p q) :
    Trace Leads' items p q := by
  induction hitems with
  | nil p => exact .nil p
  | cons head _ ih => exact .cons (himp head) ih

/-- Items that have images on the same way have them all along it. -/
theorem exists_map {δ : Type} {Leads' : γ → Point → Point → Prop} {f : β → δ} {g : γ → δ}
    (hle : ∀ {item p q}, Leads item p q → p ≤ q) (hitems : Trace Leads items p r)
    (himage : ∀ item ∈ items, ∀ {q s}, s ≤ r → Leads item q s →
      ∃ image, g image = f item ∧ Leads' image q s) :
    ∃ images, images.map g = items.map f ∧ Trace Leads' images p r := by
  induction items generalizing p with
  | nil => exact ⟨[], rfl, nil_iff.mpr (nil_iff.mp hitems)⟩
  | cons item items ih =>
      rw [List.forall_mem_cons] at himage
      obtain ⟨q, hhead, htail⟩ := cons_iff.mp hitems
      obtain ⟨image, heq, hleads⟩ := himage.1 (htail.le hle) hhead
      obtain ⟨images, hmap, htrace⟩ := ih htail himage.2
      exact ⟨image :: images, by rw [List.map_cons, List.map_cons, heq, hmap],
        .cons hleads htrace⟩

theorem flatten_iff {lists : List (List β)} :
    Trace Leads lists.flatten p q ↔ Trace (Trace Leads) lists p q := by
  induction lists generalizing p with
  | nil => simp [nil_iff]
  | cons items lists ih => simp only [List.flatten_cons, append_iff, cons_iff, ih]

end Trace

section Agrees

variable {α : Type} [BEq α] {old new : Array α} {p : Point} {size : Nat}

/-- From the point on the two sequences hold the same elements. -/
def Agrees (old new : Array α) (p : Point) (size : Nat) : Prop :=
  ∀ k < size, agree old new (p.old + k) (p.new + k) = true

theorem agrees_zero : Agrees old new p 0 := fun _ hk => absurd hk (Nat.not_lt_zero _)

theorem agrees_add_iff {more : Nat} :
    Agrees old new p (size + more) ↔
      Agrees old new p size ∧ Agrees old new (p.add size size) more := by
  constructor
  · intro hagrees
    refine ⟨fun k hk => hagrees k (by omega), fun k hk => ?_⟩
    have hlater := hagrees (size + k) (by omega)
    rwa [← Nat.add_assoc, ← Nat.add_assoc] at hlater
  · rintro ⟨hfirst, hlater⟩ k hk
    by_cases hlt : k < size
    · exact hfirst k hlt
    · have hagree := hlater (k - size) (by omega)
      rw [Point.old_add, Point.new_add, Nat.add_assoc, Nat.add_assoc] at hagree
      rwa [show size + (k - size) = k by omega] at hagree

theorem countWhile_go_eq {test : Nat → Bool} {left count : Nat}
    (hall : ∀ k < count + left, test k = true) : countWhile.go test left count = count + left := by
  induction left generalizing count with
  | zero => rfl
  | succ left ih =>
      rw [countWhile.go, if_pos (hall count (by omega)), ih fun k hk => hall k (by omega)]
      omega

theorem runFrom_eq_of_agrees (hagrees : Agrees old new p size) :
    runFrom old new p.old p.new size = size :=
  (countWhile_go_eq fun k hk => hagrees k (by omega)).trans (Nat.zero_add size)

theorem agrees_runFrom {i j limit : Nat} :
    Agrees old new ⟨i, j⟩ (runFrom old new i j limit) :=
  fun _ hk => agree_of_lt_runFrom hk

/-- The run before a pair of positions, as a run from where it starts. -/
theorem agrees_runBefore {i j limit : Nat} :
    Agrees old new ⟨i - runBefore old new i j limit, j - runBefore old new i j limit⟩
      (runBefore old new i j limit) := by
  intro k hk
  have hle : runBefore old new i j limit ≤ i ∧ runBefore old new i j limit ≤ j := runBefore_le.2
  have hagree := agree_of_lt_runBefore
    (show runBefore old new i j limit - 1 - k < runBefore old new i j limit by omega)
  have hold : i - 1 - (runBefore old new i j limit - 1 - k) =
      i - runBefore old new i j limit + k := by omega
  have hnew : j - 1 - (runBefore old new i j limit - 1 - k) =
      j - runBefore old new i j limit + k := by omega
  rwa [hold, hnew] at hagree

end Agrees

end Hush.Diff
