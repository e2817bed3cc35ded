import Hush.Proofs.Text.Decoding

/-!
# Insertions

What is put into a text moves the rest away from the start. So a text that may be read as text still
may be after an insertion, as long as no zero byte is put in.
-/

namespace Hush

/-- The second list is the first with items of a kind put in anywhere. -/
inductive Inserted {α : Type} (kind : α → Prop) : List α → List α → Prop
  | nil : Inserted kind [] []
  | keep (a : α) {old new : List α} : Inserted kind old new → Inserted kind (a :: old) (a :: new)
  | insert {a : α} {old new : List α} : kind a → Inserted kind old new →
      Inserted kind old (a :: new)

namespace Inserted

variable {α β : Type} {kind : α → Prop} {old new old' new' : List α}

theorem refl (kind : α → Prop) (items : List α) : Inserted kind items items := by
  induction items with
  | nil => exact .nil
  | cons a items ih => exact .keep a ih

theorem append (hfirst : Inserted kind old new) (hrest : Inserted kind old' new') :
    Inserted kind (old ++ old') (new ++ new') := by
  induction hfirst with
  | nil => exact hrest
  | keep a _ ih => exact .keep a ih
  | insert ha _ ih => exact .insert ha ih

theorem of_forall {items : List α} (hitems : ∀ a ∈ items, kind a) : Inserted kind [] items := by
  induction items with
  | nil => exact .nil
  | cons a items ih =>
      rw [List.forall_mem_cons] at hitems
      exact .insert hitems.1 (ih hitems.2)

theorem flatMap {kind' : β → Prop} {f : α → List β} (hkind : ∀ a, kind a → ∀ b ∈ f a, kind' b)
    (hinserted : Inserted kind old new) : Inserted kind' (old.flatMap f) (new.flatMap f) := by
  induction hinserted with
  | nil => exact .nil
  | keep a _ ih => exact (refl kind' (f a)).append ih
  | insert ha _ ih => exact (of_forall (hkind _ ha)).append ih

theorem intercalate (separator : List α) {olds news : List (List α)}
    (hlists : List.Forall₂ (Inserted kind) olds news) :
    Inserted kind (separator.intercalate olds) (separator.intercalate news) := by
  induction hlists with
  | nil => exact .nil
  | @cons first first' olds news hfirst hrest ih =>
      cases hrest with
      | nil => simpa using hfirst
      | cons hnext hrest =>
          rw [List.intercalate_cons_cons, List.intercalate_cons_cons]
          exact (hfirst.append (refl kind separator)).append ih

/-- An item that is not put in is not nearer to the start than it was. -/
theorem count_take_le [BEq α] [LawfulBEq α] {a : α} (ha : ¬kind a)
    (hinserted : Inserted kind old new) (length : Nat) :
    (new.take length).count a ≤ (old.take length).count a := by
  induction hinserted generalizing length with
  | nil => exact Nat.le_refl _
  | keep b _ ih =>
      cases length with
      | zero => simp
      | succ length =>
          rw [List.take_succ_cons, List.take_succ_cons, List.count_cons, List.count_cons]
          exact Nat.add_le_add_right (ih length) _
  | @insert b old new hb _ ih =>
      cases length with
      | zero => simp
      | succ length =>
          have hne : b ≠ a := fun heq => ha (heq ▸ hb)
          rw [List.take_succ_cons, List.count_cons_of_ne hne]
          exact (ih length).trans
            ((List.take_prefix_take_left (Nat.le_succ length)).sublist.count_le a)

end Inserted

namespace Text

theorem looksBinary_eq_false_iff {bytes : ByteArray} :
    looksBinary bytes = false ↔ 0 ∉ bytes.data.toList.take sniffLength := by
  rw [looksBinary, ByteArray.data_extract, ← Bool.not_eq_true, Array.contains_iff_mem,
    ← Array.mem_toList_iff, Array.toList_extract, List.extract_eq_take_drop, List.drop_zero,
    Nat.sub_zero]

theorem toList_toUTF8 (text : String) :
    text.toUTF8.data.toList = text.toList.flatMap String.utf8EncodeChar := by
  rw [String.toUTF8, ← String.utf8Encode_toList, List.utf8Encode, List.data_toByteArray]

theorem inserted_toUTF8 {kind : Char → Prop} {text grown : String}
    (hkind : ∀ c, kind c → 0 ∉ String.utf8EncodeChar c)
    (hinserted : Inserted kind text.toList grown.toList) :
    Inserted (· ≠ 0) text.toUTF8.data.toList grown.toUTF8.data.toList := by
  rw [toList_toUTF8, toList_toUTF8]
  exact hinserted.flatMap fun c hc b hb => ne_of_mem_of_not_mem hb (hkind c hc)

/-- Characters that are not put down with zero bytes do not make a text binary. -/
theorem looksBinary_of_inserted {kind : Char → Prop} {text grown : String}
    (hkind : ∀ c, kind c → 0 ∉ String.utf8EncodeChar c)
    (hinserted : Inserted kind text.toList grown.toList)
    (htext : looksBinary text.toUTF8 = false) : looksBinary grown.toUTF8 = false := by
  have hcount := (inserted_toUTF8 hkind hinserted).count_take_le (a := 0) (by simp) sniffLength
  rw [looksBinary_eq_false_iff, ← List.count_eq_zero] at htext ⊢
  omega

end Text

end Hush
