import Hush.Line.Call
import Hush.Proofs.Line.Comment
import Mathlib

/-!
# What stands around a call

Whether a line starts a call or closes one is read off a part of it. Characters in front of that
part and behind it do no harm if none of them can belong to it and, in front, none continues a word.
Blanks are such characters on both sides, and so is a comment marker in front.
-/

namespace Hush

namespace Text

theorem isWordChar_eq_false_of_isBlank {c : Char} (hblank : isBlank c = true) :
    isWordChar c = false := by
  have hnone : blanks.any isWordChar = false := by decide +kernel
  rw [List.any_eq_false] at hnone
  simpa using hnone c (List.contains_iff_mem.mp hblank)

end Text

section Part

variable {α : Type} {part front line tail : List α}

theorem prefix_append_iff (htail : ∀ c ∈ tail, c ∉ part) :
    part <+: line ++ tail ↔ part <+: line := by
  constructor
  · rintro ⟨rest, hrest⟩
    rcases List.append_eq_append_iff.mp hrest with ⟨middle, hline, -⟩ | ⟨beyond, hpart, hbeyond⟩
    · exact ⟨middle, hline.symm⟩
    · cases beyond with
      | nil => rw [hpart, List.append_nil]
      | cons c beyond =>
          refine absurd ?_ (htail c (by simp [hbeyond]))
          simp [hpart]
  · exact List.prefix_append_of_prefix

theorem infix_append_front_iff {first : α} (hfront : first ∉ front) :
    first :: part <:+: front ++ line ↔ first :: part <:+: line := by
  induction front with
  | nil => rfl
  | cons c front ih =>
      rw [List.mem_cons, not_or] at hfront
      rw [List.cons_append, List.infix_cons_iff, ih hfront.2, or_iff_right_iff_imp]
      intro hprefix
      exact absurd (List.cons_prefix_cons.mp hprefix).1 hfront.1

theorem infix_append_tail_iff {last : α} (htail : last ∉ tail) :
    part ++ [last] <:+: line ++ tail ↔ part ++ [last] <:+: line := by
  rw [← List.reverse_infix, ← @List.reverse_infix _ _ line, List.reverse_append,
    List.reverse_append, List.reverse_singleton, List.singleton_append]
  exact infix_append_front_iff (by simpa using htail)

end Part

namespace Line

variable {front line tail : Line} {previous : Option Char}

/-! ### The start of a call -/

theorem startsCall_iff :
    startsCall line = true ↔ ∃ method ∈ Method.all, receiverText ++ methodText method <+: line := by
  unfold startsCall
  split <;> rename_i hreceiver
  · rename_i rest
    rw [List.isPrefixOf?_eq_some_iff_append_eq] at hreceiver
    simp only [methodTexts, List.any_map, List.any_eq_true, Function.comp_apply,
      List.isPrefixOf_iff_prefix, ← hreceiver, List.prefix_append_right_inj]
  · simp only [Bool.false_eq_true, false_iff, not_exists, not_and]
    rintro method - ⟨rest, hline⟩
    rw [List.append_assoc, ← List.isPrefixOf?_eq_some_iff_append_eq, hreceiver] at hline
    cases hline

theorem isBlank_eq_false_of_mem_callText {c : Char} {method : Method}
    (hmem : c ∈ receiverText ++ methodText method) : Text.isBlank c = false := by
  have hnone : (receiverText ++ methodText method).any Text.isBlank = false := by
    cases method <;> decide +kernel
  rw [List.any_eq_false] at hnone
  simpa using hnone c hmem

theorem startsCall_append_of_isBlank (htail : ∀ c ∈ tail, Text.isBlank c = true) (line : Line) :
    startsCall (line ++ tail) = startsCall line := by
  rw [Bool.eq_iff_iff, startsCall_iff, startsCall_iff]
  refine exists_congr fun method => and_congr_right fun _ => prefix_append_iff fun c hc hmem => ?_
  have hblank := isBlank_eq_false_of_mem_callText hmem
  rw [htail c hc] at hblank
  cases hblank

theorem startsCall_cons_of_not_isWordChar {c : Char} (hc : Text.isWordChar c = false)
    (line : Line) : startsCall (c :: line) = false := by
  by_contra hstarts
  rw [Bool.not_eq_false, startsCall_iff] at hstarts
  obtain ⟨method, -, hprefix⟩ := hstarts
  have hhead : 'c' = c := (List.cons_prefix_cons.mp hprefix).1
  rw [← hhead, Text.isWordChar_of_isAlphanum (by decide)] at hc
  cases hc

theorem hasCallAfter_eq_of_isBoundary (hprevious : isBoundary previous = true) (line : Line) :
    hasCallAfter previous line = hasCallAfter none line := by
  cases line with
  | nil => rfl
  | cons c rest => rw [hasCallAfter, hasCallAfter, hprevious]; rfl

/-- A call is found behind characters of no word as if they were not there. -/
theorem hasCallAfter_append_of_not_isWordChar (hfront : ∀ c ∈ front, Text.isWordChar c = false)
    (hprevious : isBoundary previous = true) (line : Line) :
    hasCallAfter previous (front ++ line) = hasCallAfter none line := by
  induction front generalizing previous with
  | nil => exact hasCallAfter_eq_of_isBoundary hprevious line
  | cons c front ih =>
      rw [List.forall_mem_cons] at hfront
      have hboundary : isBoundary (some c) = true := by rw [isBoundary, hfront.1]; rfl
      rw [List.cons_append, hasCallAfter, startsCall_cons_of_not_isWordChar hfront.1,
        Bool.false_and, Bool.false_or, ih hfront.2 hboundary]

theorem hasCall_append_of_not_isWordChar (hfront : ∀ c ∈ front, Text.isWordChar c = false)
    (line : Line) : hasCall (front ++ line) = hasCall line :=
  hasCallAfter_append_of_not_isWordChar hfront rfl line

theorem hasCallAfter_eq_false (hline : ∀ c ∈ line, Text.isWordChar c = false)
    (previous : Option Char) : hasCallAfter previous line = false := by
  induction line generalizing previous with
  | nil => rfl
  | cons c line ih =>
      rw [List.forall_mem_cons] at hline
      rw [hasCallAfter, startsCall_cons_of_not_isWordChar hline.1, Bool.false_and, Bool.false_or,
        ih hline.2]

theorem hasCallAfter_append_of_isBlank (htail : ∀ c ∈ tail, Text.isBlank c = true)
    (previous : Option Char) (line : Line) :
    hasCallAfter previous (line ++ tail) = hasCallAfter previous line := by
  induction line generalizing previous with
  | nil =>
      exact hasCallAfter_eq_false (fun c hc => Text.isWordChar_eq_false_of_isBlank (htail c hc)) _
  | cons c line ih =>
      rw [List.cons_append, hasCallAfter, hasCallAfter, ih, ← List.cons_append,
        startsCall_append_of_isBlank htail]

theorem hasCall_append_of_isBlank (htail : ∀ c ∈ tail, Text.isBlank c = true) (line : Line) :
    hasCall (line ++ tail) = hasCall line :=
  hasCallAfter_append_of_isBlank htail none line

theorem getLast?_cons_or (c : Char) (front : List Char) (previous : Option Char) :
    (c :: front).getLast?.or previous = front.getLast?.or (some c) := by
  rw [List.getLast?_cons]
  cases front.getLast? <;> rfl

/-- The character before a call is the last one in front of it, or the one before the line. -/
theorem hasCallAfter_iff :
    hasCallAfter previous line = true ↔
      ∃ front rest, ∃ method ∈ Method.all,
        line = front ++ (receiverText ++ methodText method) ++ rest ∧
          isBoundary (front.getLast?.or previous) = true := by
  induction line generalizing previous with
  | nil =>
      simp only [hasCallAfter, Bool.false_eq_true, false_iff, not_exists, not_and]
      intro front rest method _ hline
      simp [receiverText, Method.receiver] at hline
  | cons c line ih =>
      rw [hasCallAfter, Bool.or_eq_true, Bool.and_eq_true, startsCall_iff, ih]
      -- A call starts at the first character, or else that character stands in front of it.
      constructor
      · rintro (⟨⟨method, hmethod, rest, hrest⟩, hboundary⟩ |
          ⟨front, rest, method, hmethod, rfl, hboundary⟩)
        · exact ⟨[], rest, method, hmethod, hrest.symm, hboundary⟩
        · refine ⟨c :: front, rest, method, hmethod, rfl, ?_⟩
          rwa [getLast?_cons_or]
      · rintro ⟨front, rest, method, hmethod, hline, hboundary⟩
        cases front with
        | nil => exact Or.inl ⟨⟨method, hmethod, rest, hline.symm⟩, hboundary⟩
        | cons d front =>
            obtain ⟨rfl, rfl⟩ := List.cons.inj hline
            rw [getLast?_cons_or] at hboundary
            exact Or.inr ⟨front, rest, method, hmethod, rfl, hboundary⟩

theorem isBoundary_getLast?_iff :
    isBoundary front.getLast? = true ↔
      front = [] ∨ ∃ c, front.getLast? = some c ∧ Text.isWordChar c = false := by
  cases hlast : front.getLast? with
  | none => simp [isBoundary, List.getLast?_eq_none_iff.mp hlast]
  | some c =>
      have hne : front ≠ [] := by
        rintro rfl
        cases hlast
      simp [isBoundary, hne]

theorem callText_eq (method : Method) :
    receiverText ++ methodText method = ("console." ++ method.name ++ "(").toList := by
  simp [receiverText, methodText, Method.receiver]

theorem hasCall_append (hfront : isBoundary front.getLast? = true) (hcall : hasCall line = true) :
    hasCall (front ++ line) = true := by
  rw [hasCall, hasCallAfter_iff] at hcall ⊢
  obtain ⟨before, rest, method, hmethod, rfl, hboundary⟩ := hcall
  refine ⟨front ++ before, rest, method, hmethod, by simp, ?_⟩
  rw [List.getLast?_append, Option.or_none]
  cases hlast : before.getLast? with
  | none => exact hfront
  | some c => rwa [hlast] at hboundary

/-- **Where a line starts a call.** It does so exactly where the text of a call stands at the start
of the line or behind a character of no word. What stands in front of a call up to a boundary does
not hide it, even if it looks like a call itself. -/
theorem hasCall_iff_exists_callText (line : Line) :
    (hasCall line = true ↔
      ∃ front rest : List Char, ∃ method ∈ Method.all,
        line = front ++ ("console." ++ method.name ++ "(").toList ++ rest ∧
          (front = [] ∨ ∃ c, front.getLast? = some c ∧ Text.isWordChar c = false)) ∧
      ∀ front : List Char, (front = [] ∨ ∃ c, front.getLast? = some c ∧ Text.isWordChar c = false) →
        hasCall line = true → hasCall (front ++ line) = true := by
  constructor
  · rw [hasCall, hasCallAfter_iff]
    simp only [Option.or_none, isBoundary_getLast?_iff, callText_eq]
  · intro front hfront hcall
    exact hasCall_append (isBoundary_getLast?_iff.mpr hfront) hcall

/-- Behind a call that fails at its start and one that fails at its name. -/
theorem hasCall_iff_exists_callText_behind :
    let front := "myconsole.log(console.logger(".toList
    let line := "console.warn(1)".toList
    front.getLast? = some '(' ∧ Text.isWordChar '(' = false ∧ hasCall front = false ∧
      hasCall line = true ∧ hasCall (front ++ line) = true := by
  intro front line
  obtain ⟨hiff, hbehind⟩ := hasCall_iff_exists_callText line
  have hcall : hasCall line = true :=
    hiff.mpr ⟨[], "1)".toList, .warn, Method.mem_all .warn, by decide, Or.inl rfl⟩
  have hword : Text.isWordChar '(' = false := by decide +kernel
  have hlast : front.getLast? = some '(' := by decide
  exact ⟨hlast, hword, by decide +kernel, hcall, hbehind front (Or.inr ⟨'(', hlast, hword⟩) hcall⟩

example : hasCall "consoleconsole.log(".toList = false := by decide +kernel

example : hasCall "console.console.log(".toList = true := by decide +kernel

/-! ### The end of a call -/

theorem hasPart_iff {part : List Char} : hasPart part line = true ↔ part <:+: line := by
  induction line with
  | nil => rw [hasPart, List.isEmpty_iff, List.infix_nil]
  | cons c line ih =>
      rw [hasPart, Bool.or_eq_true, List.isPrefixOf_iff_prefix, ih, List.infix_cons_iff]

theorem getLast?_trimEnd (line : Line) :
    (Text.trimEnd line).getLast? = line.reverse.find? fun c => !Text.isBlank c := by
  rw [Text.trimEnd, List.getLast?_reverse, List.find?_not_eq_head?_dropWhile]

theorem closesCall_iff :
    closesCall line = true ↔
      [')', ';'] <:+: line ∨ (line.reverse.find? fun c => !Text.isBlank c) = some ')' := by
  rw [closesCall, Bool.or_eq_true, hasPart_iff, beq_iff_eq, getLast?_trimEnd]

theorem closesCall_append_front (hfront : ')' ∉ front) (line : Line) :
    closesCall (front ++ line) = closesCall line := by
  rw [Bool.eq_iff_iff, closesCall_iff, closesCall_iff, infix_append_front_iff hfront,
    List.reverse_append, List.find?_append, Option.or_eq_some_iff]
  refine or_congr_right (or_iff_left ?_)
  rintro ⟨-, hfound⟩
  exact hfront (List.mem_reverse.mp (List.mem_of_find?_eq_some hfound))

theorem closesCall_append_of_isBlank (htail : ∀ c ∈ tail, Text.isBlank c = true) (line : Line) :
    closesCall (line ++ tail) = closesCall line := by
  have hlast : ';' ∉ tail := fun hmem => absurd (htail ';' hmem) (by decide)
  have hnone : (tail.reverse.find? fun c => !Text.isBlank c) = none := by
    rw [List.find?_eq_none]
    simpa using htail
  rw [Bool.eq_iff_iff, closesCall_iff, closesCall_iff, List.reverse_append, List.find?_append,
    hnone, Option.none_or]
  exact or_congr_left (@infix_append_tail_iff _ [')'] line tail ';' hlast)

/-! ### Behind a marker -/

theorem not_isWordChar_of_mem_marked {c : Char} (hmem : c ∈ indent line ++ "// ".toList) :
    Text.isWordChar c = false := by
  rcases List.mem_append.mp hmem with hindent | hmarker
  · exact Text.isWordChar_eq_false_of_isBlank (isBlank_of_mem_indent hindent)
  · have hnone : "// ".toList.any Text.isWordChar = false := by decide +kernel
    rw [List.any_eq_false] at hnone
    simpa using hnone c hmarker

theorem hasCall_comment (line : Line) : hasCall (comment line) = hasCall line := by
  have hindent : ∀ c ∈ indent line, Text.isWordChar c = false :=
    fun c hmem => not_isWordChar_of_mem_marked (List.mem_append_left _ hmem)
  calc hasCall (comment line) = hasCall (content line) := by
        rw [comment_eq_append]
        exact hasCall_append_of_not_isWordChar (fun c => not_isWordChar_of_mem_marked) _
    _ = hasCall (indent line ++ content line) :=
        (hasCall_append_of_not_isWordChar hindent _).symm
    _ = hasCall line := by rw [indent_append_content]

theorem closesCall_comment (line : Line) : closesCall (comment line) = closesCall line := by
  have hindent : ')' ∉ indent line := fun hmem => absurd (isBlank_of_mem_indent hmem) (by decide)
  have hmarked : ')' ∉ indent line ++ "// ".toList :=
    List.not_mem_append hindent (by decide)
  calc closesCall (comment line) = closesCall (content line) := by
        rw [comment_eq_append, closesCall_append_front hmarked]
    _ = closesCall (indent line ++ content line) := (closesCall_append_front hindent _).symm
    _ = closesCall line := by rw [indent_append_content]

/-- **A comment hides nothing.** The marker stands between the indentation and the content and
changes neither. The line is a comment now, but it starts a call and closes one as before, and to
take the three characters out gives the line back. -/
theorem comment_hides_nothing :
    (∀ line : Line, indent (comment line) = indent line ∧
      content (comment line) = "// ".toList ++ content line ∧
      isComment (comment line) = true ∧
      hasCall (comment line) = hasCall line ∧
      closesCall (comment line) = closesCall line ∧
      indent (comment line) ++ (content (comment line)).drop 3 = line) ∧
      Function.Injective comment := by
  constructor
  · intro line
    obtain ⟨hindent, hcontent⟩ := indent_content_comment line
    exact ⟨hindent, hcontent, isComment_comment line, hasCall_comment line,
      closesCall_comment line, uncomment_comment line⟩
  · exact Function.LeftInverse.injective uncomment_comment

end Line

end Hush
