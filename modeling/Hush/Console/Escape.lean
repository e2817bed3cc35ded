/-!
# Escaped messages

The characters of a message that act on a terminal are written out, so that a path or a line of a
file cannot steer the terminal that shows it. Tabs and line ends are kept. A backslash is kept too,
so the message cannot always be read back.
-/

namespace Hush.Console

/-- Bell, backspace, form feed, escape and delete. -/
def asciiControls : List Char := ['\x07', '\x08', '\x0c', '\x1b', '\x7f']

/-- The control characters beyond ASCII, some of which stand for a whole escape sequence. -/
def isHighControl (c : Char) : Bool := 0x80 ≤ c.toNat && c.toNat ≤ 0x9f

/-- The character is written out. Of the control characters below U+0020 most are not. -/
def isControl (c : Char) : Bool := asciiControls.contains c || isHighControl c

/-- The two hexadecimal digits of a character below U+0100. -/
def hexDigits (c : Char) : List Char :=
  [Nat.digitChar (c.toNat / 16), Nat.digitChar (c.toNat % 16)]

def escapeChar (c : Char) : List Char :=
  if asciiControls.contains c then ['\\', 'x'] ++ hexDigits c
  else if isHighControl c then ['\\', 'u', '\x7b'] ++ hexDigits c ++ ['\x7d']
  else [c]

def escape (text : String) : String := .ofList (text.toList.flatMap escapeChar)

theorem escapeChar_eq {c : Char} (hplain : isControl c = false) : escapeChar c = [c] := by
  simp_all [isControl, escapeChar]

theorem isControl_digitChar {digit : Nat} (hdigit : digit < 16) :
    isControl digit.digitChar = false := by
  revert digit
  decide

theorem isControl_of_mem_hexDigits {c digit : Char} (hbyte : c.toNat < 256)
    (hmem : digit ∈ hexDigits c) : isControl digit = false := by
  simp only [hexDigits, List.mem_cons, List.not_mem_nil, or_false] at hmem
  rcases hmem with rfl | rfl
  · exact isControl_digitChar (by omega)
  · exact isControl_digitChar (by omega)

theorem toNat_lt_of_isControl {c : Char} (h : isControl c = true) : c.toNat < 256 := by
  have hascii : ∀ c ∈ asciiControls, c.toNat < 256 := by simp [asciiControls]
  rcases Bool.or_eq_true_iff.1 h with h | h
  · exact hascii c (List.contains_iff_mem.1 h)
  · simp only [isHighControl, Bool.and_eq_true, decide_eq_true_eq] at h
    omega

theorem isControl_of_mem_escapeChar {c shown : Char} (hmem : shown ∈ escapeChar c) :
    isControl shown = false := by
  have hmarks : ∀ mark ∈ ['\\', 'x', 'u', '\x7b', '\x7d'], isControl mark = false := by
    simp [isControl, asciiControls, isHighControl]
  by_cases hcontrol : isControl c = true
  · have hdigits : ∀ digit ∈ hexDigits c, isControl digit = false := fun _ =>
      isControl_of_mem_hexDigits (toNat_lt_of_isControl hcontrol)
    have hcases : shown ∈ hexDigits c ∨ shown ∈ ['\\', 'x', 'u', '\x7b', '\x7d'] := by
      unfold escapeChar at hmem
      grind [isControl]
    exact hcases.elim (hdigits shown) (hmarks shown)
  · rw [Bool.not_eq_true] at hcontrol
    rw [escapeChar_eq hcontrol, List.mem_singleton] at hmem
    rwa [hmem]

/-- Nothing that acts on a terminal is left. -/
theorem isControl_of_mem_escape {text : String} {c : Char} (hmem : c ∈ (escape text).toList) :
    isControl c = false := by
  simp only [escape, String.toList_ofList, List.mem_flatMap] at hmem
  obtain ⟨_, _, hmem⟩ := hmem
  exact isControl_of_mem_escapeChar hmem

/-- A text in which nothing needs to be written out is shown as it is. -/
theorem escape_eq_self {text : String} (hplain : ∀ c ∈ text.toList, isControl c = false) :
    escape text = text := by
  have hchars : ∀ chars : List Char, (∀ c ∈ chars, isControl c = false) →
      chars.flatMap escapeChar = chars := by
    intro chars hplain
    induction chars with
    | nil => rfl
    | cons c rest ih =>
      rw [List.forall_mem_cons] at hplain
      rw [List.flatMap_cons, escapeChar_eq hplain.1, ih hplain.2, List.singleton_append]
  simp [escape, hchars text.toList hplain]

end Hush.Console
