/-
  TemplateLint.Text.Escape — characters written as escapes.

  An escape names a character by its number in base 16, with two digits as
  in `\x1b` or between braces as in `\u{9b}`.  `showControls` writes in this
  way the control characters that could take hold of a terminal.  Main fact:
  `not_isTerminalControl_of_mem_showControl`, what is written holds none.
-/
namespace TemplateLint.Escape

/-! ## §1. The two forms -/

/-- A character below U+0100 by the two digits of its number. -/
def twoDigits (c : Char) : List Char :=
  ['\\', 'x', Nat.digitChar (c.toNat / 16), Nat.digitChar (c.toNat % 16)]

/-- A character by its number between braces, without leading zeros. -/
def braced (c : Char) : List Char :=
  ['\\', 'u', '\x7b'] ++ Nat.toDigits 16 c.toNat ++ ['\x7d']

/-! ## §2. Control characters -/

/-- The control characters of ASCII that are escaped: bell, backspace, form
feed, escape and delete. -/
def isLowControl (c : Char) : Bool :=
  c == '\x07' || c == '\x08' || c == '\x0c' || c == '\x1b' || c == '\x7f'

/-- The control characters above ASCII, U+0080 to U+009F, all of which are
escaped: each stands for a sequence that begins with the escape character. -/
def isHighControl (c : Char) : Bool :=
  0x80 ≤ c.toNat && c.toNat ≤ 0x9f

/-- The control characters that could take hold of a terminal. -/
def isTerminalControl (c : Char) : Bool :=
  isLowControl c || isHighControl c

/-- A character, or its escape if it could take hold of a terminal. -/
def showControl (c : Char) : List Char :=
  if isLowControl c then twoDigits c
  else if isHighControl c then braced c
  else [c]

/-- The text with an escape for each character that could take hold of a
terminal.  Tabs and line ends stay, and so does the backslash: the text is
for people, and is not read back. -/
def showControls (text : String) : String :=
  String.ofList (text.toList.flatMap showControl)

/-! ## §3. What is written -/

/-- A control character has a number below U+00A0. -/
theorem toNat_lt_of_isTerminalControl {c : Char} (h : isTerminalControl c = true) :
    c.toNat < 0xa0 := by
  simp only [isTerminalControl, isLowControl, isHighControl, Bool.or_eq_true, Bool.and_eq_true,
    beq_iff_eq, decide_eq_true_eq] at h
  rcases h with ((((rfl | rfl) | rfl) | rfl) | rfl) | ⟨-, h⟩
  · decide
  · decide
  · decide
  · decide
  · decide
  · omega

/-- No escape of a control character holds a control character, number by
number. -/
theorem all_showControl :
    ((List.range 0xa0).map Char.ofNat).all (fun c =>
      !isTerminalControl c || (showControl c).all (!isTerminalControl ·)) = true := by
  decide +kernel

/-- Nothing that is written for a character could take hold of a terminal. -/
theorem not_isTerminalControl_of_mem_showControl {c d : Char} (h : d ∈ showControl c) :
    isTerminalControl d = false := by
  by_cases hc : isTerminalControl c = true
  · have hlt := toNat_lt_of_isTerminalControl hc
    have hmem : c ∈ (List.range 0xa0).map Char.ofNat :=
      List.mem_map.2 ⟨c.toNat, List.mem_range.2 hlt, Char.ofNat_toNat c⟩
    have hall := List.all_eq_true.1 all_showControl c hmem
    rw [hc, Bool.not_true, Bool.false_or] at hall
    simpa using List.all_eq_true.1 hall d h
  · have hplain : isLowControl c = false ∧ isHighControl c = false := by
      simpa [isTerminalControl] using hc
    simp only [showControl, hplain, Bool.false_eq_true, if_false, List.mem_singleton] at h
    rw [h]
    simpa using hc

end TemplateLint.Escape
