/-
  TemplateLint.Template.Location — places in messages.

  A message names a place as `line R, column C`.  `spellPlaces` brings the
  wording `at R:C` into this form, `shiftLines` moves every `line N` back by
  the lines put in front of a file, never above line 1.  `describe` is
  the message of a template that cannot be read.
-/
import TemplateLint.Markup.SyntaxError
import TemplateLint.Text.Search

namespace TemplateLint

namespace Location

/-! ## §1. Words and numbers in front of a text -/

/-- What follows `word` in a text that begins with it. -/
def after? (word cs : List Char) : Option (List Char) :=
  if word.isPrefixOf cs then some (cs.drop word.length) else none

/-- The digits in front of a text and what follows them, if there are any. -/
def number? (cs : List Char) : Option (List Char × List Char) :=
  if (cs.takeWhile Char.isDigit).isEmpty then none
  else some (cs.takeWhile Char.isDigit, cs.dropWhile Char.isDigit)

theorem after?_length {word cs rest : List Char} (h : after? word cs = some rest) :
    rest.length ≤ cs.length := by
  unfold after? at h
  split at h
  · cases h
    simp
  · cases h

theorem number?_length {cs digits rest : List Char} (h : number? cs = some (digits, rest)) :
    rest.length < cs.length := by
  unfold number? at h
  split at h
  · cases h
  · next hne =>
    cases h
    have hpos := List.length_pos_iff.2 (mt List.isEmpty_iff.2 hne)
    have hsum : (cs.takeWhile Char.isDigit ++ cs.dropWhile Char.isDigit).length = cs.length := by
      rw [List.takeWhile_append_dropWhile]
    rw [List.length_append] at hsum
    omega

/-! ## §2. Places spelled out -/

/-- Row, column and what follows, in a text that begins with `at R:C`. -/
def place? (cs : List Char) : Option (List Char × List Char × List Char) :=
  (after? "at ".toList cs).bind fun rest =>
    (number? rest).bind fun (row, rest) =>
      (after? ":".toList rest).bind fun rest =>
        (number? rest).map fun (column, rest) => (row, column, rest)

theorem place?_length {cs row column rest : List Char}
    (h : place? cs = some (row, column, rest)) : rest.length < cs.length := by
  simp only [place?, Option.bind_eq_some_iff, Option.map_eq_some_iff, Prod.mk.injEq] at h
  obtain ⟨r₁, h₁, ⟨d₁, r₂⟩, h₂, r₃, h₃, ⟨d₂, r₄⟩, h₄, -, -, rfl⟩ := h
  calc r₄.length < r₃.length := number?_length h₄
    _ ≤ r₂.length := after?_length h₃
    _ ≤ r₁.length := Nat.le_of_lt (number?_length h₂)
    _ ≤ cs.length := after?_length h₁

/-- The place `R:C` spelled out. -/
def spelled (row column : List Char) : List Char :=
  "line ".toList ++ row ++ ", column ".toList ++ column

/-- The text with every `at R:C` spelled out. -/
def spellPlaces (cs : List Char) : List Char :=
  match cs with
  | [] => []
  | c :: tail =>
    match _h : place? (c :: tail) with
    | some (row, column, rest) => "at ".toList ++ spelled row column ++ spellPlaces rest
    | none => c :: spellPlaces tail
termination_by cs.length
decreasing_by
  · exact place?_length _h
  · simp

/-- Whether some `at R:C` stands in the text. -/
def hasPlace : List Char → Bool
  | [] => false
  | c :: cs => (place? (c :: cs)).isSome || hasPlace cs

/-! ## §3. Lines moved back -/

/-- The digits of N and what follows, in a text that begins with `line N`. -/
def lineNumber? (cs : List Char) : Option (List Char × List Char) :=
  (after? "line ".toList cs).bind number?

theorem lineNumber?_length {cs digits rest : List Char}
    (h : lineNumber? cs = some (digits, rest)) : rest.length < cs.length := by
  obtain ⟨r, h₁, h₂⟩ := Option.bind_eq_some_iff.1 h
  exact Nat.lt_of_lt_of_le (number?_length h₂) (after?_length h₁)

/-- The greatest line number that is moved: the greatest signed number of 64
bits. -/
def maxLine : Nat := 0x7fffffffffffffff

theorem maxLine_eq : maxLine = Nat.pow 2 63 - 1 := rfl

/-- A line number moved back by `offset`, but not above line 1.  A number
that is too large stays as it is written. -/
def shifted (offset : Nat) (digits : List Char) : List Char :=
  if Decimal.value digits ≤ maxLine then
    Decimal.digits (max (Decimal.value digits - offset) 1)
  else
    digits

/-- The text with every `line N` moved back by `offset`. -/
def shiftLines (offset : Nat) (cs : List Char) : List Char :=
  match cs with
  | [] => []
  | c :: tail =>
    match _h : lineNumber? (c :: tail) with
    | some (digits, rest) => "line ".toList ++ shifted offset digits ++ shiftLines offset rest
    | none => c :: shiftLines offset tail
termination_by cs.length
decreasing_by
  · exact lineNumber?_length _h
  · simp

/-! ## §4. The message of an error -/

/-- Where an error is said to be in `text`: an error without a place of its
own is at the start, but a missing element is missed at the end, whose row and
column are told in 32 bits. -/
def reported (text : List Char) : SyntaxError → Position
  | .noRoot => (Position.endOf text).narrow
  | error => error.position text

/-- The wording of an error with its place in `text` spelled out. -/
def errorMessage (text : List Char) (error : SyntaxError) : List Char :=
  let message := (error.message text).toList
  let ending := " at ".toList ++ (error.position text).render.toList
  let description := (stripSuffix? ending message).getD message
  if hasPlace description then
    spellPlaces description
  else
    let place := reported text error
    description ++ ", ".toList ++ spelled (Decimal.digits place.row) (Decimal.digits place.column)

/-- The message for a file that `text` is, after `offset` lines that were put
in front of it. -/
def describe (text : List Char) (offset : Nat) (error : SyntaxError) : String :=
  String.ofList (shiftLines offset (errorMessage text error))

end Location

end TemplateLint
