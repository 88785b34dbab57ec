/-
  TemplateLint.Markup.Reference — references and the pieces of a text.

  A reference is what stands between `&` and the next `;`: the number of a
  character, one of five fixed names, or the name of an entity.  `Piece.ofText`
  cuts a text into plain characters, referenced characters and entity uses;
  a reference that cannot be followed is the last piece.
-/
import TemplateLint.Markup.Cursor
import TemplateLint.Markup.SyntaxError

namespace TemplateLint

/-! ## §1. References -/

/-- What a reference stands for. -/
inductive Reference where
  | char (c : Char)
  | entity (name : String)
  deriving DecidableEq, Repr

namespace Reference

/-- The value of a digit of base 16. -/
def digit? (c : Char) : Option Nat :=
  if c.isDigit then some (c.toNat - 48)
  else if 'a' ≤ c ∧ c ≤ 'f' then some (c.toNat - 87)
  else if 'A' ≤ c ∧ c ≤ 'F' then some (c.toNat - 55)
  else none

/-- The number that a run of digits denotes, if all are digits of `base`. -/
def number? (base : Nat) (cs : List Char) : Option Nat :=
  cs.foldlM (fun n c => (digit? c).bind fun d => if d < base then some (base * n + d) else none) 0

/-- The character with this number; U+FFFD if the number is no character's
though it fits 32 bits.  A character that no document may hold cannot be
referenced either. -/
def ofNumber? (n : Nat) : Option Char :=
  if n ≤ 0xffffffff then
    let c := if n.isValidChar then Char.ofNat n else '\ufffd'
    if isXmlChar c then some c else none
  else
    none

/-- The character that the digits in base `base` number. -/
def ofDigits? (base : Nat) (digits : List Char) : Option Reference :=
  if digits.isEmpty then none
  else ((number? base digits).bind ofNumber?).map char

/-- The reference that a name makes: five names stand for characters that
markup uses itself, all others for entities. -/
def ofName (name : String) : Reference :=
  match name with
  | "quot" => char '"'
  | "amp" => char '&'
  | "apos" => char '\''
  | "lt" => char '<'
  | "gt" => char '>'
  | _ => entity name

/-- The reference with the given text between `&` and `;`. -/
def ofBody? : List Char → Option Reference
  | '#' :: 'x' :: digits => ofDigits? 16 digits
  | '#' :: digits => ofDigits? 10 digits
  | body =>
    if body.head?.any isNameStart && body.all isNameChar then
      some (ofName (String.ofList body))
    else
      none

end Reference

/-! ## §2. Entities -/

/-- An entity with the text that stands for it, at its place in the
document. -/
structure Entity where
  name : String
  value : Cursor
  deriving DecidableEq, Repr

/-- The text of the first entity with this name. -/
def Entity.find? (entities : List Entity) (name : String) : Option Cursor :=
  (entities.find? (·.name = name)).map (·.value)

/-! ## §3. Pieces of a text -/

/-- A part of a text in which references are followed. -/
inductive Piece where
  /-- A character that stands for itself. -/
  | raw (c : Char)
  /-- A character written as a reference, which begins at `start`. -/
  | escaped (c : Char) (start : Mark)
  /-- The use of an entity; `after` is the place behind the reference. -/
  | entity (value : Cursor) (after : Mark)
  /-- A reference that cannot be followed. -/
  | broken (error : SyntaxError)
  deriving DecidableEq, Repr

/-- The pieces of the text at `cursor`, up to the first broken one. -/
def Piece.ofText (entities : List Entity) (cursor : Cursor) : List Piece :=
  match _h : cursor.rest with
  | [] => []
  | '&' :: tail =>
    let body := tail.takeWhile (· != ';')
    let after := cursor.advance (body.length + 2)
    if (tail.dropWhile (· != ';')).isEmpty then
      [.broken (.located .malformedReference cursor.mark)]
    else
      match Reference.ofBody? body with
      | none => [.broken (.located .malformedReference cursor.mark)]
      | some (.char c) => .escaped c cursor.mark :: ofText entities after
      | some (.entity name) =>
        match Entity.find? entities name with
        | none => [.broken (.located (.unknownEntity name) cursor.mark)]
        | some value => .entity value after.mark :: ofText entities after
  | c :: _ => .raw c :: ofText entities (cursor.advance 1)
termination_by cursor.rest.length
decreasing_by
  all_goals
    simp only [Cursor.rest_advance, List.length_drop, _h, List.length_cons]
    omega

end TemplateLint
