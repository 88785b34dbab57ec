/-
  TemplateLint.Markup.Cursor — a place in a document and what follows it.

  A `Cursor` holds the characters that may still be read and the mark of the
  first of them.  The readable part may end before the document does, as in
  the value of an entity.
-/
import TemplateLint.Markup.Alphabet
import TemplateLint.Text.Position

namespace TemplateLint

/-- A place in a document with the characters that may be read from it. -/
structure Cursor where
  rest : List Char
  mark : Mark
  deriving DecidableEq, Repr

namespace Cursor

/-- The start of a whole text. -/
def ofText (text : List Char) : Cursor := ⟨text, text.length⟩

/-- The cursor after the next `n` characters, or after the last one. -/
def advance : Nat → Cursor → Cursor
  | 0, c => c
  | _ + 1, ⟨[], mark⟩ => ⟨[], mark⟩
  | n + 1, ⟨_ :: rest, mark⟩ => advance n ⟨rest, mark - 1⟩

@[simp] theorem rest_advance (n : Nat) (c : Cursor) : (c.advance n).rest = c.rest.drop n := by
  induction n generalizing c with
  | zero => rfl
  | succ n ih =>
    obtain ⟨rest, mark⟩ := c
    cases rest with
    | nil => rfl
    | cons a rest => simpa [advance] using ih ⟨rest, mark - 1⟩

theorem advance_advance (m n : Nat) (c : Cursor) :
    (c.advance m).advance n = c.advance (m + n) := by
  induction m generalizing c with
  | zero => simp [advance]
  | succ m ih =>
    obtain ⟨rest, mark⟩ := c
    cases rest with
    | nil => cases n <;> simp [advance]
    | cons a rest => simpa [advance, Nat.succ_add] using ih ⟨rest, mark - 1⟩

/-- Whether the readable characters begin with `text`. -/
def sees (c : Cursor) (text : String) : Bool :=
  text.toList.isPrefixOf c.rest

/-- The cursor after the white space in front of it. -/
def dropSpaces (c : Cursor) : Cursor :=
  c.advance (c.rest.takeWhile isSpace).length

end Cursor

end TemplateLint
