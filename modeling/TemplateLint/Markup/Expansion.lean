/-
  TemplateLint.Markup.Expansion — following entities, with limits.

  An entity may use others.  At most ten levels are open at once, and what
  one use outside all entities brings with it is at most 255 further uses.
  `level` counts the levels that may still be opened; `uses` counts the uses
  since the outermost one.  `attributeValue` is the value of an attribute
  after all references are followed.
-/
import TemplateLint.Markup.Reference

namespace TemplateLint

/-! ## §1. Limits -/

/-- The number of entities that may be open at once. -/
def maxLevel : Nat := 10

/-- The number of uses that one use outside all entities may bring. -/
def maxUses : Nat := 255

/-- Counts the use of an entity whose reference ends at `after`. -/
def enterEntity (level uses : Nat) (after : Mark) : Except SyntaxError Nat :=
  if level = 0 ∨ (level < maxLevel ∧ uses = maxUses) then
    .error (.located .entityLoop after)
  else
    .ok (if level < maxLevel then uses + 1 else uses)

/-- The count after an entity has been read to its end. -/
def leaveEntity (level uses : Nat) : Nat :=
  if level < maxLevel then uses else 0

/-! ## §2. Attribute values -/

/-- White space inside a value counts as a space. -/
def flattenSpace (c : Char) : Char :=
  if isSpace c then ' ' else c

/-- Joins the pieces of an attribute value; `expand` gives the text of an
entity.  Written white space becomes spaces, a carriage return right before
a line feed vanishes.  A referenced character is kept as it is, but inside
an entity (`nested`) it is treated as if written, and `<` cannot stand. -/
def joinValue (nested : Bool)
    (expand : Cursor → Mark → Nat → Except SyntaxError (List Char × Nat)) :
    List Piece → Nat → Except SyntaxError (List Char × Nat)
  | [], uses => return ([], uses)
  | piece :: pieces, uses => do
    let (front, uses) ← match piece with
      | .raw c =>
        if c = '\r' ∧ pieces.head? = some (.raw '\n') then .ok ([], uses)
        else .ok ([flattenSpace c], uses)
      | .escaped c start =>
        if nested = false then .ok ([c], uses)
        else if c = '<' then .error (.located .lessThanInValue start)
        else .ok ([flattenSpace c], uses)
      | .entity value after => expand value after uses
      | .broken error => .error error
    let (back, uses) ← joinValue nested expand pieces uses
    return (front ++ back, uses)

/-- The text of an attribute value that is written as `raw`, and the count
of entity uses after it. -/
def attributeValue (entities : List Entity) :
    (level : Nat) → (raw : Cursor) → (uses : Nat) → Except SyntaxError (List Char × Nat)
  | 0, raw, uses =>
    joinValue true (fun _ after _ => .error (.located .entityLoop after))
      (Piece.ofText entities raw) uses
  | level + 1, raw, uses =>
    joinValue (level + 1 < maxLevel)
      (fun value after uses => do
        let uses ← enterEntity (level + 1) uses after
        let (text, uses) ← attributeValue entities level value uses
        return (text, leaveEntity (level + 1) uses))
      (Piece.ofText entities raw) uses

end TemplateLint
