/-
  TemplateLint.Markup.Content — reading the content of elements.

  `Builder.read` reads token after token from a text and hands each to the
  builder.  Character data may use entities, whose text is read as content
  in its turn, one level further in.
-/
import TemplateLint.Markup.Builder

namespace TemplateLint

namespace Builder

/-- Adds the pieces of character data.  `gathered` holds the characters since
the last entity, newest first; line ends become line feeds. -/
def addPieces (level : Nat) (expand : Cursor → Builder → Except Rejection Builder) :
    List Piece → (gathered : List Char) → Builder → Except Rejection Builder
  | [], gathered, b =>
    if gathered.isEmpty then .ok b else .ok (b.addText gathered.reverse)
  | .raw c :: pieces, gathered, b =>
    if c = '\r' then
      if pieces.head? = some (.raw '\n') then addPieces level expand pieces gathered b
      else addPieces level expand pieces ('\n' :: gathered) b
    else
      addPieces level expand pieces (c :: gathered) b
  | .escaped c _ :: pieces, gathered, b => addPieces level expand pieces (c :: gathered) b
  | .broken error :: _, _, _ => .error (.malformed error)
  | .entity value after :: pieces, gathered, b => do
    let b := if gathered.isEmpty then b else b.addText gathered.reverse
    let uses ← (enterEntity level b.uses after).mapError .malformed
    let inner ← expand value { b with uses, tag := none }
    addPieces level expand pieces []
      { inner with tag := b.tag, uses := leaveEntity level inner.uses }

/-- Line ends as line feeds. -/
def unifyLineEnds : List Char → List Char
  | '\r' :: '\n' :: cs => '\n' :: unifyLineEnds cs
  | c :: cs => (if c = '\r' then '\n' else c) :: unifyLineEnds cs
  | [] => []

/-- Hands a token to the builder. -/
def take (level : Nat) (expand : Cursor → Builder → Except Rejection Builder) :
    Token → Builder → Except Rejection Builder
  | .tagName start name, b => (b.beginTag start name).mapError .malformed
  | .attr start name raw, b => do
    let (value, uses) ← (attributeValue b.entities level raw b.uses).mapError .malformed
    ({ b with uses }.addAttribute start name (String.ofList value)).mapError .malformed
  | .tagEnd selfClosing, b => (b.endTag selfClosing).mapError .malformed
  | .closeTag start name, b => b.close start name
  | .text raw, b => addPieces level expand (Piece.ofText b.entities raw) [] b
  | .cdata content, b => .ok (b.addText (unifyLineEnds content))
  | .comment content, b => .ok (b.add (.comment (String.ofList content)))
  | .instruction target content, b =>
    .ok (b.add (.instruction target (String.ofList content)))

/-- Reads tokens until the text ends or, between tags, no element of it is
open: `depth` counts those that were opened in this text.  A text that ends
early is no fault here. -/
def read (level : Nat) (expand : Cursor → Builder → Except Rejection Builder)
    (inTag : Bool) (depth : Nat) (cursor : Cursor) (b : Builder) :
    Except Rejection (Builder × Cursor) :=
  if cursor.rest.isEmpty ∨ (inTag = false ∧ depth = 0) then
    .ok (b, cursor)
  else
    match _h : Lexer.token inTag cursor with
    | .error e => .error (.malformed e)
    | .ok (token, cursor') =>
      match b.take level expand token with
      | .error e => .error e
      | .ok b' => b'.read level expand token.staysInTag (token.depthAfter depth) cursor'
termination_by cursor.rest.length
decreasing_by exact Lexer.Progress.shrinks _h

/-- Reads the text of an entity as content, where `level` more levels may be
opened.  With none left the use has been refused before. -/
def expand : (level : Nat) → Cursor → Builder → Except Rejection Builder
  | 0, _, b => .ok b
  | level + 1, value, b => do
    let (b, _) ← b.read level (expand level) false 1 value
    return b

/-- Reads the element that begins at the cursor. -/
def readElement (cursor : Cursor) (b : Builder) : Except Rejection (Builder × Cursor) := do
  let (token, cursor) ← (Lexer.tagName cursor).mapError .malformed
  let b ← b.take maxLevel (expand maxLevel) token
  b.read maxLevel (expand maxLevel) true 0 cursor

end Builder

end TemplateLint
