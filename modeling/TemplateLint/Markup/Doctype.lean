/-
  TemplateLint.Markup.Doctype — document types.

  Of a document type only the entities matter; the other declarations are
  skipped.  The text of an entity is a part of the document and keeps its
  place there.
-/
import TemplateLint.Markup.Builder

namespace TemplateLint

/-- An item between the brackets of a document type. -/
inductive DoctypeItem where
  /-- An entity with a text of its own. -/
  | entity (entity : Entity)
  /-- A comment or a processing instruction. -/
  | node (token : Token)
  /-- A declaration without effect. -/
  | skipped
  /-- The closing bracket and what ends the document type. -/
  | final
  deriving DecidableEq, Repr

namespace Lexer

/-! ## §1. Declarations -/

/-- White space and a quoted text that does not matter. -/
def quotedNote : Lexer Unit := do
  spaces
  let _ ← quotedText

/-- The name of an external resource, if there is one. -/
def externalId : Lexer Bool := do
  if ← sees "SYSTEM" then
    text "SYSTEM"
    quotedNote
    return true
  else if ← sees "PUBLIC" then
    text "PUBLIC"
    quotedNote
    quotedNote
    return true
  else
    return false

/-- The note that an external entity is no markup, if there is one. -/
def unparsedNote : Lexer Unit := do
  dropSpaces
  if ← sees "NDATA" then
    text "NDATA"
    spaces
    nameUnlessEnd
  else
    return ()

/-- The definition of an entity: its text, or none for an external one.  For
a parameter entity nothing follows the name of the resource. -/
def entityDefinition (parameter : Bool) : Lexer (Option Cursor) := do
  let c ← peek
  if isQuote c then
    return some (← quotedText)
  else if c == 'S' || c == 'P' then
    require (← externalId) .invalidExternalId
    if parameter then return none
    else
      unparsedNote
      return none
  else
    fail (.expectedClass "a quote, SYSTEM or PUBLIC" c)

/-- The mark of a parameter entity, if there is one. -/
def parameterMark : Lexer Bool := do
  if ← sees "%" then
    text "%"
    spaces
    return true
  else
    return false

/-- The name of an entity with white space around it, and whether it is a
parameter entity. -/
def entityHead : Lexer (Bool × String) := do
  spaces
  let parameter ← parameterMark
  let name ← name
  spaces
  return (parameter, name)

/-- The declaration of an entity. -/
def entityDeclaration : Lexer DoctypeItem := do
  text "<!ENTITY"
  let (parameter, name) ← entityHead
  let value ← entityDefinition parameter
  dropSpaces
  char '>'
  return (value.map fun value => .entity ⟨name, value⟩).getD .skipped

/-- A declaration that is skipped up to its `>`.  If there is none, the whole
document type, which begins at `start`, is at fault. -/
def skippedDeclaration (start : Mark) : Lexer DoctypeItem := do
  let _ ← takeWhile (· != '>')
  if ← sees ">" then
    char '>'
    return .skipped
  else
    failAt start .unknownToken

/-- The end of the bracketed part. -/
def doctypeEnd : Lexer DoctypeItem := do
  char ']'
  dropSpaces
  let c ← peek
  require (c == '>') (.expectedClass "'>'" c)
  char '>'
  return .final

/-- The next item between the brackets of the document type that begins at
`start`. -/
def doctypeItem (start : Mark) : Lexer DoctypeItem := do
  dropSpaces
  if ← sees "<!ENTITY" then entityDeclaration
  else if ← sees "<!--" then return .node (← comment)
  else if ← sees "<?" then return .node (← instruction)
  else if ← sees "]" then doctypeEnd
  else if (← sees "<!ELEMENT") || (← sees "<!ATTLIST") || (← sees "<!NOTATION") then
    skippedDeclaration start
  else fail .unknownToken

/-- The start of a document type up to its `>`, or up to the bracket that
opens its items; whether there is a bracket. -/
def doctypeHead : Lexer Bool := do
  text "<!DOCTYPE"
  spaces
  nameUnlessEnd
  dropSpaces
  let _ ← externalId
  dropSpaces
  let c ← peek
  require (c == '[' || c == '>') (.expectedClass "'[' or '>'" c)
  advance 1
  return c == '['

/-! ## §2. Every item takes a character -/

instance : Forward quotedNote := by
  unfold quotedNote
  infer_instance

instance : Forward externalId := by
  unfold externalId
  infer_instance

instance : Forward unparsedNote := by
  unfold unparsedNote
  infer_instance

instance (parameter : Bool) : Forward (entityDefinition parameter) := by
  unfold entityDefinition
  infer_instance

instance : Forward parameterMark := by
  unfold parameterMark
  infer_instance

instance : Forward entityHead := by
  unfold entityHead
  infer_instance

instance : Progress entityDeclaration := by
  unfold entityDeclaration
  have : Progress (text "<!ENTITY") := .text (by simp)
  exact .bind_left

instance (start : Mark) : Progress (skippedDeclaration start) := by
  unfold skippedDeclaration
  have (closed : Bool) : Progress (if closed then do
      char '>'
      return .skipped
    else failAt start .unknownToken : Lexer DoctypeItem) := by
    cases closed
    · exact ⟨fun h => by cases h⟩
    · exact .bind_left
  exact .bind_right fun _ => .bind_right this

instance : Progress doctypeEnd := by
  unfold doctypeEnd
  exact .bind_left

instance (start : Mark) : Progress (doctypeItem start) := by
  have hnode (p : Lexer Token) [Progress p] :
      Progress (do return DoctypeItem.node (← p) : Lexer DoctypeItem) := .bind_left
  unfold doctypeItem
  refine .bind_right fun _ => .bind_right fun _ => .ite inferInstance ?_
  refine .bind_right fun _ => .ite (hnode comment) ?_
  refine .bind_right fun _ => .ite (hnode instruction) ?_
  refine .bind_right fun _ => .ite inferInstance ?_
  exact .bind_right fun _ => .bind_right fun _ => .bind_right fun _ =>
    .ite inferInstance inferInstance

end Lexer

/-! ## §3. Reading a document type -/

namespace Builder

/-- Takes an item of a document type.  The first entity of a name counts. -/
def takeItem (b : Builder) : DoctypeItem → Builder
  | .entity e => { b with entities := b.entities ++ [e] }
  | .node (.comment content) => b.add (.comment (String.ofList content))
  | .node (.instruction target content) => b.add (.instruction target (String.ofList content))
  | _ => b

/-- Reads the items of the document type that begins at `start`. -/
def readItems (start : Mark) (cursor : Cursor) (b : Builder) :
    Except SyntaxError (Builder × Cursor) :=
  if cursor.rest.isEmpty then
    .ok (b, cursor)
  else
    match _h : Lexer.doctypeItem start cursor with
    | .error e => .error e
    | .ok (.final, cursor') => .ok (b, cursor')
    | .ok (item, cursor') => (b.takeItem item).readItems start cursor'
termination_by cursor.rest.length
decreasing_by exact Lexer.Progress.shrinks _h

/-- Reads the document type at the cursor. -/
def readDoctype (cursor : Cursor) (b : Builder) : Except SyntaxError (Builder × Cursor) := do
  let (bracketed, inside) ← Lexer.doctypeHead cursor
  if bracketed then b.readItems cursor.mark inside else return (b, inside)

end Builder

end TemplateLint
