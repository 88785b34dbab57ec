/-
  TemplateLint.Markup.Document — reading a whole document.

  A document is a byte order mark, an XML declaration, a document type and
  an element, in this order and all but the element optional, with comments
  and processing instructions in between and after.  It may be of any size.
-/
import TemplateLint.Markup.Content
import TemplateLint.Markup.Doctype

namespace TemplateLint

/-! ## §1. The XML declaration -/

namespace Lexer

/-- White space between the parts of an XML declaration, which only its end
makes needless. -/
def declarationSpace : Lexer Unit := do
  match ← rest with
  | [] => return ()
  | c :: _ =>
    let ending ← sees "?>"
    require (isSpace c || ending) (.expectedClass "a whitespace" c)
    dropSpaces

/-- A name with a value in an XML declaration. -/
def declarationPart : Lexer Unit := do
  let _ ← qualifiedName
  equals
  let _ ← quotedValue

/-- An XML declaration: a version, then maybe an encoding and whether the
document stands alone. -/
def xmlDeclaration : Lexer Unit := do
  text "<?xml"
  declarationSpace
  require (← sees "version") (.expectedText "version")
  declarationPart
  declarationSpace
  if ← sees "encoding" then
    declarationPart
    declarationSpace
  if ← sees "standalone" then
    declarationPart
  dropSpaces
  text "?>"

/-! ## §2. Around the element -/

/-- A comment or a processing instruction after white space, if one comes
next. -/
def misc : Lexer (Option Token) := do
  dropSpaces
  if ← sees "<!--" then return some (← comment)
  else if ← sees "<?" then return some (← instruction)
  else return none

/-- A comment or a processing instruction takes a character. -/
theorem misc_shrinks {c c' : Cursor} {t : Token} (h : misc c = .ok (some t, c')) :
    c'.rest.length < c.rest.length := by
  obtain ⟨_, c₁, h₁, h₂⟩ := bind_eq_ok.1 h
  obtain ⟨isComment, c₂, h₃, h₄⟩ := bind_eq_ok.1 h₂
  refine Nat.lt_of_lt_of_le ?_ (Forward.length_le h₁)
  refine Nat.lt_of_lt_of_le ?_ (Forward.length_le h₃)
  cases isComment with
  | true =>
    obtain ⟨_, c₃, h₅, h₆⟩ := bind_eq_ok.1 h₄
    cases h₆
    exact Progress.shrinks h₅
  | false =>
    obtain ⟨isInstruction, c₃, h₅, h₆⟩ := bind_eq_ok.1 h₄
    refine Nat.lt_of_lt_of_le ?_ (Forward.length_le h₅)
    cases isInstruction with
    | true =>
      obtain ⟨_, c₄, h₇, h₈⟩ := bind_eq_ok.1 h₆
      cases h₈
      exact Progress.shrinks h₇
    | false => cases h₆

end Lexer

namespace Builder

/-- Reads comments and processing instructions as long as they come. -/
def readMisc (cursor : Cursor) (b : Builder) : Except SyntaxError (Builder × Cursor) :=
  match _h : Lexer.misc cursor with
  | .error e => .error e
  | .ok (none, cursor') => .ok (b, cursor')
  | .ok (some token, cursor') => (b.takeItem (.node token)).readMisc cursor'
termination_by cursor.rest.length
decreasing_by exact Lexer.misc_shrinks _h

end Builder

/-! ## §3. The whole document -/

namespace Document

/-- The cursor after a byte order mark, if there is one. -/
def skipByteOrderMark (c : Cursor) : Cursor :=
  if c.rest.head? = some '\ufeff' then c.advance 1 else c

/-- The cursor after an XML declaration, if there is one. -/
def skipDeclaration (c : Cursor) : Except SyntaxError Cursor :=
  if c.sees "<?xml " then (·.2) <$> Lexer.xmlDeclaration c else .ok c

/-- Reads what stands in front of the element. -/
def readProlog (c : Cursor) : Except SyntaxError (Builder × Cursor) := do
  let c ← skipDeclaration (skipByteOrderMark c)
  let (b, c) ← Builder.readMisc c {}
  if c.dropSpaces.sees "<!DOCTYPE" then
    let (b, c) ← b.readDoctype c.dropSpaces
    b.readMisc c
  else
    return (b, c)

/-- Reads the element and what follows it up to the end. -/
def readBody (c : Cursor) (b : Builder) : Except Rejection Document := do
  let c := c.dropSpaces
  let (b, c) ← if c.sees "<" then b.readElement c else .ok (b, c)
  let (b, c) ← (b.readMisc c).mapError .malformed
  if c.rest.isEmpty then b.finish.mapError .malformed
  else .error (.malformed (.located .unknownToken c.mark))

/-- Reads a document, or says what keeps the text from being one. -/
def read (text : List Char) : Except Rejection Document := do
  let (b, c) ← (readProlog (Cursor.ofText text)).mapError .malformed
  readBody c b

end Document

end TemplateLint
