/-
  TemplateLint.Markup.SyntaxError — why a text is no document.

  A `Fault` is a cause that has a place; the three other errors come from a
  text that ends too early.  `SyntaxError.message` is their wording, the
  place spelled `row:column`.
-/
import TemplateLint.Text.Decimal
import TemplateLint.Text.Escape
import TemplateLint.Text.Position
import TemplateLint.Text.Utf8

namespace TemplateLint

/-! ## §1. Causes -/

/-- Causes that lie at a place of the text. -/
inductive Fault where
  /-- The prefix `xml` is declared for another namespace than its own. -/
  | xmlPrefixRebound
  /-- The namespace of `xml` is declared for another prefix. -/
  | xmlUriMisused
  /-- The namespace of `xmlns` is declared. -/
  | xmlnsUriDeclared
  /-- An element has the prefix `xmlns`. -/
  | xmlnsPrefixOnElement
  /-- A tag declares the same prefix twice. -/
  | namespaceRepeated (pfx : String)
  /-- A prefix without a declaration in scope. -/
  | unknownPrefix (pfx : String)
  /-- A close tag for another element than the innermost open one. -/
  | closeMismatch (expected found : String)
  /-- A close tag where none can stand. -/
  | unexpectedClose
  /-- An ampersand that begins no reference. -/
  | malformedReference
  /-- A reference to an entity that is not declared. -/
  | unknownEntity (name : String)
  /-- Entities nested too deep or used too often. -/
  | entityLoop
  /-- A less-than sign reaches an attribute value through an entity. -/
  | lessThanInValue
  /-- A tag has the same attribute twice. -/
  | attributeRepeated (name : String)
  /-- An XML declaration that is not at the very start. -/
  | lateDeclaration
  /-- A name that is empty or has a character where it cannot stand. -/
  | invalidName
  /-- A character that no document may hold. -/
  | invalidChar (c : Char)
  /-- Another character than the only one that can stand there. -/
  | expectedChar (expected found : Char)
  /-- A character outside the class that can stand there. -/
  | expectedClass (expected : String) (found : Char)
  /-- Another text than the only one that can stand there. -/
  | expectedText (expected : String)
  /-- An identifier of an external resource that is none. -/
  | invalidExternalId
  /-- Two hyphens inside a comment. -/
  | hyphensInComment
  /-- The end mark of a character data section in plain text. -/
  | sectionEndInText
  /-- Something that no rule of the grammar begins with. -/
  | unknownToken
  deriving DecidableEq, Repr

/-- Why a text cannot be read as a document. -/
inductive SyntaxError where
  /-- A fault at a place of the text. -/
  | located (fault : Fault) (mark : Mark)
  /-- There is no element at all. -/
  | noRoot
  /-- An element is still open at the end. -/
  | unclosedRoot
  /-- The text ends inside a construct. -/
  | endOfText
  deriving DecidableEq, Repr

/-! ## §2. Wording -/

namespace Fault

/-- `c` in quotes, as an escape: the characters shown here have no glyph. -/
def escaped (c : Char) : String :=
  if c.toNat = 0 then "'\\0'" else "'" ++ String.ofList (Escape.braced c) ++ "'"

/-- The first byte of `c` in quotes. -/
def quoted (c : Char) : String :=
  "'" ++ String.singleton (Utf8.leadByte c) ++ "'"

/-- The wording of a fault in front of its place. -/
def lead : Fault → String
  | xmlPrefixRebound => "'xml' namespace prefix mapped to wrong URI"
  | xmlUriMisused => "the 'xml' namespace URI is used for not 'xml' prefix"
  | xmlnsUriDeclared => "the 'xmlns' URI is used"
  | xmlnsPrefixOnElement => "the 'xmlns' prefix is used"
  | namespaceRepeated pfx => "namespace '" ++ pfx ++ "'"
  | unknownPrefix pfx => "an unknown namespace prefix '" ++ pfx ++ "'"
  | closeMismatch expected found => "expected '" ++ expected ++ "' tag, not '" ++ found ++ "'"
  | unexpectedClose => "unexpected close tag"
  | malformedReference => "malformed entity reference"
  | unknownEntity name => "unknown entity reference '" ++ name ++ "'"
  | entityLoop => "a possible entity reference loop is detected"
  | lessThanInValue => "unescaped '<' found"
  | attributeRepeated name => "attribute '" ++ name ++ "'"
  | lateDeclaration => "unexpected XML declaration"
  | invalidName => "invalid name token"
  | invalidChar c => "a non-XML character " ++ escaped c ++ " found"
  | expectedChar expected found => "expected " ++ quoted expected ++ " not " ++ quoted found
  | expectedClass expected found => "expected " ++ expected ++ " not " ++ quoted found
  | expectedText expected => "expected '" ++ expected ++ "'"
  | invalidExternalId => "invalid ExternalID"
  | hyphensInComment => "comment"
  | sectionEndInText => "']]>'"
  | unknownToken => "unknown token"

/-- The wording of a fault behind its place. -/
def trail : Fault → String
  | xmlnsUriDeclared => ", but it must not be declared"
  | xmlnsPrefixOnElement => ", but it must not be"
  | namespaceRepeated _ => " is already defined"
  | attributeRepeated _ => " is already defined"
  | hyphensInComment => " contains '--'"
  | sectionEndInText => " is not allowed inside a character data"
  | _ => ""

end Fault

/-- A place spelled `row:column`. -/
def Position.render (p : Position) : String :=
  Decimal.render p.row ++ ":" ++ Decimal.render p.column

namespace SyntaxError

/-- Where the error lies in `text`; the start for an error without a place. -/
def position (text : List Char) : SyntaxError → Position
  | located _ mark => Position.ofMark text mark
  | _ => Position.start

/-- The wording of the error, its place counted in `text`. -/
def message (text : List Char) : SyntaxError → String
  | located fault mark =>
    fault.lead ++ " at " ++ (Position.ofMark text mark).render ++ fault.trail
  | noRoot => "the document does not have a root node"
  | unclosedRoot => "the root node was opened but never closed"
  | endOfText => "unexpected end of stream"

end SyntaxError

end TemplateLint
