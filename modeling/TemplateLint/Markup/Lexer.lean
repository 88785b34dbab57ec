/-
  TemplateLint.Markup.Lexer — reading forward through a text.

  A `Lexer` reads something that stands at a cursor, or fails with the first
  fault that it meets.
-/
import TemplateLint.Markup.Cursor
import TemplateLint.Markup.SyntaxError

namespace TemplateLint

/-! ## §1. Moving and taking -/

/-- A reader of something that stands at a cursor. -/
abbrev Lexer := StateT Cursor (Except SyntaxError)

namespace Lexer

variable {α β : Type}

/-- The characters that may still be read. -/
def rest : Lexer (List Char) :=
  return (← get).rest

/-- The mark of the next character. -/
def here : Lexer Mark :=
  return (← get).mark

/-- Fails with a fault at `mark`. -/
def failAt (mark : Mark) (fault : Fault) : Lexer α :=
  throw (.located fault mark)

/-- Fails with a fault at the cursor. -/
def fail (fault : Fault) : Lexer α := do
  failAt (← here) fault

/-- Fails with a fault at the cursor unless `holds`. -/
def require (holds : Bool) (fault : Fault) : Lexer Unit :=
  if holds then pure () else fail fault

/-- Moves over `n` characters. -/
def advance (n : Nat) : Lexer Unit :=
  modify (Cursor.advance n)

/-- Whether `text` comes next. -/
def sees (text : String) : Lexer Bool :=
  return (← get).sees text

/-- The next character, which stays unread. -/
def peek : Lexer Char := do
  match ← rest with
  | [] => throw .endOfText
  | c :: _ => return c

/-- Takes characters as long as `p` holds. -/
def takeWhile (p : Char → Bool) : Lexer (List Char) := do
  let taken := (← rest).takeWhile p
  advance taken.length
  return taken

/-- Skips white space, if there is any. -/
def dropSpaces : Lexer Unit :=
  modify Cursor.dropSpaces

/-- Takes white space, at least one character of it. -/
def spaces : Lexer Unit := do
  let c ← peek
  require (isSpace c) (.expectedClass "a whitespace" c)
  dropSpaces

/-- Takes the character `expected`. -/
def char (expected : Char) : Lexer Unit := do
  let c ← peek
  require (c == expected) (.expectedChar expected c)
  advance 1

/-- Takes the text `expected`. -/
def text (expected : String) : Lexer Unit := do
  require (← sees expected) (.expectedText expected)
  advance expected.length

/-- The longest run of XML characters in front of the first place where
`stop` holds of what follows. -/
def run (stop : List Char → Bool) : List Char → List Char
  | [] => []
  | c :: cs => if isXmlChar c && !stop (c :: cs) then c :: run stop cs else []

/-- Fails if the next character is no XML character. -/
def requireXmlChar : Lexer Unit := do
  match ← rest with
  | [] => pure ()
  | c :: _ => require (isXmlChar c) (.invalidChar c)

/-- Takes the characters up to the first place where `stop` holds.  All of
them must be XML characters, and so must the one at which it stops. -/
def charsUntil (stop : List Char → Bool) : Lexer (List Char) := do
  let taken := run stop (← rest)
  advance taken.length
  requireXmlChar
  return taken

/-- Takes the characters up to `mark`, and `mark` itself. -/
def charsThrough (mark : String) : Lexer (List Char) := do
  let taken ← charsUntil mark.toList.isPrefixOf
  text mark
  return taken

end Lexer

/-! ## §2. Names -/

/-- A name as it is written: a prefix, empty if there is none, and the local
part. -/
structure QName where
  pfx : String
  localPart : String
  deriving DecidableEq, Repr

namespace QName

/-- The name that the characters spell.  They may hold one colon; the part
in front of it may be empty, the part behind it may not, and a part begins
with a character that can begin a name. -/
def ofChars? (cs : List Char) : Option QName :=
  let (pfx, localPart) :=
    match cs.dropWhile (· != ':') with
    | [] => ([], cs)
    | _ :: localPart => (cs.takeWhile (· != ':'), localPart)
  if pfx.head?.all isNameStart && localPart.head?.any isNameStart && !localPart.contains ':' then
    some ⟨String.ofList pfx, String.ofList localPart⟩
  else
    none

/-- The name with its prefix, if it has one. -/
def render (name : QName) : String :=
  if name.pfx.isEmpty then name.localPart else name.pfx ++ ":" ++ name.localPart

end QName

namespace Lexer

/-- Takes a name that may have a prefix. -/
def qualifiedName : Lexer QName := do
  let start ← here
  match QName.ofChars? (← takeWhile isNameChar) with
  | some name => return name
  | none => failAt start .invalidName

/-- Takes a name. -/
def name : Lexer String := do
  require ((← rest).head?.any isNameStart) .invalidName
  return String.ofList (← takeWhile isNameChar)

/-- Takes a name unless the text ends here. -/
def nameUnlessEnd : Lexer Unit := do
  if (← rest).isEmpty then
    return ()
  let _ ← name

/-- Takes an equals sign with white space around it. -/
def equals : Lexer Unit := do
  dropSpaces
  char '='
  dropSpaces

/-- Whether `c` is one of the two quotes. -/
def isQuote (c : Char) : Bool :=
  c == '"' || c == '\''

/-- Takes a quote of either kind. -/
def quote : Lexer Char := do
  let c ← peek
  require (isQuote c) (.expectedClass "a quote" c)
  advance 1
  return c

/-- Takes a quoted attribute value and gives the part between the quotes. -/
def quotedValue : Lexer Cursor := do
  let q ← quote
  let start ← here
  let value ← charsUntil fun cs => cs.head?.any fun c => c == q || c == '<'
  char q
  return ⟨value, start⟩

/-- Takes a quoted text of any characters and gives the part between the
quotes. -/
def quotedText : Lexer Cursor := do
  let q ← quote
  let start ← here
  let value ← takeWhile (· != q)
  char q
  return ⟨value, start⟩

end Lexer

end TemplateLint
