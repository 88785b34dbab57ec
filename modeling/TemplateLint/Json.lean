/-
  TemplateLint.Json — JSON values and their text.

  The text has one member or item a line, two spaces further in than what
  holds it.  Strings escape the quote, the backslash and the control
  characters below U+0020, and nothing else.
-/
import TemplateLint.Text.Decimal

namespace TemplateLint

/-- A JSON value of the kinds that reports use.  The members of an object
keep their order. -/
inductive Json where
  | null
  | number (n : Nat)
  | string (s : String)
  | array (items : List Json)
  | object (members : List (String × Json))

namespace Json

/-! ## §1. Strings -/

/-- A character inside a string. -/
def escape (c : Char) : List Char :=
  if c = '"' then ['\\', '"']
  else if c = '\\' then ['\\', '\\']
  else if c = '\x08' then ['\\', 'b']
  else if c = '\t' then ['\\', 't']
  else if c = '\n' then ['\\', 'n']
  else if c = '\x0c' then ['\\', 'f']
  else if c = '\r' then ['\\', 'r']
  else if c.toNat < 0x20 then
    ['\\', 'u', '0', '0', Nat.digitChar (c.toNat / 16), Nat.digitChar (c.toNat % 16)]
  else [c]

/-- A string in quotes. -/
def quote (s : String) : List Char :=
  '"' :: s.toList.flatMap escape ++ ['"']

/-! ## §2. Values -/

/-- A line break and the indentation of `depth` levels. -/
def newline (depth : Nat) : List Char :=
  '\n' :: List.replicate (2 * depth) ' '

mutual

/-- The text of a value that stands `depth` levels deep. -/
def write (depth : Nat) : Json → List Char
  | null => ['n', 'u', 'l', 'l']
  | number n => Decimal.digits n
  | string s => quote s
  | array [] => ['[', ']']
  | array (item :: items) =>
    '[' :: newline (depth + 1) ++ write (depth + 1) item ++ writeItems (depth + 1) items ++
      newline depth ++ [']']
  | object [] => ['\x7b', '\x7d']
  | object ((key, value) :: members) =>
    '\x7b' :: newline (depth + 1) ++ quote key ++ [':', ' '] ++ write (depth + 1) value ++
      writeMembers (depth + 1) members ++ newline depth ++ ['\x7d']

/-- The items after the first one. -/
def writeItems (depth : Nat) : List Json → List Char
  | [] => []
  | item :: items => ',' :: newline depth ++ write depth item ++ writeItems depth items

/-- The members after the first one. -/
def writeMembers (depth : Nat) : List (String × Json) → List Char
  | [] => []
  | (key, value) :: members =>
    ',' :: newline depth ++ quote key ++ [':', ' '] ++ write depth value ++
      writeMembers depth members

end

/-- The text of a value. -/
def render (v : Json) : String :=
  String.ofList (write 0 v)

end Json

end TemplateLint
