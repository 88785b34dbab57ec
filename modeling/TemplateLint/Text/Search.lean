/-
  TemplateLint.Text.Search — finding and cutting.

  `contains` asks for one text inside another, `fields` cuts a text at every
  separator, `stripSuffix?` takes a known ending off.
-/
namespace TemplateLint

/-- Whether `needle` stands somewhere in the given text; the empty text
stands everywhere. -/
def contains (needle : List Char) : List Char → Bool
  | [] => needle.isEmpty
  | c :: cs => needle.isPrefixOf (c :: cs) || contains needle cs

/-- The pieces of a text between the separators, empty ones included: `n`
separators make `n + 1` fields. -/
def fields (separator : Char) : List Char → List (List Char)
  | [] => [[]]
  | c :: cs =>
    if c = separator then
      [] :: fields separator cs
    else
      match fields separator cs with
      | [] => [[c]]
      | field :: rest => (c :: field) :: rest

/-- `text` without `ending`, if it ends so. -/
def stripSuffix? (ending text : List Char) : Option (List Char) :=
  if ending.isSuffixOf text then some (text.take (text.length - ending.length)) else none

end TemplateLint
