/-
  TemplateLint.Markup.Token — the tokens of an element's content.

  A token is read either between tags (`Lexer.inContent`) or inside a start
  tag (`Lexer.inTag`); which of the two comes next depends on the token
  before.  Both take at least one character.
-/
import TemplateLint.Markup.Lexer.Progress
import TemplateLint.Text.Search

namespace TemplateLint

/-- A token of an element's content. -/
inductive Token where
  /-- The name at the start of a tag whose `<` stands at `start`. -/
  | tagName (start : Mark) (name : QName)
  /-- An attribute with its value as it is written. -/
  | attr (start : Mark) (name : QName) (value : Cursor)
  /-- The end of a start tag, which may close its element at once. -/
  | tagEnd (selfClosing : Bool)
  /-- A close tag. -/
  | closeTag (start : Mark) (name : QName)
  /-- Character data in which references are followed. -/
  | text (value : Cursor)
  /-- Character data that stands for itself. -/
  | cdata (content : List Char)
  | comment (content : List Char)
  | instruction (target : String) (content : List Char)
  deriving DecidableEq, Repr

namespace Token

/-- Whether the token leaves its tag unfinished. -/
def staysInTag : Token → Bool
  | tagName .. => true
  | attr .. => true
  | _ => false

/-- How many elements are open after the token, if `depth` were before. -/
def depthAfter (depth : Nat) : Token → Nat
  | tagEnd false => depth + 1
  | closeTag .. => depth - 1
  | _ => depth

end Token

namespace Lexer

/-! ## §1. Tokens between tags -/

/-- A comment, which holds no two hyphens in a row and does not end in one. -/
def comment : Lexer Token := do
  let start ← here
  text "<!--"
  let content ← charsThrough "-->"
  if contains ['-', '-'] content || content.getLast? == some '-' then
    failAt start .hyphensInComment
  else
    return .comment content

/-- A processing instruction.  An XML declaration looks like one, but has
its place at the start of a document only. -/
def instruction : Lexer Token := do
  require (!(← sees "<?xml ")) .lateDeclaration
  text "<?"
  let target ← name
  dropSpaces
  return .instruction target (← charsThrough "?>")

/-- A section of character data without markup. -/
def cdata : Lexer Token := do
  text "<![CDATA["
  return .cdata (← charsThrough "]]>")

/-- A close tag. -/
def closeTag : Lexer Token := do
  let start ← here
  text "</"
  let name ← qualifiedName
  dropSpaces
  char '>'
  return .closeTag start name

/-- The start of a tag, up to its name. -/
def tagName : Lexer Token := do
  let start ← here
  char '<'
  return .tagName start (← qualifiedName)

/-- Character data up to the next tag. -/
def characters : Lexer Token := do
  let start ← here
  let content ← charsUntil (·.head? == some '<')
  require (!contains [']', ']', '>'] content) .sectionEndInText
  return .text ⟨content, start⟩

/-- The kind of token that begins with the given characters. -/
def tokenAt : List Char → Lexer Token
  | '<' :: '!' :: '-' :: '-' :: _ => comment
  | '<' :: '!' :: '[' :: 'C' :: 'D' :: 'A' :: 'T' :: 'A' :: '[' :: _ => cdata
  | '<' :: '!' :: _ => fail .unknownToken
  | '<' :: '?' :: _ => instruction
  | '<' :: '/' :: _ => closeTag
  | ['<'] => fail .unknownToken
  | '<' :: _ => tagName
  | [] => throw .endOfText
  | _ => characters

/-- The next token between tags. -/
def inContent : Lexer Token := do
  tokenAt (← rest)

/-! ## §2. Tokens inside a tag -/

/-- An attribute, as it is written. -/
def attr (start : Mark) : Lexer Token := do
  let name ← qualifiedName
  equals
  return .attr start name (← quotedValue)

/-- The next token inside a start tag.  White space has to stand in front of
each attribute. -/
def inTag : Lexer Token := do
  let spaced := (← rest).head?.any isSpace
  dropSpaces
  let start ← here
  match ← peek with
  | '/' => do
    char '/'
    char '>'
    return .tagEnd true
  | '>' => do
    char '>'
    return .tagEnd false
  | c => do
    require spaced (.expectedClass "a whitespace" c)
    attr start

/-- The next token, inside a start tag or between tags. -/
def token (insideTag : Bool) : Lexer Token :=
  if insideTag then inTag else inContent

/-! ## §3. Every token takes a character -/

instance : Progress comment := by
  unfold comment
  have : Progress (text "<!--") := .text (by simp)
  refine .bind_right fun start => .bind_left

instance : Progress instruction := by
  unfold instruction
  have : Progress (text "<?") := .text (by simp)
  refine .bind_right fun seen => .bind_right fun _ => .bind_left

instance : Progress cdata := by
  unfold cdata
  have : Progress (text "<![CDATA[") := .text (by simp)
  exact .bind_left

instance : Progress closeTag := by
  unfold closeTag
  have : Progress (text "</") := .text (by simp)
  exact .bind_right fun start => .bind_left

instance : Progress tagName := by
  unfold tagName
  exact .bind_right fun start => .bind_left

instance (start : Mark) : Progress (attr start) := by
  unfold attr
  exact .bind_left

/-- Character data is not empty where it begins with something else than a
tag. -/
theorem characters_shrinks {c c' : Cursor} {t : Token} {a : Char} {cs : List Char}
    (hrest : c.rest = a :: cs) (ha : a ≠ '<') (h : characters c = .ok (t, c')) :
    c'.rest.length < c.rest.length := by
  obtain ⟨start, c₁, h₁, h₂⟩ := bind_eq_ok.1 h
  cases h₁
  obtain ⟨content, c₃, h₃, h₄⟩ := bind_eq_ok.1 h₂
  refine Nat.lt_of_le_of_lt (Forward.length_le h₄) ?_
  obtain ⟨hcontent, rfl, hx⟩ := charsUntil_eq_ok h₃
  have hne : content ≠ [] := by
    rintro rfl
    by_cases hxa : isXmlChar a
    · simp [hrest, run, hxa, ha] at hcontent
    · simp [hrest, hxa] at hx
  have hpos := List.length_pos_iff.2 hne
  simp only [Cursor.rest_advance, List.length_drop, hrest, List.length_cons]
  omega

instance : Progress inContent where
  shrinks {c t c'} h := by
    obtain ⟨cs, c₁, h₁, h₂⟩ := bind_eq_ok.1 h
    cases h₁
    generalize hrest : c.rest = cs at h₂
    rw [← hrest]
    unfold tokenAt at h₂
    split at h₂
    · exact Progress.shrinks h₂
    · exact Progress.shrinks h₂
    · cases h₂
    · exact Progress.shrinks h₂
    · exact Progress.shrinks h₂
    · cases h₂
    · exact Progress.shrinks h₂
    · cases h₂
    · next hne =>
      cases cs with
      | nil => simp_all
      | cons a cs => exact characters_shrinks hrest (fun ha => by subst ha; simp_all) h₂

instance : Progress inTag := by
  unfold inTag
  refine .bind_right fun cs => .bind_right fun _ => .bind_right fun start => .bind_right fun c => ?_
  split
  · exact .bind_left
  · exact .bind_left
  · exact .bind_right fun _ => inferInstance

instance (insideTag : Bool) : Progress (token insideTag) := by
  cases insideTag
  · exact inferInstanceAs (Progress inContent)
  · exact inferInstanceAs (Progress inTag)

end Lexer

end TemplateLint
