/-
  TemplateLint.Proofs.Markup.Token — tokens stand in the text they are read from.

  Every lexer keeps its contract (`Reads`), from the primitives up to whole
  tokens and the items of a document type.  `Token.StandsIn` is what a token
  promises: its marks are marks of the text, a tag name stands behind a `<`,
  the values are parts of the text, and the names have no space.

  Main facts: `token_reads` and `doctypeItem_reads`.
-/
import TemplateLint.Proofs.Markup.Place

namespace TemplateLint

/-! ## §1. Names -/

/-- A name spelled with the characters of names is plain. -/
theorem QName.isPlain_of_ofChars? {cs : List Char} {name : QName} (hcs : cs.all isNameChar = true)
    (h : ofChars? cs = some name) : name.IsPlain := by
  rw [List.all_eq_true] at hcs
  unfold ofChars? at h
  split at h
  rename_i pfx localPart hparts
  split at h
  · cases h
    split at hparts
    · -- no colon: all is the local part
      cases hparts
      exact ⟨rfl, by simpa using hcs⟩
    · -- the parts are what stands before and behind the first colon
      next colon localPart' hdrop =>
      cases hparts
      refine ⟨?_, ?_⟩
      · rw [String.toList_ofList, List.all_eq_true]
        exact fun c hc => hcs c ((List.takeWhile_sublist _).subset hc)
      · rw [String.toList_ofList, List.all_eq_true]
        intro c hc
        have hback : c ∈ cs.dropWhile (· != ':') := by
          rw [hdrop]
          exact List.mem_cons_of_mem _ hc
        exact hcs c ((List.dropWhile_sublist _).subset hback)
  · cases h

/-- A plain name is written with the characters of names: the colon is one of
them. -/
theorem QName.IsPlain.render {name : QName} (h : name.IsPlain) :
    name.render.toList.all isNameChar = true := by
  unfold QName.render
  split
  · exact h.2
  · simp only [String.toList_append, List.all_append, h.1, h.2, Bool.and_true, Bool.true_and]
    decide

namespace Lexer

variable {α β : Type} {source : List Char}

/-! ## §2. The primitives -/

instance : Careful source rest := ⟨fun _ hc => ⟨trivial, hc⟩⟩

instance : Careful source here := ⟨fun _ hc => ⟨trivial, hc⟩⟩

instance (word : String) : Careful source (sees word) := ⟨fun _ hc => ⟨trivial, hc⟩⟩

instance (n : Nat) : Careful source (advance n) := ⟨fun _ hc => ⟨trivial, hc.advance n⟩⟩

instance : Careful source dropSpaces := ⟨fun _ hc => ⟨trivial, hc.advance _⟩⟩

instance : Careful source peek where
  reads c hc := by
    obtain ⟨rest, mark⟩ := c
    cases rest with
    | nil => exact trivial
    | cons a rest => exact ⟨trivial, hc⟩

/-- A requirement whose fault is plain. -/
theorem Careful.require {holds : Bool} {fault : Fault} (h : fault.IsPlain) :
    Careful source (require holds fault) :=
  ⟨.ite (.pure trivial) (.fail h)⟩

/-- A requirement of a class whose name is a fixed wording. -/
theorem Careful.requireClass {holds : Bool} {expected : String} {found : Char}
    (h : expected.toList.all isWording = true) :
    Careful source (Lexer.require holds (.expectedClass expected found)) :=
  .require h

instance (holds : Bool) (found : Char) :
    Careful source (require holds (.expectedClass "a whitespace" found)) :=
  .requireClass (by decide)

instance (holds : Bool) (found : Char) :
    Careful source (require holds (.expectedClass "a quote" found)) :=
  .requireClass (by decide)

instance (holds : Bool) : Careful source (require holds .invalidName) := .require trivial

instance (holds : Bool) (c : Char) : Careful source (require holds (.invalidChar c)) :=
  .require trivial

instance (holds : Bool) : Careful source (require holds .lateDeclaration) := .require trivial

instance (holds : Bool) : Careful source (require holds .sectionEndInText) := .require trivial

instance (holds : Bool) : Careful source (require holds .invalidExternalId) := .require trivial

instance : Careful source (fail .unknownToken : Lexer α) := ⟨.fail trivial⟩

theorem takeWhile_reads (p : Char → Bool) :
    Reads source (takeWhile p) fun taken => taken.all p = true :=
  fun _ hc => ⟨List.all_takeWhile, hc.advance _⟩

instance (p : Char → Bool) : Careful source (takeWhile p) := (takeWhile_reads p).careful

instance : Careful source spaces := by
  unfold spaces
  infer_instance

/-- A character that is no line feed is taken carefully. -/
theorem Careful.char {expected : Char} (h : expected ≠ '\n') : Careful source (char expected) := by
  have (holds : Bool) (found : Char) :
      Careful source (Lexer.require holds (.expectedChar expected found)) := .require h
  unfold Lexer.char
  infer_instance

instance : Careful source (char '<') := .char (by decide)

instance : Careful source (char '>') := .char (by decide)

instance : Careful source (char '/') := .char (by decide)

instance : Careful source (char ']') := .char (by decide)

instance : Careful source (char '=') := .char (by decide)

/-- A fixed text is taken carefully. -/
theorem Careful.text {expected : String} (h : expected.toList.all isWording = true) :
    Careful source (text expected) := by
  have (holds : Bool) : Careful source (Lexer.require holds (.expectedText expected)) :=
    .require h
  unfold Lexer.text
  infer_instance

instance : Careful source requireXmlChar := by
  unfold requireXmlChar
  -- instance search does not look into the match
  have (cs : List Char) : Careful source (match cs with
      | [] => pure ()
      | c :: _ => Lexer.require (isXmlChar c) (.invalidChar c) : Lexer Unit) := by
    cases cs <;> infer_instance
  infer_instance

instance (stop : List Char → Bool) : Careful source (charsUntil stop) := by
  unfold charsUntil
  infer_instance

theorem Careful.charsThrough {mark : String} (h : mark.toList.all isWording = true) :
    Careful source (charsThrough mark) := by
  have : Careful source (Lexer.text mark) := .text h
  unfold Lexer.charsThrough
  infer_instance

/-! ## §3. Names and values -/

theorem qualifiedName_reads : Reads source qualifiedName QName.IsPlain := by
  unfold qualifiedName
  refine .here_bind fun start hstart => (takeWhile_reads isNameChar).bind fun cs hcs => ?_
  split
  · next name hname =>
    exact .pure (QName.isPlain_of_ofChars? hcs hname)
  · exact .failAt hstart trivial

instance : Careful source qualifiedName := qualifiedName_reads.careful

instance : Careful source name := by
  unfold name
  infer_instance

instance : Careful source nameUnlessEnd := by
  unfold nameUnlessEnd
  infer_instance

instance : Careful source equals := by
  unfold equals
  infer_instance

/-- What is taken for a quote is one of the two, and no line feed. -/
theorem quote_reads : Reads source quote (· ≠ '\n') := by
  unfold quote
  refine .after fun c => ?_
  by_cases hc : isQuote c = true
  · have hne : c ≠ '\n' := by
      rintro rfl
      exact absurd hc (by decide)
    exact .after fun _ => .after fun _ => .pure hne
  · have hfail : Reads source (require (isQuote c) (.expectedClass "a quote" c)) fun _ => False := by
      rw [Bool.eq_false_iff.2 hc]
      exact .fail (show "a quote".toList.all isWording = true by decide)
    exact hfail.bind fun _ h => h.elim

theorem run_prefix (stop : List Char → Bool) (cs : List Char) : run stop cs <+: cs := by
  induction cs with
  | nil => exact List.prefix_refl _
  | cons c cs ih =>
    unfold run
    split
    · exact (List.prefix_cons_inj c).2 ih
    · exact List.nil_prefix

/-- What a lexer takes from the front of the text is a part of the text. -/
theorem Reads.span {p : Lexer (List Char)} {f : Mark → List Char → Lexer β} {good : β → Prop}
    [Careful source p] (hp : ∀ {c taken c'}, p c = .ok (taken, c') → taken <+: c.rest)
    (hf : ∀ start taken, (⟨taken, start⟩ : Cursor).LiesIn source → Reads source (f start taken) good) :
    Reads source (do
      let start ← here
      let taken ← p
      f start taken) good := by
  intro c hc
  have hread := Careful.reads (p := p) c hc
  show Ensures (p c >>= fun r => f c.mark r.1 r.2) _ _
  cases htake : p c with
  | error e =>
    rw [htake] at hread
    exact hread
  | ok r =>
    rw [htake] at hread
    exact hf c.mark r.1 (hc.takes (hp htake)) r.2 hread.2

theorem charsUntil_prefix {stop : List Char → Bool} {c c' : Cursor} {taken : List Char}
    (h : charsUntil stop c = .ok (taken, c')) : taken <+: c.rest := by
  rw [(charsUntil_eq_ok h).1]
  exact run_prefix stop c.rest

theorem takeWhile_prefix {q : Char → Bool} {c c' : Cursor} {taken : List Char}
    (h : takeWhile q c = .ok (taken, c')) : taken <+: c.rest := by
  cases h
  exact List.takeWhile_prefix q

theorem quotedValue_reads : Reads source quotedValue (·.LiesIn source) := by
  unfold quotedValue
  refine quote_reads.bind fun q hq => .span charsUntil_prefix fun start value hvalue => ?_
  have : Careful source (char q) := .char hq
  exact .after fun _ => .pure hvalue

theorem quotedText_reads : Reads source quotedText (·.LiesIn source) := by
  unfold quotedText
  refine quote_reads.bind fun q hq => .span takeWhile_prefix fun start value hvalue => ?_
  have : Careful source (char q) := .char hq
  exact .after fun _ => .pure hvalue

instance : Careful source quotedValue := quotedValue_reads.careful

instance : Careful source quotedText := quotedText_reads.careful

end Lexer

/-! ## §4. Tokens -/

/-- What a token says about places and names holds in `source`. -/
def Token.StandsIn (source : List Char) : Token → Prop
  | tagName start name => OpensAt source start ∧ name.IsPlain
  | attr start name value => start ≤ source.length ∧ name.IsPlain ∧ value.LiesIn source
  | closeTag start name => start ≤ source.length ∧ name.IsPlain
  | text value => value.LiesIn source
  | _ => True

namespace Lexer

variable {source : List Char}

theorem comment_reads : Reads source comment (Token.StandsIn source) := by
  have : Careful source (text "<!--") := .text (by decide)
  have : Careful source (charsThrough "-->") := .charsThrough (by decide)
  unfold comment
  refine .here_bind fun start hstart => .after fun _ => .after fun content => ?_
  exact .ite (.failAt hstart trivial) (.pure trivial)

theorem instruction_reads : Reads source instruction (Token.StandsIn source) := by
  have : Careful source (text "<?") := .text (by decide)
  have : Careful source (charsThrough "?>") := .charsThrough (by decide)
  unfold instruction
  refine .after fun declared => .after fun _ => .after fun _ => .after fun target => ?_
  exact .after fun _ => .after fun content => .pure trivial

theorem cdata_reads : Reads source cdata (Token.StandsIn source) := by
  have : Careful source (text "<![CDATA[") := .text (by decide)
  have : Careful source (charsThrough "]]>") := .charsThrough (by decide)
  unfold cdata
  exact .after fun _ => .after fun content => .pure trivial

theorem closeTag_reads : Reads source closeTag (Token.StandsIn source) := by
  have : Careful source (text "</") := .text (by decide)
  unfold closeTag
  refine .here_bind fun start hstart => .after fun _ => ?_
  refine qualifiedName_reads.bind fun name hname => .after fun _ => .after fun _ => ?_
  exact .pure ⟨hstart, hname⟩

theorem char_eq_ok {expected : Char} {c : Cursor} {r : Unit × Cursor}
    (h : char expected c = .ok r) : ∃ cs, c.rest = expected :: cs ∧ r.2 = c.advance 1 := by
  obtain ⟨_, c'⟩ := r
  obtain ⟨a, c₁, h₁, h₂⟩ := bind_eq_ok.1 h
  obtain ⟨_, c₂, h₃, h₄⟩ := bind_eq_ok.1 h₂
  obtain ⟨ha, rfl⟩ := require_eq_ok h₃
  obtain ⟨rest, mark⟩ := c
  cases rest with
  | nil => cases h₁
  | cons b rest =>
    cases h₁
    cases h₄
    exact ⟨rest, by rw [eq_of_beq ha], rfl⟩

theorem tagName_reads : Reads source tagName (Token.StandsIn source) := by
  intro c hc
  -- `Reads.bind` would forget that the character at the mark was a `<`
  have hread := Careful.reads (p := char '<') c hc
  show Ensures (char '<' c >>= fun r => (do
    return .tagName c.mark (← qualifiedName) : Lexer Token) r.2) _ _
  cases htake : char '<' c with
  | error e =>
    rw [htake] at hread
    exact hread
  | ok r =>
    rw [htake] at hread
    obtain ⟨cs, hrest, -⟩ := char_eq_ok htake
    have hname : Reads source (do return .tagName c.mark (← qualifiedName) : Lexer Token)
        (Token.StandsIn source) :=
      qualifiedName_reads.bind fun name hname => .pure ⟨hc.opensAt hrest, hname⟩
    exact hname r.2 hread.2

theorem characters_reads : Reads source characters (Token.StandsIn source) := by
  unfold characters
  refine .span charsUntil_prefix fun start content hcontent => ?_
  exact .after fun _ => .pure hcontent

theorem inContent_reads : Reads source inContent (Token.StandsIn source) := by
  unfold inContent
  refine .after fun cs => ?_
  unfold tokenAt
  split
  · exact comment_reads
  · exact cdata_reads
  · exact .fail trivial
  · exact instruction_reads
  · exact closeTag_reads
  · exact .fail trivial
  · exact tagName_reads
  · -- at the end of the text the error has no place
    exact fun _ _ => trivial
  · exact characters_reads

theorem attr_reads {start : Mark} (hstart : start ≤ source.length) :
    Reads source (attr start) (Token.StandsIn source) := by
  unfold attr
  refine qualifiedName_reads.bind fun name hname => .after fun _ => ?_
  exact quotedValue_reads.bind fun value hvalue => .pure ⟨hstart, hname, hvalue⟩

theorem inTag_reads : Reads source inTag (Token.StandsIn source) := by
  unfold inTag
  refine .after fun cs => .after fun _ => .here_bind fun start hstart => .after fun c => ?_
  split
  · exact .after fun _ => .after fun _ => .pure trivial
  · exact .after fun _ => .pure trivial
  · exact .after fun _ => attr_reads hstart

/-- **Tokens stand in the text.**  Inside a tag and between tags alike, a
token is read carefully and its places are places of the text. -/
theorem token_reads (insideTag : Bool) : Reads source (token insideTag) (Token.StandsIn source) :=
  .ite inTag_reads inContent_reads

end Lexer

end TemplateLint
