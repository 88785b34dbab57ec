/-
  TemplateLint.Proofs.Markup.Trailing — a comment behind a document.

  A document with a comment put behind it is read to the same nodes, further
  from the end, and the comment.  The comment is read behind the element, or as
  its content where an entity has closed it before its time.  Only one thing can
  go wrong: the text may end in an unfinished start tag.  Where all entities are
  idle this is no document; otherwise `EndsInTag` has to be ruled out, for which a
  look at the last character is often enough.

  Main result: `Document.read_followed`.
-/
import TemplateLint.Proofs.Markup.Prolog

namespace TemplateLint

/-! ## §1. Texts that end in an unfinished tag -/

/-- The reader is inside a start tag of the text: it has read the name of the tag,
and since then attributes. -/
inductive InTag (text : List Char) : Cursor → Prop where
  | name {n : Nat} {t : Token} {c : Cursor}
      (h : Lexer.tagName ((Cursor.ofText text).advance n) = .ok (t, c)) : InTag text c
  | attr {c c' : Cursor} {t : Token} (hc : InTag text c) (h : Lexer.inTag c = .ok (t, c'))
      (hstays : t.staysInTag = true) : InTag text c'

/-- The text ends in an unfinished start tag: there is a `<` in it, with a name and
maybe attributes behind it, and nothing else. -/
def EndsInTag (text : List Char) : Prop :=
  ∃ c, InTag text c ∧ c.rest = []

/-- The last character of the text is neither that of a name nor a quote. -/
def EndsOutsideTag (cs : List Char) : Prop :=
  ∀ a ∈ cs.getLast?, isNameChar a = false ∧ Lexer.isQuote a = false

instance (cs : List Char) : Decidable (EndsOutsideTag cs) :=
  decidable_of_iff (cs.getLast?.all (fun a => !isNameChar a && !Lexer.isQuote a) = true) <| by
    unfold EndsOutsideTag
    cases cs.getLast? <;> simp

theorem EndsOutsideTag.drop {cs : List Char} (n : Nat) (h : EndsOutsideTag cs) :
    EndsOutsideTag (cs.drop n) := by
  intro a ha
  rw [List.getLast?_drop] at ha
  split at ha
  · cases ha
  · exact h a ha

namespace Lexer

variable {α : Type} {p : Lexer α} {f : α → Lexer Token}

theorem endsOutsideTag_of_forward [Forward p] {a : α} {c c' : Cursor} (hends : EndsOutsideTag c.rest)
    (h : p c = .ok (a, c')) : EndsOutsideTag c'.rest := by
  obtain ⟨n, rfl⟩ := Forward.moves h
  rw [Cursor.rest_advance]
  exact hends.drop n

/-- A token that leaves its tag unfinished is not the last thing in a text that
ends outside of tags. -/
def LeavesMore (p : Lexer Token) : Prop :=
  ∀ c t c', EndsOutsideTag c.rest → p c = .ok (t, c') → t.staysInTag = true → c'.rest ≠ []

theorem LeavesMore.bind [Forward p] (hf : ∀ a, LeavesMore (f a)) : LeavesMore (p >>= f) := by
  intro c t c' hends h
  obtain ⟨a, c₁, h₁, h₂⟩ := bind_eq_ok.1 h
  exact hf a c₁ t c' (endsOutsideTag_of_forward hends h₁) h₂

theorem LeavesMore.pure {t : Token} (h : t.staysInTag = false) : LeavesMore (pure t) := by
  intro c t' c' _ ht hstays
  cases ht
  rw [h] at hstays
  cases hstays

/-- A name at the end of a text ends it with one of its characters. -/
theorem rest_ne_nil_of_qualifiedName {c c' : Cursor} {name : QName} (hends : EndsOutsideTag c.rest)
    (h : qualifiedName c = .ok (name, c')) : c'.rest ≠ [] := by
  obtain ⟨start, c₁, h₁, h₂⟩ := bind_eq_ok.1 h
  cases h₁
  obtain ⟨taken, c₂, h₃, h₄⟩ := bind_eq_ok.1 h₂
  cases h₃
  have hne : c.rest ≠ [] := by
    intro hnil
    rw [hnil] at h₄
    cases h₄
  have hc' : c' = c.advance (c.rest.takeWhile isNameChar).length := by
    generalize QName.ofChars? (c.rest.takeWhile isNameChar) = name? at h₄
    cases name? with
    | none => cases h₄
    | some name =>
      cases h₄
      rfl
  rw [hc', Cursor.rest_advance]
  intro hnil
  have htaken : c.rest.takeWhile isNameChar = c.rest :=
    (List.takeWhile_prefix _).eq_of_length_le (List.drop_eq_nil_iff.1 hnil)
  have hall : c.rest.all isNameChar = true := by
    rw [← htaken]
    exact List.all_takeWhile
  have hname := List.all_eq_true.1 hall _ (List.getLast_mem hne)
  have hend := (hends _ (List.getLast?_eq_some_getLast hne)).1
  rw [hname] at hend
  cases hend

/-- A value at the end of a text ends it with a quote. -/
theorem rest_ne_nil_of_quotedValue {c c' : Cursor} {value : Cursor} (hends : EndsOutsideTag c.rest)
    (h : quotedValue c = .ok (value, c')) : c'.rest ≠ [] := by
  obtain ⟨q, c₁, h₁, h₂⟩ := bind_eq_ok.1 h
  obtain ⟨start, c₂, h₃, h₄⟩ := bind_eq_ok.1 h₂
  obtain ⟨cs, c₃, h₅, h₆⟩ := bind_eq_ok.1 h₄
  obtain ⟨_, c₄, h₇, h₈⟩ := bind_eq_ok.1 h₆
  cases h₈
  -- the closing quote is the one that was found in front
  have hquote : isQuote q = true := by
    obtain ⟨a, d₁, g₁, g₂⟩ := bind_eq_ok.1 h₁
    obtain ⟨_, d₂, g₃, g₄⟩ := bind_eq_ok.1 g₂
    obtain ⟨_, d₃, g₅, g₆⟩ := bind_eq_ok.1 g₄
    cases g₆
    exact (require_eq_ok g₃).1
  cases h₃
  have hends₃ : EndsOutsideTag c₃.rest :=
    endsOutsideTag_of_forward (endsOutsideTag_of_forward hends h₁) h₅
  obtain ⟨tail, hrest, hc'⟩ := char_eq_ok h₇
  rw [show c' = c₃.advance 1 from hc', Cursor.rest_advance, hrest]
  intro hnil
  rw [hrest, show tail = [] from hnil] at hends₃
  have hend := (hends₃ q rfl).2
  rw [hquote] at hend
  cases hend

theorem tagName_leavesMore : LeavesMore tagName := by
  unfold tagName
  refine .bind fun start => .bind fun _ => ?_
  intro c t c' hends h _
  obtain ⟨name, c₁, h₁, h₂⟩ := bind_eq_ok.1 h
  cases h₂
  exact rest_ne_nil_of_qualifiedName hends h₁

theorem attr_leavesMore (start : Mark) : LeavesMore (attr start) := by
  unfold attr
  refine .bind fun name => .bind fun _ => ?_
  intro c t c' hends h _
  obtain ⟨value, c₁, h₁, h₂⟩ := bind_eq_ok.1 h
  cases h₂
  exact rest_ne_nil_of_quotedValue hends h₁

theorem inTag_leavesMore : LeavesMore inTag := by
  unfold inTag
  refine .bind fun cs => .bind fun _ => .bind fun start => .bind fun a => ?_
  split
  · exact .bind fun _ => .bind fun _ => .pure rfl
  · exact .bind fun _ => .pure rfl
  · exact .bind fun _ => attr_leavesMore start

end Lexer

theorem InTag.rest_ne_nil {text : List Char} {c : Cursor} (hends : EndsOutsideTag text)
    (h : InTag text c) : EndsOutsideTag c.rest ∧ c.rest ≠ [] := by
  induction h with
  | @name n t c h =>
    have hstart : EndsOutsideTag ((Cursor.ofText text).advance n).rest := by
      rw [Cursor.rest_advance]
      exact hends.drop n
    obtain ⟨name, rfl⟩ := Lexer.tagName_eq_ok h
    exact ⟨Lexer.endsOutsideTag_of_forward hstart h, Lexer.tagName_leavesMore _ _ c hstart h rfl⟩
  | @attr c c' t _ h hstays ih =>
    exact ⟨Lexer.endsOutsideTag_of_forward ih.1 h, Lexer.inTag_leavesMore c t c' ih.1 h hstays⟩

/-- An unfinished tag ends with a name or with a quote. -/
theorem not_endsInTag {text : List Char} (hends : EndsOutsideTag text) : ¬ EndsInTag text := by
  rintro ⟨c, hin, hnil⟩
  exact (hin.rest_ne_nil hends).2 hnil

/-- The cursor is in a text that does not end in an unfinished tag. -/
def Cursor.InFinished (text : List Char) (c : Cursor) : Prop :=
  ¬ EndsInTag text ∧ ∃ n, c = (Cursor.ofText text).advance n

theorem Cursor.InFinished.advance {text : List Char} {c : Cursor} (h : c.InFinished text) (m : Nat) :
    (c.advance m).InFinished text := by
  obtain ⟨hends, n, rfl⟩ := h
  exact ⟨hends, n + m, by rw [Cursor.advance_advance]⟩

namespace Lexer

variable {α : Type} {p : Lexer α} {f : α → Lexer Token}

/-- The reader is not inside a tag behind what the lexer reads. -/
def FinishesTag (p : Lexer Token) : Prop :=
  ∀ c t c', p c = .ok (t, c') → t.staysInTag = false

theorem FinishesTag.bind (hf : ∀ a, FinishesTag (f a)) : FinishesTag (p >>= f) := by
  intro c t c' h
  obtain ⟨a, c₁, -, h₁⟩ := bind_eq_ok.1 h
  exact hf a c₁ t c' h₁

theorem FinishesTag.pure {t : Token} (h : t.staysInTag = false) : FinishesTag (pure t) := by
  intro c t' c' ht
  cases ht
  exact h

theorem FinishesTag.failAt {mark : Mark} {fault : Fault} : FinishesTag (failAt mark fault) := by
  intro c t c' h
  cases h

theorem FinishesTag.ite {b : Bool} {p q : Lexer Token} (hp : FinishesTag p) (hq : FinishesTag q) :
    FinishesTag (if b then p else q) := by
  cases b
  · exact hq
  · exact hp

/-- Between tags, only the name of a tag leads into one. -/
theorem tagName_of_inContent {c c' : Cursor} {t : Token} (h : inContent c = .ok (t, c'))
    (hstays : t.staysInTag = true) : tagName c = .ok (t, c') := by
  have hother : ∀ {p : Lexer Token}, FinishesTag p → p c = .ok (t, c') → tagName c = .ok (t, c') := by
    intro p hp h
    rw [hp c t c' h] at hstays
    cases hstays
  obtain ⟨cs, c₁, h₁, h₂⟩ := bind_eq_ok.1 h
  cases h₁
  generalize c.rest = cs at h₂
  unfold tokenAt at h₂
  split at h₂
  · exact hother (.bind fun _ => .bind fun _ => .bind fun _ => .ite .failAt (.pure rfl)) h₂
  · exact hother (.bind fun _ => .bind fun _ => .pure rfl) h₂
  · cases h₂
  · exact hother (.bind fun _ => .bind fun _ => .bind fun _ => .bind fun _ => .bind fun _ =>
      .bind fun _ => .pure rfl) h₂
  · exact hother (.bind fun _ => .bind fun _ => .bind fun _ => .bind fun _ => .bind fun _ =>
      .pure rfl) h₂
  · cases h₂
  · exact h₂
  · cases h₂
  · exact hother (.bind fun _ => .bind fun _ => .bind fun _ => .pure rfl) h₂

end Lexer

/-! ## §2. The comment -/

/-- What a comment can hold: XML characters, no two hyphens in a row, and none at
the end. -/
structure IsCommentText (content : List Char) : Prop where
  xml : content.all isXmlChar = true
  hyphens : contains ['-', '-'] content = false
  last : content.getLast? ≠ some '-'

instance (content : List Char) : Decidable (IsCommentText content) :=
  decidable_of_iff
    (content.all isXmlChar = true ∧ contains ['-', '-'] content = false ∧ content.getLast? ≠ some '-')
    ⟨fun h => ⟨h.1, h.2.1, h.2.2⟩, fun h => ⟨h.xml, h.hyphens, h.last⟩⟩

/-- The comment that holds the given text. -/
def commentOf (content : List Char) : List Char :=
  '<' :: '!' :: '-' :: '-' :: (content ++ ['-', '-', '>'])

instance (content : List Char) : Further (commentOf content) :=
  inferInstanceAs (Further ('<' :: _))

variable {content text : List Char}

namespace Lexer

/-- The first `-->` is the end of the comment. -/
theorem run_comment (h : IsCommentText content) :
    run "-->".toList.isPrefixOf (content ++ ['-', '-', '>']) = content := by
  obtain ⟨hxml, hhyphens, hlast⟩ := h
  induction content with
  | nil => rfl
  | cons a cs ih =>
    rw [List.all_cons, Bool.and_eq_true] at hxml
    obtain ⟨hstart, hinner⟩ : List.isPrefixOf ['-', '-'] (a :: cs) = false ∧
        contains ['-', '-'] cs = false := by
      simpa [contains] using hhyphens
    have hrest : cs.getLast? ≠ some '-' := by
      intro h
      refine hlast ?_
      rw [List.getLast?_cons, h]
      rfl
    -- one hyphen may be there, but no second one behind it
    have hstop : "-->".toList.isPrefixOf (a :: (cs ++ ['-', '-', '>'])) = false := by
      cases cs with
      | nil =>
        have ha : a ≠ '-' := fun h => hlast (by rw [h]; rfl)
        show ('-' == a && _) = false
        rw [beq_eq_false_iff_ne.2 (Ne.symm ha), Bool.false_and]
      | cons b cs =>
        have hpair : ('-' == a && ('-' == b && true)) = false := hstart
        show ('-' == a && ('-' == b && _)) = false
        rw [Bool.and_true] at hpair
        rw [← Bool.and_assoc, hpair, Bool.false_and]
    rw [List.cons_append]
    unfold run
    rw [hstop, hxml.1, ih hxml.2 hinner hrest]
    rfl

/-- A comment is read as it is written. -/
theorem comment_written (h : IsCommentText content) (n : Nat) :
    comment ⟨commentOf content, n + (commentOf content).length⟩ = .ok (.comment content, ⟨[], n⟩) := by
  have hmark : n + (commentOf content).length = n + 3 + content.length + 4 := by
    simp only [commentOf, List.length_cons, List.length_append, List.length_nil]
    omega
  have huntil : charsUntil "-->".toList.isPrefixOf
      ⟨content ++ ['-', '-', '>'], n + 3 + content.length⟩ = .ok (content, ⟨['-', '-', '>'], n + 3⟩) := by
    refine bind_eq_ok.2 ⟨_, _, rfl, ?_⟩
    rw [run_comment h]
    refine bind_eq_ok.2 ⟨(), ⟨['-', '-', '>'], n + 3⟩, ?_, rfl⟩
    exact congrArg (fun c => Except.ok ((), c)) (Cursor.advance_append content _ _)
  have hthrough : charsThrough "-->" ⟨content ++ ['-', '-', '>'], n + 3 + content.length⟩
      = .ok (content, ⟨[], n⟩) :=
    bind_eq_ok.2 ⟨_, _, huntil, rfl⟩
  have hplain : (contains ['-', '-'] content || content.getLast? == some '-') = false := by
    rw [h.hyphens, Bool.false_or]
    exact beq_eq_false_iff_ne.2 h.last
  rw [hmark]
  refine bind_eq_ok.2 ⟨_, _, rfl, ?_⟩
  refine bind_eq_ok.2 ⟨(), ⟨content ++ ['-', '-', '>'], n + 3 + content.length⟩, rfl, ?_⟩
  refine bind_eq_ok.2 ⟨content, _, hthrough, ?_⟩
  rw [hplain]
  rfl

end Lexer

/-- The cursor in a text with the comment behind it. -/
abbrev Cursor.commented (content : List Char) (c : Cursor) : Cursor :=
  c.continued (commentOf content) (commentOf content).length

/-- At the end of a text the comment behind it comes next. -/
theorem Cursor.commented_of_rest {c : Cursor} (h : c.rest = []) :
    c.commented content = ⟨commentOf content, c.mark + (commentOf content).length⟩ := by
  unfold commented continued
  rw [h, List.nil_append]

theorem Lexer.comment_commented (hcontent : IsCommentText content) {c : Cursor} (h : c.rest = []) :
    comment (c.commented content)
      = .ok (.comment content, c) := by
  rw [Cursor.commented_of_rest h, comment_written hcontent]
  obtain ⟨rest, mark⟩ := c
  cases h
  rfl

namespace Builder

variable {b b' : Builder} {insideTag : Bool} {depth : Nat} {cursor cursor' : Cursor}

/-! ## §3. Tokens in front of the comment -/

/-- What keeps the reader from ending inside a tag: all entities are idle, and
there will be no document, or the text itself does not end there. -/
def Steady (text : List Char) (insideTag : Bool) (depth : Nat) (cursor : Cursor) (b : Builder) : Prop :=
  Nested cursor.mark insideTag depth b ∨
    (cursor.InFinished text ∧ (insideTag = true → InTag text cursor))

theorem Steady.step {token : Token} {after : Builder} (hcursor : cursor.Fits)
    (hmore : ¬ (cursor.rest.isEmpty = true ∨ (insideTag = false ∧ depth = 0)))
    (htoken : Lexer.token insideTag cursor = .ok (token, cursor'))
    (htake : b.take maxLevel (expand maxLevel) token = .ok after)
    (h : Steady text insideTag depth cursor b) :
    Steady text token.staysInTag (token.depthAfter depth) cursor' after := by
  rcases h with hnested | ⟨hfinished, hin⟩
  · have htaken := take_step maxLevel (expand_outline maxLevel) hcursor hmore htoken hnested
    rw [htake] at htaken
    exact .inl htaken
  · obtain ⟨n, hn⟩ := Lexer.Forward.moves htoken
    refine .inr ⟨hn ▸ hfinished.advance n, fun hstays => ?_⟩
    cases insideTag with
    | true => exact .attr (hin rfl) htoken hstays
    | false =>
      obtain ⟨-, m, rfl⟩ := hfinished
      exact .name (Lexer.tagName_of_inContent htoken hstays)

/-- The second builder is the first one with grown marks and the comment behind
all else. -/
def Commented (content : List Char) (b b' : Builder) : Prop :=
  ∃ grown, Grown (commentOf content).length b grown ∧
    b' = grown.add (.comment (String.ofList content))

/-- Where the two runs stop: both in front of the comment, or at the end, and the
second one has read it. -/
def Stopped (content : List Char) (r r' : Builder × Cursor) : Prop :=
  r.2.Fits ∧
    ((Grown (commentOf content).length r.1 r'.1 ∧ r'.2 = r.2.commented content) ∨
      (Commented content r.1 r'.1 ∧ r.2.rest = [] ∧ r'.2 = r.2))

/-- A text that ends between tags inside an element goes on with the comment. -/
theorem read_comment (hcontent : IsCommentText content) (hnil : cursor.rest = []) (hdepth : depth ≠ 0) :
    b'.read maxLevel (expand maxLevel) false depth
        (cursor.commented content)
      = .ok (b'.add (.comment (String.ofList content)), cursor) := by
  have hmore : ¬ ((cursor.commented content).rest.isEmpty = true
      ∨ (false = false ∧ depth = 0)) := by
    rw [Cursor.commented_of_rest hnil]
    rintro (hempty | hdone)
    · cases hempty
    · exact hdepth hdone.2
  have htoken : Lexer.token false
      (cursor.commented content) = .ok (.comment content, cursor) := by
    rw [← Lexer.comment_commented hcontent hnil, Cursor.commented_of_rest hnil]
    rfl
  rw [read_of_token hmore htoken rfl, Builder.read, if_pos (.inl (by rw [hnil]; rfl))]

/-- **A run of tokens** with a comment behind the text: it goes the same way, or
there will be no document. -/
theorem read_followed (hcontent : IsCommentText content) (hcursor : cursor.Fits)
    (hsteady : Steady text insideTag depth cursor b) (h : Grown (commentOf content).length b b') :
    ∀ r, b.read maxLevel (expand maxLevel) insideTag depth cursor = .ok r →
      r.1.hasElement = false ∨
      ∃ r', b'.read maxLevel (expand maxLevel) insideTag depth
        (cursor.commented content) = .ok r' ∧
        Stopped content r r' := by
  fun_induction Builder.read maxLevel (expand maxLevel) insideTag depth cursor b generalizing b' with
  | case1 insideTag depth cursor b hend =>
    intro r hr
    cases hr
    by_cases hdone : insideTag = false ∧ depth = 0
    · -- the element is closed, and the comment is left to what reads on
      refine .inr ⟨(b', cursor.commented content), ?_, hcursor, .inl ⟨h, rfl⟩⟩
      rw [Builder.read, if_pos (.inr hdone)]
    · have hnil : cursor.rest = [] := List.isEmpty_iff.1 (hend.resolve_right hdone)
      cases insideTag with
      | true =>
        rcases hsteady with hnested | ⟨hfinished, hin⟩
        · exact .inl (hnested.unfinished (.inl rfl))
        · exact absurd ⟨cursor, hin rfl, hnil⟩ hfinished.1
      | false =>
        have hdepth : depth ≠ 0 := fun hzero => hdone ⟨rfl, hzero⟩
        exact .inr ⟨_, read_comment hcontent hnil hdepth, hcursor, .inr ⟨⟨b', h, rfl⟩, hnil, rfl⟩⟩
  | case2 insideTag depth cursor b hmore e htoken =>
    intro r hr
    cases hr
  | case3 insideTag depth cursor b hmore token cursor' htoken e htake =>
    intro r hr
    cases hr
  | case4 insideTag depth cursor b hmore token cursor' htoken after htake ih =>
    obtain ⟨after', hafter, hread⟩ : ∃ after', Grown (commentOf content).length after after' ∧
        b'.read maxLevel (expand maxLevel) insideTag depth
          (cursor.commented content) = _ :=
      read_grown_step (expand_grown maxLevel) hcursor hmore htoken htake h
    rw [hread]
    exact ih (Lexer.mark_lt_of_token hcursor htoken).1 (hsteady.step hcursor hmore htoken htake) hafter

end Builder

/-! ## §4. Around the element -/

namespace Lexer

variable {c c' : Cursor}

/-- Where there is neither a comment nor an instruction, white space is passed. -/
theorem misc_eq_none (h : misc c = .ok (none, c')) : c' = c.dropSpaces := by
  obtain ⟨_, d, h₁, h₂⟩ := bind_eq_ok.1 h
  cases h₁
  obtain ⟨isComment, d₁, h₃, h₄⟩ := bind_eq_ok.1 h₂
  cases h₃
  split at h₄
  · obtain ⟨_, d₂, -, h₅⟩ := bind_eq_ok.1 h₄
    cases h₅
  · obtain ⟨isInstruction, d₃, h₅, h₆⟩ := bind_eq_ok.1 h₄
    cases h₅
    split at h₆
    · obtain ⟨_, d₄, -, h₇⟩ := bind_eq_ok.1 h₆
      cases h₇
    · cases h₆
      rfl

/-- At the end of the text the comment is found. -/
theorem misc_commented (hcontent : IsCommentText content) (hc : c.Fits)
    (h : misc c = .ok (none, c')) (hnil : c'.rest = []) :
    misc (c.commented content) = .ok (some (.comment content), c') := by
  obtain rfl := misc_eq_none h
  refine bind_eq_ok.2 ⟨(), c.dropSpaces.commented content, ?_, ?_⟩
  · show Except.ok ((), (c.commented content).dropSpaces) = _
    rw [Cursor.dropSpaces_continued hc]
  · have hcomment := comment_commented hcontent hnil
    rw [Cursor.commented_of_rest hnil] at hcomment ⊢
    exact bind_eq_ok.2 ⟨true, _, rfl, bind_eq_ok.2 ⟨_, _, hcomment, rfl⟩⟩

end Lexer

namespace Builder

variable {b b' : Builder} {cursor cursor' : Cursor}

theorem readMisc_of_rest (hnil : cursor.rest = []) : b.readMisc cursor = .ok (b, cursor) := by
  obtain ⟨rest, mark⟩ := cursor
  cases hnil
  rw [readMisc_eq]
  rfl

/-- Behind all other comments and instructions there is the comment. -/
theorem readMisc_followed (hcontent : IsCommentText content) (hcursor : cursor.Fits)
    (h : Grown (commentOf content).length b b') :
    ∀ r, b.readMisc cursor = .ok r → r.2.rest = [] →
      ∃ r', b'.readMisc (cursor.commented content) = .ok r' ∧ Commented content r.1 r'.1 ∧
        r'.2 = r.2 := by
  fun_induction Builder.readMisc cursor b generalizing b' with
  | case1 cursor b e hmisc =>
    intro r hr
    cases hr
  | case2 cursor b cursor' hmisc =>
    intro r hr hnil
    cases hr
    refine ⟨(b'.add (.comment (String.ofList content)), cursor'), ?_, ⟨b', h, rfl⟩, rfl⟩
    rw [readMisc_eq, Lexer.misc_commented hcontent hcursor hmisc hnil]
    exact readMisc_of_rest hnil
  | case3 cursor b token cursor' hmisc ih =>
    rw [readMisc_continued hcursor hmisc]
    exact ih (Lexer.fits_of_forward hcursor hmisc) (h.takeItem trivial)

end Builder

/-- The document with all its marks grown and the comment behind it. -/
def Document.followed (content : List Char) (d : Document) : Document :=
  ⟨d.children.map (Node.shift (commentOf content).length) ++ [.comment (String.ofList content)]⟩

namespace Builder

variable {b b' : Builder} {cursor cursor' : Cursor}

theorem finish_commented (h : Commented content b b') :
    Follows b.finish b'.finish fun d d' => d' = d.followed content := by
  obtain ⟨grown, ⟨-, rfl⟩, rfl⟩ := h
  obtain ⟨entities, opened, finished, tag, attributes, declarations, uses⟩ := b
  cases opened with
  | cons e outer => exact .error
  | nil =>
    refine .ite .rfl (.ite ?_ (.ok ?_) .error) .error
    · -- the comment is no element, and what has grown is one if it was
      have hsame : ((·.element?.isSome) ∘ Node.shift (commentOf content).length) = (·.element?.isSome) := by
        funext node
        show (node.shift _).element?.isSome = node.element?.isSome
        rw [Node.element?_shift, Option.isSome_map]
      show finished.any (·.element?.isSome) = true
        ↔ (finished.map (Node.shift _)).any (·.element?.isSome) = true
      rw [List.any_map, hsame]
    · show (⟨(Node.comment _ :: finished.map (Node.shift _)).reverse⟩ : Document) = _
      rw [List.reverse_cons, ← List.map_reverse]
      rfl

/-- Without an element there is no document. -/
theorem finish_hasElement : Ensures b.finish (fun _ => b.hasElement = true) fun _ => True := by
  unfold finish
  split
  · split
    · next h => exact h
    · exact trivial
  · exact trivial

end Builder

namespace Document

/-- What stands behind the element, up to the end. -/
def readEnd (r : Builder × Cursor) : Except Rejection Document := do
  let (b, c) ← (r.1.readMisc r.2).mapError .malformed
  if c.rest.isEmpty then b.finish.mapError .malformed
  else .error (.malformed (.located .unknownToken c.mark))

theorem readBody_eq (c : Cursor) (b : Builder) : readBody c b
    = (if c.dropSpaces.sees "<" then b.readElement c.dropSpaces else .ok (b, c.dropSpaces)) >>= readEnd := by
  unfold readBody
  extract_lets c' after
  show (if c'.sees "<" then b.readElement c' >>= readEnd else readEnd (b, c')) = _
  split
  · rfl
  · rfl

theorem readEnd_eq_ok {r : Builder × Cursor} {d : Document} :
    readEnd r = .ok d ↔ ∃ b c, r.1.readMisc r.2 = .ok (b, c) ∧ c.rest = [] ∧ b.finish = .ok d := by
  unfold readEnd
  constructor
  · intro h
    obtain ⟨⟨b, c⟩, hmisc, h⟩ := bind_ok_iff.1 h
    dsimp only at h
    split at h
    · next hempty =>
      exact ⟨b, c, mapError_ok_iff.1 hmisc, List.isEmpty_iff.1 hempty, mapError_ok_iff.1 h⟩
    · cases h
  · rintro ⟨b, c, hmisc, hnil, hfinish⟩
    refine bind_ok_iff.2 ⟨(b, c), mapError_ok_iff.2 hmisc, ?_⟩
    dsimp only
    rw [if_pos (List.isEmpty_iff.2 hnil)]
    exact mapError_ok_iff.2 hfinish

/-- Behind the element, both runs come to the end. -/
theorem readEnd_followed (hcontent : IsCommentText content) {r r' : Builder × Cursor}
    (h : Builder.Stopped content r r') :
    Follows (readEnd r) (readEnd r') fun d d' => d' = d.followed content := by
  intro d hd
  obtain ⟨b, c, hmisc, hnil, hfinish⟩ := readEnd_eq_ok.1 hd
  obtain ⟨r'', hmisc', hcommented, hc⟩ : ∃ r'', r'.1.readMisc r'.2 = .ok r'' ∧
      Builder.Commented content b r''.1 ∧ r''.2 = c := by
    obtain ⟨hfits, ⟨hgrown, hcursor⟩ | ⟨hcommented, hrest, hcursor⟩⟩ := h
    · rw [hcursor]
      exact Builder.readMisc_followed hcontent hfits hgrown (b, c) hmisc hnil
    · rw [Builder.readMisc_of_rest hrest] at hmisc
      cases hmisc
      rw [hcursor]
      exact ⟨_, Builder.readMisc_of_rest hrest, hcommented, rfl⟩
  obtain ⟨d', hfinish', hd'⟩ := Builder.finish_commented hcommented d hfinish
  exact ⟨d', readEnd_eq_ok.2 ⟨r''.1, r''.2, hmisc', by rw [hc, hnil], hfinish'⟩, hd'⟩

/-- Without an element there is no document. -/
theorem hasElement_of_readEnd {r : Builder × Cursor} {d : Document} (h : readEnd r = .ok d) :
    r.1.hasElement = true := by
  obtain ⟨b, c, hmisc, -, hfinish⟩ := readEnd_eq_ok.1 h
  have houtline := Builder.readMisc_outline r.2 r.1
  have hb : Ensures b.finish (fun _ => b.hasElement = true) fun _ => True := Builder.finish_hasElement
  rw [hmisc] at houtline
  rw [hfinish] at hb
  exact houtline.hasElement.symm.trans hb

end Document

namespace Builder

variable {b b' : Builder} {cursor : Cursor}

/-- **The element** with a comment behind the text. -/
theorem readElement_followed (hcontent : IsCommentText content) (hcursor : cursor.Fits)
    (hb : b.IsFresh ∨ cursor.InFinished text) (h : Grown (commentOf content).length b b') :
    ∀ r, b.readElement cursor = .ok r → r.1.hasElement = false ∨
      ∃ r', b'.readElement (cursor.commented content) = .ok r' ∧ Stopped content r r' := by
  intro r hr
  obtain ⟨⟨token, cursor'⟩, htag, hr⟩ := bind_ok_iff.1 hr
  obtain ⟨after, htake, hread⟩ := bind_ok_iff.1 hr
  have htag := mapError_ok_iff.1 htag
  obtain ⟨name, rfl⟩ := Lexer.tagName_eq_ok htag
  have hfits : (Token.tagName cursor.mark name).Fits := trivial
  obtain ⟨after', htake', hafter⟩ := take_grown (expand_grown maxLevel) hfits h after htake
  have hsteady : Steady text true 0 cursor' after := by
    rcases hb with hfresh | hfinished
    · have hnested : Ensures (b.take maxLevel (expand maxLevel) _) _ _ :=
        take_tagName_nested maxLevel hcursor hfresh htag
      rw [htake] at hnested
      exact .inl hnested
    · obtain ⟨n, hn⟩ := Lexer.Forward.moves htag
      refine .inr ⟨hn ▸ hfinished.advance n, fun _ => ?_⟩
      obtain ⟨-, m, rfl⟩ := hfinished
      exact .name htag
  have htag' : Lexer.tagName (cursor.commented content) = .ok (_, cursor'.commented content) :=
    Lexer.tagName_carries cursor _ cursor' hcursor htag
  refine (read_followed hcontent (Lexer.fits_of_forward hcursor htag) hsteady hafter r hread).imp_right ?_
  rintro ⟨r', hread', hstopped⟩
  refine ⟨r', bind_ok_iff.2 ⟨_, mapError_ok_iff.2 htag', ?_⟩, hstopped⟩
  exact bind_ok_iff.2 ⟨after', htake', hread'⟩

end Builder

namespace Document

/-- In front of a document that has no element yet there is the `<` of one. -/
theorem sees_of_readBody {c : Cursor} {b : Builder} {d : Document} (hnone : b.hasElement = false)
    (h : readBody c b = .ok d) : c.dropSpaces.sees "<" = true := by
  rw [readBody_eq] at h
  by_cases hsees : c.dropSpaces.sees "<" = true
  · exact hsees
  · rw [if_neg hsees] at h
    have hend : readEnd (b, c.dropSpaces) = .ok d := h
    have hsome := hasElement_of_readEnd hend
    rw [hnone] at hsome
    cases hsome

/-- **The element and what follows it**, with a comment behind the text. -/
theorem readBody_followed (hcontent : IsCommentText content) {c : Cursor} {b b' : Builder}
    (hc : c.Fits) (hnone : b.hasElement = false) (hb : b.IsFresh ∨ c.InFinished text)
    (h : Builder.Grown (commentOf content).length b b') :
    Follows (readBody c b) (readBody (c.commented content) b') fun d d' => d' = d.followed content := by
  intro d hd
  have hspaces : c.dropSpaces.Fits := hc.advance _
  have hsees := sees_of_readBody hnone hd
  have hb' : b.IsFresh ∨ c.dropSpaces.InFinished text := hb.imp_right fun h => h.advance _
  rw [readBody_eq, if_pos hsees] at hd
  rw [readBody_eq, Cursor.dropSpaces_continued hc,
    Cursor.sees_continued (by decide) (Cursor.rest_ne_nil_of_sees (by decide) hsees), if_pos hsees]
  obtain ⟨r, hread, hend⟩ := bind_ok_iff.1 hd
  rcases Builder.readElement_followed hcontent hspaces hb' h r hread with hnone' | ⟨r', hr', hstopped⟩
  · rw [hasElement_of_readEnd hend] at hnone'
    cases hnone'
  · obtain ⟨d', hend', hd'⟩ := readEnd_followed hcontent hstopped d hend
    exact ⟨d', bind_ok_iff.2 ⟨r', hr', hend'⟩, hd'⟩

/-! ## §5. Whole documents -/

/-- In front of the element of the text no entity is declared that is not idle. -/
def BeginsFresh (text : List Char) : Prop :=
  Ensures (readProlog (Cursor.ofText text)) (fun r => r.1.IsFresh) fun _ => True

/-- **A comment behind a document.**  A text that is a document stays one with a
comment behind it, which is added to its nodes, unless the text breaks off inside
a tag and an entity has closed the element before. -/
theorem read_followed (hcontent : IsCommentText content) {d : Document}
    (hread : read text = .ok d)
    (hend : ¬ EndsInTag text ∨ BeginsFresh text) :
    read (text ++ commentOf content) = .ok (d.followed content) := by
  have hstart : Cursor.ofText (text ++ commentOf content) = (Cursor.ofText text).commented content := by
    unfold Cursor.ofText
    rw [List.length_append]
    rfl
  have hc : (Cursor.ofText text).Fits := Nat.le_refl _
  obtain ⟨⟨b, c⟩, hprolog, hbody⟩ := bind_ok_iff.1 hread
  have hprolog := mapError_ok_iff.1 hprolog
  have hpasses : Ensures (readProlog (Cursor.ofText text)) _ _ := readProlog_passes
  rw [hprolog] at hpasses
  have hnone : b.hasElement = false := hpasses.1
  have hsees := sees_of_readBody hnone hbody
  obtain ⟨grown, hgrown, hprolog'⟩ : Builder.Keeps (commentOf content) (commentOf content).length _ _ :=
    readProlog_keeps hc hprolog (Cursor.rest_ne_nil_of_sees (by decide) hsees)
  have hb : b.IsFresh ∨ c.InFinished text := by
    rcases hend with hends | hfresh
    · exact .inr ⟨hends, hpasses.2⟩
    · unfold BeginsFresh at hfresh
      rw [hprolog] at hfresh
      exact .inl hfresh
  obtain ⟨d', hbody', rfl⟩ := readBody_followed hcontent (hpasses.fits hc) hnone hb hgrown d hbody
  rw [read, hstart]
  exact bind_ok_iff.2 ⟨_, mapError_ok_iff.2 hprolog', hbody'⟩

end Document

end TemplateLint
