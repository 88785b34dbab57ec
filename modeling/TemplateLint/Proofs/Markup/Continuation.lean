/-
  TemplateLint.Proofs.Markup.Continuation — reading a text that goes on.

  What a lexer has read from a text it reads again if more text follows, as long
  as that begins with a `<`: no name, white space or character data goes on
  there, and no mark of the grammar is completed.  `Carries` is this contract;
  marks count from the end, so they grow by the length of what follows.  Some
  lexers take the end of the text for an answer.  For these `CarriesAhead` is
  about the runs that stop in front of the end.

  Main fact: `Lexer.token_carries`.
-/
import TemplateLint.Proofs.Markup.Nesting

namespace TemplateLint

/-! ## §1. Texts that go on -/

/-- Nothing follows, or something that begins with a `<`. -/
class Further (more : List Char) : Prop where
  opens : ∀ a ∈ more.head?, a = '<'

instance : Further [] where
  opens a ha := by cases ha

instance (cs : List Char) : Further ('<' :: cs) where
  opens a ha := by
    cases ha
    rfl

theorem Further.eq (more : List Char) [h : Further more] : more = [] ∨ ∃ cs, more = '<' :: cs := by
  cases more with
  | nil => exact .inl rfl
  | cons a cs =>
    obtain rfl := h.opens a rfl
    exact .inr ⟨cs, rfl⟩

namespace Cursor

/-- The cursor with its mark grown by `k`. -/
def shift (k : Nat) (c : Cursor) : Cursor :=
  ⟨c.rest, c.mark + k⟩

/-- The cursor in a text that goes on with `more`, its mark having grown by `k`. -/
def continued (more : List Char) (k : Nat) (c : Cursor) : Cursor :=
  ⟨c.rest ++ more, c.mark + k⟩

variable {more : List Char} {k : Nat} {c : Cursor}

@[simp] theorem rest_continued : (c.continued more k).rest = c.rest ++ more := rfl

@[simp] theorem mark_continued : (c.continued more k).mark = c.mark + k := rfl

theorem rest_continued_ne_nil (h : c.rest ≠ []) : (c.continued more k).rest ≠ [] :=
  List.append_ne_nil_of_left_ne_nil h more

theorem continued_nil : c.continued [] k = c.shift k := by
  unfold continued shift
  rw [List.append_nil]

theorem eq_of_rest_of_mark {c' : Cursor} (hrest : c.rest = c'.rest) (hmark : c.mark = c'.mark) :
    c = c' := by
  cases c
  cases c'
  cases hrest
  cases hmark
  rfl

/-- Moving over characters of the text itself. -/
theorem advance_continued {n : Nat} (hc : c.Fits) (hn : n ≤ c.rest.length) :
    (c.continued more k).advance n = (c.advance n).continued more k := by
  have hfits : c.rest.length ≤ c.mark := hc
  refine eq_of_rest_of_mark ?_ ?_
  · rw [rest_advance, rest_continued, rest_continued, rest_advance, List.drop_append_of_le_length hn]
  · rw [mark_advance, mark_continued, mark_continued, mark_advance, rest_continued, List.length_append,
      Nat.min_eq_left hn, Nat.min_eq_left (Nat.le_add_right_of_le hn)]
    exact Nat.sub_add_comm (Nat.le_trans hn hfits)

/-- Moving on in a text of which nothing but the place has changed. -/
theorem advance_shift (n : Nat) (hc : c.Fits) : (c.shift k).advance n = (c.advance n).shift k := by
  have hfits : c.rest.length ≤ c.mark := hc
  refine eq_of_rest_of_mark ?_ ?_
  · rw [rest_advance]
    exact (rest_advance n c).symm
  · rw [mark_advance]
    show c.mark + k - min n c.rest.length = (c.advance n).mark + k
    rw [mark_advance]
    exact Nat.sub_add_comm (Nat.le_trans (Nat.min_le_right _ _) hfits)

end Cursor

theorem head?_append_of_ne_nil {more cs : List Char} (h : cs ≠ []) :
    (cs ++ more).head? = cs.head? := by
  cases cs with
  | nil => exact absurd rfl h
  | cons c cs => rfl

theorem takeWhile_further {more : List Char} [Further more] {p : Char → Bool} (hp : p '<' = false)
    (cs : List Char) : (cs ++ more).takeWhile p = cs.takeWhile p := by
  have hmore : more.takeWhile p = [] := by
    rcases Further.eq more with rfl | ⟨tail, rfl⟩
    · rfl
    · exact List.takeWhile_cons_of_neg (by rw [hp]; exact Bool.false_ne_true)
  induction cs with
  | nil => exact hmore
  | cons c cs ih => rw [List.cons_append, List.takeWhile_cons, List.takeWhile_cons, ih]

/-- A run that stops in front of the end does not look behind it. -/
theorem takeWhile_ahead {more cs : List Char} {p : Char → Bool}
    (h : cs.drop (cs.takeWhile p).length ≠ []) : (cs ++ more).takeWhile p = cs.takeWhile p := by
  induction cs with
  | nil => exact absurd rfl h
  | cons c cs ih =>
    rw [List.cons_append, List.takeWhile_cons, List.takeWhile_cons]
    split
    · next hc =>
      rw [List.takeWhile_cons_of_pos hc, List.length_cons, List.drop_succ_cons] at h
      rw [ih h]
    · rfl

/-- A word that has a `<` at its start, if anywhere, is not completed by what
follows. -/
theorem isPrefixOf_further {more : List Char} [Further more] {word : List Char}
    (hword : '<' ∉ word.tail) {cs : List Char} (hcs : cs ≠ []) :
    word.isPrefixOf (cs ++ more) = word.isPrefixOf cs := by
  -- character by character; behind the first one the word has no `<`
  have hinner : ∀ (word cs : List Char), '<' ∉ word →
      word.isPrefixOf (cs ++ more) = word.isPrefixOf cs := by
    intro word cs hword
    induction word generalizing cs with
    | nil => rfl
    | cons w word ih =>
      rw [List.mem_cons, not_or] at hword
      cases cs with
      | nil =>
        rcases Further.eq more with rfl | ⟨tail, rfl⟩
        · rfl
        · show ((w == '<') && _) = false
          rw [beq_eq_false_iff_ne.2 (Ne.symm hword.1), Bool.false_and]
      | cons c cs =>
        show (w == c && word.isPrefixOf (cs ++ more)) = (w == c && word.isPrefixOf cs)
        rw [ih cs hword.2]
  cases word with
  | nil => rfl
  | cons w word =>
    cases cs with
    | nil => exact absurd rfl hcs
    | cons c cs =>
      show (w == c && word.isPrefixOf (cs ++ more)) = (w == c && word.isPrefixOf cs)
      rw [hinner word cs hword]

theorem Cursor.dropSpaces_continued {more : List Char} {k : Nat} {c : Cursor} [Further more]
    (hc : c.Fits) : (c.continued more k).dropSpaces = c.dropSpaces.continued more k := by
  unfold dropSpaces
  rw [rest_continued, takeWhile_further (by decide),
    advance_continued hc (List.takeWhile_sublist _).length_le]

/-- A word without a `<` behind its start is seen in both texts or in none. -/
theorem Cursor.sees_continued {more : List Char} {k : Nat} {c : Cursor} [Further more] {word : String}
    (hword : '<' ∉ word.toList.tail) (hne : c.rest ≠ []) :
    (c.continued more k).sees word = c.sees word :=
  isPrefixOf_further hword hne

/-! ## §2. The contract -/

namespace Lexer

variable {α β α' β' : Type} (more : List Char) (k : Nat)

/-- What the first lexer reads, the second reads in the text that goes on; `φ` says
what has grown in the result. -/
def Carries (p : Lexer α) (q : Lexer β) (φ : α → β) : Prop :=
  ∀ c a c', c.Fits → p c = .ok (a, c') →
    q (c.continued more k) = .ok (φ a, c'.continued more k)

/-- The same for runs that stop in front of the end of the text. -/
structure CarriesAhead (p : Lexer α) (q : Lexer β) (φ : α → β) : Prop where
  forward : Forward p
  carries : ∀ c a c', c.Fits → p c = .ok (a, c') → c'.rest ≠ [] →
    q (c.continued more k) = .ok (φ a, c'.continued more k)

/-- The contract for a lexer whose result says nothing about places. -/
class Carried (p : Lexer α) : Prop where
  carries : Carries more k p p id

/-- The same for runs that stop in front of the end of the text. -/
class CarriedAhead (p : Lexer α) : Prop where
  carriesAhead : CarriesAhead more k p p id

variable {more k} {p : Lexer α} {q : Lexer β} {f : α → Lexer α'} {g : β → Lexer β'} {φ : α → β}
  {ψ : α' → β'}

theorem Carries.ahead [Forward p] (h : Carries more k p q φ) : CarriesAhead more k p q φ where
  forward := inferInstance
  carries c a c' hc hp _ := h c a c' hc hp

theorem Carries.pure {a : α} {b : β} (h : φ a = b) :
    Carries more k (pure a : Lexer α) (pure b : Lexer β) φ := by
  intro c a' c' _ ha
  cases ha
  rw [h]
  rfl

theorem Carries.failAt {mark : Mark} {fault : Fault} :
    Carries more k (failAt mark fault : Lexer α) q φ :=
  fun _ _ _ _ h => nomatch h

theorem Carries.fail {fault : Fault} : Carries more k (fail fault : Lexer α) q φ :=
  fun _ _ _ _ h => nomatch h

theorem CarriesAhead.pure {a : α} {b : β} (h : φ a = b) :
    CarriesAhead more k (pure a : Lexer α) (pure b : Lexer β) φ :=
  Carries.ahead (.pure h)

theorem fits_of_forward [Forward p] {c c' : Cursor} {a : α} (hc : c.Fits)
    (h : p c = .ok (a, c')) : c'.Fits := by
  obtain ⟨n, rfl⟩ := Forward.moves h
  exact hc.advance n

/-- Where the rest of a run stops in front of the end, so did the start. -/
theorem rest_ne_nil_of_forward [Forward p] {c c' : Cursor} {a : α} (h : p c = .ok (a, c'))
    (hne : c'.rest ≠ []) : c.rest ≠ [] := by
  intro hnil
  have hle := Forward.length_le h
  rw [hnil] at hle
  exact hne (List.eq_nil_of_length_eq_zero (Nat.le_zero.1 hle))

theorem Carries.bind [Forward p] (h : Carries more k p q φ)
    (hf : ∀ a, Carries more k (f a) (g (φ a)) ψ) : Carries more k (p >>= f) (q >>= g) ψ := by
  intro c a' c' hc hp
  obtain ⟨a, c₁, h₁, h₂⟩ := bind_eq_ok.1 hp
  exact bind_eq_ok.2 ⟨φ a, _, h c a c₁ hc h₁, hf a c₁ a' c' (fits_of_forward hc h₁) h₂⟩

theorem CarriesAhead.bind (h : CarriesAhead more k p q φ)
    (hf : ∀ a, CarriesAhead more k (f a) (g (φ a)) ψ) :
    CarriesAhead more k (p >>= f) (q >>= g) ψ := by
  have := h.forward
  have := fun a => (hf a).forward
  refine ⟨inferInstance, fun c a' c' hc hp hne => ?_⟩
  obtain ⟨a, c₁, h₁, h₂⟩ := bind_eq_ok.1 hp
  have hne₁ : c₁.rest ≠ [] := rest_ne_nil_of_forward h₂ hne
  exact bind_eq_ok.2 ⟨φ a, _, h.carries c a c₁ hc h₁ hne₁,
    (hf a).carries c₁ a' c' (fits_of_forward hc h₁) h₂ hne⟩

/-- A lexer with something behind it that takes a character stops in front of the
end. -/
theorem CarriesAhead.bind_progress (hprogress : ∀ a, Progress (f a))
    (h : CarriesAhead more k p q φ) (hf : ∀ a, Carries more k (f a) (g (φ a)) ψ) :
    Carries more k (p >>= f) (q >>= g) ψ := by
  intro c a' c' hc hp
  have := h.forward
  obtain ⟨a, c₁, h₁, h₂⟩ := bind_eq_ok.1 hp
  have hne : c₁.rest ≠ [] := by
    intro hnil
    have hlt := (hprogress a).shrinks h₂
    rw [hnil] at hlt
    exact Nat.not_lt_zero _ hlt
  exact bind_eq_ok.2 ⟨φ a, _, h.carries c a c₁ hc h₁ hne,
    hf a c₁ a' c' (fits_of_forward hc h₁) h₂⟩

/-- After a lexer without places both runs go on with the same. -/
theorem Carries.after [Forward p] [Carried more k p] {g : α → Lexer β'}
    (hf : ∀ a, Carries more k (f a) (g a) ψ) : Carries more k (p >>= f) (p >>= g) ψ :=
  Carried.carries.bind hf

theorem CarriesAhead.after [CarriedAhead more k p] {g : α → Lexer β'}
    (hf : ∀ a, CarriesAhead more k (f a) (g a) ψ) :
    CarriesAhead more k (p >>= f) (p >>= g) ψ :=
  CarriedAhead.carriesAhead.bind hf

/-- A mark has grown by the length of what follows. -/
theorem Carries.here_bind {f : Mark → Lexer α} {g : Mark → Lexer β}
    (hf : ∀ start, Carries more k (f start) (g (start + k)) φ) :
    Carries more k (here >>= f) (here >>= g) φ :=
  fun c a c' hc h => hf c.mark c a c' hc h

theorem Carries.ite {b : Bool} {p₁ p₂ : Lexer α} {q₁ q₂ : Lexer β}
    (h₁ : Carries more k p₁ q₁ φ) (h₂ : Carries more k p₂ q₂ φ) :
    Carries more k (if b then p₁ else p₂) (if b then q₁ else q₂) φ := by
  cases b
  · exact h₂
  · exact h₁

theorem CarriesAhead.ite {b : Bool} {p₁ p₂ : Lexer α} {q₁ q₂ : Lexer β}
    (h₁ : CarriesAhead more k p₁ q₁ φ) (h₂ : CarriesAhead more k p₂ q₂ φ) :
    CarriesAhead more k (if b then p₁ else p₂) (if b then q₁ else q₂) φ := by
  cases b
  · exact h₂
  · exact h₁

instance (priority := low) [Forward p] [Carried more k p] : CarriedAhead more k p :=
  ⟨Carried.carries.ahead⟩

instance (a : α) : Carried more k (pure a : Lexer α) := ⟨.pure rfl⟩

instance (mark : Mark) (fault : Fault) : Carried more k (failAt mark fault : Lexer α) := ⟨.failAt⟩

instance (fault : Fault) : Carried more k (fail fault : Lexer α) := ⟨.fail⟩

instance [Forward p] [Carried more k p] [∀ a, Carried more k (f a)] : Carried more k (p >>= f) :=
  ⟨.after fun _ => Carried.carries⟩

instance [CarriedAhead more k p] [∀ a, CarriedAhead more k (f a)] : CarriedAhead more k (p >>= f) :=
  ⟨.after fun _ => CarriedAhead.carriesAhead⟩

instance (b : Bool) (p q : Lexer α) [Carried more k p] [Carried more k q] :
    Carried more k (if b then p else q) :=
  ⟨.ite Carried.carries Carried.carries⟩

instance (b : Bool) (p q : Lexer α) [CarriedAhead more k p] [CarriedAhead more k q] :
    CarriedAhead more k (if b then p else q) :=
  ⟨.ite CarriedAhead.carriesAhead CarriedAhead.carriesAhead⟩

/-! ## §3. The primitives -/

/-- The characters left to read are followed by what follows. -/
theorem rest_carries : Carries more k rest rest (· ++ more) := by
  intro c cs c' _ h
  cases h
  rfl

instance (holds : Bool) (fault : Fault) : Carried more k (require holds fault) := by
  unfold require
  infer_instance

instance : Carried more k peek where
  carries c a c' _ h := by
    obtain ⟨rest, mark⟩ := c
    cases rest with
    | nil => cases h
    | cons b rest =>
      cases h
      rfl

theorem advance_carries {n : Nat} {c : Cursor} (hc : c.Fits) (hn : n ≤ c.rest.length) :
    advance n (c.continued more k) = .ok ((), (c.advance n).continued more k) := by
  rw [← Cursor.advance_continued hc hn]
  rfl

/-- A character that was looked at and is the right one can be taken. -/
theorem Carried.next {holds : Char → Bool} {fault : Char → Fault} {f : Char → Lexer α}
    [∀ a, Carried more k (f a)] :
    Carried more k (do
      let a ← peek
      require (holds a) (fault a)
      advance 1
      f a) := by
  refine ⟨fun c b c' hc h => ?_⟩
  obtain ⟨a, c₁, h₁, h₂⟩ := bind_eq_ok.1 h
  obtain ⟨_, c₂, h₃, h₄⟩ := bind_eq_ok.1 h₂
  obtain ⟨hholds, rfl⟩ := require_eq_ok h₃
  obtain ⟨_, c₃, h₅, h₆⟩ := bind_eq_ok.1 h₄
  obtain ⟨rest, mark⟩ := c
  cases rest with
  | nil => cases h₁
  | cons x rest =>
    cases h₁
    cases h₅
    refine bind_eq_ok.2 ⟨a, _, rfl, ?_⟩
    rw [hholds]
    refine bind_eq_ok.2 ⟨(), _, rfl, ?_⟩
    refine bind_eq_ok.2 ⟨(), _, advance_carries hc (Nat.le_add_left 1 _), ?_⟩
    exact Carried.carries _ b c' (hc.advance 1) h₆

instance (expected : Char) : Carried more k (char expected) := by
  have heq : char expected = (do
      let c ← peek
      require (c == expected) (.expectedChar expected c)
      advance 1
      pure ()) := by
    unfold char
    simp only [bind_pure_unit]
  rw [heq]
  exact .next

instance : Carried more k quote :=
  Carried.next

instance (word : String) : Carried more k (text word) where
  carries c a c' hc h := by
    obtain ⟨_, c₁, h₁, h₂⟩ := bind_eq_ok.1 h
    cases h₁
    obtain ⟨_, c₂, h₃, h₄⟩ := bind_eq_ok.1 h₂
    obtain ⟨hsees, heq⟩ := require_eq_ok h₃
    rw [heq] at h₄
    cases h₄
    have hword : word.toList <+: c.rest := List.isPrefixOf_iff_prefix.1 hsees
    have hfurther : (c.continued more k).sees word = true :=
      List.isPrefixOf_iff_prefix.2 (hword.trans (List.prefix_append _ _))
    refine bind_eq_ok.2 ⟨true, c.continued more k, ?_, ?_⟩
    · rw [← hfurther]
      rfl
    · refine advance_carries hc ?_
      rw [← String.length_toList]
      exact hword.length_le

/-- What is taken is the same, if what is left to read begins the same way. -/
theorem takeWhile_carries {p : Char → Bool} {c : Cursor} (hc : c.Fits)
    (h : (c.rest ++ more).takeWhile p = c.rest.takeWhile p) :
    takeWhile p (c.continued more k) = .ok (c.rest.takeWhile p,
      (c.advance (c.rest.takeWhile p).length).continued more k) := by
  refine bind_eq_ok.2 ⟨_, _, rfl, ?_⟩
  rw [Cursor.rest_continued, h]
  exact bind_eq_ok.2 ⟨(), _, advance_carries hc (List.takeWhile_sublist _).length_le, rfl⟩

instance (p : Char → Bool) : CarriedAhead more k (takeWhile p) where
  carriesAhead := by
    refine ⟨inferInstance, fun c a c' hc h hne => ?_⟩
    cases h
    rw [Cursor.rest_advance] at hne
    exact takeWhile_carries hc (takeWhile_ahead hne)

/-- A run that stops in front of the end does not look behind it. -/
theorem run_ahead {stop : List Char → Bool} {cs : List Char}
    (hstop : ∀ cs, cs ≠ [] → stop (cs ++ more) = stop cs)
    (h : cs.drop (run stop cs).length ≠ []) : run stop (cs ++ more) = run stop cs := by
  induction cs with
  | nil => exact absurd rfl h
  | cons c cs ih =>
    have heq : stop (c :: cs ++ more) = stop (c :: cs) := hstop _ (List.cons_ne_nil c cs)
    rw [List.cons_append] at heq ⊢
    unfold run at h ⊢
    rw [heq]
    split
    · next hc =>
      rw [if_pos hc, List.length_cons, List.drop_succ_cons] at h
      rw [ih h]
    · rfl

theorem requireXmlChar_of_head? {c : Cursor} (h : c.rest.head?.all isXmlChar = true) :
    requireXmlChar c = .ok ((), c) := by
  obtain ⟨rest, mark⟩ := c
  cases rest with
  | nil => rfl
  | cons a rest =>
    refine bind_eq_ok.2 ⟨_, _, rfl, ?_⟩
    show require (isXmlChar a) _ _ = _
    rw [show isXmlChar a = true from h]
    rfl

/-- What is taken is the same, if a document can hold the character behind it. -/
theorem charsUntil_carries {stop : List Char → Bool} {c c' : Cursor} {cs : List Char} (hc : c.Fits)
    (h : charsUntil stop c = .ok (cs, c')) (hrun : run stop (c.rest ++ more) = run stop c.rest)
    (hmore : (c'.rest ++ more).head?.all isXmlChar = true) :
    charsUntil stop (c.continued more k) = .ok (cs, c'.continued more k) := by
  obtain ⟨hcs, hc', -⟩ := charsUntil_eq_ok h
  have hle : cs.length ≤ c.rest.length := List.IsPrefix.length_le <| charsUntil_prefix h
  refine bind_eq_ok.2 ⟨_, _, rfl, ?_⟩
  rw [Cursor.rest_continued, hrun, ← hcs]
  refine bind_eq_ok.2 ⟨(), c'.continued more k, ?_, ?_⟩
  · rw [advance_carries hc hle, hc']
  · exact bind_eq_ok.2 ⟨(), _, requireXmlChar_of_head? hmore, rfl⟩

/-- What is taken up to a place that what follows does not change. -/
theorem CarriedAhead.charsUntil {stop : List Char → Bool}
    (hstop : ∀ cs, cs ≠ [] → stop (cs ++ more) = stop cs) :
    CarriedAhead more k (charsUntil stop) where
  carriesAhead := by
    refine ⟨inferInstance, fun c a c' hc h hne => ?_⟩
    obtain ⟨hcs, hc', hxml⟩ := charsUntil_eq_ok h
    have hrun : run stop (c.rest ++ more) = run stop c.rest := by
      refine run_ahead hstop ?_
      rw [← hcs, ← Cursor.rest_advance, ← hc']
      exact hne
    refine charsUntil_carries hc h hrun ?_
    rw [head?_append_of_ne_nil hne]
    exact hxml

/-- The value between quotes. -/
theorem quotedValue_carries : Carries more k quotedValue quotedValue (Cursor.shift k) := by
  unfold quotedValue
  refine .after fun q => .here_bind fun start => ?_
  have : CarriedAhead more k
      (charsUntil fun cs => cs.head?.any fun c => c == q || c == '<') :=
    .charsUntil fun cs hcs => by rw [head?_append_of_ne_nil hcs]
  exact CarriesAhead.bind_progress (fun _ => .bind_left) CarriedAhead.carriesAhead fun value =>
    .after fun _ => .pure rfl

/-- The text between quotes. -/
theorem quotedText_carries : Carries more k quotedText quotedText (Cursor.shift k) := by
  unfold quotedText
  refine .after fun q => .here_bind fun start => ?_
  exact CarriesAhead.bind_progress (fun _ => .bind_left) CarriedAhead.carriesAhead fun value =>
    .after fun _ => .pure rfl

variable [Further more]

theorem CarriedAhead.sees {word : String} (h : '<' ∉ word.toList.tail) :
    CarriedAhead more k (sees word) where
  carriesAhead := by
    refine ⟨inferInstance, fun c a c' _ hp hne => ?_⟩
    cases hp
    show Except.ok ((c.continued more k).sees word, _) = _
    rw [Cursor.sees_continued h hne]
    rfl

theorem Carried.takeWhile {p : Char → Bool} (hp : p '<' = false) :
    Carried more k (takeWhile p) where
  carries c a c' hc h := by
    cases h
    exact takeWhile_carries hc (takeWhile_further hp c.rest)

instance : Carried more k (takeWhile isNameChar) := .takeWhile (by decide)

instance : Carried more k dropSpaces where
  carries c a c' hc h := by
    cases h
    show Except.ok ((), (c.continued more k).dropSpaces) = _
    rw [Cursor.dropSpaces_continued hc]

instance : Carried more k spaces := by
  unfold spaces
  infer_instance

instance : Carried more k equals := by
  unfold equals
  infer_instance

/-! ## §4. Names and characters -/

instance : Carried more k qualifiedName where
  carries := by
    unfold qualifiedName
    refine .here_bind fun start => .after fun cs => ?_
    cases QName.ofChars? cs with
    | some name => exact .pure rfl
    | none => exact .failAt

instance : Carried more k name where
  carries c a c' hc h := by
    obtain ⟨_, c₁, h₁, h₂⟩ := bind_eq_ok.1 h
    cases h₁
    obtain ⟨_, c₂, h₃, h₄⟩ := bind_eq_ok.1 h₂
    obtain ⟨hstart, heq⟩ := require_eq_ok h₃
    rw [heq] at h₄
    -- there is a character, which the text that goes on has at the same place
    have hfurther : (c.rest ++ more).head?.any isNameStart = true := by
      cases hrest : c.rest with
      | nil =>
        rw [hrest] at hstart
        cases hstart
      | cons a cs =>
        rw [hrest] at hstart
        exact hstart
    have htaken : Carries more k (do return String.ofList (← takeWhile isNameChar)) _ id :=
      Carried.carries
    refine bind_eq_ok.2 ⟨_, _, rfl, ?_⟩
    rw [Cursor.rest_continued, hfurther]
    exact bind_eq_ok.2 ⟨(), _, rfl, htaken c a c' hc h₄⟩

instance : CarriedAhead more k nameUnlessEnd where
  carriesAhead := by
    refine ⟨inferInstance, fun c a c' hc h hne => ?_⟩
    have hrest := rest_ne_nil_of_forward h hne
    have hempty : c.rest.isEmpty = false := by simpa using hrest
    have hfurther : (c.rest ++ more).isEmpty = false := by simp [hrest]
    obtain ⟨_, c₁, h₁, h₂⟩ := bind_eq_ok.1 h
    cases h₁
    rw [hempty] at h₂
    have hname : Carries more k (do let _ ← name : Lexer Unit) _ id := Carried.carries
    refine bind_eq_ok.2 ⟨_, _, rfl, ?_⟩
    rw [Cursor.rest_continued, hfurther]
    exact hname c a c' hc h₂

/-- Character data stops at a `<`, be it the one that follows. -/
theorem run_content (cs : List Char) :
    run (·.head? == some '<') (cs ++ more) = run (·.head? == some '<') cs := by
  induction cs with
  | nil =>
    rcases Further.eq more with rfl | ⟨tail, rfl⟩
    · rfl
    · rfl
  | cons c cs ih =>
    rw [List.cons_append]
    unfold run
    rw [ih]
    rfl

instance : Carried more k (charsUntil (·.head? == some '<')) where
  carries c a c' hc h := by
    obtain ⟨-, -, hxml⟩ := charsUntil_eq_ok h
    refine charsUntil_carries hc h (run_content c.rest) ?_
    by_cases hne : c'.rest = []
    · rw [hne]
      rcases Further.eq more with rfl | ⟨tail, rfl⟩
      · rfl
      · exact (show isXmlChar '<' = true by decide)
    · rw [head?_append_of_ne_nil hne]
      exact hxml

/-- A mark without a `<` that ends a run of characters is found again. -/
theorem Carried.charsThrough {mark : String} (hne : mark.toList ≠ []) (hmark : '<' ∉ mark.toList) :
    Carried more k (charsThrough mark) where
  carries := by
    have hprogress : Progress (text mark) := .text hne
    have : CarriedAhead more k (charsUntil mark.toList.isPrefixOf) :=
      .charsUntil fun cs hcs => isPrefixOf_further (fun h => hmark (List.mem_of_mem_tail h)) hcs
    unfold Lexer.charsThrough
    exact CarriesAhead.bind_progress (fun _ => .bind_left) CarriedAhead.carriesAhead fun _ =>
      .after fun _ => .pure rfl

end Lexer

/-! ## §5. Tokens -/

/-- The token with all its marks grown by `k`. -/
def Token.shift (k : Nat) : Token → Token
  | tagName start name => tagName (start + k) name
  | attr start name value => attr (start + k) name (value.shift k)
  | closeTag start name => closeTag (start + k) name
  | text value => text (value.shift k)
  | token => token

namespace Lexer

variable {more : List Char} {k : Nat} [Further more]

/-- The token that is read in a text that goes on. -/
def CarriesToken (more : List Char) (k : Nat) (p q : Lexer Token) : Prop :=
  Carries more k p q (Token.shift k)

theorem comment_carries : CarriesToken more k comment comment := by
  have : Carried more k (charsThrough "-->") := .charsThrough (by decide) (by decide)
  unfold comment
  refine .here_bind fun start => .after fun _ => .after fun content => ?_
  exact .ite .failAt (.pure rfl)

theorem instruction_carries : CarriesToken more k instruction instruction := by
  have : Carried more k (charsThrough "?>") := .charsThrough (by decide) (by decide)
  have : CarriedAhead more k (sees "<?xml ") := .sees (by decide)
  have : Progress (text "<?") := .text (by decide)
  unfold instruction
  -- an instruction begins with something, so the text does not end where it is looked for
  refine CarriesAhead.bind_progress (fun _ => .bind_right fun _ => .bind_left)
    CarriedAhead.carriesAhead fun late => ?_
  refine .after fun _ => .after fun _ => .after fun target => ?_
  exact .after fun _ => .after fun content => .pure rfl

theorem cdata_carries : CarriesToken more k cdata cdata := by
  have : Carried more k (charsThrough "]]>") := .charsThrough (by decide) (by decide)
  unfold cdata
  exact .after fun _ => .after fun content => .pure rfl

theorem closeTag_carries : CarriesToken more k closeTag closeTag := by
  unfold closeTag
  refine .here_bind fun start => .after fun _ => .after fun name => ?_
  exact .after fun _ => .after fun _ => .pure rfl

theorem tagName_carries : CarriesToken more k tagName tagName := by
  unfold tagName
  exact .here_bind fun start => .after fun _ => .after fun name => .pure rfl

theorem characters_carries : CarriesToken more k characters characters := by
  unfold characters
  exact .here_bind fun start => .after fun content => .after fun _ => .pure rfl

theorem attr_carries (start : Mark) : CarriesToken more k (attr start) (attr (start + k)) := by
  unfold attr
  refine .after fun name => .after fun _ => ?_
  exact quotedValue_carries.bind fun value => .pure rfl

theorem inTag_carries : CarriesToken more k inTag inTag := by
  unfold inTag
  refine rest_carries.bind fun cs => ?_
  have hspaced : (cs ++ more).head?.any isSpace = cs.head?.any isSpace := by
    cases cs with
    | cons a cs => rfl
    | nil =>
      rcases Further.eq more with rfl | ⟨tail, rfl⟩
      · rfl
      · exact (show isSpace '<' = false by decide)
  rw [hspaced]
  refine .after fun _ => .here_bind fun start => .after fun a => ?_
  split
  · exact .after fun _ => .after fun _ => .pure rfl
  · exact .after fun _ => .pure rfl
  · exact .after fun _ => attr_carries start

theorem tokenAt_tag {a : Char} {cs : List Char} (hmark : a ≠ '!') (hquestion : a ≠ '?')
    (hslash : a ≠ '/') : tokenAt ('<' :: a :: cs) = tagName := by
  unfold tokenAt
  split <;> simp_all

theorem tokenAt_characters {a : Char} {cs : List Char} (h : a ≠ '<') :
    tokenAt (a :: cs) = characters := by
  unfold tokenAt
  split <;> simp_all

/-- Between tags the first characters decide what is read, and these are there in
both texts. -/
theorem tokenAt_carries (cs : List Char) :
    CarriesToken more k (tokenAt cs) (tokenAt (cs ++ more)) := by
  unfold CarriesToken
  generalize hp : tokenAt cs = p
  unfold tokenAt at hp
  split at hp
  · rw [← hp]
    exact comment_carries
  · rw [← hp]
    exact cdata_carries
  · rw [← hp]
    exact .fail
  · rw [← hp]
    exact instruction_carries
  · rw [← hp]
    exact closeTag_carries
  · rw [← hp]
    exact .fail
  · next tail _ _ hmark hquestion hslash hend =>
    rw [← hp]
    cases tail with
    | nil => exact absurd rfl hend
    | cons a tail =>
      have htag : tokenAt ('<' :: a :: tail ++ more) = tagName :=
        tokenAt_tag (fun h => hmark tail (by rw [h])) (fun h => hquestion tail (by rw [h]))
          (fun h => hslash tail (by rw [h]))
      rw [htag]
      exact tagName_carries
  · rw [← hp]
    intro c t c' _ h
    cases h
  · next hcomment hcdata hdeclaration hinstruction hclose hend htag hnil =>
    rw [← hp]
    cases cs with
    | nil => exact absurd rfl hnil
    | cons a cs =>
      have hcharacters : tokenAt (a :: cs ++ more) = characters :=
        tokenAt_characters fun h => htag cs (by rw [h])
      rw [hcharacters]
      exact characters_carries

theorem inContent_carries : CarriesToken more k inContent inContent := by
  unfold inContent
  exact rest_carries.bind tokenAt_carries

/-- **Tokens are read again** in a text that goes on, inside a tag and between
tags. -/
theorem token_carries (insideTag : Bool) :
    CarriesToken more k (token insideTag) (token insideTag) :=
  .ite inTag_carries inContent_carries

end Lexer

end TemplateLint
