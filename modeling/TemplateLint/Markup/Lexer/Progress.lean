/-
  TemplateLint.Markup.Lexer.Progress — lexers only move forward.

  `Forward p` says that `p` ends further on in the same text, `Progress p`
  that it takes at least one character.  Both go through `>>=`, so that a
  lexer's own instance follows from its parts; the loops over lexers end by
  `Progress.shrinks`.
-/
import TemplateLint.Markup.Lexer

namespace TemplateLint

namespace Lexer

variable {α β : Type}

/-! ## §1. Lexers move forward -/

/-- Where `p` succeeds, the cursor has moved over some characters. -/
class Forward (p : Lexer α) : Prop where
  moves : ∀ {c a c'}, p c = .ok (a, c') → ∃ n, c' = c.advance n

/-- Where `p` succeeds, it has taken at least one character. -/
class Progress (p : Lexer α) : Prop where
  shrinks : ∀ {c a c'}, p c = .ok (a, c') → c'.rest.length < c.rest.length

theorem bind_eq_ok {p : Lexer α} {f : α → Lexer β} {c c'' : Cursor} {b : β} :
    (p >>= f) c = .ok (b, c'') ↔ ∃ a c', p c = .ok (a, c') ∧ f a c' = .ok (b, c'') := by
  change (p c >>= fun x => f x.1 x.2) = _ ↔ _
  cases p c with
  | error e => simp [bind, Except.bind]
  | ok x =>
    obtain ⟨a, c'⟩ := x
    simp [bind, Except.bind, and_assoc]

/-- A lexer that moves forward leaves no more to read than there was. -/
theorem Forward.length_le {p : Lexer α} [Forward p] {c c' : Cursor} {a : α}
    (h : p c = .ok (a, c')) : c'.rest.length ≤ c.rest.length := by
  obtain ⟨n, rfl⟩ := Forward.moves h
  simp

instance (a : α) : Forward (pure a : Lexer α) where
  moves h := by
    cases h
    exact ⟨0, rfl⟩

instance (p : Lexer α) (f : α → Lexer β) [Forward p] [∀ a, Forward (f a)] :
    Forward (p >>= f) where
  moves h := by
    obtain ⟨a, c₁, h₁, h₂⟩ := bind_eq_ok.1 h
    obtain ⟨m, rfl⟩ := Forward.moves h₁
    obtain ⟨n, rfl⟩ := Forward.moves h₂
    exact ⟨m + n, Cursor.advance_advance m n _⟩

instance (b : Bool) (p q : Lexer α) [Forward p] [Forward q] :
    Forward (if b then p else q) := by
  cases b <;> simp <;> infer_instance

instance : Forward rest where
  moves h := by
    cases h
    exact ⟨0, rfl⟩

instance : Forward here where
  moves h := by
    cases h
    exact ⟨0, rfl⟩

instance (text : String) : Forward (sees text) where
  moves h := by
    cases h
    exact ⟨0, rfl⟩

instance (mark : Mark) (fault : Fault) : Forward (failAt mark fault : Lexer α) where
  moves h := by cases h

instance (fault : Fault) : Forward (fail fault : Lexer α) where
  moves h := by cases h

instance (n : Nat) : Forward (advance n) where
  moves h := by
    cases h
    exact ⟨n, rfl⟩

instance : Forward dropSpaces where
  moves h := by
    cases h
    exact ⟨_, rfl⟩

instance (holds : Bool) (fault : Fault) : Forward (require holds fault) := by
  unfold require
  infer_instance

instance : Forward peek where
  moves {c _ _} h := by
    obtain ⟨rest, mark⟩ := c
    cases rest <;> cases h
    exact ⟨0, rfl⟩

instance (p : Char → Bool) : Forward (takeWhile p) := by
  unfold takeWhile
  infer_instance

instance : Forward spaces := by
  unfold spaces
  infer_instance

instance (expected : Char) : Forward (char expected) := by
  unfold char
  infer_instance

instance (expected : String) : Forward (text expected) := by
  unfold text
  infer_instance

/-- A requirement that is met takes nothing. -/
theorem require_eq_ok {holds : Bool} {fault : Fault} {c c' : Cursor}
    (h : require holds fault c = .ok ((), c')) : holds = true ∧ c' = c := by
  cases holds with
  | true =>
    cases h
    exact ⟨rfl, rfl⟩
  | false => cases h

/-- Nothing is taken by looking at the next character. -/
theorem requireXmlChar_eq_ok {c c' : Cursor} (h : requireXmlChar c = .ok ((), c')) :
    c.rest.head?.all isXmlChar ∧ c' = c := by
  obtain ⟨rest, mark⟩ := c
  cases rest with
  | nil =>
    cases h
    exact ⟨rfl, rfl⟩
  | cons a cs =>
    obtain ⟨ha, rfl⟩ := require_eq_ok h
    exact ⟨by simpa using ha, rfl⟩

instance : Forward requireXmlChar where
  moves h := ⟨0, (requireXmlChar_eq_ok h).2⟩

instance (stop : List Char → Bool) : Forward (charsUntil stop) := by
  unfold charsUntil
  infer_instance

/-- What is taken is the run in front of the stop, and the next character, if
there is one, can stand in a document. -/
theorem charsUntil_eq_ok {stop : List Char → Bool} {c c' : Cursor} {cs : List Char}
    (h : charsUntil stop c = .ok (cs, c')) :
    cs = run stop c.rest ∧ c' = c.advance cs.length ∧ c'.rest.head?.all isXmlChar := by
  obtain ⟨_, c₁, h₁, h₂⟩ := bind_eq_ok.1 h
  cases h₁
  obtain ⟨_, c₂, h₃, h₄⟩ := bind_eq_ok.1 h₂
  cases h₃
  obtain ⟨_, c₃, h₅, h₆⟩ := bind_eq_ok.1 h₄
  obtain ⟨hx, rfl⟩ := requireXmlChar_eq_ok h₅
  cases h₆
  exact ⟨rfl, rfl, hx⟩

instance (mark : String) : Forward (charsThrough mark) := by
  unfold charsThrough
  infer_instance

instance : Forward qualifiedName := by
  unfold qualifiedName
  have (start : Mark) (name : Option QName) : Forward (match name with
      | some name => pure name
      | none => failAt start .invalidName : Lexer QName) := by
    cases name <;> infer_instance
  infer_instance

instance : Forward name := by
  unfold name
  infer_instance

instance : Forward nameUnlessEnd := by
  unfold nameUnlessEnd
  infer_instance

instance : Forward equals := by
  unfold equals
  infer_instance

instance : Forward quote := by
  unfold quote
  infer_instance

instance : Forward quotedValue := by
  unfold quotedValue
  infer_instance

instance : Forward quotedText := by
  unfold quotedText
  infer_instance

/-! ## §2. Lexers that take something -/

/-- Progress at the start is progress of the whole. -/
theorem Progress.bind_left {p : Lexer α} {f : α → Lexer β} [Progress p] [∀ a, Forward (f a)] :
    Progress (p >>= f) where
  shrinks h := by
    obtain ⟨a, c₁, h₁, h₂⟩ := bind_eq_ok.1 h
    exact Nat.lt_of_le_of_lt (Forward.length_le h₂) (Progress.shrinks h₁)

/-- Progress at the end is progress of the whole. -/
theorem Progress.bind_right {p : Lexer α} {f : α → Lexer β} [Forward p]
    (hf : ∀ a, Progress (f a)) : Progress (p >>= f) where
  shrinks h := by
    obtain ⟨a, c₁, h₁, h₂⟩ := bind_eq_ok.1 h
    exact Nat.lt_of_lt_of_le ((hf a).shrinks h₂) (Forward.length_le h₁)

/-- A choice makes progress if both sides do. -/
theorem Progress.ite {b : Bool} {p q : Lexer α} (hp : Progress p) (hq : Progress q) :
    Progress (if b then p else q) := by
  cases b <;> simpa

/-- A failure is progress, since it leaves nothing to go on with. -/
instance (fault : Fault) : Progress (fail fault : Lexer α) where
  shrinks h := by cases h

instance (expected : Char) : Progress (char expected) where
  shrinks {c _ _} h := by
    obtain ⟨d, c₁, h₁, h'⟩ := bind_eq_ok.1 h
    obtain ⟨_, c₂, h₂, h₃⟩ := bind_eq_ok.1 h'
    obtain ⟨-, rfl⟩ := require_eq_ok h₂
    obtain ⟨rest, mark⟩ := c
    cases rest <;> cases h₁
    cases h₃
    simp

/-- Taking a text that is not empty is progress. -/
theorem Progress.text {expected : String} (hne : expected.toList ≠ []) :
    Progress (Lexer.text expected) where
  shrinks {c _ _} h := by
    obtain ⟨b, c₁, h₁, h'⟩ := bind_eq_ok.1 h
    obtain ⟨_, c₂, h₂, h₃⟩ := bind_eq_ok.1 h'
    obtain ⟨hb, rfl⟩ := require_eq_ok h₂
    cases h₁
    cases h₃
    have hlen := (List.isPrefixOf_iff_prefix.1 hb).length_le
    have hpos : 0 < expected.toList.length := List.length_pos_iff.2 hne
    simp only [Cursor.rest_advance, List.length_drop, String.length_toList] at *
    omega

instance : Progress qualifiedName where
  shrinks {c _ _} h := by
    obtain ⟨start, c₁, h₁, h'⟩ := bind_eq_ok.1 h
    cases h₁
    obtain ⟨cs, c₂, h₂, h₃⟩ := bind_eq_ok.1 h'
    cases h₂
    clear h h'
    generalize htaken : c.rest.takeWhile isNameChar = taken at h₃
    cases taken with
    | nil => cases h₃
    | cons d ds =>
      have hlen : (d :: ds).length ≤ c.rest.length := by
        rw [← htaken]
        exact (List.takeWhile_sublist _).length_le
      cases hq : QName.ofChars? (d :: ds) with
      | none =>
        simp only [hq] at h₃
        cases h₃
      | some q =>
        simp only [hq] at h₃
        cases h₃
        simp only [Cursor.rest_advance, List.length_drop, List.length_cons] at hlen ⊢
        omega

end Lexer

end TemplateLint
