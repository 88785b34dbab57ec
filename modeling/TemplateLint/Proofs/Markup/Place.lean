/-
  TemplateLint.Proofs.Markup.Place — where a lexer stands and where it fails.

  A cursor lies in a text if its characters stand there, at the place of its
  mark.  `Reads source p good` is the contract of a lexer: started at a cursor
  in `source` it either gives something `good` and ends at a cursor in `source`,
  or fails at a place of `source` with a fault that quotes nothing misleading.
  The contract goes through `>>=`; `Careful` is the contract without a promise
  on the result, found by instance search for all lexers built from careful
  ones.
-/
import TemplateLint.Markup.Document

namespace TemplateLint

/-! ## §1. Outcomes -/

/-- A result is `good`, an error is `bad`. -/
def Ensures {ε α : Type} (r : Except ε α) (good : α → Prop) (bad : ε → Prop) : Prop :=
  match r with
  | .ok a => good a
  | .error e => bad e

namespace Ensures

variable {ε ε' α β : Type} {r : Except ε α} {good : α → Prop} {bad : ε → Prop}

theorem bind {f : α → Except ε β} {good' : β → Prop} (h : Ensures r good bad)
    (hf : ∀ a, good a → Ensures (f a) good' bad) : Ensures (r >>= f) good' bad := by
  cases r with
  | ok a => exact hf a h
  | error e => exact h

/-- Where nothing is asked, every outcome will do. -/
theorem any (r : Except ε α) : Ensures r (fun _ => True) (fun _ => True) := by
  cases r with
  | ok a => exact trivial
  | error e => exact trivial

theorem mapError {f : ε → ε'} {bad' : ε' → Prop} (h : Ensures r good bad)
    (hf : ∀ e, bad e → bad' (f e)) : Ensures (r.mapError f) good bad' := by
  cases r with
  | ok a => exact h
  | error e => exact hf e h

/-- What is known of an outcome in two ways is known together. -/
theorem and {good' : α → Prop} {bad' : ε → Prop} (h : Ensures r good bad)
    (h' : Ensures r good' bad') : Ensures r (fun a => good a ∧ good' a) fun e => bad e ∧ bad' e := by
  cases r with
  | ok a => exact ⟨h, h'⟩
  | error e => exact ⟨h, h'⟩

theorem mono {good' : α → Prop} (h : Ensures r good bad) (hg : ∀ a, good a → good' a) :
    Ensures r good' bad := by
  cases r with
  | ok a => exact hg a h
  | error e => exact h

end Ensures

/-- Two steps succeed if the first one does, and then the second. -/
theorem bind_ok_iff {ε α β : Type} {r : Except ε α} {f : α → Except ε β} {b : β} :
    (r >>= f) = .ok b ↔ ∃ a, r = .ok a ∧ f a = .ok b := by
  cases r with
  | error e => exact ⟨nofun, nofun⟩
  | ok a =>
    refine ⟨fun h => ⟨a, rfl, h⟩, ?_⟩
    rintro ⟨_, ha, h⟩
    cases ha
    exact h

theorem mapError_ok_iff {ε ε' α : Type} {r : Except ε α} {f : ε → ε'} {a : α} :
    r.mapError f = .ok a ↔ r = .ok a := by
  cases r with
  | error e => exact ⟨nofun, nofun⟩
  | ok b => exact ⟨fun h => by cases h; rfl, fun h => by cases h; rfl⟩

/-! ## §2. Cursors and marks in a text -/

namespace Cursor

/-- The characters of the cursor stand in `source`, at the place of its mark. -/
def LiesIn (c : Cursor) (source : List Char) : Prop :=
  ∃ before after, source = before ++ (c.rest ++ after) ∧ c.rest.length + after.length = c.mark

variable {c : Cursor} {source : List Char}

theorem liesIn_ofText (source : List Char) : (ofText source).LiesIn source :=
  ⟨[], [], by simp [ofText], by simp [ofText]⟩

theorem LiesIn.mark_le (h : c.LiesIn source) : c.mark ≤ source.length := by
  obtain ⟨before, after, htext, hmark⟩ := h
  rw [← hmark, htext, List.length_append, List.length_append]
  exact Nat.le_add_left _ _

theorem LiesIn.advance (n : Nat) (h : c.LiesIn source) : (c.advance n).LiesIn source := by
  induction n generalizing c with
  | zero => exact h
  | succ n ih =>
    obtain ⟨rest, mark⟩ := c
    cases rest with
    | nil => exact h
    | cons a rest =>
      obtain ⟨before, after, htext, hmark⟩ := h
      -- the character that is passed joins those in front
      refine ih ⟨before ++ [a], after, by simp [htext], ?_⟩
      show rest.length + after.length = mark - 1
      rw [← show (a :: rest).length + after.length = mark from hmark, List.length_cons]
      omega

/-- A first part of what stands at a place stands there too. -/
theorem LiesIn.takes {front : List Char} (h : c.LiesIn source) (hfront : front <+: c.rest) :
    (⟨front, c.mark⟩ : Cursor).LiesIn source := by
  obtain ⟨before, after, htext, hmark⟩ := h
  obtain ⟨back, hrest⟩ := hfront
  refine ⟨before, back ++ after, by simp [htext, ← hrest], ?_⟩
  show front.length + (back ++ after).length = c.mark
  rw [← hmark, ← hrest, List.length_append, List.length_append, Nat.add_assoc]

end Cursor

/-- A tag can begin at `mark`: there `source` has a `<`. -/
def OpensAt (source : List Char) (mark : Mark) : Prop :=
  ∃ before after, source = before ++ '<' :: after ∧ after.length + 1 = mark

theorem OpensAt.mark_le {source : List Char} {mark : Mark} (h : OpensAt source mark) :
    mark ≤ source.length := by
  obtain ⟨before, after, rfl, rfl⟩ := h
  rw [List.length_append, List.length_cons]
  exact Nat.le_add_left _ _

theorem Cursor.LiesIn.opensAt {c : Cursor} {source cs : List Char} (h : c.LiesIn source)
    (hrest : c.rest = '<' :: cs) : OpensAt source c.mark := by
  obtain ⟨before, after, htext, hmark⟩ := h
  refine ⟨before, cs ++ after, by simp [htext, hrest], ?_⟩
  rw [← hmark, hrest, List.length_append, List.length_cons, Nat.add_right_comm]

/-! ## §3. Faults that quote nothing misleading -/

/-- Both parts of the name are spelled with the characters of names. -/
def QName.IsPlain (name : QName) : Prop :=
  name.pfx.toList.all isNameChar = true ∧ name.localPart.toList.all isNameChar = true

/-- A character that a fixed wording may have: neither a digit nor a line feed. -/
def isWording (c : Char) : Bool :=
  !c.isDigit && c != '\n'

/-- The names that a fault quotes are names, and the fixed wordings have no
digit: nothing quoted can be taken for a place.  Only a character that was found
where it cannot stand may be a line feed. -/
def Fault.IsPlain : Fault → Prop
  | namespaceRepeated pfx => pfx.toList.all isNameChar = true
  | unknownPrefix pfx => pfx.toList.all isNameChar = true
  | closeMismatch expected found =>
    expected.toList.all isNameChar = true ∧ found.toList.all isNameChar = true
  | unknownEntity name => name.toList.all isNameChar = true
  | attributeRepeated name => name.toList.all isNameChar = true
  | expectedChar expected _ => expected ≠ '\n'
  | expectedClass expected _ => expected.toList.all isWording = true
  | expectedText expected => expected.toList.all isWording = true
  | _ => True

/-- A fault is plain and lies at most `limit` characters before the end. -/
def SyntaxError.Within (limit : Mark) : SyntaxError → Prop
  | located fault mark => mark ≤ limit ∧ fault.IsPlain
  | _ => True

/-- A rejection names no other place than one in the last `limit` characters. -/
def Rejection.Within (limit : Mark) : Rejection → Prop
  | malformed error => error.Within limit
  | overclosed => True

/-- An error that is handed on as a rejection stays where it is. -/
theorem Ensures.malformed {α : Type} {r : Except SyntaxError α} {good : α → Prop} {limit : Mark}
    (h : Ensures r good (SyntaxError.Within limit)) :
    Ensures (r.mapError .malformed) good (Rejection.Within limit) :=
  h.mapError fun _ he => he

/-! ## §4. The contract of a lexer -/

namespace Lexer

variable {α β : Type}

/-- At a cursor in `source` the lexer gives something `good` and stays in the
text, or fails with a plain fault in it. -/
def Reads (source : List Char) (p : Lexer α) (good : α → Prop) : Prop :=
  ∀ c : Cursor, c.LiesIn source →
    Ensures (p c) (fun r => good r.1 ∧ r.2.LiesIn source) (SyntaxError.Within source.length)

/-- The contract without a promise on the result. -/
class Careful (source : List Char) (p : Lexer α) : Prop where
  reads : Reads source p fun _ => True

variable {source : List Char} {p : Lexer α} {f : α → Lexer β} {good : α → Prop} {good' : β → Prop}

theorem Reads.mono (h : Reads source p good) {good' : α → Prop} (hg : ∀ a, good a → good' a) :
    Reads source p good' :=
  fun c hc => (h c hc).mono fun r hr => ⟨hg r.1 hr.1, hr.2⟩

theorem Reads.careful (h : Reads source p good) : Careful source p :=
  ⟨h.mono fun _ _ => trivial⟩

theorem Reads.pure {a : α} (h : good a) : Reads source (pure a : Lexer α) good :=
  fun _ hc => ⟨h, hc⟩

theorem Reads.bind (h : Reads source p good) (hf : ∀ a, good a → Reads source (f a) good') :
    Reads source (p >>= f) good' :=
  fun c hc => (h c hc).bind fun r hr => hf r.1 hr.1 r.2 hr.2

/-- After a careful lexer nothing is known but the place. -/
theorem Reads.after [Careful source p] (hf : ∀ a, Reads source (f a) good') :
    Reads source (p >>= f) good' :=
  Careful.reads.bind fun a _ => hf a

/-- Where a mark is asked for, it is a mark of the text. -/
theorem Reads.here_bind {f : Mark → Lexer β} (hf : ∀ start, start ≤ source.length →
    Reads source (f start) good') : Reads source (here >>= f) good' :=
  fun c hc => hf c.mark hc.mark_le c hc

theorem Reads.ite {b : Bool} {p q : Lexer α} (hp : Reads source p good) (hq : Reads source q good) :
    Reads source (if b then p else q) good := by
  cases b
  · exact hq
  · exact hp

theorem Reads.failAt {mark : Mark} {fault : Fault} (hmark : mark ≤ source.length)
    (hfault : fault.IsPlain) : Reads source (failAt mark fault : Lexer α) good :=
  fun _ _ => ⟨hmark, hfault⟩

theorem Reads.fail {fault : Fault} (hfault : fault.IsPlain) :
    Reads source (fail fault : Lexer α) good :=
  fun _ hc => ⟨hc.mark_le, hfault⟩

instance (a : α) : Careful source (pure a : Lexer α) := ⟨.pure trivial⟩

instance (p : Lexer α) (f : α → Lexer β) [Careful source p] [∀ a, Careful source (f a)] :
    Careful source (p >>= f) :=
  ⟨.after fun _ => Careful.reads⟩

instance (b : Bool) (p q : Lexer α) [Careful source p] [Careful source q] :
    Careful source (if b then p else q) :=
  ⟨.ite Careful.reads Careful.reads⟩

end Lexer

end TemplateLint
