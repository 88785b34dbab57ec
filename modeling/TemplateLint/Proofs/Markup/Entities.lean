/-
  TemplateLint.Proofs.Markup.Entities — entities that no one uses change nothing.

  Where no entity is declared, a text that can be read uses none.  Declaring
  some beforehand then makes no difference: every step of the reader that
  succeeds without entities succeeds with them, and builds the same nodes.
  `Follows` is this relation between two runs; it goes through `>>=`.

  Main fact: `Document.readBody_follows`, over the whole body of a
  document.
-/
import TemplateLint.Proofs.Markup.Place

namespace TemplateLint

/-! ## §1. Runs that go the same way -/

/-- If the first run succeeds, the second does too, with a related result. -/
def Follows {ε α β : Type} (r : Except ε α) (r' : Except ε β) (rel : α → β → Prop) : Prop :=
  ∀ a, r = .ok a → ∃ b, r' = .ok b ∧ rel a b

namespace Follows

variable {ε ε' α β α' β' : Type} {r : Except ε α} {r' : Except ε β} {rel : α → β → Prop}

theorem error {e : ε} : Follows (.error e) r' rel :=
  nofun

theorem ok {a : α} {b : β} (h : rel a b) : Follows (ε := ε) (.ok a) (.ok b) rel := by
  intro a' ha
  cases ha
  exact ⟨b, rfl, h⟩

theorem bind {f : α → Except ε α'} {g : β → Except ε β'} {rel' : α' → β' → Prop}
    (h : Follows r r' rel) (hf : ∀ a b, rel a b → Follows (f a) (g b) rel') :
    Follows (r >>= f) (r' >>= g) rel' := by
  intro a' ha'
  cases r with
  | error e => cases ha'
  | ok a =>
    obtain ⟨b, rfl, hrel⟩ := h a rfl
    exact hf a b hrel a' ha'

theorem mapError {f : ε → ε'} (h : Follows r r' rel) :
    Follows (r.mapError f) (r'.mapError f) rel := by
  intro a ha
  cases r with
  | error e => cases ha
  | ok a' =>
    cases ha
    obtain ⟨b, rfl, hrel⟩ := h a rfl
    exact ⟨b, rfl, hrel⟩

/-- A run follows itself. -/
theorem refl (r : Except ε α) : Follows r r Eq :=
  fun a ha => ⟨a, ha, rfl⟩

end Follows

/-! ## §2. Builders with entities -/

namespace Builder

/-- The builder with other entities declared. -/
def withEntities (entities : List Entity) (b : Builder) : Builder :=
  { b with entities }

variable {entities : List Entity} {b : Builder}

theorem modifyNodes_withEntities (f : List Node → List Node) :
    (b.withEntities entities).modifyNodes f = (b.modifyNodes f).withEntities entities := by
  unfold modifyNodes
  cases hopened : b.opened with
  | nil =>
    rw [show (b.withEntities entities).opened = [] from hopened]
    rfl
  | cons e outer =>
    rw [show (b.withEntities entities).opened = e :: outer from hopened]
    rfl

theorem beginTag_withEntities (start : Mark) (name : QName) :
    (b.withEntities entities).beginTag start name
      = (b.beginTag start name).map (withEntities entities) := by
  unfold beginTag
  rw [apply_ite (Except.map (withEntities entities))]
  rfl

theorem addAttribute_withEntities (start : Mark) (name : QName) (value : String) :
    (b.withEntities entities).addAttribute start name value
      = (b.addAttribute start name value).map (withEntities entities) := by
  unfold addAttribute
  simp only [apply_ite (Except.map (withEntities entities))]
  rfl

theorem settle_withEntities :
    (b.withEntities entities).settle
      = b.settle.map fun r => (r.1, r.2.1, r.2.2.withEntities entities) := by
  unfold settle
  show (WrittenAttribute.resolveAll (Declaration.extend b.declarations b.scope) [] b.attributes
    >>= _) = Except.map _ (_ >>= _)
  generalize WrittenAttribute.resolveAll (Declaration.extend b.declarations b.scope) []
    b.attributes = r
  cases r with
  | error e => rfl
  | ok attributes => rfl

theorem add_withEntities (node : Node) :
    (b.withEntities entities).add node = (b.add node).withEntities entities :=
  modifyNodes_withEntities _

theorem addText_withEntities (content : List Char) :
    (b.withEntities entities).addText content = (b.addText content).withEntities entities :=
  modifyNodes_withEntities _

theorem endTag_withEntities (selfClosing : Bool) :
    (b.withEntities entities).endTag selfClosing
      = (b.endTag selfClosing).map (withEntities entities) := by
  unfold endTag
  rw [show (b.withEntities entities).tag = b.tag from rfl]
  cases b.tag with
  | none => rfl
  | some tag =>
    dsimp only
    rw [settle_withEntities]
    cases b.settle with
    | error e => rfl
    | ok settled =>
      obtain ⟨scope, attributes, settled⟩ := settled
      show (Declaration.resolve scope tag.2.pfx (tag.1 - 1) >>= _)
        = Except.map _ (Declaration.resolve scope tag.2.pfx (tag.1 - 1) >>= _)
      cases Declaration.resolve scope tag.2.pfx (tag.1 - 1) with
      | error e => rfl
      | ok ns =>
        cases selfClosing with
        | true => exact congrArg Except.ok (add_withEntities _)
        | false => rfl

theorem close_withEntities (start : Mark) (name : QName) :
    (b.withEntities entities).close start name
      = (b.close start name).map (withEntities entities) := by
  unfold close
  rw [show (b.withEntities entities).tag = b.tag from rfl]
  cases b.tag with
  | none => rfl
  | some tag =>
    dsimp only
    rw [settle_withEntities]
    cases b.settle with
    | error e => rfl
    | ok settled =>
      -- taken apart, so that both sides look at the same list of open elements
      obtain ⟨scope, attributes, ⟨known, opened, finished, tag, waiting, declared, uses⟩⟩ := settled
      cases opened with
      | nil => rfl
      | cons e outer =>
        show (if e.name = name then _ else _) = Except.map _ (if e.name = name then _ else _)
        by_cases h : e.name = name
        · rw [if_pos h, if_pos h]
          exact congrArg Except.ok
            (add_withEntities (b := ⟨known, outer, finished, tag, waiting, declared, uses⟩) e.toNode)
        · rw [if_neg h, if_neg h]
          rfl

end Builder

/-! ## §3. Texts that use no entity -/

namespace Piece

/-- Where none is declared, no entity is used. -/
theorem entity_notMem_ofText (c value : Cursor) (after : Mark) :
    .entity value after ∉ Piece.ofText [] c := by
  fun_induction Piece.ofText [] c with
  | case1 c hrest => simp
  | case2 c tail hrest hnone => simp
  | case3 c tail hrest body hbody => simp
  | case4 c tail hrest body after hsome a hbody ih => simpa using ih
  | case5 c tail hrest body hsome name hbody hfind => simp
  | case6 c tail hrest body after hsome name hbody found hfind ih => cases hfind
  | case7 c a tail hne hrest ih => simpa using ih

/-- With entities declared the pieces are the same, but where a reference
could not be followed. -/
theorem ofText_eq_or_broken (entities : List Entity) (c : Cursor) :
    Piece.ofText entities c = Piece.ofText [] c ∨ ∃ error, .broken error ∈ Piece.ofText [] c := by
  fun_induction Piece.ofText [] c with
  | case1 c hrest =>
    obtain ⟨rest, mark⟩ := c
    cases hrest
    left
    rw [Piece.ofText]
  | case2 c tail hrest hnone => exact .inr ⟨_, List.mem_cons_self⟩
  | case3 c tail hrest body hbody => exact .inr ⟨_, List.mem_cons_self⟩
  | case4 c tail hrest body after hsome a hbody ih =>
    rcases ih with ih | ⟨error, herror⟩
    · left
      obtain ⟨rest, mark⟩ := c
      cases hrest
      rw [Piece.ofText, ← ih]
      show (if (tail.dropWhile (· != ';')).isEmpty = true then _ else _) = _
      rw [if_neg hsome, show Reference.ofBody? (tail.takeWhile (· != ';')) = _ from hbody]
    · exact .inr ⟨error, List.mem_cons_of_mem _ herror⟩
  | case5 c tail hrest body hsome name hbody hfind =>
    -- an entity may be known to the other side, but here it breaks the text
    exact .inr ⟨_, List.mem_cons_self⟩
  | case6 c tail hrest body after hsome name hbody found hfind ih => cases hfind
  | case7 c a tail hne hrest ih =>
    rcases ih with ih | ⟨error, herror⟩
    · left
      obtain ⟨rest, mark⟩ := c
      cases hrest
      rw [← ih, Piece.ofText]
      split
      · next hnil => cases hnil
      · next hamp =>
        cases hamp
        exact absurd rfl hne
      · next hcons =>
        cases hcons
        rfl
    · exact .inr ⟨error, List.mem_cons_of_mem _ herror⟩

/-- The other pieces do not break the text. -/
theorem broken_notMem_cons {piece : Piece} {pieces : List Piece}
    (hpiece : ∀ error, piece ≠ .broken error) (h : ∀ error, .broken error ∉ pieces) :
    ∀ error, .broken error ∉ piece :: pieces := by
  intro error hmem
  rcases List.mem_cons.1 hmem with heq | hmem
  · exact hpiece error heq.symm
  · exact h error hmem

end Piece

/-! ## §4. Attribute values -/

/-- Only a text without a broken reference is a value. -/
theorem joinValue_ensures_unbroken (nested : Bool)
    (expand : Cursor → Mark → Nat → Except SyntaxError (List Char × Nat)) (pieces : List Piece)
    (uses : Nat) :
    Ensures (joinValue nested expand pieces uses) (fun _ => ∀ error, .broken error ∉ pieces)
      (fun _ => True) := by
  induction pieces generalizing uses with
  | nil => exact fun error => List.not_mem_nil
  | cons piece pieces ih =>
    cases piece with
    | broken error => exact trivial
    | raw c =>
      unfold joinValue
      dsimp only
      split
      · exact (ih uses).bind fun _ h => Piece.broken_notMem_cons nofun h
      · exact (ih uses).bind fun _ h => Piece.broken_notMem_cons nofun h
    | escaped c start =>
      unfold joinValue
      dsimp only
      split
      · exact (ih uses).bind fun _ h => Piece.broken_notMem_cons nofun h
      · split
        · exact trivial
        · exact (ih uses).bind fun _ h => Piece.broken_notMem_cons nofun h
    | entity value after =>
      unfold joinValue
      refine (Ensures.any (expand value after uses)).bind fun r _ => ?_
      exact (ih r.2).bind fun _ h => Piece.broken_notMem_cons nofun h

/-- Where no entity is used, it does not matter how entities are followed. -/
theorem joinValue_congr {nested : Bool}
    {expand expand' : Cursor → Mark → Nat → Except SyntaxError (List Char × Nat)}
    {pieces : List Piece} (h : ∀ value after, .entity value after ∉ pieces) (uses : Nat) :
    joinValue nested expand pieces uses = joinValue nested expand' pieces uses := by
  induction pieces generalizing uses with
  | nil => rfl
  | cons piece pieces ih =>
    have hrest : ∀ value after, .entity value after ∉ pieces :=
      fun value after hmem => h value after (List.mem_cons_of_mem _ hmem)
    cases piece with
    | broken error => rfl
    | raw c =>
      unfold joinValue
      simp only [ih hrest]
    | escaped c start =>
      unfold joinValue
      simp only [ih hrest]
    | entity value after => exact absurd List.mem_cons_self (h value after)

/-- A value that can be joined without entities is the same with them. -/
theorem joinValue_follows {nested : Bool}
    {expand expand' : Cursor → Mark → Nat → Except SyntaxError (List Char × Nat)}
    (entities : List Entity) (raw : Cursor) (uses : Nat) :
    Follows (joinValue nested expand (Piece.ofText [] raw) uses)
      (joinValue nested expand' (Piece.ofText entities raw) uses) Eq := by
  rcases Piece.ofText_eq_or_broken entities raw with heq | ⟨error, herror⟩
  · rw [heq, joinValue_congr (Piece.entity_notMem_ofText raw)]
    exact Follows.refl _
  · intro value hvalue
    have h := joinValue_ensures_unbroken nested expand (Piece.ofText [] raw) uses
    rw [hvalue] at h
    exact absurd herror (h error)

theorem attributeValue_follows (entities : List Entity) (level : Nat) (raw : Cursor) (uses : Nat) :
    Follows (attributeValue [] level raw uses) (attributeValue entities level raw uses) Eq := by
  cases level with
  | zero =>
    unfold attributeValue
    exact joinValue_follows entities raw uses
  | succ level =>
    unfold attributeValue
    exact joinValue_follows entities raw uses

namespace Builder

variable {entities : List Entity} {b b' : Builder} {level : Nat}
  {expand : Cursor → Builder → Except Rejection Builder}

/-! ## §5. Tokens -/

/-- The second builder is the first one, which knows no entities, with some
declared. -/
def Gains (entities : List Entity) (b b' : Builder) : Prop :=
  b.entities = [] ∧ b' = b.withEntities entities

theorem gains_withEntities (h : b.entities = []) : Gains entities b (b.withEntities entities) :=
  ⟨h, rfl⟩

/-- A step that does not look at the entities keeps them, and goes the same way
whatever they are. -/
theorem Gains.follows {ε : Type} {step : Builder → Except ε Builder}
    (hstep : ∀ known b, step (b.withEntities known) = (step b).map (withEntities known))
    (h : Gains entities b b') : Follows (step b) (step b') (Gains entities) := by
  obtain ⟨hnil, rfl⟩ := h
  have hself : b.withEntities [] = b := by
    cases b
    cases hnil
    rfl
  intro after hafter
  refine ⟨after.withEntities entities, by rw [hstep, hafter]; rfl, ?_⟩
  -- with no entities declared the step gives back what it gives anyway
  have hkeeps := hstep [] b
  rw [hself, hafter] at hkeeps
  have hafter' : after = after.withEntities [] := Except.ok.inj hkeeps
  exact gains_withEntities (by rw [hafter']; rfl)

theorem Gains.modifyNodes (f : List Node → List Node) (h : Gains entities b b') :
    Gains entities (b.modifyNodes f) (b'.modifyNodes f) := by
  refine ⟨?_, by rw [h.2, modifyNodes_withEntities]⟩
  unfold Builder.modifyNodes
  split
  · exact h.1
  · exact h.1

theorem addPieces_ensures_unbroken (pieces : List Piece) (gathered : List Char) (b : Builder) :
    Ensures (addPieces level expand pieces gathered b) (fun _ => ∀ error, .broken error ∉ pieces)
      (fun _ => True) := by
  induction pieces generalizing gathered b with
  | nil =>
    unfold addPieces
    split
    · exact fun error => List.not_mem_nil
    · exact fun error => List.not_mem_nil
  | cons piece pieces ih =>
    cases piece with
    | broken error => exact trivial
    | raw c =>
      have hcons : (∀ error, .broken error ∉ pieces) → ∀ error, .broken error ∉ .raw c :: pieces :=
        Piece.broken_notMem_cons nofun
      unfold addPieces
      split
      · split
        · exact (ih _ _).mono fun _ => hcons
        · exact (ih _ _).mono fun _ => hcons
      · exact (ih _ _).mono fun _ => hcons
    | escaped c start =>
      unfold addPieces
      exact (ih _ _).mono fun _ => Piece.broken_notMem_cons nofun
    | entity value after =>
      unfold addPieces
      refine (Ensures.any _).bind fun uses _ => ?_
      refine (Ensures.any _).bind fun inner _ => ?_
      exact (ih _ _).mono fun _ => Piece.broken_notMem_cons nofun

/-- Character data that uses no entity is added whatever is declared. -/
theorem addPieces_withEntities {pieces : List Piece}
    (h : ∀ value after, .entity value after ∉ pieces) (gathered : List Char) (known : List Entity)
    (b : Builder) :
    addPieces level expand pieces gathered (b.withEntities known)
      = (addPieces level expand pieces gathered b).map (withEntities known) := by
  induction pieces generalizing gathered with
  | nil =>
    unfold addPieces
    split
    · rfl
    · exact congrArg Except.ok (addText_withEntities _)
  | cons piece pieces ih =>
    have hrest : ∀ value after, .entity value after ∉ pieces :=
      fun value after hmem => h value after (List.mem_cons_of_mem _ hmem)
    cases piece with
    | broken error => rfl
    | raw c =>
      unfold addPieces
      split
      · split
        · exact ih hrest _
        · exact ih hrest _
      · exact ih hrest _
    | escaped c start =>
      unfold addPieces
      exact ih hrest _
    | entity value after => exact absurd List.mem_cons_self (h value after)

theorem addText_follows (raw : Cursor) (h : Gains entities b b') :
    Follows (addPieces level expand (Piece.ofText [] raw) [] b)
      (addPieces level expand (Piece.ofText entities raw) [] b') (Gains entities) := by
  rcases Piece.ofText_eq_or_broken entities raw with heq | ⟨error, herror⟩
  · rw [heq]
    exact h.follows fun known b =>
      addPieces_withEntities (Piece.entity_notMem_ofText raw) [] known b
  · intro after hafter
    have hunbroken : Ensures (addPieces level expand (Piece.ofText [] raw) [] b) _ _ :=
      addPieces_ensures_unbroken _ _ _
    rw [hafter] at hunbroken
    exact absurd herror (hunbroken error)

/-- **One token.** -/
theorem take_follows (token : Token) (h : Gains entities b b') :
    Follows (b.take level expand token) (b'.take level expand token) (Gains entities) := by
  cases token with
  | tagName start name =>
    exact (h.follows fun known b => beginTag_withEntities start name).mapError
  | attr start name raw =>
    obtain ⟨hnil, rfl⟩ := h
    have hvalue : Follows (attributeValue b.entities level raw b.uses)
        (attributeValue entities level raw b.uses) Eq := by
      rw [hnil]
      exact attributeValue_follows entities level raw b.uses
    refine hvalue.mapError.bind fun r r' hr => ?_
    cases hr
    have hcounted : Gains entities { b with uses := r.2 }
        { b.withEntities entities with uses := r.2 } := ⟨hnil, rfl⟩
    exact (hcounted.follows fun known b => addAttribute_withEntities start name _).mapError
  | tagEnd selfClosing =>
    exact (h.follows fun known b => endTag_withEntities selfClosing).mapError
  | closeTag start name => exact h.follows fun known b => close_withEntities start name
  | text raw =>
    show Follows (addPieces level expand (Piece.ofText b.entities raw) [] b)
      (addPieces level expand (Piece.ofText b'.entities raw) [] b') _
    rw [h.1, show b'.entities = entities by rw [h.2]; rfl]
    exact addText_follows raw h
  | cdata content => exact .ok (h.modifyNodes _)
  | comment content => exact .ok (h.modifyNodes _)
  | instruction target content => exact .ok (h.modifyNodes _)

/-! ## §6. Runs -/

variable {cursor cursor' : Cursor} {insideTag : Bool} {depth : Nat}

/-- What the reader does with the token that comes next. -/
theorem read_of_token {token : Token} {after : Builder}
    (hmore : ¬ (cursor.rest.isEmpty = true ∨ (insideTag = false ∧ depth = 0)))
    (htoken : Lexer.token insideTag cursor = .ok (token, cursor'))
    (htake : b.take level expand token = .ok after) :
    b.read level expand insideTag depth cursor
      = after.read level expand token.staysInTag (token.depthAfter depth) cursor' := by
  rw [Builder.read, if_neg hmore]
  split
  · next e he =>
    rw [htoken] at he
    cases he
  · next token₁ cursor₁ he =>
    rw [htoken] at he
    cases he
    rw [htake]

/-- **A run of tokens.** -/
theorem read_follows (hnil : b.entities = []) :
    Follows (b.read level expand insideTag depth cursor)
      ((b.withEntities entities).read level expand insideTag depth cursor)
      (fun r r' => Gains entities r.1 r'.1 ∧ r'.2 = r.2) := by
  fun_induction Builder.read level expand insideTag depth cursor b with
  | case1 insideTag depth cursor b hend =>
    rw [Builder.read, if_pos hend]
    exact .ok ⟨gains_withEntities hnil, rfl⟩
  | case2 insideTag depth cursor b hmore e htoken => exact .error
  | case3 insideTag depth cursor b hmore token cursor' htoken e htake => exact .error
  | case4 insideTag depth cursor b hmore token cursor' htoken after htake ih =>
    -- the lexer sees the same text, so both runs are at the same token
    obtain ⟨_, htake', hnil', rfl⟩ := take_follows token (gains_withEntities hnil) after htake
    rw [read_of_token hmore htoken htake']
    exact ih hnil'

theorem readElement_follows (hnil : b.entities = []) :
    Follows (b.readElement cursor) ((b.withEntities entities).readElement cursor)
      (fun r r' => Gains entities r.1 r'.1 ∧ r'.2 = r.2) := by
  unfold readElement
  refine (Follows.refl _).mapError.bind fun r r' hr => ?_
  cases hr
  refine (take_follows r.1 (gains_withEntities hnil)).bind fun after after' hafter => ?_
  obtain ⟨hnil', rfl⟩ := hafter
  exact read_follows hnil'

theorem takeItem_gains (token : Token) (h : Gains entities b b') :
    Gains entities (b.takeItem (.node token)) (b'.takeItem (.node token)) := by
  cases token with
  | comment content => exact h.modifyNodes _
  | instruction target content => exact h.modifyNodes _
  | _ => exact h

theorem readMisc_eq (c : Cursor) (b : Builder) :
    b.readMisc c = match Lexer.misc c with
      | .error e => .error e
      | .ok (none, c') => .ok (b, c')
      | .ok (some token, c') => (b.takeItem (.node token)).readMisc c' := by
  rw [Builder.readMisc]
  split
  · next e he => rw [he]
  · next c₁ he => rw [he]
  · next token c₁ he => rw [he]

theorem readMisc_follows (hnil : b.entities = []) :
    Follows (b.readMisc cursor) ((b.withEntities entities).readMisc cursor)
      (fun r r' => Gains entities r.1 r'.1 ∧ r'.2 = r.2) := by
  fun_induction Builder.readMisc cursor b with
  | case1 cursor b e hmisc => exact .error
  | case2 cursor b cursor' hmisc =>
    rw [readMisc_eq cursor (b.withEntities entities), hmisc]
    exact .ok ⟨gains_withEntities hnil, rfl⟩
  | case3 cursor b token cursor' hmisc ih =>
    obtain ⟨hnil', htaken⟩ : Gains entities _ ((b.withEntities entities).takeItem (.node token)) :=
      takeItem_gains token (gains_withEntities hnil)
    rw [readMisc_eq cursor (b.withEntities entities), hmisc]
    show Follows _ (((b.withEntities entities).takeItem (.node token)).readMisc cursor') _
    rw [htaken]
    exact ih hnil'

end Builder

/-- **The body of a document** that needs no entities is read the same way
behind their declarations. -/
theorem Document.readBody_follows {entities : List Entity} {b : Builder} {c : Cursor}
    (hnil : b.entities = []) :
    Follows (readBody c b) (readBody c (b.withEntities entities)) Eq := by
  unfold readBody
  extract_lets c' after
  -- at the end nothing but the nodes and the place is looked at
  have hafter : ∀ r r' : Builder × Cursor, Builder.Gains entities r.1 r'.1 ∧ r'.2 = r.2 →
      Follows (after r) (after r') Eq := by
    intro r r' hr
    obtain ⟨b₁, c₁⟩ := r
    obtain ⟨b₂, c₂⟩ := r'
    dsimp only at hr
    obtain ⟨⟨hnil₁, rfl⟩, rfl⟩ := hr
    refine (Builder.readMisc_follows hnil₁).mapError.bind fun r r' hr => ?_
    obtain ⟨b₃, c₃⟩ := r
    obtain ⟨b₄, c₄⟩ := r'
    dsimp only at hr
    obtain ⟨⟨-, rfl⟩, rfl⟩ := hr
    exact Follows.refl _
  split
  · exact (Builder.readElement_follows hnil).bind hafter
  · exact hafter (b, c') (b.withEntities entities, c') ⟨Builder.gains_withEntities hnil, rfl⟩

end TemplateLint
