/-
  TemplateLint.Proofs.Markup.Content — reading content keeps to the source.

  One token keeps the invariant of the builder (`take_ensures`), so a whole
  run of tokens does (`read_ensures`), and by the number of levels left so
  does the text of an entity (`expand_ensures`).  A failure on the way lies
  in the source.
-/
import TemplateLint.Proofs.Markup.Builder

namespace TemplateLint

variable {source : List Char}

/-! ## §1. Entities in attribute values -/

theorem enterEntity_ensures {level uses : Nat} {after : Mark} (h : after ≤ source.length) :
    Ensures (enterEntity level uses after) (fun _ => True)
      (SyntaxError.Within source.length) := by
  unfold enterEntity
  split
  · exact ⟨h, trivial⟩
  · exact trivial

theorem joinValue_ensures {nested : Bool}
    {expand : Cursor → Mark → Nat → Except SyntaxError (List Char × Nat)}
    (hexpand : ∀ value after uses, value.IsUsable source → after ≤ source.length →
      Ensures (expand value after uses) (fun _ => True) (SyntaxError.Within source.length))
    {pieces : List Piece} (hpieces : ∀ piece ∈ pieces, piece.StandsIn source) (uses : Nat) :
    Ensures (joinValue nested expand pieces uses) (fun _ => True)
      (SyntaxError.Within source.length) := by
  induction pieces generalizing uses with
  | nil => exact trivial
  | cons piece pieces ih =>
    have hpiece := hpieces piece List.mem_cons_self
    have hback := ih fun x hx => hpieces x (List.mem_cons_of_mem _ hx)
    cases piece with
    | raw c =>
      unfold joinValue
      dsimp only
      split
      · exact (hback uses).bind fun _ _ => trivial
      · exact (hback uses).bind fun _ _ => trivial
    | escaped c start =>
      unfold joinValue
      dsimp only
      split
      · exact (hback uses).bind fun _ _ => trivial
      · split
        · exact ⟨hpiece, trivial⟩
        · exact (hback uses).bind fun _ _ => trivial
    | entity value after =>
      unfold joinValue
      refine (hexpand value after uses hpiece.1 hpiece.2).bind fun r _ => ?_
      exact (hback r.2).bind fun _ _ => trivial
    | broken error => exact hpiece

/-- The value of an attribute is found, or the error is in the source. -/
theorem attributeValue_ensures {entities : List Entity}
    (hentities : ∀ e ∈ entities, e.value.IsUsable source) (level : Nat) {raw : Cursor}
    (hraw : raw.IsUsable source) (uses : Nat) :
    Ensures (attributeValue entities level raw uses) (fun _ => True)
      (SyntaxError.Within source.length) := by
  induction level generalizing raw uses with
  | zero =>
    -- no level is left, so every use of an entity is an error
    unfold attributeValue
    refine joinValue_ensures ?_ (Piece.standsIn_of_isUsable hentities hraw) uses
    exact fun value after uses _ hafter => ⟨hafter, trivial⟩
  | succ level ih =>
    unfold attributeValue
    refine joinValue_ensures ?_ (Piece.standsIn_of_isUsable hentities hraw) uses
    intro value after uses hvalue hafter
    refine (enterEntity_ensures hafter).bind fun uses _ => ?_
    exact (ih hvalue uses).bind fun _ _ => trivial

namespace Builder

/-! ## §2. One token -/

/-- What is asked of the reader for the texts of entities. -/
def ExpandsIn (source : List Char) (expand : Cursor → Builder → Except Rejection Builder) : Prop :=
  ∀ value b, value.IsUsable source → b.StandsIn source →
    Ensures (expand value b) (StandsIn source) (Rejection.Within source.length)

variable {level : Nat} {expand : Cursor → Builder → Except Rejection Builder} {b : Builder}

theorem StandsIn.addGathered (gathered : List Char) (hb : b.StandsIn source) :
    (if gathered.isEmpty then b else b.addText gathered.reverse).StandsIn source := by
  split
  · exact hb
  · exact hb.addText _

theorem addPieces_ensures (hexpand : ExpandsIn source expand) {pieces : List Piece}
    (hpieces : ∀ piece ∈ pieces, piece.StandsIn source) {gathered : List Char}
    (hb : b.StandsIn source) :
    Ensures (addPieces level expand pieces gathered b) (StandsIn source)
      (Rejection.Within source.length) := by
  induction pieces generalizing gathered b with
  | nil =>
    unfold addPieces
    split
    · exact hb
    · exact hb.addText _
  | cons piece pieces ih =>
    have hpiece := hpieces piece List.mem_cons_self
    have hrest : ∀ piece ∈ pieces, piece.StandsIn source :=
      fun x hx => hpieces x (List.mem_cons_of_mem _ hx)
    cases piece with
    | raw c =>
      unfold addPieces
      split
      · split
        · exact ih hrest hb
        · exact ih hrest hb
      · exact ih hrest hb
    | escaped c start =>
      unfold addPieces
      exact ih hrest hb
    | broken error => exact hpiece
    | entity value after =>
      unfold addPieces
      have hgathered := hb.addGathered gathered
      refine (enterEntity_ensures hpiece.2).malformed.bind fun uses _ => ?_
      -- the text of the entity starts without a tag, and gives the tag back at its end
      have hstart : StandsIn source
          { (if gathered.isEmpty then b else b.addText gathered.reverse) with
            uses, tag := none } := { hgathered with tag := nofun }
      refine (hexpand value _ hpiece.1 hstart).bind fun inner hinner => ?_
      exact ih hrest { hinner with tag := hgathered.tag }

/-- **One token.**  The builder takes a token of the source and keeps its
invariant, or fails in the source. -/
theorem take_ensures (level : Nat) (hexpand : ExpandsIn source expand) {token : Token}
    (htoken : token.StandsIn source) (hb : b.StandsIn source) :
    Ensures (b.take level expand token) (StandsIn source) (Rejection.Within source.length) := by
  cases token with
  | tagName start name => exact (beginTag_ensures hb htoken.1 htoken.2).malformed
  | attr start name raw =>
    obtain ⟨hstart, hname, hraw⟩ := htoken
    refine (attributeValue_ensures hb.entities level (.inl hraw) b.uses).malformed.bind
      fun r _ => ?_
    have hcounted : StandsIn source { b with uses := r.2 } := { hb with }
    exact (addAttribute_ensures hcounted hstart hname).malformed
  | tagEnd selfClosing => exact (endTag_ensures hb).malformed
  | closeTag start name => exact close_ensures hb htoken.1 htoken.2
  | text raw =>
    exact addPieces_ensures hexpand
      (Piece.standsIn_of_liesIn hb.entities (show raw.LiesIn source from htoken)) hb
  | cdata content => exact hb.addText _
  | comment content => exact hb.add (Node.opensIn_comment _)
  | instruction target content => exact hb.add (Node.opensIn_instruction _ _)

/-! ## §3. Runs of tokens -/

/-- **A run of tokens** from a part of the source keeps the invariant, and
what is left to read is a part of the source again. -/
theorem read_ensures (hexpand : ExpandsIn source expand) {insideTag : Bool} {depth : Nat}
    {cursor : Cursor} (hcursor : cursor.LiesIn source) (hb : b.StandsIn source) :
    Ensures (b.read level expand insideTag depth cursor)
      (fun r => r.1.StandsIn source ∧ r.2.LiesIn source) (Rejection.Within source.length) := by
  fun_induction Builder.read level expand insideTag depth cursor b with
  | case1 insideTag depth cursor b hend => exact ⟨hb, hcursor⟩
  | case2 insideTag depth cursor b hmore e htoken =>
    have hread := Lexer.token_reads insideTag cursor hcursor
    rw [htoken] at hread
    exact hread
  | case3 insideTag depth cursor b hmore token cursor' htoken e htake =>
    -- the token is there, but the builder refuses it
    have hread := Lexer.token_reads insideTag cursor hcursor
    rw [htoken] at hread
    have htaken := take_ensures level hexpand hread.1 hb
    rw [htake] at htaken
    exact htaken
  | case4 insideTag depth cursor b hmore token cursor' htoken b' htake ih =>
    have hread := Lexer.token_reads insideTag cursor hcursor
    rw [htoken] at hread
    have htaken := take_ensures level hexpand hread.1 hb
    rw [htake] at htaken
    exact ih hread.2 htaken

/-- Idle text is taken up to its end. -/
theorem run_of_isIdle {cs : List Char} (h : cs.all isIdleChar = true) :
    Lexer.run (·.head? == some '<') cs = cs := by
  induction cs with
  | nil => rfl
  | cons c cs ih =>
    rw [List.all_cons, Bool.and_eq_true] at h
    have hc : isXmlChar c = true ∧ c ≠ '<' := by
      have := h.1
      simp only [isIdleChar, Bool.and_eq_true, bne_iff_ne] at this
      exact ⟨this.1.1.1, this.1.1.2⟩
    unfold Lexer.run
    simp [hc.1, hc.2, ih h.2]

/-- Idle text holds no end of a section. -/
theorem contains_sectionEnd_of_isIdle {cs : List Char} (h : cs.all isIdleChar = true) :
    contains [']', ']', '>'] cs = false := by
  induction cs with
  | nil => rfl
  | cons c cs ih =>
    rw [List.all_cons, Bool.and_eq_true] at h
    have hc : c ≠ ']' := by
      rintro rfl
      exact absurd h.1 (by decide)
    unfold contains
    simp [ih h.2, List.isPrefixOf, Ne.symm hc]

theorem charsUntil_of_isIdle {c : Cursor} (h : c.IsIdle) :
    Lexer.charsUntil (·.head? == some '<') c = .ok (c.rest, c.advance c.rest.length) := by
  refine Lexer.bind_eq_ok.2 ⟨c.rest, c, rfl, ?_⟩
  rw [run_of_isIdle h]
  refine Lexer.bind_eq_ok.2 ⟨(), c.advance c.rest.length, rfl, ?_⟩
  -- at the end no character is left that could be refused
  have hend : (c.advance c.rest.length).rest = [] := by simp
  have hlast : Lexer.requireXmlChar (c.advance c.rest.length)
      = .ok ((), c.advance c.rest.length) := by
    refine Lexer.bind_eq_ok.2 ⟨[], c.advance c.rest.length, ?_, rfl⟩
    rw [← hend]
    rfl
  exact Lexer.bind_eq_ok.2 ⟨(), _, hlast, rfl⟩

/-- Idle text is a single token. -/
theorem token_of_isIdle {c : Cursor} (h : c.IsIdle) (hne : c.rest ≠ []) :
    Lexer.token false c = .ok (.text c, c.advance c.rest.length) := by
  have hkind : Lexer.tokenAt c.rest = Lexer.characters := by
    obtain ⟨a, cs, hrest⟩ := List.exists_cons_of_ne_nil hne
    have ha : a ≠ '<' := by
      rintro rfl
      have hall := List.all_eq_true.1 (show c.rest.all isIdleChar = true from h) '<'
      exact absurd (hall (by rw [hrest]; exact List.mem_cons_self)) (by decide)
    rw [hrest]
    unfold Lexer.tokenAt
    split <;> simp_all
  show Lexer.tokenAt c.rest c = _
  rw [hkind]
  refine Lexer.bind_eq_ok.2 ⟨c.mark, c, rfl, ?_⟩
  refine Lexer.bind_eq_ok.2 ⟨c.rest, _, charsUntil_of_isIdle h, ?_⟩
  rw [contains_sectionEnd_of_isIdle h]
  rfl

/-- Reading idle text adds characters and never fails. -/
theorem read_ensures_of_isIdle (hexpand : ExpandsIn source expand) {depth : Nat} {cursor : Cursor}
    (hcursor : cursor.IsIdle) (hb : b.StandsIn source) :
    Ensures (b.read level expand false depth cursor) (fun r => r.1.StandsIn source)
      (Rejection.Within source.length) := by
  rw [Builder.read]
  split
  · exact hb
  · next hmore =>
    have hne : cursor.rest ≠ [] := fun h => hmore (.inl (by simp [h]))
    have hpieces := Piece.standsIn_of_isUsable hb.entities (.inr hcursor)
    have htake : Ensures (b.take level expand (.text cursor)) (StandsIn source)
        (Rejection.Within source.length) := addPieces_ensures hexpand hpieces hb
    split
    · next e htoken =>
      rw [token_of_isIdle hcursor hne] at htoken
      cases htoken
    · next token cursor' htoken =>
      rw [token_of_isIdle hcursor hne] at htoken
      cases htoken
      split
      · next e he =>
        rw [he] at htake
        exact htake
      · next b' hb' =>
        rw [hb'] at htake
        -- nothing is left to read
        rw [Builder.read, if_pos (.inl (by simp))]
        exact htake

/-- **The text of an entity** keeps the invariant, however many levels may
still be opened. -/
theorem expand_ensures (level : Nat) : ExpandsIn source (Builder.expand level) := by
  induction level with
  | zero => exact fun value b _ hb => hb
  | succ level ih =>
    intro value b hvalue hb
    unfold Builder.expand
    -- what an entity of the source stands for may hold tags, the injected texts do not
    rcases hvalue with hlies | hidle
    · exact (read_ensures ih hlies hb).bind fun r hr => hr.1
    · exact (read_ensures_of_isIdle ih hidle hb).bind fun r hr => hr

/-- The outermost element keeps the invariant. -/
theorem readElement_ensures {cursor : Cursor} (hcursor : cursor.LiesIn source)
    (hb : b.StandsIn source) :
    Ensures (b.readElement cursor) (fun r => r.1.StandsIn source ∧ r.2.LiesIn source)
      (Rejection.Within source.length) := by
  unfold readElement
  refine (Lexer.tagName_reads cursor hcursor).malformed.bind fun r hr => ?_
  refine (take_ensures maxLevel (expand_ensures maxLevel) hr.1 hb).bind fun b' hb' => ?_
  exact read_ensures (expand_ensures maxLevel) hr.2 hb'

end Builder

end TemplateLint
