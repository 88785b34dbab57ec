/-
  TemplateLint.Proofs.Markup.Prolog — what stands in front of the element, in a
  text that goes on.

  An XML declaration, comments, instructions and a document type are read again
  if more text follows, as long as the first run did not come to the end.  The
  entities that were declared are the same, with their texts further from the end:
  `Builder.Keeps` relates the two runs.

  Main result: `Document.readProlog_keeps`.
-/
import TemplateLint.Proofs.Injection
import TemplateLint.Proofs.Markup.Shift

namespace TemplateLint

/-! ## §1. The items of a document type -/

/-- The item with all its marks grown by `k`. -/
def DoctypeItem.shift (k : Nat) : DoctypeItem → DoctypeItem
  | entity e => entity (e.shift k)
  | node token => node (token.shift k)
  | item => item

namespace Lexer

variable {more : List Char} {k : Nat} [Further more]

instance : CarriedAhead more k (sees "SYSTEM") := .sees (by decide)

instance : CarriedAhead more k (sees "PUBLIC") := .sees (by decide)

instance : CarriedAhead more k (sees "NDATA") := .sees (by decide)

instance : CarriedAhead more k (sees "%") := .sees (by decide)

instance : CarriedAhead more k quotedNote where
  carriesAhead := by
    unfold quotedNote
    exact .after fun _ => quotedText_carries.ahead.bind fun _ => .pure rfl

instance : CarriedAhead more k externalId where
  carriesAhead := by
    unfold externalId
    refine .after fun _ => .ite CarriedAhead.carriesAhead (.after fun _ => .ite ?_ ?_)
    · exact CarriedAhead.carriesAhead
    · exact CarriedAhead.carriesAhead

instance : CarriedAhead more k unparsedNote where
  carriesAhead := by
    unfold unparsedNote
    exact .after fun _ => .after fun _ => .ite CarriedAhead.carriesAhead CarriedAhead.carriesAhead

instance : CarriedAhead more k parameterMark := by
  unfold parameterMark
  infer_instance

instance : CarriedAhead more k entityHead := by
  unfold entityHead
  infer_instance

theorem entityDefinition_carries (parameter : Bool) :
    CarriesAhead more k (entityDefinition parameter) (entityDefinition parameter)
      (Option.map (Cursor.shift k)) := by
  unfold entityDefinition
  refine .after fun c => .ite ?_ (.ite ?_ Carries.fail.ahead)
  · exact quotedText_carries.ahead.bind fun value => .pure rfl
  · -- an external entity has no text here
    refine .after fun _ => .after fun _ => .ite (.pure rfl) ?_
    exact .after fun _ => .pure rfl

theorem entityDeclaration_carries :
    CarriesAhead more k entityDeclaration entityDeclaration (DoctypeItem.shift k) := by
  unfold entityDeclaration
  refine .after fun _ => .after fun head => ?_
  refine (entityDefinition_carries head.1).bind fun value => ?_
  refine .after fun _ => .after fun _ => .pure ?_
  cases value with
  | none => rfl
  | some value => rfl

theorem skippedDeclaration_carries (start start' : Mark) :
    CarriesAhead more k (skippedDeclaration start) (skippedDeclaration start')
      (DoctypeItem.shift k) := by
  have : CarriedAhead more k (sees ">") := .sees (by decide)
  unfold skippedDeclaration
  refine .after fun _ => .after fun closed => .ite ?_ Carries.failAt.ahead
  exact .after fun _ => .pure rfl

theorem doctypeEnd_carries :
    CarriesAhead more k doctypeEnd doctypeEnd (DoctypeItem.shift k) := by
  unfold doctypeEnd
  refine .after fun _ => .after fun _ => .after fun c => .after fun _ => ?_
  exact .after fun _ => .pure rfl

/-- **The items of a document type** are read again. -/
theorem doctypeItem_carries (start start' : Mark) :
    CarriesAhead more k (doctypeItem start) (doctypeItem start') (DoctypeItem.shift k) := by
  have hnode : ∀ {p : Lexer Token} [Forward p], CarriesToken more k p p →
      CarriesAhead more k (do return DoctypeItem.node (← p)) (do return DoctypeItem.node (← p))
        (DoctypeItem.shift k) :=
    fun hp => hp.ahead.bind fun token => .pure rfl
  have : CarriedAhead more k (sees "<!ENTITY") := .sees (by decide)
  have : CarriedAhead more k (sees "<!--") := .sees (by decide)
  have : CarriedAhead more k (sees "<?") := .sees (by decide)
  have : CarriedAhead more k (sees "]") := .sees (by decide)
  have : CarriedAhead more k (sees "<!ELEMENT") := .sees (by decide)
  have : CarriedAhead more k (sees "<!ATTLIST") := .sees (by decide)
  have : CarriedAhead more k (sees "<!NOTATION") := .sees (by decide)
  unfold doctypeItem
  refine .after fun _ => .after fun _ => .ite entityDeclaration_carries ?_
  refine .after fun _ => .ite (hnode comment_carries) ?_
  refine .after fun _ => .ite (hnode instruction_carries) ?_
  refine .after fun _ => .ite doctypeEnd_carries ?_
  refine .after fun _ => .after fun _ => .after fun _ => ?_
  exact .ite (skippedDeclaration_carries start start') Carries.fail.ahead

instance (start : Mark) : Forward (doctypeItem start) := by
  have hcarries : CarriesAhead [] 0 (doctypeItem start) (doctypeItem start) _ :=
    doctypeItem_carries start start
  exact hcarries.forward

instance : CarriedAhead more k doctypeHead where
  carriesAhead := by
    have hlast : Carried more k (do
        let c ← peek
        require (c == '[' || c == '>') (.expectedClass "'[' or '>'" c)
        advance 1
        return c == '[') := .next
    unfold doctypeHead
    refine .after fun _ => .after fun _ => .after fun _ => .after fun _ => .after fun _ => ?_
    exact .after fun _ => hlast.carries.ahead

instance : Forward doctypeHead := by
  have hcarries : CarriesAhead [] 0 doctypeHead doctypeHead id := CarriedAhead.carriesAhead
  exact hcarries.forward

/-! ## §2. The XML declaration, comments and processing instructions -/

instance : CarriedAhead more k declarationSpace where
  carriesAhead := by
    have : CarriedAhead more k (sees "?>") := .sees (by decide)
    have hspace : ∀ a : Char, CarriedAhead more k (do
        let ending ← sees "?>"
        require (isSpace a || ending) (.expectedClass "a whitespace" a)
        dropSpaces) := inferInstance
    have hforward : Forward declarationSpace := by
      unfold declarationSpace
      refine .bind fun cs => ?_
      split <;> infer_instance
    refine ⟨hforward, fun c a c' hc h hne => ?_⟩
    -- the text does not end here, so there is a character to look at
    obtain ⟨b, cs, hrest⟩ := List.exists_cons_of_ne_nil (rest_ne_nil_of_forward h hne)
    have hmore : (c.continued more k).rest = b :: (cs ++ more) := by
      rw [Cursor.rest_continued, hrest]
      rfl
    obtain ⟨_, c₁, h₁, h₂⟩ := bind_eq_ok.1 h
    cases h₁
    refine bind_eq_ok.2 ⟨_, _, rfl, ?_⟩
    rw [hrest] at h₂
    rw [hmore]
    exact (hspace b).carriesAhead.carries c a c' hc h₂ hne

instance : CarriedAhead more k declarationPart where
  carriesAhead := by
    unfold declarationPart
    refine .after fun _ => .after fun _ => ?_
    exact quotedValue_carries.ahead.bind fun _ => .pure rfl

instance : CarriedAhead more k xmlDeclaration where
  carriesAhead := by
    have : CarriedAhead more k (sees "version") := .sees (by decide)
    have : CarriedAhead more k (sees "encoding") := .sees (by decide)
    have : CarriedAhead more k (sees "standalone") := .sees (by decide)
    unfold xmlDeclaration
    refine .after fun _ => .after fun _ => .after fun _ => .after fun _ => .after fun _ => ?_
    -- the parts after the version may be missing, which leaves the end of the declaration
    have hend : CarriesAhead more k (do dropSpaces; text "?>") (do dropSpaces; text "?>") id :=
      CarriedAhead.carriesAhead
    have halone : CarriesAhead more k
        (do if ← sees "standalone" then declarationPart
            dropSpaces
            text "?>")
        (do if ← sees "standalone" then declarationPart
            dropSpaces
            text "?>") id :=
      .after fun _ => .ite (.after fun _ => hend) hend
    exact .after fun _ => .after fun _ => .ite (.after fun _ => .after fun _ => halone) halone

instance : Forward xmlDeclaration := by
  have hcarries : CarriesAhead [] 0 xmlDeclaration xmlDeclaration id := CarriedAhead.carriesAhead
  exact hcarries.forward

instance : Forward misc := by
  unfold misc
  infer_instance

/-- Comments and instructions are read again.  What follows may be one more, so
where none was found the text must not have ended. -/
theorem misc_carries {c c' : Cursor} {t : Option Token} (hc : c.Fits) (h : misc c = .ok (t, c'))
    (hahead : t.isSome = true ∨ c'.rest ≠ []) :
    misc (c.continued more k) = .ok (t.map (Token.shift k), c'.continued more k) := by
  obtain ⟨_, d, h₁, h₂⟩ := bind_eq_ok.1 h
  have hd : d.Fits := fits_of_forward hc h₁
  have hspaces : dropSpaces (c.continued more k) = .ok ((), d.continued more k) :=
    Carried.carries c _ d hc h₁
  refine bind_eq_ok.2 ⟨(), _, hspaces, ?_⟩
  have hne : d.rest ≠ [] := by
    intro hnil
    obtain ⟨rest, mark⟩ := d
    cases hnil
    cases h₂
    exact hahead.elim nofun fun hne => hne rfl
  obtain ⟨_, d₁, h₃, h₄⟩ := bind_eq_ok.1 h₂
  cases h₃
  refine bind_eq_ok.2 ⟨_, _, rfl, ?_⟩
  rw [Cursor.sees_continued (by decide) hne]
  have hfound : ∀ {p : Lexer Token} [Forward p], CarriesToken more k p p →
      Carries more k (do return some (← p)) (do return some (← p)) (Option.map (Token.shift k)) :=
    fun hp => hp.bind fun token => .pure rfl
  generalize d.sees "<!--" = isComment at h₄ ⊢
  cases isComment with
  | true => exact hfound comment_carries d t c' hd h₄
  | false =>
    obtain ⟨_, d₂, h₅, h₆⟩ := bind_eq_ok.1 h₄
    cases h₅
    refine bind_eq_ok.2 ⟨_, _, rfl, ?_⟩
    rw [Cursor.sees_continued (by decide) hne]
    generalize d.sees "<?" = isInstruction at h₆ ⊢
    cases isInstruction with
    | true => exact hfound instruction_carries d t c' hd h₆
    | false =>
      cases h₆
      rfl

end Lexer

/-! ## §3. Builders -/

theorem Cursor.rest_ne_nil_of_sees {c : Cursor} {word : String} (hword : word.toList ≠ [])
    (h : c.sees word = true) : c.rest ≠ [] :=
  fun hnil => hword (List.prefix_nil.1 (hnil ▸ List.isPrefixOf_iff_prefix.1 h))

/-- The text of an entity that the item declares lies in front of the end. -/
def DoctypeItem.Fits : DoctypeItem → Prop
  | entity e => e.value.Fits
  | _ => True

theorem Lexer.fits_of_doctypeItem {start : Mark} {c c' : Cursor} {item : DoctypeItem} (hc : c.Fits)
    (h : doctypeItem start c = .ok (item, c')) : item.Fits := by
  obtain ⟨source, hlies, hstart⟩ := hc.liesIn start
  have hread := doctypeItem_reads hstart c hlies
  rw [h] at hread
  cases item with
  | entity e => exact Cursor.LiesIn.fits hread.1
  | _ => exact trivial

namespace Builder

variable {b b' : Builder} {cursor cursor' : Cursor} {more : List Char} {k : Nat} [Further more]

theorem Grown.takeItem {item : DoctypeItem} (hitem : item.Fits) (h : Grown k b b') :
    Grown k (b.takeItem item) (b'.takeItem (item.shift k)) := by
  cases item with
  | entity e =>
    obtain ⟨hfits, rfl⟩ := h
    refine ⟨?_, ?_⟩
    · intro x hx
      rcases List.mem_append.1 hx with hx | hx
      · exact hfits x hx
      · rw [List.mem_singleton.1 hx]
        exact hitem
    · unfold Builder.takeItem shift DoctypeItem.shift
      dsimp only
      rw [List.map_append]
      rfl
  | node token =>
    cases token with
    | comment content => exact h.add
    | instruction target content => exact h.add
    | _ => exact h
  | skipped => exact h
  | final => exact h

/-- What stands in front of the element is passed, and there is no element in it. -/
def Passes (cursor : Cursor) (b : Builder) (r : Builder × Cursor) : Prop :=
  r.1.hasElement = b.hasElement ∧ ∃ n, r.2 = cursor.advance n

theorem Passes.trans {r r' : Builder × Cursor} (h : Passes cursor b r) (h' : Passes r.2 r.1 r') :
    Passes cursor b r' := by
  obtain ⟨helement, m, hm⟩ := h
  obtain ⟨helement', n, hn⟩ := h'
  exact ⟨helement'.trans helement, m + n, by rw [hn, hm, Cursor.advance_advance]⟩

/-- What is left to read was there before. -/
theorem Passes.rest_ne_nil {r : Builder × Cursor} (h : Passes cursor b r) (hne : r.2.rest ≠ []) :
    cursor.rest ≠ [] := by
  obtain ⟨-, n, hn⟩ := h
  intro hnil
  rw [hn, Cursor.rest_advance, hnil, List.drop_nil] at hne
  exact hne rfl

theorem Passes.fits {r : Builder × Cursor} (h : Passes cursor b r) (hcursor : cursor.Fits) :
    r.2.Fits := by
  obtain ⟨-, n, hn⟩ := h
  rw [hn]
  exact hcursor.advance n

theorem passes_takeItem (item : DoctypeItem) {n : Nat} :
    Passes cursor b (b.takeItem item, cursor.advance n) := by
  refine ⟨?_, n, rfl⟩
  cases item with
  | node token => exact (sameOutline_takeItem token).hasElement
  | _ => rfl

theorem readMisc_passes : Ensures (b.readMisc cursor) (Passes cursor b) fun _ => True := by
  fun_induction Builder.readMisc cursor b with
  | case1 cursor b e hmisc => exact trivial
  | case2 cursor b cursor' hmisc => exact ⟨rfl, Lexer.Forward.moves hmisc⟩
  | case3 cursor b token cursor' hmisc ih =>
    obtain ⟨n, rfl⟩ := Lexer.Forward.moves hmisc
    exact ih.mono fun r hr => (passes_takeItem _).trans hr

theorem readItems_passes {start : Mark} :
    Ensures (b.readItems start cursor) (Passes cursor b) fun _ => True := by
  fun_induction Builder.readItems start cursor b with
  | case1 cursor b hend => exact ⟨rfl, 0, rfl⟩
  | case2 cursor b hmore e hitem => exact trivial
  | case3 cursor b hmore cursor' hitem => exact ⟨rfl, Lexer.Forward.moves hitem⟩
  | case4 cursor b hmore item cursor' hfinal hitem ih =>
    obtain ⟨n, rfl⟩ := Lexer.Forward.moves hitem
    exact ih.mono fun r hr => (passes_takeItem _).trans hr

theorem readDoctype_passes : Ensures (b.readDoctype cursor) (Passes cursor b) fun _ => True := by
  unfold readDoctype
  cases hhead : Lexer.doctypeHead cursor with
  | error e => exact trivial
  | ok head =>
    obtain ⟨bracketed, inside⟩ := head
    have hinside : Passes cursor b (b, inside) := ⟨rfl, Lexer.Forward.moves hhead⟩
    cases bracketed with
    | true => exact readItems_passes.mono fun r hr => hinside.trans hr
    | false => exact hinside

/-- The second run, in a text that goes on, comes to the same place with a grown
builder. -/
def Keeps (more : List Char) (k : Nat) (run : Except SyntaxError (Builder × Cursor))
    (r : Builder × Cursor) : Prop :=
  ∃ grown, Grown k r.1 grown ∧ run = .ok (grown, r.2.continued more k)

/-- The comment or instruction that comes next comes next in the text that goes on. -/
theorem readMisc_continued {more : List Char} {k : Nat} [Further more] {token : Token}
    (hcursor : cursor.Fits) (hmisc : Lexer.misc cursor = .ok (some token, cursor')) :
    b.readMisc (cursor.continued more k)
      = (b.takeItem (.node (token.shift k))).readMisc (cursor'.continued more k) := by
  rw [readMisc_eq, Lexer.misc_carries hcursor hmisc (.inl rfl)]
  rfl

/-- Comments and instructions in front of the element. -/
theorem readMisc_keeps (hcursor : cursor.Fits) (h : Grown k b b') :
    ∀ r, b.readMisc cursor = .ok r → r.2.rest ≠ [] →
      Keeps more k (b'.readMisc (cursor.continued more k)) r := by
  fun_induction Builder.readMisc cursor b generalizing b' with
  | case1 cursor b e hmisc =>
    intro r hr
    cases hr
  | case2 cursor b cursor' hmisc =>
    intro r hr hne
    cases hr
    refine ⟨b', h, ?_⟩
    rw [readMisc_eq, Lexer.misc_carries hcursor hmisc (.inr hne)]
    rfl
  | case3 cursor b token cursor' hmisc ih =>
    rw [readMisc_continued hcursor hmisc]
    exact ih (Lexer.fits_of_forward hcursor hmisc) (h.takeItem trivial)

/-- **The items of a document type** in a text that goes on. -/
theorem readItems_keeps {start start' : Mark} (hcursor : cursor.Fits) (h : Grown k b b') :
    ∀ r, b.readItems start cursor = .ok r → r.2.rest ≠ [] →
      Keeps more k (b'.readItems start' (cursor.continued more k)) r := by
  have hcarries : Lexer.CarriesAhead more k (Lexer.doctypeItem start) (Lexer.doctypeItem start') _ :=
    Lexer.doctypeItem_carries start start'
  fun_induction Builder.readItems start cursor b generalizing b' with
  | case1 cursor b hend =>
    intro r hr hne
    cases hr
    exact absurd (List.isEmpty_iff.1 hend) hne
  | case2 cursor b hmore e hitem =>
    intro r hr
    cases hr
  | case3 cursor b hmore cursor' hitem =>
    intro r hr hne
    cases hr
    refine ⟨b', h, ?_⟩
    rw [readItems_eq (Cursor.rest_continued_ne_nil (mt List.isEmpty_iff.2 hmore)),
      hcarries.carries cursor _ cursor' hcursor hitem hne]
    rfl
  | case4 cursor b hmore item cursor' hfinal hitem ih =>
    intro r hr hne
    have hpasses : Ensures ((b.takeItem item).readItems start cursor') _ _ := readItems_passes
    rw [hr] at hpasses
    have hread : b'.readItems start' (cursor.continued more k)
        = (b'.takeItem (item.shift k)).readItems start' (cursor'.continued more k) := by
      rw [readItems_eq (Cursor.rest_continued_ne_nil (mt List.isEmpty_iff.2 hmore)),
        hcarries.carries cursor _ cursor' hcursor hitem (hpasses.rest_ne_nil hne)]
      cases item with
      | final => exact absurd rfl hfinal
      | entity e => rfl
      | node token => rfl
      | skipped => rfl
    rw [hread]
    exact ih (Lexer.fits_of_forward hcursor hitem)
      (h.takeItem (Lexer.fits_of_doctypeItem hcursor hitem)) r hr hne

theorem readDoctype_keeps (hcursor : cursor.Fits) (h : Grown k b b') :
    ∀ r, b.readDoctype cursor = .ok r → r.2.rest ≠ [] →
      Keeps more k (b'.readDoctype (cursor.continued more k)) r := by
  intro r hr hne
  obtain ⟨⟨bracketed, inside⟩, hhead, hr⟩ := bind_ok_iff.1 hr
  have hhead' : inside.rest ≠ [] → Lexer.doctypeHead (cursor.continued more k)
      = .ok (bracketed, inside.continued more k) :=
    Lexer.CarriedAhead.carriesAhead.carries cursor bracketed inside hcursor hhead
  cases bracketed with
  | false =>
    cases hr
    exact ⟨b', h, bind_ok_iff.2 ⟨_, hhead' hne, rfl⟩⟩
  | true =>
    have hpasses : Ensures (b.readItems cursor.mark inside) _ _ := readItems_passes
    rw [show b.readItems cursor.mark inside = .ok r from hr] at hpasses
    have hinside : inside.Fits := Lexer.fits_of_forward hcursor hhead
    obtain ⟨grown, hgrown, hread⟩ : Keeps more k (b'.readItems (cursor.mark + k) _) r :=
      readItems_keeps hinside h r hr hne
    exact ⟨grown, hgrown, bind_ok_iff.2 ⟨_, hhead' (hpasses.rest_ne_nil hne), hread⟩⟩

end Builder

namespace Document

variable {c : Cursor} {more : List Char} {k : Nat}

theorem skipByteOrderMark_continued (hc : c.Fits) (hne : c.rest ≠ []) :
    skipByteOrderMark (c.continued more k) = (skipByteOrderMark c).continued more k := by
  unfold skipByteOrderMark
  rw [Cursor.rest_continued, head?_append_of_ne_nil hne]
  split
  · exact Cursor.advance_continued hc (List.length_pos_iff.2 hne)
  · rfl

theorem skipByteOrderMark_passes : Builder.Passes c {} ({}, skipByteOrderMark c) := by
  refine ⟨rfl, ?_⟩
  unfold skipByteOrderMark
  split
  · exact ⟨1, rfl⟩
  · exact ⟨0, rfl⟩

theorem skipDeclaration_passes :
    Ensures (skipDeclaration c) (fun c' => Builder.Passes c {} ({}, c')) fun _ => True := by
  unfold skipDeclaration
  split
  · cases hread : Lexer.xmlDeclaration c with
    | error e => exact trivial
    | ok r => exact ⟨rfl, Lexer.Forward.moves hread⟩
  · exact ⟨rfl, 0, rfl⟩

theorem readProlog_passes : Ensures (readProlog c) (Builder.Passes c {}) fun _ => True := by
  unfold readProlog
  refine skipDeclaration_passes.bind fun c₁ hc₁ => ?_
  refine Builder.readMisc_passes.bind fun r hr => ?_
  obtain ⟨b₂, c₂⟩ := r
  dsimp only
  have hmisc : Builder.Passes c {} (b₂, c₂) := (skipByteOrderMark_passes.trans hc₁).trans hr
  have hspaces : Builder.Passes c {} (b₂, c₂.dropSpaces) := hmisc.trans ⟨rfl, _, rfl⟩
  split
  · refine Builder.readDoctype_passes.bind fun r hr => ?_
    exact Builder.readMisc_passes.mono fun r' hr' => (hspaces.trans hr).trans hr'
  · exact hmisc

variable [Further more]

theorem skipDeclaration_continued {c' : Cursor} (hc : c.Fits) (h : skipDeclaration c = .ok c')
    (hne : c'.rest ≠ []) : skipDeclaration (c.continued more k) = .ok (c'.continued more k) := by
  have hpasses : Ensures (skipDeclaration c) _ _ := skipDeclaration_passes
  rw [h] at hpasses
  unfold skipDeclaration at h ⊢
  rw [Cursor.sees_continued (by decide) (hpasses.rest_ne_nil hne)]
  by_cases hsees : c.sees "<?xml " = true
  · rw [if_pos hsees] at h ⊢
    obtain ⟨r, hread, h⟩ := bind_ok_iff.1 h
    cases h
    exact bind_ok_iff.2 ⟨_, Lexer.CarriedAhead.carriesAhead.carries c r.1 r.2 hc hread hne, rfl⟩
  · rw [if_neg hsees] at h ⊢
    cases h
    rfl

/-- What stands in front of a document type in a text that goes on. -/
theorem front_keeps (more : List Char) (k : Nat) [Further more] {c₁ : Cursor}
    {r : Builder × Cursor} (hc : c.Fits)
    (hskip : skipDeclaration (skipByteOrderMark c) = .ok c₁)
    (hmisc : Builder.readMisc c₁ {} = .ok r) (hne : r.2.rest ≠ []) :
    r.2.Fits ∧
      skipDeclaration (skipByteOrderMark (c.continued more k)) = .ok (c₁.continued more k) ∧
      Builder.Keeps more k (Builder.readMisc (c₁.continued more k) {}) r := by
  have hmark : Builder.Passes c {} ({}, skipByteOrderMark c) := skipByteOrderMark_passes
  have hpasses : Ensures (skipDeclaration (skipByteOrderMark c)) _ _ := skipDeclaration_passes
  have hpasses' : Ensures (Builder.readMisc c₁ {}) _ _ := Builder.readMisc_passes
  rw [hskip] at hpasses
  rw [hmisc] at hpasses'
  have hne₁ : c₁.rest ≠ [] := hpasses'.rest_ne_nil hne
  have hfits₁ : c₁.Fits := (hmark.trans hpasses).fits hc
  refine ⟨hpasses'.fits hfits₁, ?_, ?_⟩
  · rw [skipByteOrderMark_continued hc ((hmark.trans hpasses).rest_ne_nil hne₁)]
    exact skipDeclaration_continued (hmark.fits hc) hskip hne₁
  · have hempty : Builder.Grown k {} {} := ⟨nofun, rfl⟩
    exact Builder.readMisc_keeps hfits₁ hempty r hmisc hne

/-- **What stands in front of the element** in a text that goes on. -/
theorem readProlog_keeps (hc : c.Fits) {r : Builder × Cursor} (hr : readProlog c = .ok r)
    (hne : r.2.dropSpaces.rest ≠ []) : Builder.Keeps more k (readProlog (c.continued more k)) r := by
  -- the end is reached nowhere in front of white space behind which something stands
  have hspaces : ∀ {c : Cursor}, c.dropSpaces.rest ≠ [] → c.rest ≠ [] := fun {c} hne =>
    Builder.Passes.rest_ne_nil (show Builder.Passes c {} ({}, c.dropSpaces) from ⟨rfl, _, rfl⟩) hne
  obtain ⟨c₁, hskip, hr⟩ := bind_ok_iff.1 hr
  obtain ⟨⟨b₂, c₂⟩, hmisc, hr⟩ := bind_ok_iff.1 hr
  dsimp only at hr
  by_cases hsees : c₂.dropSpaces.sees "<!DOCTYPE" = true
  · rw [if_pos hsees] at hr
    obtain ⟨⟨b₃, c₃⟩, hdoctype, hr⟩ := bind_ok_iff.1 hr
    have hne₂ := Cursor.rest_ne_nil_of_sees (by decide) hsees
    obtain ⟨hfits₂, hskip', grown₂, hgrown₂, hmisc'⟩ :=
      front_keeps more k hc hskip hmisc (hspaces hne₂)
    have hpasses₃ : Ensures (b₂.readDoctype c₂.dropSpaces) _ _ := Builder.readDoctype_passes
    have hpasses : Ensures (b₃.readMisc c₃) _ _ := Builder.readMisc_passes
    rw [hdoctype] at hpasses₃
    rw [show b₃.readMisc c₃ = .ok r from hr] at hpasses
    have hfits : c₂.dropSpaces.Fits := hfits₂.advance _
    obtain ⟨grown₃, hgrown₃, hdoctype'⟩ : Builder.Keeps more k _ _ :=
      Builder.readDoctype_keeps hfits hgrown₂ _ hdoctype (hpasses.rest_ne_nil (hspaces hne))
    obtain ⟨grown, hgrown, hmisc''⟩ : Builder.Keeps more k _ _ :=
      Builder.readMisc_keeps (hpasses₃.fits hfits) hgrown₃ r hr (hspaces hne)
    refine ⟨grown, hgrown, bind_ok_iff.2 ⟨_, hskip', bind_ok_iff.2 ⟨_, hmisc', ?_⟩⟩⟩
    dsimp only
    rw [Cursor.dropSpaces_continued hfits₂, Cursor.sees_continued (by decide) hne₂, if_pos hsees]
    exact bind_ok_iff.2 ⟨_, hdoctype', hmisc''⟩
  · rw [if_neg hsees] at hr
    cases hr
    obtain ⟨hfits₂, hskip', grown₂, hgrown₂, hmisc'⟩ :=
      front_keeps more k hc hskip hmisc (hspaces hne)
    refine ⟨grown₂, hgrown₂, bind_ok_iff.2 ⟨_, hskip', bind_ok_iff.2 ⟨_, hmisc', ?_⟩⟩⟩
    dsimp only
    rw [Cursor.dropSpaces_continued hfits₂, Cursor.sees_continued (by decide) hne, if_neg hsees]
    rfl

end Document

end TemplateLint
