/-
  TemplateLint.Proofs.Injection — what the injected document type does.

  Reading a source behind the injected document type is reading the source
  alone, with two entities declared (`readProlog_injected`).  Their texts are
  idle, so the invariants of reading hold for the source as written, whether
  or not something was put in front of it (`Template.document_ensures`), and
  a place in the source keeps its column and moves by whole lines only
  (`Position.ofMark_append`).
-/
import TemplateLint.Proofs.Markup.Document
import TemplateLint.Proofs.Markup.Entities
import TemplateLint.Template

namespace TemplateLint

/-! ## §1. Declarations are read as they are written -/

theorem Cursor.advance_append (xs ys : List Char) (n : Nat) :
    Cursor.advance xs.length ⟨xs ++ ys, n + xs.length⟩ = ⟨ys, n⟩ := by
  induction xs with
  | nil => rfl
  | cons x xs ih => exact ih

namespace Lexer

variable {n : Nat} {c : Char} {cs : List Char}

theorem text_append (word : String) :
    text word ⟨word.toList ++ cs, n + word.toList.length⟩ = .ok ((), ⟨cs, n⟩) := by
  have hsees : Cursor.sees ⟨word.toList ++ cs, n + word.toList.length⟩ word = true :=
    List.isPrefixOf_iff_prefix.2 (List.prefix_append _ _)
  refine bind_eq_ok.2 ⟨true, ⟨word.toList ++ cs, n + word.toList.length⟩, ?_, ?_⟩
  · rw [← hsees]
    rfl
  · show Except.ok ((), Cursor.advance word.length _) = _
    rw [← String.length_toList, Cursor.advance_append]

theorem spaces_cons (hc : isSpace c = false) :
    spaces ⟨' ' :: c :: cs, n + 1⟩ = .ok ((), ⟨c :: cs, n⟩) := by
  have hrun : (' ' :: c :: cs).takeWhile isSpace = [' '] := by
    rw [List.takeWhile_cons_of_pos (by decide), List.takeWhile_cons_of_neg (by simp [hc])]
  show Except.ok ((), Cursor.advance ((' ' :: c :: cs).takeWhile isSpace).length _) = _
  rw [hrun]
  rfl

theorem takeWhile_append {p : Char → Bool} {xs : List Char} (hxs : xs.all p = true)
    (hc : p c = false) :
    takeWhile p ⟨xs ++ c :: cs, n + xs.length⟩ = .ok (xs, ⟨c :: cs, n⟩) := by
  have hrun : (xs ++ c :: cs).takeWhile p = xs := by
    rw [List.takeWhile_append_of_pos (List.all_eq_true.1 hxs),
      List.takeWhile_cons_of_neg (by simp [hc]), List.append_nil]
  show Except.ok ((xs ++ c :: cs).takeWhile p, Cursor.advance _ _) = _
  rw [hrun, Cursor.advance_append]

theorem name_append {xs : List Char} (hstart : xs.head?.any isNameStart = true)
    (hxs : xs.all isNameChar = true) (hc : isNameChar c = false) :
    name ⟨xs ++ c :: cs, n + xs.length⟩ = .ok (String.ofList xs, ⟨c :: cs, n⟩) := by
  have hhead : (xs ++ c :: cs).head?.any isNameStart = true := by
    cases xs with
    | nil => cases hstart
    | cons x xs => exact hstart
  refine bind_eq_ok.2 ⟨xs ++ c :: cs, ⟨xs ++ c :: cs, n + xs.length⟩, rfl, ?_⟩
  rw [hhead]
  refine bind_eq_ok.2 ⟨(), ⟨xs ++ c :: cs, n + xs.length⟩, rfl, ?_⟩
  exact bind_eq_ok.2 ⟨xs, ⟨c :: cs, n⟩, takeWhile_append hxs hc, rfl⟩

theorem quotedText_append {xs : List Char} (hxs : '\'' ∉ xs) :
    quotedText ⟨'\'' :: (xs ++ '\'' :: cs), n + 2 + xs.length⟩
      = .ok (⟨xs, n + 1 + xs.length⟩, ⟨cs, n⟩) := by
  have hmark : n + 2 + xs.length - 1 = n + 1 + xs.length := by omega
  refine bind_eq_ok.2 ⟨'\'', ⟨xs ++ '\'' :: cs, n + 1 + xs.length⟩, ?_, ?_⟩
  · rw [← hmark]
    rfl
  · refine bind_eq_ok.2 ⟨n + 1 + xs.length, ⟨xs ++ '\'' :: cs, n + 1 + xs.length⟩, rfl, ?_⟩
    have hall : xs.all (· != '\'') = true := by
      rw [List.all_eq_true]
      intro x hx
      exact bne_iff_ne.2 fun h => hxs (h ▸ hx)
    exact bind_eq_ok.2 ⟨xs, ⟨'\'' :: cs, n + 1⟩, takeWhile_append hall (by decide), rfl⟩

theorem not_isSpace_of_isNameStart {a : Char} (h : isNameStart a = true) : isSpace a = false := by
  by_cases hspace : isSpace a = true
  · simp only [isSpace, Bool.or_eq_true, beq_iff_eq] at hspace
    rcases hspace with ((rfl | rfl) | rfl) | rfl
    · exact absurd h (by decide)
    · exact absurd h (by decide)
    · exact absurd h (by decide)
    · exact absurd h (by decide)
  · exact Bool.eq_false_iff.2 hspace

theorem entityHead_written {entity : List Char} (hstart : entity.head?.any isNameStart = true)
    (hentity : entity.all isNameChar = true) (hc : isSpace c = false) :
    entityHead ⟨' ' :: (entity ++ ' ' :: c :: cs), n + 1 + entity.length + 1⟩
      = .ok ((false, String.ofList entity), ⟨c :: cs, n⟩) := by
  obtain ⟨a, as, rfl⟩ : ∃ a as, entity = a :: as := by
    cases entity with
    | nil => cases hstart
    | cons a as => exact ⟨a, as, rfl⟩
  have ha : isNameStart a = true := hstart
  -- a name does not begin with the mark of a parameter entity
  have hpercent : (a == '%') = false := by
    refine Bool.eq_false_iff.2 fun h => ?_
    rw [eq_of_beq h] at ha
    exact absurd ha (by decide)
  have hmark : parameterMark ⟨(a :: as) ++ ' ' :: c :: cs, n + 1 + (a :: as).length⟩
      = .ok (false, ⟨(a :: as) ++ ' ' :: c :: cs, n + 1 + (a :: as).length⟩) := by
    have hsees : Cursor.sees ⟨(a :: as) ++ ' ' :: c :: cs, n + 1 + (a :: as).length⟩ "%"
        = false := by
      show (('%' == a) && _) = false
      rw [BEq.comm, hpercent, Bool.false_and]
    refine bind_eq_ok.2 ⟨false, ⟨(a :: as) ++ ' ' :: c :: cs, n + 1 + (a :: as).length⟩, ?_, rfl⟩
    rw [← hsees]
    rfl
  refine bind_eq_ok.2 ⟨(), _, spaces_cons (not_isSpace_of_isNameStart ha), ?_⟩
  refine bind_eq_ok.2 ⟨false, _, hmark, ?_⟩
  refine bind_eq_ok.2 ⟨String.ofList (a :: as), _, name_append hstart hentity (by decide), ?_⟩
  exact bind_eq_ok.2 ⟨(), _, spaces_cons hc, rfl⟩

/-- A declaration `<!ENTITY name 'value'>` declares what it says. -/
theorem entityDeclaration_written {entity value : List Char}
    (hstart : entity.head?.any isNameStart = true) (hentity : entity.all isNameChar = true)
    (hvalue : '\'' ∉ value) :
    entityDeclaration ⟨"<!ENTITY".toList ++ ' ' :: (entity ++ ' ' :: '\'' ::
        (value ++ '\'' :: '>' :: cs)), n + 3 + value.length + 1 + entity.length + 1 + 8⟩
      = .ok (.entity ⟨String.ofList entity, ⟨value, n + 2 + value.length⟩⟩, ⟨cs, n⟩) := by
  have hdefinition : entityDefinition false
      ⟨'\'' :: (value ++ '\'' :: '>' :: cs), n + 1 + 2 + value.length⟩
      = .ok (some ⟨value, n + 1 + 1 + value.length⟩, ⟨'>' :: cs, n + 1⟩) := by
    refine bind_eq_ok.2
      ⟨'\'', ⟨'\'' :: (value ++ '\'' :: '>' :: cs), n + 1 + 2 + value.length⟩, rfl, ?_⟩
    exact bind_eq_ok.2 ⟨_, _, quotedText_append hvalue, rfl⟩
  refine bind_eq_ok.2 ⟨(), _, text_append "<!ENTITY", ?_⟩
  refine bind_eq_ok.2
    ⟨(false, String.ofList entity), _, entityHead_written hstart hentity (by decide), ?_⟩
  exact bind_eq_ok.2 ⟨_, _, hdefinition, rfl⟩

/-- White space in front of an item of a document type is skipped. -/
theorem doctypeItem_lineEnd {start : Mark} :
    doctypeItem start ⟨'\n' :: cs, n + 1⟩ = doctypeItem start ⟨cs, n⟩ := by
  rfl

theorem doctypeItem_entity {start : Mark} :
    doctypeItem start ⟨"<!ENTITY".toList ++ cs, n⟩ = entityDeclaration ⟨"<!ENTITY".toList ++ cs, n⟩ := by
  rfl

theorem doctypeItem_end {start : Mark} :
    doctypeItem start ⟨']' :: '>' :: cs, n + 2⟩ = .ok (.final, ⟨cs, n⟩) := by
  rfl

/-- White space in front of a comment or a processing instruction is skipped. -/
theorem misc_lineEnd : misc ⟨'\n' :: cs, n + 1⟩ = misc ⟨cs, n⟩ := by
  rfl

/-- The start of the injected document type, up to its bracket. -/
theorem doctypeHead_html :
    doctypeHead ⟨"<!DOCTYPE".toList ++ ' ' :: ("html".toList ++ ' ' :: '[' :: cs), n + 2 + 4 + 1 + 9⟩
      = .ok (true, ⟨cs, n⟩) := by
  have hname : nameUnlessEnd ⟨"html".toList ++ ' ' :: '[' :: cs, n + 2 + 4⟩
      = .ok ((), ⟨' ' :: '[' :: cs, n + 2⟩) := by
    refine bind_eq_ok.2 ⟨_, _, rfl, ?_⟩
    exact bind_eq_ok.2 ⟨_, _, name_append (by decide) (by decide) (by decide), rfl⟩
  refine bind_eq_ok.2 ⟨(), _, text_append "<!DOCTYPE", ?_⟩
  refine bind_eq_ok.2 ⟨(), _, spaces_cons (by decide), ?_⟩
  exact bind_eq_ok.2 ⟨(), _, hname, rfl⟩

end Lexer

/-! ## §2. Reading the injected document type -/

/-- The entities that the injected document type declares, in front of a
source of `n` characters. -/
def injectedEntities (n : Nat) : List Entity :=
  [⟨"nbsp", ⟨"no-break space".toList, n + 57⟩⟩, ⟨"times", ⟨"multiplication sign".toList, n + 24⟩⟩]

/-- The injected document type in its parts: the head, two declarations, the
closing bracket and a line end. -/
theorem injectedDoctype_append (source : List Char) :
    injectedDoctype.toList ++ source = "<!DOCTYPE".toList ++ ' ' :: ("html".toList ++ ' ' :: '[' ::
      ("<!ENTITY".toList ++ ' ' :: ("nbsp".toList ++ ' ' :: '\'' ::
        ("no-break space".toList ++ '\'' :: '>' ::
      ('\n' :: ("<!ENTITY".toList ++ ' ' :: ("times".toList ++ ' ' :: '\'' ::
        ("multiplication sign".toList ++ '\'' :: '>' ::
      (']' :: '>' :: '\n' :: source))))))))) := by
  have hparts : injectedDoctype.toList = "<!DOCTYPE".toList ++ ' ' :: ("html".toList ++ ' ' :: '[' ::
      ("<!ENTITY".toList ++ ' ' :: ("nbsp".toList ++ ' ' :: '\'' ::
        ("no-break space".toList ++ '\'' :: '>' ::
      ('\n' :: ("<!ENTITY".toList ++ ' ' :: ("times".toList ++ ' ' :: '\'' ::
        ("multiplication sign".toList ++ '\'' :: '>' ::
      [']', '>', '\n']))))))))  := by
    decide +kernel
  rw [hparts]
  simp only [List.append_assoc, List.cons_append, List.nil_append]

namespace Builder

variable {b : Builder} {start : Mark} {c : Cursor}

theorem readItems_eq (hne : c.rest ≠ []) :
    b.readItems start c = match Lexer.doctypeItem start c with
      | .error e => .error e
      | .ok (.final, c') => .ok (b, c')
      | .ok (item, c') => (b.takeItem item).readItems start c' := by
  rw [Builder.readItems, if_neg (by simpa using hne)]
  split
  · next e he => rw [he]
  · next c₁ he => rw [he]
  · next item c₁ hfinal he =>
    rw [he]
    cases item with
    | final => exact absurd rfl hfinal
    | entity e => rfl
    | node token => rfl
    | skipped => rfl

theorem readItems_lineEnd {a : Char} {cs : List Char} {n : Nat} :
    b.readItems start ⟨'\n' :: a :: cs, n + 1⟩ = b.readItems start ⟨a :: cs, n⟩ := by
  rw [readItems_eq (by simp), Lexer.doctypeItem_lineEnd, ← readItems_eq (by simp)]

/-- A declared entity is added to those before it. -/
theorem readItems_entity {entity value cs : List Char} {n : Nat}
    (hstart : entity.head?.any isNameStart = true) (hentity : entity.all isNameChar = true)
    (hvalue : '\'' ∉ value) :
    b.readItems start ⟨"<!ENTITY".toList ++ ' ' :: (entity ++ ' ' :: '\'' ::
        (value ++ '\'' :: '>' :: cs)), n + 3 + value.length + 1 + entity.length + 1 + 8⟩
      = (b.takeItem (.entity ⟨String.ofList entity, ⟨value, n + 2 + value.length⟩⟩)).readItems
          start ⟨cs, n⟩ := by
  rw [readItems_eq (by simp), Lexer.doctypeItem_entity,
    Lexer.entityDeclaration_written hstart hentity hvalue]

theorem readItems_end {cs : List Char} {n : Nat} :
    b.readItems start ⟨']' :: '>' :: cs, n + 2⟩ = .ok (b, ⟨cs, n⟩) := by
  rw [readItems_eq (by simp), Lexer.doctypeItem_end]

/-- The two entities are declared, and the cursor is in front of the line end
that ends the injected document type. -/
theorem readDoctype_injected (source : List Char) :
    readDoctype (Cursor.ofText (injectedDoctype.toList ++ source)) {}
      = .ok ({ entities := injectedEntities source.length }, ⟨'\n' :: source, source.length + 1⟩) := by
  have hlength : (injectedDoctype.toList ++ source).length = source.length + 88 := by
    rw [List.length_append, show injectedDoctype.toList.length = 88 by rfl, Nat.add_comm]
  unfold readDoctype Cursor.ofText
  -- head, two entities and the closing bracket, each in front of all that follows it
  rw [hlength, injectedDoctype_append, Lexer.doctypeHead_html (n := source.length + 72)]
  show Builder.readItems _ _ _ = _
  refine (readItems_entity (n := source.length + 41) (by decide) (by decide) (by decide)).trans ?_
  refine (readItems_lineEnd (n := source.length + 40)).trans ?_
  refine (readItems_entity (n := source.length + 3) (by decide) (by decide) (by decide)).trans ?_
  exact readItems_end (n := source.length + 1)

end Builder

/-- **Reading behind the injected document type** is reading the source with
two entities declared. -/
theorem Document.readProlog_injected (source : List Char) :
    readProlog (Cursor.ofText (injectedDoctype.toList ++ source))
      = Builder.readMisc ⟨source, source.length⟩ { entities := injectedEntities source.length } := by
  have hfront : skipDeclaration (skipByteOrderMark (Cursor.ofText (injectedDoctype.toList ++ source)))
      = .ok (Cursor.ofText (injectedDoctype.toList ++ source)) := by
    rw [injectedDoctype_append]
    rfl
  have hmisc : Lexer.misc (Cursor.ofText (injectedDoctype.toList ++ source))
      = .ok (none, Cursor.ofText (injectedDoctype.toList ++ source)) := by
    rw [injectedDoctype_append]
    rfl
  have hspaces : (Cursor.ofText (injectedDoctype.toList ++ source)).dropSpaces
      = Cursor.ofText (injectedDoctype.toList ++ source) := by
    rw [injectedDoctype_append]
    rfl
  have hseen : (Cursor.ofText (injectedDoctype.toList ++ source)).sees "<!DOCTYPE" = true := by
    rw [injectedDoctype_append]
    rfl
  have hdoctype := Builder.readDoctype_injected source
  -- from here on only these facts about the text matter
  generalize Cursor.ofText (injectedDoctype.toList ++ source) = c at *
  unfold readProlog
  rw [hfront]
  show (Builder.readMisc c {} >>= _) = _
  rw [Builder.readMisc_eq, hmisc]
  show (if c.dropSpaces.sees "<!DOCTYPE" = true then _ else _) = _
  rw [hspaces, if_pos hseen, hdoctype]
  show Builder.readMisc ⟨'\n' :: source, source.length + 1⟩ _ = _
  rw [Builder.readMisc_eq, Lexer.misc_lineEnd, ← Builder.readMisc_eq]

/-! ## §3. Prepared templates keep to the file as written -/

theorem injectedEntities_usable {source : List Char} (n : Nat) :
    ∀ e ∈ injectedEntities n, e.value.IsUsable source := by
  intro e he
  simp only [injectedEntities, List.mem_cons, List.not_mem_nil, or_false] at he
  rcases he with rfl | rfl
  · exact .inr (show "no-break space".toList.all isIdleChar = true by decide)
  · exact .inr (show "multiplication sign".toList.all isIdleChar = true by decide)

/-- Behind the injected document type, all elements and errors are in the
source. -/
theorem Document.read_injected_ensures (source : List Char) :
    Ensures (Document.read (injectedDoctype.toList ++ source))
      (StandsIn source)
      (Rejection.Within source.length) := by
  have hcursor : (⟨source, source.length⟩ : Cursor).LiesIn source := Cursor.liesIn_ofText source
  have hbuilder : Builder.StandsIn source { entities := injectedEntities source.length } :=
    Builder.standsIn_ofEntities _ (injectedEntities_usable source.length)
  unfold Document.read
  rw [readProlog_injected]
  refine (Builder.readMisc_ensures hcursor hbuilder).malformed.bind fun r hr => ?_
  exact readBody_ensures hr.2 hr.1

/-- What preparing a template puts in front of its source. -/
def injectedPart (source : String) : String :=
  if hasDoctype source then "" else injectedDoctype

namespace Template

variable (path : Path) (source : String) (exclude : Option String)

theorem prepare_of_hasDoctype (h : hasDoctype source = true) :
    prepare path source exclude = { path, content := source, offset := 0, exclude } := by
  unfold prepare
  rw [if_pos h]

theorem prepare_of_not_hasDoctype (h : ¬ hasDoctype source = true) :
    prepare path source exclude
      = { path, content := injectedDoctype ++ source, offset := 2, exclude } := by
  have hoffset : injectedDoctype.toList.count '\n' = 2 := by decide +kernel
  unfold prepare
  rw [if_neg h, hoffset]

theorem prepare_path : (prepare path source exclude).path = path := by
  unfold prepare
  split <;> rfl

theorem prepare_content :
    (prepare path source exclude).content.toList
      = (injectedPart source).toList ++ source.toList := by
  unfold injectedPart
  by_cases h : hasDoctype source = true
  · rw [prepare_of_hasDoctype path source exclude h, if_pos h]
    rfl
  · rw [prepare_of_not_hasDoctype path source exclude h, if_neg h]
    exact String.toList_append

/-- **A prepared template keeps to the file as written.**  With or without an
injected document type, there is an element, every one begins at a `<` of the
source, and an error with a place is at a place of the source and quotes nothing
misleading. -/
theorem document_ensures :
    Ensures (prepare path source exclude).document
      (Document.StandsIn source.toList)
      (Rejection.Within source.toList.length) := by
  unfold Template.document
  by_cases h : hasDoctype source = true
  · rw [prepare_of_hasDoctype path source exclude h]
    exact Document.read_ensures source.toList
  · rw [prepare_of_not_hasDoctype path source exclude h]
    show Ensures (Document.read (injectedDoctype ++ source).toList) _ _
    rw [String.toList_append]
    exact Document.read_injected_ensures source.toList

end Template

/-! ## §4. Places behind the injected document type -/

namespace Position

/-- Whole lines in front of a text move its places down and nothing else. -/
theorem after_append (front before : List Char) :
    after (front ++ '\n' :: before)
      = ⟨(after before).row + (front.count '\n' + 1), (after before).column⟩ := by
  unfold after
  congr 1
  · show (front ++ '\n' :: before).count '\n' + 1
      = before.count '\n' + 1 + (front.count '\n' + 1)
    rw [List.count_append, List.count_cons_self]
    omega
  · -- the column counts back to a line end, at the latest the one in front of `before`
    have hstop : ∀ cs : List Char, (cs ++ '\n' :: front.reverse).takeWhile (· != '\n')
        = cs.takeWhile (· != '\n') := by
      intro cs
      induction cs with
      | nil => rfl
      | cons c cs ih =>
        rw [List.cons_append, List.takeWhile_cons, List.takeWhile_cons, ih]
    rw [List.reverse_append, List.reverse_cons, List.append_assoc]
    show ((before.reverse ++ '\n' :: front.reverse).takeWhile (· != '\n')).length + 1 = _
    rw [hstop]

/-- A mark of `text` with `front`, which ends a line, put before it. -/
theorem ofMark_append {front text : List Char} {mark : Nat} (hmark : mark ≤ text.length) :
    ofMark (front ++ '\n' :: text) mark
      = ⟨(ofMark text mark).row + (front.count '\n' + 1), (ofMark text mark).column⟩ := by
  have htake : (front ++ '\n' :: text).take ((front ++ '\n' :: text).length - mark)
      = front ++ '\n' :: text.take (text.length - mark) := by
    have hlength : (front ++ '\n' :: text).length - mark
        = front.length + ((text.length - mark) + 1) := by
      rw [List.length_append, List.length_cons]
      omega
    rw [hlength, List.take_length_add_append, List.take_succ_cons]
  unfold ofMark
  rw [htake, after_append]

end Position

/-- **No saturation.**  A place of the source has in the prepared text the row
that it has in the source, moved down by the injected lines, and the same
column. -/
theorem Template.ofMark_prepare (path : Path) (source : String) (exclude : Option String)
    {mark : Nat} (hmark : mark ≤ source.toList.length) :
    Position.ofMark (prepare path source exclude).content.toList mark
      = ⟨(prepare path source exclude).offset + (Position.ofMark source.toList mark).row,
        (Position.ofMark source.toList mark).column⟩ := by
  by_cases h : hasDoctype source = true
  · rw [prepare_of_hasDoctype path source exclude h, Nat.zero_add]
  · rw [prepare_of_not_hasDoctype path source exclude h]
    show Position.ofMark (injectedDoctype ++ source).toList mark = ⟨2 + _, _⟩
    obtain ⟨front, hfront, hcount⟩ : ∃ front, injectedDoctype.toList = front ++ ['\n'] ∧
        front.count '\n' = 1 := ⟨injectedDoctype.toList.dropLast, by decide +kernel, by decide +kernel⟩
    rw [String.toList_append, hfront, List.append_assoc, List.singleton_append,
      Position.ofMark_append hmark, hcount, Nat.add_comm]

end TemplateLint
