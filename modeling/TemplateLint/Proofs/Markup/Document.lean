/-
  TemplateLint.Proofs.Markup.Document — whole documents keep to their source.

  The parts around the element keep the contracts as well: the XML
  declaration, the document type with its entities, comments and processing
  instructions.  `readBody_ensures` and `readProlog_ensures` put them
  together: whatever is read from a source, every element begins at one of
  its `<`, and every error with a place is at one of its places.
-/
import TemplateLint.Proofs.Markup.Content

namespace TemplateLint

variable {source : List Char}

/-- There is an element in the document, and all elements begin at a `<` of the
source. -/
structure Document.StandsIn (source : List Char) (d : Document) : Prop where
  root : d.root?.isSome = true
  opens : ∀ e ∈ d.elements, OpensAt source e.tag.start

/-! ## §1. The items of a document type -/

/-- The text of a declared entity lies in the source. -/
def DoctypeItem.StandsIn (source : List Char) : DoctypeItem → Prop
  | entity e => e.value.LiesIn source
  | _ => True

namespace Lexer

instance : Careful source quotedNote := by
  unfold quotedNote
  infer_instance

instance : Careful source externalId := by
  have : Careful source (text "SYSTEM") := .text (by decide)
  have : Careful source (text "PUBLIC") := .text (by decide)
  unfold externalId
  infer_instance

instance : Careful source unparsedNote := by
  have : Careful source (text "NDATA") := .text (by decide)
  unfold unparsedNote
  infer_instance

instance : Careful source parameterMark := by
  have : Careful source (text "%") := .text (by decide)
  unfold parameterMark
  infer_instance

instance : Careful source entityHead := by
  unfold entityHead
  infer_instance

theorem entityDefinition_reads (parameter : Bool) :
    Reads source (entityDefinition parameter) fun value => ∀ v ∈ value, v.LiesIn source := by
  unfold entityDefinition
  refine .after fun c => .ite ?_ (.ite ?_ ?_)
  · refine quotedText_reads.bind fun value hvalue => .pure ?_
    intro v hv
    cases hv
    exact hvalue
  · -- an external entity has no text here
    refine .after fun _ => .after fun _ => .ite (.pure nofun) ?_
    exact .after fun _ => .pure nofun
  · exact .fail (show "a quote, SYSTEM or PUBLIC".toList.all isWording = true by decide)

theorem entityDeclaration_reads : Reads source entityDeclaration (DoctypeItem.StandsIn source) := by
  have : Careful source (text "<!ENTITY") := .text (by decide)
  unfold entityDeclaration
  refine .after fun _ => .after fun head => ?_
  refine (entityDefinition_reads head.1).bind fun value hvalue => ?_
  refine .after fun _ => .after fun _ => .pure ?_
  cases value with
  | none => exact trivial
  | some v => exact hvalue v rfl

theorem skippedDeclaration_reads {start : Mark} (hstart : start ≤ source.length) :
    Reads source (skippedDeclaration start) (DoctypeItem.StandsIn source) := by
  unfold skippedDeclaration
  refine .after fun _ => .after fun closed => .ite ?_ (.failAt hstart trivial)
  exact .after fun _ => .pure trivial

theorem doctypeEnd_reads : Reads source doctypeEnd (DoctypeItem.StandsIn source) := by
  have (holds : Bool) (c : Char) :
      Careful source (require holds (.expectedClass "'>'" c)) := .requireClass (by decide)
  unfold doctypeEnd
  refine .after fun _ => .after fun _ => .after fun c => .after fun _ => ?_
  exact .after fun _ => .pure trivial

/-- **The items of a document type** are read carefully, and their texts are
parts of the source. -/
theorem doctypeItem_reads {start : Mark} (hstart : start ≤ source.length) :
    Reads source (doctypeItem start) (DoctypeItem.StandsIn source) := by
  unfold doctypeItem
  refine .after fun _ => .after fun _ => .ite entityDeclaration_reads ?_
  refine .after fun _ => .ite (comment_reads.bind fun _ _ => .pure trivial) ?_
  refine .after fun _ => .ite (instruction_reads.bind fun _ _ => .pure trivial) ?_
  refine .after fun _ => .ite doctypeEnd_reads ?_
  refine .after fun _ => .after fun _ => .after fun _ => ?_
  exact .ite (skippedDeclaration_reads hstart) (.fail trivial)

instance : Careful source doctypeHead := by
  have : Careful source (text "<!DOCTYPE") := .text (by decide)
  have (holds : Bool) (c : Char) :
      Careful source (require holds (.expectedClass "'[' or '>'" c)) := .requireClass (by decide)
  unfold doctypeHead
  refine ⟨.after fun _ => .after fun _ => .after fun _ => .after fun _ => .after fun _ => ?_⟩
  exact .after fun _ => .after fun c => .after fun _ => .after fun _ => .pure trivial

/-! ## §2. The XML declaration, comments and processing instructions -/

instance : Careful source declarationSpace := by
  unfold declarationSpace
  have (cs : List Char) : Careful source (match cs with
      | [] => return ()
      | c :: _ => do
        let ending ← sees "?>"
        require (isSpace c || ending) (.expectedClass "a whitespace" c)
        dropSpaces : Lexer Unit) := by
    cases cs <;> infer_instance
  infer_instance

instance : Careful source declarationPart := by
  unfold declarationPart
  infer_instance

instance : Careful source xmlDeclaration := by
  have : Careful source (text "<?xml") := .text (by decide)
  have : Careful source (text "?>") := .text (by decide)
  have (holds : Bool) : Careful source (require holds (.expectedText "version")) :=
    .require (show "version".toList.all isWording = true by decide)
  unfold xmlDeclaration
  refine ⟨.after fun _ => .after fun _ => .after fun _ => .after fun _ => .after fun _ => ?_⟩
  -- the parts after the version may be missing, which leaves the end of the declaration
  have hend : Reads source (do dropSpaces; text "?>") fun _ => True := Careful.reads
  have halone : Reads source (do
      if ← sees "standalone" then declarationPart
      dropSpaces
      text "?>") fun _ => True :=
    .after fun _ => .ite (.after fun _ => hend) hend
  exact .after fun _ => .after fun _ => .ite (.after fun _ => .after fun _ => halone) halone

instance : Careful source misc := by
  have : Careful source comment := comment_reads.careful
  have : Careful source instruction := instruction_reads.careful
  unfold misc
  infer_instance

end Lexer

/-! ## §3. Around the element -/

namespace Builder

variable {b : Builder}

theorem StandsIn.takeItem {item : DoctypeItem} (hb : b.StandsIn source)
    (hitem : item.StandsIn source) : (b.takeItem item).StandsIn source := by
  unfold Builder.takeItem
  split
  · next e =>
    -- a name that is declared twice is there twice, and both texts are in the source
    refine { hb with entities := ?_ }
    intro x hx
    rcases List.mem_append.1 hx with hx | hx
    · exact hb.entities x hx
    · rw [List.mem_singleton.1 hx]
      exact .inl hitem
  · exact hb.add (Node.opensIn_comment _)
  · exact hb.add (Node.opensIn_instruction _ _)
  · exact hb

theorem readItems_ensures {start : Mark} (hstart : start ≤ source.length) {cursor : Cursor}
    (hcursor : cursor.LiesIn source) (hb : b.StandsIn source) :
    Ensures (b.readItems start cursor) (fun r => r.1.StandsIn source ∧ r.2.LiesIn source)
      (SyntaxError.Within source.length) := by
  fun_induction Builder.readItems start cursor b with
  | case1 cursor b hend => exact ⟨hb, hcursor⟩
  | case2 cursor b hmore e hitem =>
    have hread := Lexer.doctypeItem_reads hstart cursor hcursor
    rw [hitem] at hread
    exact hread
  | case3 cursor b hmore cursor' hitem =>
    have hread := Lexer.doctypeItem_reads hstart cursor hcursor
    rw [hitem] at hread
    exact ⟨hb, hread.2⟩
  | case4 cursor b hmore item cursor' hfinal hitem ih =>
    have hread := Lexer.doctypeItem_reads hstart cursor hcursor
    rw [hitem] at hread
    exact ih hread.2 (hb.takeItem hread.1)

theorem readDoctype_ensures {cursor : Cursor} (hcursor : cursor.LiesIn source)
    (hb : b.StandsIn source) :
    Ensures (b.readDoctype cursor) (fun r => r.1.StandsIn source ∧ r.2.LiesIn source)
      (SyntaxError.Within source.length) := by
  unfold readDoctype
  refine (Lexer.Careful.reads (p := Lexer.doctypeHead) cursor hcursor).bind fun r hr => ?_
  obtain ⟨bracketed, inside⟩ := r
  cases bracketed with
  | true => exact readItems_ensures hcursor.mark_le hr.2 hb
  | false => exact ⟨hb, hr.2⟩

theorem readMisc_ensures {cursor : Cursor} (hcursor : cursor.LiesIn source)
    (hb : b.StandsIn source) :
    Ensures (b.readMisc cursor) (fun r => r.1.StandsIn source ∧ r.2.LiesIn source)
      (SyntaxError.Within source.length) := by
  fun_induction Builder.readMisc cursor b with
  | case1 cursor b e hmisc =>
    have hread := Lexer.Careful.reads (p := Lexer.misc) cursor hcursor
    rw [hmisc] at hread
    exact hread
  | case2 cursor b cursor' hmisc =>
    have hread := Lexer.Careful.reads (p := Lexer.misc) cursor hcursor
    rw [hmisc] at hread
    exact ⟨hb, hread.2⟩
  | case3 cursor b token cursor' hmisc ih =>
    have hread := Lexer.Careful.reads (p := Lexer.misc) cursor hcursor
    rw [hmisc] at hread
    exact ih hread.2 (hb.takeItem trivial)

theorem finish_ensures (hb : b.StandsIn source) :
    Ensures b.finish (Document.StandsIn source)
      (SyntaxError.Within source.length) := by
  unfold finish
  split
  · split
    · next hroot =>
      refine ⟨?_, ?_⟩
      · -- finished nodes are kept in reverse
        obtain ⟨top, htop, hsome⟩ := List.any_eq_true.1 hroot
        exact List.findSome?_isSome_iff.2 ⟨top, List.mem_reverse.2 htop, hsome⟩
      · have hnodes : ∀ top ∈ b.finished.reverse,
            top.AllTags fun tag => OpensAt source tag.start := by
          intro top htop
          exact Node.opensIn_iff.1 (hb.finished top (List.mem_reverse.1 htop))
        exact Node.allTags_walkAll.2 hnodes
    · exact trivial
  · exact trivial

end Builder

/-! ## §4. Whole documents -/

namespace Document

/-- All that stands in front of the element keeps to the source. -/
theorem readProlog_ensures {c : Cursor} (hc : c.LiesIn source) :
    Ensures (readProlog c) (fun r => r.1.StandsIn source ∧ r.2.LiesIn source)
      (SyntaxError.Within source.length) := by
  have hmark : (skipByteOrderMark c).LiesIn source := by
    unfold skipByteOrderMark
    split
    · exact hc.advance 1
    · exact hc
  have hdeclaration : Ensures (skipDeclaration (skipByteOrderMark c)) (·.LiesIn source)
      (SyntaxError.Within source.length) := by
    unfold skipDeclaration
    split
    · exact (Lexer.Careful.reads (p := Lexer.xmlDeclaration) _ hmark).bind fun r hr => hr.2
    · exact hmark
  unfold readProlog
  refine hdeclaration.bind fun c₁ hc₁ => ?_
  have hempty : Builder.StandsIn source {} := Builder.standsIn_ofEntities [] nofun
  refine (Builder.readMisc_ensures hc₁ hempty).bind fun r hr => ?_
  obtain ⟨b, c₂⟩ := r
  dsimp only at hr ⊢
  split
  · refine (Builder.readDoctype_ensures (hr.2.advance _) hr.1).bind fun r hr => ?_
    exact Builder.readMisc_ensures hr.2 hr.1
  · exact hr

/-- **The element and what follows it** keep to the source: every element
begins at a `<` of it, and an error with a place is at a place of it. -/
theorem readBody_ensures {c : Cursor} {b : Builder} (hc : c.LiesIn source)
    (hb : b.StandsIn source) :
    Ensures (readBody c b) (Document.StandsIn source)
      (Rejection.Within source.length) := by
  have hspaces : c.dropSpaces.LiesIn source := hc.advance _
  unfold readBody
  extract_lets c' after
  -- what follows the element is read the same way whether there is one or not
  have hafter : ∀ r : Builder × Cursor, r.1.StandsIn source ∧ r.2.LiesIn source →
      Ensures (after r) (Document.StandsIn source)
        (Rejection.Within source.length) := by
    intro r hr
    refine (Builder.readMisc_ensures hr.2 hr.1).malformed.bind fun r hr => ?_
    obtain ⟨b₁, c₁⟩ := r
    dsimp only at hr ⊢
    split
    · exact (Builder.finish_ensures hr.1).malformed
    · exact ⟨hr.2.mark_le, trivial⟩
  split
  · exact (Builder.readElement_ensures hspaces hb).bind hafter
  · exact hafter (b, c') ⟨hb, hspaces⟩

/-- A whole text read as a document keeps to itself. -/
theorem read_ensures (source : List Char) :
    Ensures (Document.read source) (Document.StandsIn source)
      (Rejection.Within source.length) := by
  unfold Document.read
  refine (readProlog_ensures (Cursor.liesIn_ofText source)).malformed.bind fun r hr => ?_
  exact readBody_ensures hr.2 hr.1

end Document

end TemplateLint
