/-
  TemplateLint.Proofs.Comments — a comment behind a template.

  A comment that is put behind a template is the last node of its document.  The
  marks grow by its length, and nothing that a check asks an element is about
  marks, so the findings stay.  Two things can come in between.  The comment may
  mention a document type, and then none is put in front and the entities of the
  injected one are missing; or the template may break off inside a start tag,
  which is no error where an entity has closed the outermost element.

  Main result: `comment_changes_nothing`.
-/
import TemplateLint.Proofs.Directives
import TemplateLint.Proofs.Markup.Trailing
import TemplateLint.Proofs.Preparation
import TemplateLint.Proofs.SourceOrder

namespace TemplateLint

/-! ## §1. Mentions of a document type -/

/-- A text is not cut in two in front of a character that stands in it first or
not at all. -/
theorem contains_append_cons {needle xs ys : List Char} {a : Char} (ha : a ∉ needle.tail) :
    contains needle (xs ++ a :: ys) = true
      ↔ contains needle xs = true ∨ contains needle (a :: ys) = true := by
  rw [contains_iff_isInfix, contains_iff_isInfix, contains_iff_isInfix, List.infix_append_iff]
  refine ⟨?_, fun h => h.imp_right .inl⟩
  rintro (h | h | ⟨front, back, rfl, hfront, hback⟩)
  · exact .inl h
  · exact .inr h
  · -- one of the two parts is empty: a cut would be in front of the character
    cases front with
    | nil => exact .inr hback.isInfix
    | cons first front =>
      cases back with
      | nil =>
        rw [List.append_nil]
        exact .inl hfront.isInfix
      | cons b back =>
        obtain ⟨rest, hrest⟩ := hback
        cases hrest
        exact absurd (List.mem_append_right front List.mem_cons_self) ha

theorem toList_commented (source content : String) :
    (source ++ "<!--" ++ content ++ "-->").toList = source.toList ++ commentOf content.toList := by
  simp only [String.toList_append, List.append_assoc]
  rfl

/-- A document type is mentioned in the template, or in the comment. -/
theorem hasDoctype_commented (source content : String) :
    hasDoctype (source ++ "<!--" ++ content ++ "-->") = true
      ↔ hasDoctype source = true ∨ hasDoctype content = true := by
  have hinside : contains doctypeMark.toList (commentOf content.toList)
      = contains doctypeMark.toList (content.toList ++ ['-', '-', '>']) := rfl
  have hclosing : contains doctypeMark.toList ['-', '-', '>'] = false := by decide
  unfold hasDoctype
  rw [toList_commented, commentOf, contains_append_cons (by decide), ← commentOf, hinside,
    contains_append_cons (by decide), hclosing]
  simp only [Bool.false_eq_true, or_false]

/-! ## §2. What the checks find in a document that has grown -/

section Growth

variable {k : Nat}

theorem Node.isText_shift (node : Node) : (node.shift k).isText = node.isText := by
  cases node with
  | element tag children =>
    rw [shift_element]
    rfl
  | text content => rfl
  | comment content => rfl
  | instruction target content => rfl

namespace Element

theorem descendants_shift (e : Element) :
    (e.shift k).descendants = e.descendants.map (Node.shift k) :=
  Node.walkAll_shift e.children

theorem innerElements_shift (e : Element) :
    (e.shift k).innerElements = e.innerElements.map (shift k) := by
  unfold innerElements
  rw [descendants_shift, List.filterMap_map, List.map_filterMap]
  congr 1
  funext node
  exact Node.element?_shift node

theorem elements_shift (e : Element) : (e.shift k).elements = e.elements.map (shift k) := by
  unfold elements
  rw [innerElements_shift, List.map_cons]

theorem holdsText_shift (e : Element) : (e.shift k).holdsText = e.holdsText := by
  unfold holdsText
  rw [descendants_shift, List.any_map]
  congr 1
  funext node
  exact Node.isText_shift node

theorem holdsElement_shift (e : Element) (names : List String) :
    (e.shift k).holdsElement names = e.holdsElement names := by
  unfold holdsElement
  rw [innerElements_shift, List.any_map]
  rfl

theorem isFilled_shift (e : Element) : (e.shift k).isFilled = e.isFilled := by
  unfold isFilled
  rw [innerElements_shift, List.any_map]
  rfl

end Element

namespace Check

/-- No check asks where a tag stands. -/
theorem verdict_shift (check : Check) (e : Element) :
    check.verdict (e.shift k) = check.verdict e := by
  have hbroken : check.brokenRule? (e.shift k) = check.brokenRule? e := by
    unfold brokenRule?
    rw [Element.holdsText_shift, Element.holdsElement_shift, Element.holdsElement_shift,
      Element.isFilled_shift]
    rfl
  unfold verdict
  rw [hbroken]
  rfl

theorem offenders_shift (check : Check) (root : Element) :
    check.offenders (root.shift k) = (check.offenders root).map fun p => (p.1.shift k, p.2) := by
  unfold offenders
  rw [Element.elements_shift, List.filterMap_map, List.map_filterMap]
  congr 1
  funext e
  show (check.verdict (e.shift k)).map _ = ((check.verdict e).map _).map _
  rw [verdict_shift, Option.map_map]
  rfl

end Check

end Growth

/-- The comment is no element, so the root is the one that was there. -/
theorem Document.root?_followed (content : List Char) (d : Document) :
    (d.followed content).root? = d.root?.map (Element.shift (commentOf content).length) := by
  unfold Document.root? Document.followed
  rw [List.findSome?_append, List.findSome?_map, List.map_findSome?]
  show Option.or _ none = _
  rw [Option.or_none]
  congr 1
  funext node
  exact Node.element?_shift node

/-- What has more text behind it stands at the same place. -/
theorem Position.ofMark_continued {text more : List Char} {mark : Nat} (hmark : mark ≤ text.length) :
    ofMark (text ++ more) (mark + more.length) = ofMark text mark := by
  have hlength : (text ++ more).length - (mark + more.length) = text.length - mark := by
    rw [List.length_append]
    omega
  unfold ofMark
  rw [hlength, List.take_append_of_le_length (Nat.sub_le _ _)]

/-- **The findings stay**, when the document grows with its text. -/
theorem Template.runChecks_followed (path : Path) (exclude : Option String) (checks : List Check)
    {source source' : String} {content : List Char} {d : Document}
    (hsource : source'.toList = source.toList ++ commentOf content) (hd : d.StandsIn source.toList) :
    (asWritten path source' exclude).runChecks checks (d.followed content)
      = (asWritten path source exclude).runChecks checks d := by
  unfold runChecks
  rw [Document.root?_followed]
  cases hroot : d.root? with
  | none => rfl
  | some root =>
    show checks.flatMap _ = checks.flatMap _
    congr 1
    funext check
    rw [Check.offenders_shift, List.map_map]
    refine List.map_congr_left fun offender hmem => ?_
    have he : offender.1 ∈ d.elements :=
      Document.mem_elements_of_root hroot (Check.mem_elements_of_offenders hmem)
    have hline : (asWritten path source' exclude).lineOf (offender.1.shift (commentOf content).length)
        = (asWritten path source exclude).lineOf offender.1 := by
      show (Position.ofMark source'.toList (offender.1.tag.start + (commentOf content).length)).row - 0
        = (Position.ofMark source.toList offender.1.tag.start).row - 0
      rw [hsource, Position.ofMark_continued (hd.opens _ he).mark_le]
    show Finding.mk _ (some (lineOf _ _)) _ _ = Finding.mk _ (some (lineOf _ _)) _ _
    rw [hline]
    rfl

/-! ## §3. Reading a template with a comment behind it -/

section Reading

variable {source content : String} {d : Document}

theorem readPrepared_of_hasDoctype (h : hasDoctype source = true) :
    readPrepared source = Document.read source.toList := by
  unfold readPrepared injectedPart
  rw [if_pos h]
  rfl

theorem readPrepared_of_not_hasDoctype (h : ¬ hasDoctype source = true) :
    readPrepared source = Document.read (injectedDoctype.toList ++ source.toList) := by
  unfold readPrepared injectedPart
  rw [if_neg h]

/-- The injected entities are idle. -/
theorem beginsFresh_injected (source : List Char) :
    Document.BeginsFresh (injectedDoctype.toList ++ source) := by
  unfold Document.BeginsFresh
  rw [Document.readProlog_injected]
  exact (Builder.readMisc_outline _ _).mono fun r hr =>
    hr.isFresh (Builder.isFresh_ofEntities (isIdle_injectedEntities _))

/-- Without a document type there are no entities. -/
theorem beginsFresh_plain (hdoctype : ¬ hasDoctype source = true)
    (hbegins : ¬ BeginsDocument source.toList) : Document.BeginsFresh source.toList := by
  unfold Document.BeginsFresh
  rw [Document.readProlog_plain (Bool.eq_false_iff.2 hdoctype) (fun hmark => hbegins (.inl hmark))
    fun hdeclaration => hbegins (.inr hdeclaration)]
  exact (Builder.readMisc_outline _ _).mono fun r hr =>
    hr.isFresh (Builder.isFresh_ofEntities nofun)

/-- **A template with a comment behind it** is read to the same document, grown,
with the comment at its end.  Where the comment brings the only mention of a
document type, the template has to do without the injected one. -/
theorem readPrepared_commented (hcontent : IsCommentText content.toList)
    (hmention : hasDoctype source = false → hasDoctype content = true →
      ∃ d, Document.read source.toList = .ok d)
    (hends : hasDoctype source = true → ¬ EndsInTag source.toList)
    (hread : readPrepared source = .ok d) :
    readPrepared (source ++ "<!--" ++ content ++ "-->") = .ok (d.followed content.toList) := by
  by_cases hs : hasDoctype source = true
  · rw [readPrepared_of_hasDoctype ((hasDoctype_commented source content).2 (.inl hs)),
      toList_commented]
    rw [readPrepared_of_hasDoctype hs] at hread
    exact Document.read_followed hcontent hread (.inl (hends hs))
  · have hs' : hasDoctype source = false := Bool.eq_false_iff.2 hs
    by_cases hc : hasDoctype content = true
    · -- as it is written, the template is read to the same document
      obtain ⟨d', hd'⟩ := hmention hs' hc
      have hbegins : ¬ BeginsDocument source.toList := by
        intro hbegins
        obtain ⟨error, herror⟩ := malformed_of_beginsDocument hs' hbegins
        rw [hread] at herror
        cases herror
      have hsame := readPrepared_of_read hs' hbegins hd'
      rw [hread] at hsame
      cases hsame
      rw [readPrepared_of_hasDoctype ((hasDoctype_commented source content).2 (.inr hc)),
        toList_commented]
      exact Document.read_followed hcontent hd' (.inr (beginsFresh_plain hs hbegins))
    · have hnone : ¬ hasDoctype (source ++ "<!--" ++ content ++ "-->") = true := fun h =>
        ((hasDoctype_commented source content).1 h).elim hs hc
      rw [readPrepared_of_not_hasDoctype hnone, toList_commented, ← List.append_assoc]
      rw [readPrepared_of_not_hasDoctype hs] at hread
      exact Document.read_followed hcontent hread (.inr (beginsFresh_injected source.toList))

end Reading

/-! ## §4. A comment changes nothing -/

/-- Where no error is reported, there is a document. -/
theorem Template.exists_document_of_lint {path : Path} {source : String} {exclude : Option String}
    {checks : List Check} {findings : List Finding}
    (hlint : (prepare path source exclude).lint checks = some findings)
    (hclean : ∀ f ∈ findings, f.isMalformed = false) : ∃ d, readPrepared source = .ok d := by
  cases hread : readPrepared source with
  | ok d => exact ⟨d, rfl⟩
  | error rejection =>
    cases rejection with
    | malformed error =>
      rw [lint_of_malformed hread] at hlint
      cases hlint
      exact nomatch hclean _ List.mem_cons_self
    | overclosed =>
      rw [(lint_eq_none_iff _ _).2 (document_prepare.trans hread)] at hlint
      cases hlint

/-- **A comment behind a template changes nothing.**  Take a template for which
no error is reported, and a comment.  A template that mentions a document type
must not end in an unfinished start tag.  If it mentions none and the comment
does, the template must be readable without the injected document type.  Then the
template with the comment behind it has the same findings, whatever the path, the
prefix and the checks. -/
theorem comment_changes_nothing (source content : String) (path : Path) (exclude : Option String)
    (checks : List Check) (findings : List Finding)
    (hlint : (Template.prepare path source exclude).lint checks = some findings)
    (hclean : ∀ f ∈ findings, f.isMalformed = false) (hcontent : IsCommentText content.toList)
    (hends : hasDoctype source = true → ¬ EndsInTag source.toList)
    (hmention : hasDoctype source = false → hasDoctype content = true →
      ∃ d, Document.read source.toList = .ok d) :
    (Template.prepare path (source ++ "<!--" ++ content ++ "-->") exclude).lint checks
      = some findings := by
  obtain ⟨d, hread⟩ := Template.exists_document_of_lint hlint hclean
  have hfollowed := readPrepared_commented hcontent hmention hends hread
  rw [← hlint]
  by_cases hexcludes : Excludes exclude path
  · rw [Template.lint_of_excludes hread hexcludes, Template.lint_of_excludes hfollowed hexcludes]
  · have hd := Template.document_ensures path source none
    have hd' := Template.document_ensures path (source ++ "<!--" ++ content ++ "-->") none
    rw [Template.document_prepare, hread] at hd
    rw [Template.document_prepare, hfollowed] at hd'
    rw [Template.lint_of_not_excludes hread hexcludes,
      Template.lint_of_not_excludes hfollowed hexcludes,
      Template.runChecks_prepare _ _ _ _ hd, Template.runChecks_prepare _ _ _ _ hd',
      Template.runChecks_followed _ _ _ (toList_commented source content) hd]

/-- The first comment mentions a document type, so the lines that are put in front
of the template alone are missing.  The second stands behind a template with a
document type of its own, where an entity has closed the outermost element and
text follows it.  In both the image is found on the second line as before. -/
theorem comment_changes_nothing_image :
    (hasDoctype "<p>\n<img/></p>" = false ∧ hasDoctype " <!DOCTYPE html> " = true ∧
      ∃ f : Finding, f.line = some 2 ∧
        (Template.prepare (.ofString "t.pt") "<p>\n<img/></p>" none).lint Check.all = some [f] ∧
        (Template.prepare (.ofString "t.pt")
          ("<p>\n<img/></p>" ++ "<!--" ++ " <!DOCTYPE html> " ++ "-->") none).lint Check.all
          = some [f]) ∧
    (hasDoctype "<!DOCTYPE r [<!ENTITY e '<b></b></r>'>]>\n<r><img/>&e;.\n" = true ∧
      ∃ f : Finding, f.line = some 2 ∧
        (Template.prepare (.ofString "t.pt")
          ("<!DOCTYPE r [<!ENTITY e '<b></b></r>'>]>\n<r><img/>&e;.\n" ++ "<!--" ++ "x" ++ "-->")
          none).lint Check.all = some [f]) := by
  have hclean : ∀ f ∈ [(⟨.ofString "t.pt", some 2, Rule.missingImageDescription.id,
      Rule.missingImageDescription.guidance⟩ : Finding)], f.isMalformed = false := by
    decide +kernel
  constructor
  · have hdoctype : hasDoctype "<p>\n<img/></p>" = false := by decide +kernel
    have hlint : (Template.prepare (.ofString "t.pt") "<p>\n<img/></p>" none).lint Check.all
        = some [⟨.ofString "t.pt", some 2, Rule.missingImageDescription.id,
          Rule.missingImageDescription.guidance⟩] := by
      decide +kernel
    have hread : ∃ d, Document.read "<p>\n<img/></p>".toList = .ok d := by
      have hok : (Document.read "<p>\n<img/></p>".toList).toBool = true := by decide +kernel
      generalize Document.read "<p>\n<img/></p>".toList = r at *
      cases r with
      | ok d => exact ⟨d, rfl⟩
      | error e => cases hok
    refine ⟨hdoctype, by decide +kernel, _, rfl, hlint, ?_⟩
    refine comment_changes_nothing _ _ _ _ _ _ hlint hclean (by decide +kernel)
      (fun h => ?_) fun _ _ => hread
    rw [hdoctype] at h
    cases h
  · have hlint : (Template.prepare (.ofString "t.pt")
        "<!DOCTYPE r [<!ENTITY e '<b></b></r>'>]>\n<r><img/>&e;.\n" none).lint Check.all
        = some [⟨.ofString "t.pt", some 2, Rule.missingImageDescription.id,
          Rule.missingImageDescription.guidance⟩] := by
      decide +kernel
    refine ⟨by decide +kernel, _, rfl, comment_changes_nothing _ _ _ _ _ _ hlint hclean
      (by decide +kernel) (fun _ => not_endsInTag (by decide +kernel)) fun _ h => ?_⟩
    exact absurd h (by decide +kernel)

/-- Two templates without findings that are malformed with a comment behind them.
In the first, the comment mentions a document type and the entity is no longer
declared.  In the second, an entity closes the outermost element and the text
breaks off inside a start tag, into which the comment falls. -/
theorem comment_breaks_template :
    (IsCommentText " <!DOCTYPE ".toList ∧
      (Template.prepare (.ofString "t.pt") "<p>&nbsp;</p>" none).lint Check.all = some [] ∧
      (Template.prepare (.ofString "t.pt") ("<p>&nbsp;</p>" ++ "<!--" ++ " <!DOCTYPE " ++ "-->")
        none).lint Check.all
        = some [.malformed (.ofString "t.pt")
          "unknown entity reference 'nbsp', line 1, column 4"]) ∧
    (IsCommentText "x".toList ∧
      (Template.prepare (.ofString "t.pt") "<!DOCTYPE r [<!ENTITY e '<b></b></r>'>]><r>&e;<b"
        none).lint Check.all = some [] ∧
      (Template.prepare (.ofString "t.pt")
        ("<!DOCTYPE r [<!ENTITY e '<b></b></r>'>]><r>&e;<b" ++ "<!--" ++ "x" ++ "-->")
        none).lint Check.all
        = some [.malformed (.ofString "t.pt")
          "expected a whitespace not '<', line 1, column 49"]) := by
  decide +kernel

end TemplateLint
