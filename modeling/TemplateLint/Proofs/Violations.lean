/-
  TemplateLint.Proofs.Violations — the checks report what breaks a rule.

  `Violates` is the table of rules: which element of a tree breaks which rule
  of which check, said through the nodes that stand below it.  Each check
  reports the elements that do, from the root element on, once each and in
  document order, and a run of checks reports them check by check.

  Main result: `lint_reports_violations`.
-/
import TemplateLint.Proofs.Markup.Order
import TemplateLint.Proofs.Lines

namespace TemplateLint

/-! ## §1. The table of rules -/

namespace Element

/-- The element has this local name, in the namespace of HTML, in an empty one
or in none. -/
def IsNamed (e : Element) (name : String) : Prop :=
  e.tag.name = name ∧ (e.tag.ns = none ∨ e.tag.ns = some "" ∨ e.tag.ns = some xhtmlNs)

/-- Character data stands below the element. -/
def HasText (e : Element) : Prop :=
  e.HasBelow fun node => ∃ content, node = .text content

/-- An HTML element with this name stands below the element. -/
def HasNamed (e : Element) (name : String) : Prop :=
  e.HasElementBelow (IsNamed · name)

/-- Rendering the element brings content to the place where it stands. -/
def BringsContent (e : Element) : Prop :=
  e.tag.tal? "content" ≠ none ∨ e.tag.tal? "replace" ≠ none ∨
    (e.tag.ns = some talNs ∧ e.tag.name = "block" ∧ e.tag.plain? "replace" ≠ none)

/-- Rendering brings content into the element. -/
def HasDynamicContent (e : Element) : Prop :=
  e.tag.tal? "content" ≠ none ∨ e.HasElementBelow BringsContent

/-- The attribute has no value, or an empty one. -/
def Lacks (e : Element) (name : String) : Prop :=
  e.tag.value? name = none ∨ e.tag.value? name = some ""

end Element

/-- The element breaks the rule of the check. -/
inductive Violates (e : Element) : Check → Rule → Prop
  | missingLinkTarget (hname : e.IsNamed "a") (hhref : e.tag.value? "href" = none) :
      Violates e .linkTarget .missingLinkTarget
  | placeholderLinkTarget {href : String} (hname : e.IsNamed "a")
      (hhref : e.tag.value? "href" = some href) (htrim : trim href.toList = ['#'])
      (hrole : e.tag.value? "role" ≠ some "button") (hscript : e.Lacks "preventDefault") :
      Violates e .linkTarget .placeholderLinkTarget
  | missingImageDescription (hname : e.IsNamed "img") (halt : e.tag.value? "alt" = none) :
      Violates e .imageDescription .missingImageDescription
  | missingLinkContent (hname : e.IsNamed "a") (htext : ¬ e.HasText) (himage : ¬ e.HasNamed "img")
      (hdynamic : ¬ e.HasDynamicContent) (hlabel : e.Lacks "aria-label") :
      Violates e .linkContent .missingLinkContent
  | missingButtonContent (hname : e.IsNamed "button") (htext : ¬ e.HasText)
      (hdynamic : ¬ e.HasDynamicContent) (hlabel : e.Lacks "aria-label") :
      Violates e .buttonContent .missingButtonContent
  | missingLabelAssociation (hname : e.IsNamed "label") (hinput : ¬ e.HasNamed "input")
      (hselect : ¬ e.HasNamed "select") (htextarea : ¬ e.HasNamed "textarea")
      (hfor : e.tag.value? "for" = none) :
      Violates e .labelAssociation .missingLabelAssociation

/-! ## §2. The tests of the checks -/

namespace Element

variable {e : Element}

theorem isHtml_iff {name : String} : e.isHtml name = true ↔ e.IsNamed name := by
  simp only [isHtml, IsNamed, decide_eq_true_eq]

theorem holdsText_iff : e.holdsText = true ↔ e.HasText := by
  unfold holdsText HasText
  rw [any_descendants]
  have hiff : ∀ node : Node, node.isText = true ↔ ∃ content, node = .text content := by
    intro node
    cases node <;> simp [Node.isText]
  simp only [hiff]

theorem holdsElement_iff {names : List String} :
    e.holdsElement names = true ↔ ∃ name ∈ names, e.HasNamed name := by
  unfold holdsElement HasNamed
  rw [any_innerElements]
  simp only [List.any_eq_true, isHtml_iff]
  constructor
  · rintro ⟨address, node, hne, hat, inner, hnode, name, hmem, hname⟩
    exact ⟨name, hmem, address, node, hne, hat, inner, hnode, hname⟩
  · rintro ⟨name, hmem, address, node, hne, hat, inner, hnode, hname⟩
    exact ⟨address, node, hne, hat, inner, hnode, name, hmem, hname⟩

theorem isRendered_iff : e.isRendered = true ↔ e.BringsContent := by
  simp only [isRendered, BringsContent, Bool.or_eq_true, decide_eq_true_eq,
    Option.isSome_iff_ne_none, or_assoc]

theorem isFilled_iff : e.isFilled = true ↔ e.HasDynamicContent := by
  unfold isFilled HasDynamicContent
  rw [Bool.or_eq_true, any_innerElements, Option.isSome_iff_ne_none]
  simp only [isRendered_iff]

/-- A value counts if it is there and not empty. -/
theorem not_any_value_iff {name : String} :
    ¬ (e.tag.value? name).any (!·.isEmpty) = true ↔ e.Lacks name := by
  unfold Lacks
  cases e.tag.value? name with
  | none => simp
  | some value => simp

theorem not_isLabelled_iff : ¬ e.isLabelled = true ↔ e.Lacks "aria-label" :=
  not_any_value_iff

theorem not_actsAsButton_iff : ¬ e.actsAsButton = true ↔
    e.tag.value? "role" ≠ some "button" ∧ e.Lacks "preventDefault" := by
  unfold actsAsButton
  rw [Bool.or_eq_true, not_or, not_any_value_iff, decide_eq_true_eq]

end Element

namespace Check

variable {e : Element} {rule : Rule}

theorem verdict_eq_some {check : Check} :
    check.verdict e = some rule ↔ e.IsNamed check.target ∧ check.brokenRule? e = some rule := by
  unfold verdict
  rw [← Element.isHtml_iff]
  split
  · next h => simp [h]
  · next h => simp [h]

/-- A test that excuses an element leaves one rule to be broken. -/
theorem ite_eq_some_iff {excused : Bool} {broken : Rule} :
    (if excused = true then none else some broken) = some rule ↔
      ¬ excused = true ∧ broken = rule := by
  cases excused <;> simp

theorem brokenRule?_linkTarget : linkTarget.brokenRule? e = some rule ↔
    (e.tag.value? "href" = none ∧ .missingLinkTarget = rule) ∨
    ∃ href, e.tag.value? "href" = some href ∧ trim href.toList = ['#'] ∧
      ¬ e.actsAsButton = true ∧ .placeholderLinkTarget = rule := by
  unfold brokenRule?
  cases e.tag.value? "href" with
  | none => simp
  | some href => simp [and_assoc]

/-- **The verdict of a check is the table's.** -/
theorem verdict_eq_some_iff {check : Check} : check.verdict e = some rule ↔ Violates e check rule := by
  rw [verdict_eq_some]
  cases check with
  | linkTarget =>
    rw [brokenRule?_linkTarget]
    simp only [Element.not_actsAsButton_iff]
    constructor
    · rintro ⟨hname, ⟨hhref, rfl⟩ | ⟨href, hhref, htrim, ⟨hrole, hscript⟩, rfl⟩⟩
      · exact .missingLinkTarget hname hhref
      · exact .placeholderLinkTarget hname hhref htrim hrole hscript
    · intro h
      cases h with
      | missingLinkTarget hname hhref => exact ⟨hname, .inl ⟨hhref, rfl⟩⟩
      | placeholderLinkTarget hname hhref htrim hrole hscript =>
        exact ⟨hname, .inr ⟨_, hhref, htrim, ⟨hrole, hscript⟩, rfl⟩⟩
  | imageDescription =>
    rw [brokenRule?, ite_eq_some_iff, Option.not_isSome_iff_eq_none]
    constructor
    · rintro ⟨hname, halt, rfl⟩
      exact .missingImageDescription hname halt
    · intro h
      cases h with
      | missingImageDescription hname halt => exact ⟨hname, halt, rfl⟩
  | linkContent =>
    rw [brokenRule?, ite_eq_some_iff]
    simp only [Bool.or_eq_true, not_or, Element.holdsText_iff, Element.holdsElement_iff,
      Element.isFilled_iff, Element.not_isLabelled_iff, List.mem_singleton, exists_eq_left]
    constructor
    · rintro ⟨hname, ⟨⟨⟨htext, himage⟩, hdynamic⟩, hlabel⟩, rfl⟩
      exact .missingLinkContent hname htext himage hdynamic hlabel
    · intro h
      cases h with
      | missingLinkContent hname htext himage hdynamic hlabel =>
        exact ⟨hname, ⟨⟨⟨htext, himage⟩, hdynamic⟩, hlabel⟩, rfl⟩
  | buttonContent =>
    rw [brokenRule?, ite_eq_some_iff]
    simp only [Bool.or_eq_true, not_or, Element.holdsText_iff, Element.isFilled_iff,
      Element.not_isLabelled_iff]
    constructor
    · rintro ⟨hname, ⟨⟨htext, hdynamic⟩, hlabel⟩, rfl⟩
      exact .missingButtonContent hname htext hdynamic hlabel
    · intro h
      cases h with
      | missingButtonContent hname htext hdynamic hlabel =>
        exact ⟨hname, ⟨⟨htext, hdynamic⟩, hlabel⟩, rfl⟩
  | labelAssociation =>
    rw [brokenRule?, ite_eq_some_iff]
    simp only [Bool.or_eq_true, not_or, Element.holdsElement_iff, Option.not_isSome_iff_eq_none]
    constructor
    · rintro ⟨hname, ⟨hcontrol, hfor⟩, rfl⟩
      exact .missingLabelAssociation hname (fun h => hcontrol ⟨"input", by decide, h⟩)
        (fun h => hcontrol ⟨"select", by decide, h⟩)
        (fun h => hcontrol ⟨"textarea", by decide, h⟩) hfor
    · intro h
      cases h with
      | missingLabelAssociation hname hinput hselect htextarea hfor =>
        -- any control that stands below would be one of the three
        refine ⟨hname, ⟨?_, hfor⟩, rfl⟩
        rintro ⟨name, hmem, hname⟩
        simp only [List.mem_cons, List.not_mem_nil, or_false] at hmem
        rcases hmem with rfl | rfl | rfl
        · exact hinput hname
        · exact hselect hname
        · exact htextarea hname

/-! ## §3. One check -/

/-- What the check finds at or below `root`, with addresses. -/
def found (check : Check) (root : Element) : List (List Nat × Element × Rule) :=
  root.placed.filterMap fun p => (check.verdict p.2).map fun rule => (p.1, p.2, rule)

theorem map_snd_found (check : Check) (root : Element) :
    (check.found root).map Prod.snd = check.offenders root := by
  unfold found offenders
  rw [← Element.map_snd_placed, List.filterMap_map, List.map_filterMap]
  congr 1
  funext p
  show Option.map Prod.snd ((check.verdict p.2).map fun rule => (p.1, p.2, rule))
    = (check.verdict p.2).map fun rule => (p.2, rule)
  rw [Option.map_map]
  rfl

/-- **Soundness and completeness of a check.** -/
theorem mem_found {check : Check} {root : Element} {address : List Nat} :
    (address, e, rule) ∈ check.found root ↔
      root.node.at? address = some e.node ∧ Violates e check rule := by
  unfold found
  rw [List.mem_filterMap, ← Element.mem_placed, ← verdict_eq_some_iff]
  constructor
  · rintro ⟨⟨address', e'⟩, hmem, hsome⟩
    obtain ⟨rule', hverdict, hpair⟩ := Option.map_eq_some_iff.1 hsome
    cases hpair
    exact ⟨hmem, hverdict⟩
  · rintro ⟨hmem, hverdict⟩
    exact ⟨(address, e), hmem, Option.map_eq_some_iff.2 ⟨rule, hverdict, rfl⟩⟩

/-- **Order and multiplicity of a check.** -/
theorem sorted_found (check : Check) (root : Element) :
    ((check.found root).map Prod.fst).Pairwise (· < ·) := by
  unfold found
  rw [List.pairwise_map, List.pairwise_filterMap]
  refine root.sorted_placed.imp fun hlt first hfirst second hsecond => ?_
  obtain ⟨_, -, rfl⟩ := Option.map_eq_some_iff.1 hfirst
  obtain ⟨_, -, rfl⟩ := Option.map_eq_some_iff.1 hsecond
  exact hlt

end Check

/-! ## §4. A run of checks -/

/-- A document that was read has a root element. -/
theorem Template.exists_root {path : Path} {source : String} {exclude : Option String}
    {d : Document} (hdocument : (prepare path source exclude).document = .ok d) :
    ∃ root, d.root? = some root := by
  have h := Template.document_ensures path source exclude
  rw [hdocument] at h
  exact Option.isSome_iff_exists.1 h.root

/-- **The checks report the violations, and nothing else.**  For a template that
can be read and is not excluded, the findings come check by check.  Those of a
check are at increasing addresses below the root element, so that they come in
document order and each element once; they are at the addresses of the elements
that break a rule of the check. -/
theorem lint_reports_violations (path : Path) (source : String) (exclude : Option String)
    (checks : List Check) (d : Document)
    (hdocument : (Template.prepare path source exclude).document = .ok d)
    (hexcluded : (Template.prepare path source exclude).isExcluded = false) :
    ∃ (root : Element) (found : Check → List (List Nat × Element × Rule)),
      d.root? = some root ∧
      (Template.prepare path source exclude).lint checks
        = some (checks.flatMap fun check => (found check).map fun f =>
          (Template.prepare path source exclude).finding f.2.1 f.2.2) ∧
      ∀ check,
        ((found check).map Prod.fst).Pairwise (· < ·) ∧
        ∀ address e rule, (address, e, rule) ∈ found check ↔
          root.node.at? address = some e.node ∧ Violates e check rule := by
  obtain ⟨root, hroot⟩ := Template.exists_root hdocument
  refine ⟨root, fun check => check.found root, hroot, ?_, fun check => ?_⟩
  · rw [Template.lint_of_document hdocument hexcluded]
    unfold Template.runChecks
    rw [hroot]
    simp only [← Check.map_snd_found, List.map_map]
    rfl
  · exact ⟨Check.sorted_found check root, fun address e rule => Check.mem_found⟩

theorem Rule.id_injective {rule rule' : Rule} (h : rule.id = rule'.id) : rule = rule' := by
  cases rule <;> cases rule' <;> first | rfl | exact absurd h (by decide)

/-- A link in a link: the outer one has a placeholder for a target, with spaces
around it, and is found although the inner one has none. -/
theorem lint_reports_violations_nested_links :
    (Template.prepare ⟨[]⟩ "<p><a href=' # '><a>x</a></a></p>" none).isExcluded = false ∧
    ∃ (d : Document) (root e : Element) (address : List Nat),
      (Template.prepare ⟨[]⟩ "<p><a href=' # '><a>x</a></a></p>" none).document = .ok d ∧
      d.root? = some root ∧ root.node.at? address = some e.node ∧
      Violates e .linkTarget .placeholderLinkTarget := by
  have hexcluded :
      (Template.prepare ⟨[]⟩ "<p><a href=' # '><a>x</a></a></p>" none).isExcluded = false := rfl
  have hrules : ((Template.prepare ⟨[]⟩ "<p><a href=' # '><a>x</a></a></p>" none).lint
      [.linkTarget]).map (·.map Finding.rule)
      = some [Rule.placeholderLinkTarget.id, Rule.missingLinkTarget.id] := by
    decide +kernel
  obtain ⟨d, hdocument⟩ : ∃ d,
      (Template.prepare ⟨[]⟩ "<p><a href=' # '><a>x</a></a></p>" none).document = .ok d := by
    have hok : (Template.prepare ⟨[]⟩ "<p><a href=' # '><a>x</a></a></p>" none).document.toBool
        = true := by
      decide +kernel
    generalize (Template.prepare ⟨[]⟩ "<p><a href=' # '><a>x</a></a></p>" none).document = r at *
    cases r with
    | ok d => exact ⟨d, rfl⟩
    | error e => cases hok
  obtain ⟨root, found, hroot, hfindings, hcheck⟩ :=
    lint_reports_violations ⟨[]⟩ "<p><a href=' # '><a>x</a></a></p>" none [.linkTarget] d hdocument
      hexcluded
  rw [hfindings, List.flatMap_singleton, Option.map_some, List.map_map] at hrules
  have hlist := Option.some.inj hrules
  -- the first finding is the one of the outer link
  cases hfound : found .linkTarget with
  | nil =>
    rw [hfound] at hlist
    cases hlist
  | cons f rest =>
    rw [hfound, List.map_cons] at hlist
    have hid : f.2.2.id = Rule.placeholderLinkTarget.id := (List.cons.inj hlist).1
    have hmem : (f.1, f.2.1, Rule.placeholderLinkTarget) ∈ found .linkTarget := by
      rw [hfound, ← Rule.id_injective hid]
      exact List.mem_cons_self
    obtain ⟨hat, hviolates⟩ := ((hcheck .linkTarget).2 _ _ _).1 hmem
    exact ⟨hexcluded, d, root, f.2.1, f.1, hdocument, hroot, hat, hviolates⟩

/-- The text of an entity can close the root element and leave room for another
one.  What stands there is in the document, but not at or below its root. -/
theorem image_behind_root_unreported :
    (Template.prepare ⟨[]⟩ "<!DOCTYPE r [<!ENTITY e '<b></b></r>'>]><r>&e;<img/>" none).isExcluded
      = false ∧
    (∃ (d : Document) (e : Element),
      (Template.prepare ⟨[]⟩ "<!DOCTYPE r [<!ENTITY e '<b></b></r>'>]><r>&e;<img/>" none).document
        = .ok d ∧
      e ∈ d.elements ∧ Violates e .imageDescription .missingImageDescription) ∧
    (Template.prepare ⟨[]⟩ "<!DOCTYPE r [<!ENTITY e '<b></b></r>'>]><r>&e;<img/>" none).lint
      [.imageDescription] = some [] := by
  refine ⟨rfl, ?_, by decide +kernel⟩
  have hany : (Template.prepare ⟨[]⟩
      "<!DOCTYPE r [<!ENTITY e '<b></b></r>'>]><r>&e;<img/>" none).document.toOption.any
      (fun d => d.elements.any fun e =>
        Check.imageDescription.verdict e == some .missingImageDescription) = true := by
    decide +kernel
  generalize (Template.prepare ⟨[]⟩
    "<!DOCTYPE r [<!ENTITY e '<b></b></r>'>]><r>&e;<img/>" none).document = r at *
  cases r with
  | error e => cases hany
  | ok d =>
    obtain ⟨e, he, hverdict⟩ := List.any_eq_true.1 hany
    exact ⟨d, e, rfl, he, Check.verdict_eq_some_iff.1 (beq_iff_eq.1 hverdict)⟩

end TemplateLint
