/-
  TemplateLint.Proofs.AttributeOrder — findings do not depend on the order of attributes.

  Two trees match if they have the same shape and texts, and tags that are related.
  Here the tags of the one tree are those of the other with their attributes in some
  order.  Attributes are looked up by namespace and name, and no tag of a document has
  two that agree in both, so the tags of the two trees answer alike.  Then each element
  embeds into the one that it matches, and that one into it, and the checks say the
  same of both.

  Main result: `attribute_order_immaterial`.
-/
import TemplateLint.Proofs.Embedding
import TemplateLint.Proofs.Markup.Attributes
import Mathlib.Data.List.Find
import Mathlib.Data.List.Forall2
import Mathlib.Data.List.Nodup

namespace TemplateLint

/-! ## §1. Trees that match -/

namespace Node

mutual

/-- The trees have the same shape and the same texts, and their tags are related. -/
inductive Matches (r : Tag → Tag → Prop) : Node → Node → Prop
  | element {tag tag' : Tag} {children children' : List Node} (htag : r tag tag')
      (hchildren : AllMatch r children children') :
      Matches r (.element tag children) (.element tag' children')
  | text (content : String) : Matches r (.text content) (.text content)
  | comment (content : String) : Matches r (.comment content) (.comment content)
  | instruction (target content : String) :
      Matches r (.instruction target content) (.instruction target content)

/-- The same for nodes that stand side by side. -/
inductive AllMatch (r : Tag → Tag → Prop) : List Node → List Node → Prop
  | nil : AllMatch r [] []
  | cons {node node' : Node} {nodes nodes' : List Node} (hnode : Matches r node node')
      (hnodes : AllMatch r nodes nodes') : AllMatch r (node :: nodes) (node' :: nodes')

end

variable {r r' : Tag → Tag → Prop} {good : Tag → Prop}

mutual

theorem Matches.symm (hr : ∀ tag tag', r tag tag' → r tag' tag) {node node' : Node}
    (h : node.Matches r node') : node'.Matches r node := by
  cases h with
  | element htag hchildren => exact .element (hr _ _ htag) (hchildren.symm hr)
  | text content => exact .text content
  | comment content => exact .comment content
  | instruction target content => exact .instruction target content

theorem AllMatch.symm (hr : ∀ tag tag', r tag tag' → r tag' tag) {nodes nodes' : List Node}
    (h : AllMatch r nodes nodes') : AllMatch r nodes' nodes := by
  cases h with
  | nil => exact .nil
  | cons hnode hnodes => exact .cons (hnode.symm hr) (hnodes.symm hr)

end

mutual

/-- What all tags of the first tree have may be used to relate them. -/
theorem Matches.imp (hr : ∀ tag tag', good tag → r tag tag' → r' tag tag') {node node' : Node}
    (hgood : node.AllTags good) (h : node.Matches r node') : node.Matches r' node' := by
  cases h with
  | element htag hchildren =>
    obtain ⟨hself, hinner⟩ := allTags_element.1 hgood
    exact .element (hr _ _ hself htag) (hchildren.imp hr hinner)
  | text content => exact .text content
  | comment content => exact .comment content
  | instruction target content => exact .instruction target content

theorem AllMatch.imp (hr : ∀ tag tag', good tag → r tag tag' → r' tag tag')
    {nodes nodes' : List Node} (hgood : ∀ node ∈ nodes, node.AllTags good)
    (h : AllMatch r nodes nodes') : AllMatch r' nodes nodes' := by
  cases h with
  | nil => exact .nil
  | cons hnode hnodes =>
    obtain ⟨hfirst, hrest⟩ := List.forall_mem_cons.1 hgood
    exact .cons (hnode.imp hr hfirst) (hnodes.imp hr hrest)

end

mutual

/-- A walk through both trees meets nodes that match. -/
theorem Matches.walk {node node' : Node} (h : node.Matches r node') :
    List.Forall₂ (Matches r) node.walk node'.walk := by
  cases h with
  | element htag hchildren =>
    rw [walk_element, walk_element]
    exact .cons (.element htag hchildren) hchildren.walkAll
  | text content => exact .cons (.text content) .nil
  | comment content => exact .cons (.comment content) .nil
  | instruction target content => exact .cons (.instruction target content) .nil

theorem AllMatch.walkAll {nodes nodes' : List Node} (h : AllMatch r nodes nodes') :
    List.Forall₂ (Matches r) (walkAll nodes) (walkAll nodes') := by
  cases h with
  | nil => exact .nil
  | cons hnode hnodes =>
    rw [walkAll_cons, walkAll_cons]
    exact List.rel_append hnode.walk hnodes.walkAll

end

end Node

/-! ## §2. Elements of trees that match -/

/-- The elements match with all that they hold. -/
def Element.Matches (r : Tag → Tag → Prop) (e e' : Element) : Prop :=
  e.node.Matches r e'.node

variable {r : Tag → Tag → Prop}

theorem Node.Matches.element? {node node' : Node} (h : node.Matches r node') :
    Option.Rel (Element.Matches r) node.element? node'.element? := by
  cases h with
  | element htag hchildren => exact .some (.element htag hchildren)
  | text content => exact .none
  | comment content => exact .none
  | instruction target content => exact .none

theorem exists_mem_of_forall₂ {nodes nodes' : List Node}
    (h : List.Forall₂ (Node.Matches r) nodes nodes') {node : Node} (hmem : node ∈ nodes) :
    ∃ node' ∈ nodes', node.Matches r node' := by
  induction h with
  | nil => cases hmem
  | cons hfirst _ ih =>
    rcases List.mem_cons.1 hmem with rfl | hrest
    · exact ⟨_, List.mem_cons_self, hfirst⟩
    · obtain ⟨node', hmem', hnode⟩ := ih hrest
      exact ⟨node', List.mem_cons_of_mem _ hmem', hnode⟩

/-- A walk meets elements that match. -/
theorem forall₂_element? {nodes nodes' : List Node}
    (h : List.Forall₂ (Node.Matches r) nodes nodes') :
    List.Forall₂ (Element.Matches r) (nodes.filterMap Node.element?)
      (nodes'.filterMap Node.element?) :=
  List.rel_filterMap (fun _ _ hnode => Node.Matches.element? hnode) h

/-- What is the same for elements that match is gathered in the same order. -/
theorem filterMap_eq_of_forall₂ {α : Type} {f : Element → Option α}
    (hf : ∀ e e', e.Matches r e' → f e' = f e) {elements elements' : List Element}
    (h : List.Forall₂ (Element.Matches r) elements elements') :
    elements'.filterMap f = elements.filterMap f := by
  induction h with
  | nil => rfl
  | cons hfirst _ ih => rw [List.filterMap_cons, List.filterMap_cons, hf _ _ hfirst, ih]

namespace Element.Matches

variable {e e' : Element}

theorem tag (h : e.Matches r e') : r e.tag e'.tag := by
  cases h with
  | element htag hchildren => exact htag

theorem descendants (h : e.Matches r e') :
    List.Forall₂ (Node.Matches r) e.descendants e'.descendants := by
  cases h with
  | element htag hchildren => exact hchildren.walkAll

theorem elements (h : e.Matches r e') : List.Forall₂ (Element.Matches r) e.elements e'.elements :=
  .cons h (forall₂_element? h.descendants)

end Element.Matches

/-- The root elements match, or there are none. -/
theorem Node.AllMatch.root? {nodes nodes' : List Node} (h : AllMatch r nodes nodes') :
    Option.Rel (Element.Matches r) (Document.mk nodes).root? (Document.mk nodes').root? := by
  cases h with
  | nil => exact .none
  | cons hnode hnodes =>
    cases hnode with
    | element htag hchildren => exact .some (.element htag hchildren)
    | text content => exact hnodes.root?
    | comment content => exact hnodes.root?
    | instruction target content => exact hnodes.root?

/-! ## §3. Tags that answer alike -/

/-- The second tag is the first one with its attributes in some order. -/
structure Tag.Reordered (tag tag' : Tag) : Prop where
  start : tag'.start = tag.start
  ns : tag'.ns = tag.ns
  name : tag'.name = tag.name
  attributes : tag'.attributes.Perm tag.attributes

/-- The tags stand at the same place and answer alike. -/
structure Tag.Twin (tag tag' : Tag) : Prop extends Tag.Alike tag tag' where
  start : tag'.start = tag.start

theorem Tag.Twin.symm {tag tag' : Tag} (h : tag.Twin tag') : tag'.Twin tag where
  ns := h.ns.symm
  name := h.name.symm
  attribute? := fun ns name => (h.attribute? ns name).symm
  start := h.start.symm

/-- Where no attribute is there twice, their order does not matter. -/
theorem Tag.Reordered.twin {tag tag' : Tag} (htag : tag.IsUnambiguous) (h : tag.Reordered tag') :
    tag.Twin tag' where
  ns := h.ns
  name := h.name
  start := h.start
  attribute? := by
    intro ns name
    have htag' : tag'.IsUnambiguous := (h.attributes.map _).nodup_iff.2 htag
    unfold Tag.attribute?
    congr 1
    apply List.find?_eq_find?_of_perm h.attributes
    -- at most one attribute has the namespace and the name
    intro a ha b hb
    apply List.inj_on_of_nodup_map htag' ha.1 hb.1
    have ha' := of_decide_eq_true ha.2
    have hb' := of_decide_eq_true hb.2
    rw [ha'.1, ha'.2, hb'.1, hb'.2]

/-! ## §4. The same verdicts -/

theorem Node.Matches.serves {node node' : Node} (h : node.Matches Tag.Twin node') :
    node.Serves node' := by
  cases h with
  | @element tag tag' children children' htag hchildren =>
    show (Element.mk tag children).node.Serves (Element.mk tag' children').node
    exact Node.serves_of_alike htag.toAlike
  | text content => exact .refl _
  | comment content => exact .refl _
  | instruction target content => exact .refl _

namespace Element.Matches

variable {e e' : Element}

theorem embeds (h : e.Matches Tag.Twin e') : e.Embeds e' where
  tag := h.tag.toAlike
  below := by
    intro address node hne hat
    have hmem : node ∈ e.descendants := mem_descendants.2 ⟨address, hne, hat⟩
    obtain ⟨node', hmem', hnode⟩ := exists_mem_of_forall₂ h.descendants hmem
    obtain ⟨address', hne', hat'⟩ := mem_descendants.1 hmem'
    exact ⟨address', node', hne', hat', hnode.serves⟩

/-- Each of the two breaks the rules that the other one breaks. -/
theorem verdict_eq (h : e.Matches Tag.Twin e') (check : Check) :
    check.verdict e' = check.verdict e := by
  have hback : e'.Matches Tag.Twin e := Node.Matches.symm (fun _ _ htwin => htwin.symm) h
  ext rule
  rw [Check.verdict_eq_some_iff, Check.verdict_eq_some_iff]
  exact ⟨Violates.of_embeds h.embeds, Violates.of_embeds hback.embeds⟩

theorem finding_eq (h : e.Matches Tag.Twin e') (t : Template) (rule : Rule) :
    t.finding e' rule = t.finding e rule := by
  unfold Template.finding Template.lineOf
  rw [h.tag.start]

theorem findings_eq (h : e.Matches Tag.Twin e') (t : Template) (check : Check) :
    (check.offenders e').map (fun p => t.finding p.1 p.2)
      = (check.offenders e).map fun p => t.finding p.1 p.2 := by
  unfold Check.offenders
  rw [List.map_filterMap, List.map_filterMap]
  apply filterMap_eq_of_forall₂ _ h.elements
  intro inner inner' hinner
  rw [hinner.verdict_eq check, Option.map_map, Option.map_map]
  exact Option.map_congr fun rule _ => hinner.finding_eq t rule

end Element.Matches

/-! ## §5. Documents -/

/-- The second document is the first one with the attributes of each element in some
order. -/
def Document.Reordered (d d' : Document) : Prop :=
  Node.AllMatch Tag.Reordered d.children d'.children

/-- Documents with twins for tags have the same findings. -/
theorem Template.runChecks_eq {d d' : Document}
    (h : Node.AllMatch Tag.Twin d.children d'.children) (t : Template) (checks : List Check) :
    t.runChecks checks d' = t.runChecks checks d := by
  have hroots : Option.Rel (Element.Matches Tag.Twin) d.root? d'.root? := h.root?
  unfold runChecks
  generalize d.root? = root?, d'.root? = root'? at hroots ⊢
  cases hroots with
  | none => rfl
  | some hmatch =>
    apply List.flatMap_congr
    intro check _
    exact hmatch.findings_eq t check

/-- A template that was read has each attribute once. -/
theorem Template.isUnambiguous_of_document {t : Template} {d : Document}
    (hdocument : t.document = .ok d) : ∀ e ∈ d.elements, e.tag.IsUnambiguous := by
  have hread := Document.read_unambiguous t.content.toList
  rw [show Document.read t.content.toList = .ok d from hdocument] at hread
  exact hread

/-- **The order of attributes is immaterial.**  No tag of a template that can be read
has two attributes with the same namespace and name.  Let a document have the same
elements with the attributes of each in some order.  Then all attributes have the
values that they had, for every element and every name, and every list of checks has
the same findings. -/
theorem attribute_order_immaterial (t : Template) (d d' : Document)
    (hdocument : t.document = .ok d) (h : d.Reordered d') :
    (∀ e ∈ d.elements, e.tag.IsUnambiguous) ∧
    List.Forall₂ (fun e e' : Element => e.tag.Reordered e'.tag ∧
      ∀ name, e'.tag.value? name = e.tag.value? name) d.elements d'.elements ∧
    ∀ checks, t.runChecks checks d' = t.runChecks checks d := by
  have hunambiguous := Template.isUnambiguous_of_document hdocument
  have hall : ∀ node ∈ d.children, node.AllTags Tag.IsUnambiguous :=
    Node.allTags_walkAll.1 hunambiguous
  have htwins : Node.AllMatch (fun tag tag' => tag.Reordered tag' ∧ tag.Twin tag') d.children
      d'.children :=
    h.imp (fun _ _ htag hreordered => ⟨hreordered, hreordered.twin htag⟩) hall
  refine ⟨hunambiguous, ?_, ?_⟩
  · exact (forall₂_element? htwins.walkAll).imp fun e e' hmatch =>
      ⟨hmatch.tag.1, hmatch.tag.2.value?⟩
  · intro checks
    exact t.runChecks_eq (h.imp (fun _ _ htag hreordered => hreordered.twin htag) hall) checks

/-- A link whose target is a placeholder, behind an attribute of the same name in
another namespace.  With the two swapped it is still reported, as is its missing
content. -/
theorem attribute_order_immaterial_namesake :
    let t := Template.prepare ⟨[]⟩
      "<a xmlns:tal='http://xml.zope.org/namespaces/tal' tal:href='x' href='#'/>" none
    ∃ (d d' : Document), t.document = .ok d ∧ d.Reordered d' ∧
      d.elements.map (·.tag.attributes)
        = [[⟨some talNs, "href", "x"⟩, ⟨none, "href", "#"⟩]] ∧
      d'.elements.map (·.tag.attributes)
        = [[⟨none, "href", "#"⟩, ⟨some talNs, "href", "x"⟩]] ∧
      (t.runChecks [.linkTarget, .linkContent] d').map Finding.rule
        = [Rule.placeholderLinkTarget.id, Rule.missingLinkContent.id] := by
  intro t
  let tag : Tag := ⟨73, none, "a", [⟨some talNs, "href", "x"⟩, ⟨none, "href", "#"⟩]⟩
  let tag' : Tag := ⟨73, none, "a", [⟨none, "href", "#"⟩, ⟨some talNs, "href", "x"⟩]⟩
  have hshape : t.document.toOption.map (fun d => d.children.map fun node =>
      node.element?.map fun e => (e.tag, e.children.length)) = some [some (tag, 0)] := by
    decide +kernel
  -- what was read is one element without children
  have hdocument : t.document = .ok ⟨[.element tag []]⟩ := by
    cases hread : t.document with
    | error e =>
      rw [hread] at hshape
      cases hshape
    | ok d =>
      rw [hread] at hshape
      obtain ⟨node, hchildren, hnode⟩ := List.map_eq_singleton_iff.1 (Option.some.inj hshape)
      obtain ⟨e, helement, heq⟩ := Option.map_eq_some_iff.1 hnode
      obtain ⟨htag, hlength⟩ := Prod.mk.inj heq
      rw [Element.element?_eq_some.1 helement] at hchildren
      unfold Element.node at hchildren
      rw [htag, List.eq_nil_of_length_eq_zero hlength] at hchildren
      exact congrArg Except.ok (congrArg Document.mk hchildren)
  have hreordered : Document.Reordered ⟨[.element tag []]⟩ ⟨[.element tag' []]⟩ :=
    .cons (.element ⟨rfl, rfl, rfl, .swap _ _ _⟩ .nil) .nil
  refine ⟨_, _, hdocument, hreordered, rfl, rfl, ?_⟩
  rw [(attribute_order_immaterial t _ _ hdocument hreordered).2.2]
  decide +kernel

end TemplateLint
