/-
  TemplateLint.Proofs.Embedding — an element that holds more breaks no more rules.

  What an element breaks is decided by what its tag answers and by what stands below
  it.  One element embeds into another if the tags answer alike and whatever stands
  below the one has something below the other that serves as well.  The rules ask for
  content that is missing, so the other element breaks no rule that the one does not
  break (`Violates.of_embeds`).
-/
import TemplateLint.Proofs.Violations

namespace TemplateLint

/-! ## §1. Tags that answer alike -/

/-- The tags have the same name, and the same value for every attribute. -/
structure Tag.Alike (tag tag' : Tag) : Prop where
  ns : tag'.ns = tag.ns
  name : tag'.name = tag.name
  attribute? : ∀ ns name, tag'.attribute? ns name = tag.attribute? ns name

namespace Tag.Alike

variable {tag tag' : Tag}

theorem refl (tag : Tag) : tag.Alike tag :=
  ⟨rfl, rfl, fun _ _ => rfl⟩

theorem plain? (h : tag.Alike tag') (name : String) : tag'.plain? name = tag.plain? name :=
  h.attribute? none name

theorem tal? (h : tag.Alike tag') (name : String) : tag'.tal? name = tag.tal? name :=
  h.attribute? (some talNs) name

theorem value? (h : tag.Alike tag') (name : String) : tag'.value? name = tag.value? name := by
  unfold Tag.value? Tag.bound?
  simp only [h.plain?, h.tal?]

variable {e e' : Element}

theorem isNamed (h : e.tag.Alike e'.tag) {name : String} : e'.IsNamed name ↔ e.IsNamed name := by
  unfold Element.IsNamed
  rw [h.ns, h.name]

theorem bringsContent (h : e.tag.Alike e'.tag) : e'.BringsContent ↔ e.BringsContent := by
  unfold Element.BringsContent
  rw [h.ns, h.name, h.tal?, h.tal?, h.plain?]

theorem lacks (h : e.tag.Alike e'.tag) {name : String} : e'.Lacks name ↔ e.Lacks name := by
  unfold Element.Lacks
  rw [h.value?]

end Tag.Alike

/-! ## §2. Embedded elements -/

/-- The second node serves wherever the first one does: as text, or as an element with
a tag that answers alike. -/
structure Node.Serves (node node' : Node) : Prop where
  text : ∀ content, node = .text content → ∃ content', node' = .text content'
  element : ∀ e : Element, node = e.node → ∃ e' : Element, node' = e'.node ∧ e.tag.Alike e'.tag

theorem Node.Serves.refl (node : Node) : node.Serves node where
  text := fun content h => ⟨content, h⟩
  element := fun e h => ⟨e, h, .refl e.tag⟩

theorem Node.serves_of_alike {e e' : Element} (h : e.tag.Alike e'.tag) : e.node.Serves e'.node where
  text := by
    intro content heq
    cases heq
  element := by
    intro inner heq
    have htag : e.tag = inner.tag := (Node.element.inj heq).1
    exact ⟨e', rfl, htag ▸ h⟩

/-- The tags answer alike, and for all that stands below the first element there is
something below the second that serves as well. -/
structure Element.Embeds (e e' : Element) : Prop where
  tag : e.tag.Alike e'.tag
  below : ∀ address node, address ≠ [] → e.node.at? address = some node →
    ∃ address' node', address' ≠ [] ∧ e'.node.at? address' = some node' ∧ node.Serves node'

namespace Element.Embeds

variable {e e' : Element}

theorem refl (e : Element) : e.Embeds e where
  tag := .refl e.tag
  below := fun address node hne hat => ⟨address, node, hne, hat, .refl node⟩

theorem hasText (h : e.Embeds e') (htext : e.HasText) : e'.HasText := by
  obtain ⟨address, node, hne, hat, content, hcontent⟩ := htext
  obtain ⟨address', node', hne', hat', hserves⟩ := h.below address node hne hat
  exact ⟨address', node', hne', hat', hserves.text content hcontent⟩

/-- What elements are asked for by their tags is found again. -/
theorem hasElementBelow (h : e.Embeds e') {p : Element → Prop}
    (hp : ∀ inner inner' : Element, inner.tag.Alike inner'.tag → p inner → p inner')
    (hbelow : e.HasElementBelow p) : e'.HasElementBelow p := by
  obtain ⟨address, node, hne, hat, inner, hinner, hholds⟩ := hbelow
  obtain ⟨address', node', hne', hat', hserves⟩ := h.below address node hne hat
  obtain ⟨inner', hinner', halike⟩ := hserves.element inner hinner
  exact ⟨address', node', hne', hat', inner', hinner', hp inner inner' halike hholds⟩

theorem hasNamed (h : e.Embeds e') {name : String} (hnamed : e.HasNamed name) :
    e'.HasNamed name :=
  h.hasElementBelow (fun _ _ halike => halike.isNamed.2) hnamed

theorem hasDynamicContent (h : e.Embeds e') (hdynamic : e.HasDynamicContent) :
    e'.HasDynamicContent := by
  rcases hdynamic with hself | hbelow
  · left
    rw [h.tag.tal?]
    exact hself
  · right
    exact h.hasElementBelow (fun _ _ halike => halike.bringsContent.2) hbelow

end Element.Embeds

/-- **What holds more breaks no more rules.** -/
theorem Violates.of_embeds {e e' : Element} {check : Check} {rule : Rule} (h : e.Embeds e')
    (hviolates : Violates e' check rule) : Violates e check rule := by
  have hvalue : ∀ name, e'.tag.value? name = e.tag.value? name := h.tag.value?
  cases hviolates with
  | missingLinkTarget hname hhref =>
    rw [hvalue] at hhref
    exact .missingLinkTarget (h.tag.isNamed.1 hname) hhref
  | placeholderLinkTarget hname hhref htrim hrole hscript =>
    rw [hvalue] at hhref hrole
    exact .placeholderLinkTarget (h.tag.isNamed.1 hname) hhref htrim hrole (h.tag.lacks.1 hscript)
  | missingImageDescription hname halt =>
    rw [hvalue] at halt
    exact .missingImageDescription (h.tag.isNamed.1 hname) halt
  | missingLinkContent hname htext himage hdynamic hlabel =>
    exact .missingLinkContent (h.tag.isNamed.1 hname)
      (fun hheld => htext (h.hasText hheld)) (fun hheld => himage (h.hasNamed hheld))
      (fun hheld => hdynamic (h.hasDynamicContent hheld)) (h.tag.lacks.1 hlabel)
  | missingButtonContent hname htext hdynamic hlabel =>
    exact .missingButtonContent (h.tag.isNamed.1 hname)
      (fun hheld => htext (h.hasText hheld)) (fun hheld => hdynamic (h.hasDynamicContent hheld))
      (h.tag.lacks.1 hlabel)
  | missingLabelAssociation hname hinput hselect htextarea hfor =>
    rw [hvalue] at hfor
    exact .missingLabelAssociation (h.tag.isNamed.1 hname)
      (fun hheld => hinput (h.hasNamed hheld)) (fun hheld => hselect (h.hasNamed hheld))
      (fun hheld => htextarea (h.hasNamed hheld)) hfor

end TemplateLint
