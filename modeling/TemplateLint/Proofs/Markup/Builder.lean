/-
  TemplateLint.Proofs.Markup.Builder — a document under construction stands in its text.

  `Builder.StandsIn` is the invariant of reading: the tags of all elements,
  open or complete, begin at a `<` of the source, and what waits for the end
  of a tag has its place there.  The text of an entity either lies in the
  source as well or is idle: plain characters, from which neither an element
  nor an error can come.  Each operation of the builder keeps the invariant
  and fails, if at all, within the source.
-/
import TemplateLint.Proofs.Markup.Token

namespace TemplateLint

variable {source : List Char}

/-! ## §1. Elements that begin in the source -/

theorem Node.mem_walkAll {node : Node} {nodes : List Node} :
    node ∈ walkAll nodes ↔ ∃ top ∈ nodes, node ∈ top.walk := by
  induction nodes with
  | nil => simp
  | cons top nodes ih => simp [ih]

/-- The tags of all elements at or below the node are good. -/
def Node.AllTags (good : Tag → Prop) (node : Node) : Prop :=
  ∀ e ∈ node.walk.filterMap Node.element?, good e.tag

theorem Node.allTags_walkAll {good : Tag → Prop} {nodes : List Node} :
    (∀ e ∈ (walkAll nodes).filterMap Node.element?, good e.tag) ↔
      ∀ node ∈ nodes, node.AllTags good := by
  constructor
  · intro h top htop e he
    obtain ⟨node, hnode, hsome⟩ := List.mem_filterMap.1 he
    exact h e (List.mem_filterMap.2 ⟨node, Node.mem_walkAll.2 ⟨top, htop, hnode⟩, hsome⟩)
  · intro h e he
    obtain ⟨node, hnode, hsome⟩ := List.mem_filterMap.1 he
    obtain ⟨top, htop, hmem⟩ := Node.mem_walkAll.1 hnode
    exact h top htop e (List.mem_filterMap.2 ⟨node, hmem, hsome⟩)

theorem Node.allTags_element {good : Tag → Prop} {tag : Tag} {children : List Node} :
    (Node.element tag children).AllTags good ↔
      good tag ∧ ∀ child ∈ children, child.AllTags good := by
  have hself : (Node.element tag children).element? = some ⟨tag, children⟩ := rfl
  rw [← Node.allTags_walkAll]
  unfold Node.AllTags
  rw [Node.walk_element, List.filterMap_cons_some hself, List.forall_mem_cons]

/-- A node that is no element has no tags. -/
theorem Node.allTags_of_element? {good : Tag → Prop} {node : Node} (h : node.element? = none) :
    node.AllTags good := by
  intro e he
  cases node with
  | element tag children => cases h
  | text content => simp [Node.element?] at he
  | comment content => simp [Node.element?] at he
  | instruction target content => simp [Node.element?] at he

/-- Every element at or below the node begins at a `<` of the source. -/
def Node.OpensIn (source : List Char) (node : Node) : Prop :=
  ∀ e ∈ node.walk.filterMap Node.element?, OpensAt source e.tag.start

theorem Node.opensIn_iff {node : Node} :
    node.OpensIn source ↔ node.AllTags fun tag => OpensAt source tag.start :=
  Iff.rfl

theorem Node.OpensIn.element {tag : Tag} {children : List Node} (htag : OpensAt source tag.start)
    (hchildren : ∀ child ∈ children, child.OpensIn source) :
    (Node.element tag children).OpensIn source :=
  Node.opensIn_iff.2 (Node.allTags_element.2 ⟨htag, hchildren⟩)

theorem Node.opensIn_text (content : String) : (Node.text content).OpensIn source :=
  Node.opensIn_iff.2 (Node.allTags_of_element? rfl)

theorem Node.opensIn_comment (content : String) : (Node.comment content).OpensIn source :=
  Node.opensIn_iff.2 (Node.allTags_of_element? rfl)

theorem Node.opensIn_instruction (target content : String) :
    (Node.instruction target content).OpensIn source :=
  Node.opensIn_iff.2 (Node.allTags_of_element? rfl)

/-! ## §2. The texts of entities -/

/-- Characters that stand for themselves wherever they are read. -/
def isIdleChar (c : Char) : Bool :=
  isXmlChar c && c != '<' && c != '&' && c != ']'

/-- Nothing but plain characters follows. -/
def Cursor.IsIdle (c : Cursor) : Prop :=
  c.rest.all isIdleChar = true

/-- What an entity may stand for: a part of the source, or idle text. -/
def Cursor.IsUsable (source : List Char) (c : Cursor) : Prop :=
  c.LiesIn source ∨ c.IsIdle

/-- What a piece of a text says about places holds in the source. -/
def Piece.StandsIn (source : List Char) : Piece → Prop
  | raw _ => True
  | escaped _ start => start ≤ source.length
  | entity value after => value.IsUsable source ∧ after ≤ source.length
  | broken error => error.Within source.length

/-- The name of an entity is a name. -/
theorem Reference.all_of_ofBody? {body : List Char} {name : String}
    (h : ofBody? body = some (.entity name)) : name.toList.all isNameChar = true := by
  -- a reference by number is never one to an entity
  have hdigits : ∀ base digits, ofDigits? base digits ≠ some (.entity name) := by
    intro base digits
    unfold ofDigits?
    split
    · exact nofun
    · intro heq
      obtain ⟨c, -, hc⟩ := Option.map_eq_some_iff.1 heq
      cases hc
  unfold ofBody? at h
  split at h
  · exact absurd h (hdigits _ _)
  · exact absurd h (hdigits _ _)
  · split at h
    · next hname =>
      have hentity : name = String.ofList body := by
        have h := Option.some.inj h
        unfold ofName at h
        split at h <;> cases h
        rfl
      rw [hentity, String.toList_ofList]
      exact (Bool.and_eq_true_iff.1 hname).2
    · cases h

theorem Entity.usable_of_find? {entities : List Entity} {name : String} {value : Cursor}
    (hentities : ∀ e ∈ entities, e.value.IsUsable source)
    (h : Entity.find? entities name = some value) : value.IsUsable source := by
  obtain ⟨e, hfound, rfl⟩ := Option.map_eq_some_iff.1 h
  exact hentities e (List.mem_of_find?_eq_some hfound)

/-- The pieces of a part of the source stand in the source. -/
theorem Piece.standsIn_of_liesIn {entities : List Entity}
    (hentities : ∀ e ∈ entities, e.value.IsUsable source) {c : Cursor} (hc : c.LiesIn source) :
    ∀ piece ∈ Piece.ofText entities c, piece.StandsIn source := by
  fun_induction Piece.ofText entities c with
  | case1 c hrest => exact nofun
  | case2 c tail hrest hnone =>
    intro piece hpiece
    rw [List.mem_singleton.1 hpiece]
    exact ⟨hc.mark_le, trivial⟩
  | case3 c tail hrest body hbody =>
    intro piece hpiece
    rw [List.mem_singleton.1 hpiece]
    exact ⟨hc.mark_le, trivial⟩
  | case4 c tail hrest body after hsome a hbody ih =>
    -- a character by name or by number
    intro piece hpiece
    rcases List.mem_cons.1 hpiece with rfl | hpiece
    · exact hc.mark_le
    · exact ih (hc.advance _) piece hpiece
  | case5 c tail hrest body hsome name hbody hfind =>
    intro piece hpiece
    rw [List.mem_singleton.1 hpiece]
    exact ⟨hc.mark_le, Reference.all_of_ofBody? hbody⟩
  | case6 c tail hrest body after hsome name hbody value hfind ih =>
    -- an entity that is declared
    intro piece hpiece
    rcases List.mem_cons.1 hpiece with rfl | hpiece
    · exact ⟨Entity.usable_of_find? hentities hfind, (hc.advance _).mark_le⟩
    · exact ih (hc.advance _) piece hpiece
  | case7 c a tail hrest hne ih =>
    intro piece hpiece
    rcases List.mem_cons.1 hpiece with rfl | hpiece
    · exact trivial
    · exact ih (hc.advance _) piece hpiece

/-- Idle text has no references. -/
theorem Piece.ofText_of_isIdle (entities : List Entity) {c : Cursor} (hc : c.IsIdle) :
    Piece.ofText entities c = c.rest.map .raw := by
  obtain ⟨rest, mark⟩ := c
  induction rest generalizing mark with
  | nil =>
    unfold Piece.ofText
    rfl
  | cons a rest ih =>
    have hall : isIdleChar a = true ∧ rest.all isIdleChar = true := by
      simpa [Cursor.IsIdle] using hc
    have ha : a ≠ '&' := by
      rintro rfl
      exact absurd hall.1 (by decide)
    rw [Piece.ofText]
    split
    · next h => cases h
    · next h =>
      cases h
      exact absurd rfl ha
    · next h =>
      cases h
      rw [List.map_cons]
      exact congrArg _ (ih (mark - 1) hall.2)

theorem Piece.standsIn_of_isUsable {entities : List Entity}
    (hentities : ∀ e ∈ entities, e.value.IsUsable source) {c : Cursor}
    (hc : c.IsUsable source) : ∀ piece ∈ Piece.ofText entities c, piece.StandsIn source := by
  rcases hc with hlies | hidle
  · exact Piece.standsIn_of_liesIn hentities hlies
  · intro piece hpiece
    rw [Piece.ofText_of_isIdle entities hidle] at hpiece
    obtain ⟨a, -, rfl⟩ := List.mem_map.1 hpiece
    exact trivial

/-! ## §3. The invariant -/

/-- An open element begins in the source, and so does all that it holds. -/
structure OpenElement.StandsIn (source : List Char) (e : OpenElement) : Prop where
  opensAt : OpensAt source e.tag.start
  plain : e.name.IsPlain
  children : ∀ node ∈ e.children, node.OpensIn source

/-- A waiting attribute has its place in the source and a plain name. -/
structure WrittenAttribute.StandsIn (source : List Char) (a : WrittenAttribute) : Prop where
  start_le : a.start ≤ source.length
  plain : a.name.IsPlain

/-- All that the builder holds has its place in the source. -/
structure Builder.StandsIn (source : List Char) (b : Builder) : Prop where
  entities : ∀ e ∈ b.entities, e.value.IsUsable source
  opened : ∀ e ∈ b.opened, e.StandsIn source
  finished : ∀ node ∈ b.finished, node.OpensIn source
  tag : ∀ start name, b.tag = some (start, name) → OpensAt source start ∧ name.IsPlain
  attributes : ∀ a ∈ b.attributes, a.StandsIn source

theorem OpenElement.StandsIn.toNode {e : OpenElement} (h : e.StandsIn source) :
    e.toNode.OpensIn source :=
  .element h.opensAt fun child hchild => h.children child (List.mem_reverse.1 hchild)

namespace Builder

variable {b : Builder}

/-- Nothing has been read yet. -/
theorem standsIn_ofEntities (entities : List Entity)
    (h : ∀ e ∈ entities, e.value.IsUsable source) :
    ({ entities } : Builder).StandsIn source :=
  ⟨h, nofun, nofun, nofun, nofun⟩

theorem StandsIn.modifyNodes {f : List Node → List Node} (hb : b.StandsIn source)
    (hf : ∀ nodes, (∀ node ∈ nodes, node.OpensIn source) →
      ∀ node ∈ f nodes, node.OpensIn source) :
    (b.modifyNodes f).StandsIn source := by
  unfold Builder.modifyNodes
  split
  · exact { hb with finished := hf _ hb.finished }
  · next e outer hopened =>
    have hall : ∀ x ∈ e :: outer, x.StandsIn source := by
      rw [← hopened]
      exact hb.opened
    refine { hb with opened := ?_ }
    intro x hx
    rcases List.mem_cons.1 hx with rfl | hx
    · have he := hall e List.mem_cons_self
      exact { he with children := hf _ he.children }
    · exact hall x (List.mem_cons_of_mem _ hx)

theorem StandsIn.add {node : Node} (hb : b.StandsIn source) (hnode : node.OpensIn source) :
    (b.add node).StandsIn source := by
  refine hb.modifyNodes fun nodes hnodes x hx => ?_
  rcases List.mem_cons.1 hx with rfl | hx
  · exact hnode
  · exact hnodes x hx

theorem StandsIn.addText (content : List Char) (hb : b.StandsIn source) :
    (b.addText content).StandsIn source := by
  refine hb.modifyNodes fun nodes hnodes x hx => ?_
  -- a text node in front is replaced, any other node stays behind the new one
  split at hx
  · rcases List.mem_cons.1 hx with rfl | hx
    · exact Node.opensIn_text _
    · exact hnodes x (List.mem_cons_of_mem _ hx)
  · rcases List.mem_cons.1 hx with rfl | hx
    · exact Node.opensIn_text _
    · exact hnodes x hx

/-! ## §4. Tags -/

theorem beginTag_ensures {start : Mark} {name : QName} (hb : b.StandsIn source)
    (hstart : OpensAt source start) (hname : name.IsPlain) :
    Ensures (b.beginTag start name) (StandsIn source) (SyntaxError.Within source.length) := by
  unfold beginTag
  split
  · exact ⟨Nat.le_trans (Nat.sub_le start 1) hstart.mark_le, trivial⟩
  · refine { hb with tag := ?_ }
    intro start' name' htag
    cases htag
    exact ⟨hstart, hname⟩

theorem addAttribute_ensures {start : Mark} {name : QName} {value : String}
    (hb : b.StandsIn source) (hstart : start ≤ source.length) (hname : name.IsPlain) :
    Ensures (b.addAttribute start name value) (StandsIn source)
      (SyntaxError.Within source.length) := by
  have hdeclare : ∀ pfx, (b.declare pfx value).StandsIn source := fun _ => { hb with }
  unfold addAttribute
  split
  · -- a declaration with a prefix, of which `xml` may only repeat what it is
    split
    · exact ⟨hstart, trivial⟩
    · split
      · split
        · exact hb
        · exact ⟨hstart, trivial⟩
      · split
        · exact ⟨hstart, trivial⟩
        · split
          · exact ⟨hstart, hname.2⟩
          · exact hdeclare _
  · split
    · -- the declaration of the default namespace
      split
      · exact ⟨hstart, trivial⟩
      · split
        · exact ⟨hstart, trivial⟩
        · exact hdeclare _
    · -- any other attribute waits for the end of the tag
      refine { hb with attributes := ?_ }
      intro a ha
      rcases List.mem_append.1 ha with ha | ha
      · exact hb.attributes a ha
      · rw [List.mem_singleton.1 ha]
        exact ⟨hstart, hname⟩

theorem resolve_ensures {scope : List Declaration} {pfx : String} {mark : Mark}
    (hpfx : pfx.toList.all isNameChar = true) (hmark : mark ≤ source.length) :
    Ensures (Declaration.resolve scope pfx mark) (fun _ => True)
      (SyntaxError.Within source.length) := by
  unfold Declaration.resolve
  split
  · exact trivial
  · split
    · exact trivial
    · exact ⟨hmark, hpfx⟩

theorem resolveAll_ensures {scope : List Declaration} {written : List WrittenAttribute}
    (h : ∀ a ∈ written, a.StandsIn source) (done : List Attribute) :
    Ensures (WrittenAttribute.resolveAll scope done written) (fun _ => True)
      (SyntaxError.Within source.length) := by
  induction written generalizing done with
  | nil => exact trivial
  | cons a rest ih =>
    have ha := h a List.mem_cons_self
    have hns : Ensures (a.resolve scope) (fun _ => True) (SyntaxError.Within source.length) := by
      unfold WrittenAttribute.resolve
      split
      · exact trivial
      · split
        · exact trivial
        · exact resolve_ensures ha.plain.1 ha.start_le
    refine hns.bind fun ns _ => ?_
    split
    · exact ⟨ha.start_le, ha.plain.2⟩
    · exact ih (fun x hx => h x (List.mem_cons_of_mem _ hx)) _

theorem settle_ensures (hb : b.StandsIn source) :
    Ensures b.settle (fun r => r.2.2.StandsIn source) (SyntaxError.Within source.length) := by
  unfold settle
  refine (resolveAll_ensures hb.attributes []).bind fun attributes _ => ?_
  exact { hb with attributes := nofun }

theorem endTag_ensures {selfClosing : Bool} (hb : b.StandsIn source) :
    Ensures (b.endTag selfClosing) (StandsIn source) (SyntaxError.Within source.length) := by
  unfold endTag
  split
  · exact hb
  · next start name htag =>
    obtain ⟨hstart, hname⟩ := hb.tag start name htag
    -- an unknown prefix of the tag is reported one character behind its `<`
    have hmark : start - 1 ≤ source.length := Nat.le_trans (Nat.sub_le start 1) hstart.mark_le
    refine (settle_ensures hb).bind fun r hr => ?_
    refine (resolve_ensures hname.1 hmark).bind fun ns _ => ?_
    have he : OpenElement.StandsIn source
        ⟨name, ⟨start, ns, name.localPart, r.2.1⟩, r.1, []⟩ := ⟨hstart, hname, nofun⟩
    cases selfClosing with
    | true => exact hr.add he.toNode
    | false =>
      refine { hr with opened := ?_ }
      intro x hx
      rcases List.mem_cons.1 hx with rfl | hx
      · exact he
      · exact hr.opened x hx

theorem close_ensures {start : Mark} {name : QName} (hb : b.StandsIn source)
    (hstart : start ≤ source.length) (hname : name.IsPlain) :
    Ensures (b.close start name) (StandsIn source) (Rejection.Within source.length) := by
  unfold close
  split
  · exact ⟨hstart, trivial⟩
  · refine (settle_ensures hb).malformed.bind fun r hr => ?_
    obtain ⟨scope, attributes, b'⟩ := r
    dsimp only at hr ⊢
    split
    · exact trivial
    · next e outer hopened =>
      have hall : ∀ x ∈ e :: outer, x.StandsIn source := by
        rw [← hopened]
        exact hr.opened
      split
      · -- the element is complete and goes into the one around it
        have houter : StandsIn source { b' with opened := outer } :=
          { hr with opened := fun x hx => hall x (List.mem_cons_of_mem _ hx) }
        exact houter.add (hall e List.mem_cons_self).toNode
      · exact ⟨hstart, (hall e List.mem_cons_self).plain.render, hname.render⟩

end Builder

end TemplateLint
