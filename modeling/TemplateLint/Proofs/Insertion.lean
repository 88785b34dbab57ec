/-
  TemplateLint.Proofs.Insertion — adding content creates no finding.

  A subtree is put into a document as one more child of an element at or below the
  root.  `Node.moved` says where a node stands afterwards, and what stands there is
  the same node, or an element around the new child that has grown by it.  An element
  embeds into what it has become, so it breaks no rule that it did not break before;
  and the rules that ask for attributes only are broken as before.

  Main result: `insertion_creates_no_finding`.
-/
import TemplateLint.Proofs.Embedding

namespace TemplateLint

/-! ## §1. One more child -/

/-- The second element is the first one with `new` as one more child: the child number
`i` of the element at the address `place`. -/
inductive Element.Inserts (new : Node) (i : Nat) : List Nat → Element → Element → Prop
  | here (tag : Tag) (before after : List Node) (hi : before.length = i) :
      Inserts new i [] ⟨tag, before ++ after⟩ ⟨tag, before ++ new :: after⟩
  | inside (tag : Tag) (before after : List Node) {place : List Nat} {inner inner' : Element}
      (h : Inserts new i place inner inner') :
      Inserts new i (before.length :: place) ⟨tag, before ++ inner.node :: after⟩
        ⟨tag, before ++ inner'.node :: after⟩

/-- The second document is the first one with `new` as one more child in its root
element. -/
inductive Document.Inserts (new : Node) (i : Nat) (place : List Nat) : Document → Document → Prop
  | root {before after : List Node} {root root' : Element}
      (hbefore : ∀ node ∈ before, node.element? = none) (h : root.Inserts new i place root') :
      Inserts new i place ⟨before ++ root.node :: after⟩ ⟨before ++ root'.node :: after⟩

/-- The address at which a node stands once there is a new child with the number `i`
in the element at `place`. -/
def Node.moved (i : Nat) : List Nat → List Nat → List Nat
  | _, [] => []
  | [], j :: rest => (if i ≤ j then j + 1 else j) :: rest
  | k :: place, j :: rest => j :: (if j = k then moved i place rest else rest)

/-- The children from number `i` on stand one further back. -/
theorem getElem?_insert {before after : List Node} (new : Node) {i : Nat} (hi : before.length = i)
    (j : Nat) : (before ++ new :: after)[if i ≤ j then j + 1 else j]? = (before ++ after)[j]? := by
  split
  · next hle =>
    rw [List.getElem?_append_right (by omega), List.getElem?_append_right (by omega),
      show j + 1 - before.length = (j - before.length) + 1 by omega, List.getElem?_cons_succ]
  · next hlt => rw [List.getElem?_append_left (by omega), List.getElem?_append_left (by omega)]

/-- Where one child is replaced the others stay. -/
theorem getElem?_replace {before after : List Node} (old new : Node) {j : Nat}
    (hj : j ≠ before.length) : (before ++ new :: after)[j]? = (before ++ old :: after)[j]? := by
  rcases Nat.lt_or_gt_of_ne hj with hlt | hgt
  · rw [List.getElem?_append_left hlt, List.getElem?_append_left hlt]
  · rw [List.getElem?_append_right (by omega), List.getElem?_append_right (by omega),
      show j - before.length = (j - before.length - 1) + 1 by omega, List.getElem?_cons_succ,
      List.getElem?_cons_succ]

theorem Element.node_injective {e e' : Element} (h : e.node = e'.node) : e = e' :=
  Option.some.inj (congrArg Node.element? h)

namespace Element.Inserts

variable {new : Node} {i : Nat} {place : List Nat} {e e' : Element}

theorem tag_eq (h : e.Inserts new i place e') : e'.tag = e.tag := by
  cases h with
  | here => rfl
  | inside => rfl

/-- **What becomes of a node.**  At its new address there is the same node, or the
new child was put in at or below it. -/
theorem at?_moved (h : e.Inserts new i place e') {address : List Nat} {node : Node}
    (hat : e.node.at? address = some node) :
    ∃ node', e'.node.at? (Node.moved i place address) = some node' ∧
      (node' = node ∨ ∃ (inner inner' : Element) (rest : List Nat), node = inner.node ∧
        node' = inner'.node ∧ place = address ++ rest ∧ inner.Inserts new i rest inner') := by
  induction h generalizing address node with
  | here tag before after hi =>
    cases address with
    | nil =>
      cases hat
      exact ⟨_, rfl, .inr ⟨_, _, [], rfl, rfl, rfl, .here tag before after hi⟩⟩
    | cons j rest =>
      refine ⟨node, ?_, .inl rfl⟩
      have hchild : (before ++ after)[j]?.bind (Node.at? · rest) = some node := hat
      show (before ++ new :: after)[if i ≤ j then j + 1 else j]?.bind (Node.at? · rest) = _
      rw [getElem?_insert new hi j]
      exact hchild
  | @inside tag before after place inner inner' h ih =>
    cases address with
    | nil =>
      cases hat
      exact ⟨_, rfl, .inr ⟨_, _, _, rfl, rfl, rfl, .inside tag before after h⟩⟩
    | cons j rest =>
      have hchild : (before ++ inner.node :: after)[j]?.bind (Node.at? · rest) = some node := hat
      show ∃ node', (before ++ inner'.node :: after)[j]?.bind
        (Node.at? · (if j = before.length then Node.moved i place rest else rest)) = some node' ∧ _
      by_cases hj : j = before.length
      · -- the way goes through the child that has grown
        have hinner : inner.node.at? rest = some node := by
          simpa [hj] using hchild
        obtain ⟨node', hat', hbecome⟩ := ih hinner
        refine ⟨node', by simpa [hj] using hat', ?_⟩
        rcases hbecome with heq | ⟨grown, grown', more, hnode, hnode', hplace, hgrown⟩
        · exact .inl heq
        · exact .inr ⟨grown, grown', more, hnode, hnode', by rw [hj, hplace]; rfl, hgrown⟩
      · -- the other children are those that were there
        refine ⟨node, ?_, .inl rfl⟩
        rw [if_neg hj, getElem?_replace inner.node inner'.node hj]
        exact hchild

/-- What becomes of an element. -/
theorem exists_element {root root' : Element} (h : root.Inserts new i place root')
    {address : List Nat} (hat : root.node.at? address = some e.node) :
    ∃ e' : Element, root'.node.at? (Node.moved i place address) = some e'.node ∧
      (e' = e ∨ ∃ rest, place = address ++ rest ∧ e.Inserts new i rest e') := by
  obtain ⟨node', hat', hbecome⟩ := h.at?_moved hat
  rcases hbecome with heq | ⟨inner, inner', rest, hnode, hnode', hplace, hinner⟩
  · exact ⟨e, by rw [hat', heq], .inl rfl⟩
  · rw [← Element.node_injective hnode] at hinner
    exact ⟨inner', by rw [hat', hnode'], .inr ⟨rest, hplace, hinner⟩⟩

/-- An element embeds into what it has become. -/
theorem embeds (h : e.Inserts new i place e') : e.Embeds e' where
  tag := by
    rw [h.tag_eq]
    exact .refl e.tag
  below := by
    intro address node hne hat
    obtain ⟨node', hat', hbecome⟩ := h.at?_moved hat
    refine ⟨Node.moved i place address, node', ?_, hat', ?_⟩
    · -- only the empty address leads to the element itself
      cases address with
      | nil => exact absurd rfl hne
      | cons j rest => cases place <;> simp [Node.moved]
    · rcases hbecome with heq | ⟨inner, inner', rest, hnode, hnode', -, hinner⟩
      · rw [heq]
        exact .refl node
      · rw [hnode, hnode']
        apply Node.serves_of_alike
        rw [hinner.tag_eq]
        exact .refl inner.tag

end Element.Inserts

/-! ## §2. Findings before and after -/

/-- Two checks ask for attributes of an element only, and not for what it holds. -/
theorem Check.verdict_eq_of_tag_eq {check : Check} {e e' : Element}
    (hcheck : check = .linkTarget ∨ check = .imageDescription) (htag : e'.tag = e.tag) :
    check.verdict e' = check.verdict e := by
  obtain ⟨tag, children⟩ := e
  obtain ⟨tag', children'⟩ := e'
  obtain rfl : tag' = tag := htag
  rcases hcheck with rfl | rfl
  · rfl
  · rfl

/-- The root is found behind what is no element. -/
theorem Document.root?_append {before after : List Node} {root : Element}
    (hbefore : ∀ node ∈ before, node.element? = none) :
    (Document.mk (before ++ root.node :: after)).root? = some root := by
  unfold Document.root?
  rw [List.findSome?_append, List.findSome?_eq_none_iff.2 hbefore]
  rfl

/-- What a check finds in a document is reported with the places in the file. -/
theorem Template.runChecks_singleton {d : Document} {root : Element} (hroot : d.root? = some root)
    (t : Template) (check : Check) :
    t.runChecks [check] d = (check.found root).map fun f => t.finding f.2.1 f.2.2 := by
  unfold runChecks
  rw [hroot]
  show [check].flatMap _ = _
  rw [List.flatMap_singleton, ← Check.map_snd_found, List.map_map]
  rfl

/-- **Adding content creates no finding on what was there.**  Let a document have one
more child, with all that it holds, in an element at or below the root.  Each check
reports what it finds below the roots.  Every element of the document is there
afterwards, at the address that it was moved to: as it was, or around the new child.
Whatever a check finds there it found before; and the checks of link targets and image
descriptions find there what they found before. -/
theorem insertion_creates_no_finding (d d' : Document) (new : Node) (i : Nat) (place : List Nat)
    (h : d.Inserts new i place d') :
    ∃ root root' : Element, (d.root? = some root ∧ d'.root? = some root') ∧
      (∀ (t : Template) (check : Check),
        t.runChecks [check] d = (check.found root).map (fun f => t.finding f.2.1 f.2.2) ∧
        t.runChecks [check] d' = (check.found root').map (fun f => t.finding f.2.1 f.2.2)) ∧
      ∀ (address : List Nat) (e : Element), root.node.at? address = some e.node →
        ∃ e' : Element, root'.node.at? (Node.moved i place address) = some e'.node ∧
          (e' = e ∨ ∃ rest, place = address ++ rest ∧ e.Inserts new i rest e') ∧
          (∀ (check : Check) (rule : Rule),
            (Node.moved i place address, e', rule) ∈ check.found root' →
              (address, e, rule) ∈ check.found root) ∧
          ∀ (check : Check) (rule : Rule), check = .linkTarget ∨ check = .imageDescription →
            ((Node.moved i place address, e', rule) ∈ check.found root' ↔
              (address, e, rule) ∈ check.found root) := by
  cases h with
  | @root before after root root' hbefore hroots =>
    have hroot : (Document.mk (before ++ root.node :: after)).root? = some root :=
      Document.root?_append hbefore
    have hroot' : (Document.mk (before ++ root'.node :: after)).root? = some root' :=
      Document.root?_append hbefore
    refine ⟨root, root', ⟨hroot, hroot'⟩, ?_, ?_⟩
    · intro t check
      exact ⟨t.runChecks_singleton hroot check, t.runChecks_singleton hroot' check⟩
    · intro address e hat
      obtain ⟨e', hat', hbecome⟩ := hroots.exists_element hat
      have hembeds : e.Embeds e' := by
        rcases hbecome with heq | ⟨rest, -, hinserts⟩
        · rw [heq]
          exact .refl e
        · exact hinserts.embeds
      have htag : e'.tag = e.tag := by
        rcases hbecome with heq | ⟨rest, -, hinserts⟩
        · rw [heq]
        · exact hinserts.tag_eq
      refine ⟨e', hat', hbecome, ?_, ?_⟩
      · intro check rule hfound
        exact Check.mem_found.2 ⟨hat, (Check.mem_found.1 hfound).2.of_embeds hembeds⟩
      · intro check rule hcheck
        rw [Check.mem_found, Check.mem_found, ← Check.verdict_eq_some_iff,
          ← Check.verdict_eq_some_iff, Check.verdict_eq_of_tag_eq hcheck htag]
        exact and_congr (iff_of_true hat' hat) Iff.rfl

/-- An element without attributes. -/
def bare (name : String) (children : List Node) : Element :=
  ⟨⟨0, none, name, []⟩, children⟩

/-- Behind a comment, in a paragraph, a link gets a text in front of the image that it
holds.  The image without a description has moved and is still reported, and so is the
link without a target, which has grown. -/
theorem insertion_creates_no_finding_text_in_link :
    let image := (bare "img" []).node
    let d := Document.mk [.comment "", (bare "p" [(bare "a" [image]).node]).node]
    let d' := Document.mk [.comment "", (bare "p" [(bare "a" [.text "x", image]).node]).node]
    d.Inserts (.text "x") 0 [0] d' ∧
    ∃ (root' link' image' : Element), d'.root? = some root' ∧
      ([0, 1], image', .missingImageDescription) ∈ Check.imageDescription.found root' ∧
      ([0], link', .missingLinkTarget) ∈ Check.linkTarget.found root' := by
  intro image d d'
  have hinserts : d.Inserts (.text "x") 0 [0] d' := by
    show Document.Inserts _ _ _
      ⟨[.comment ""] ++ (bare "p" ([] ++ (bare "a" [image]).node :: [])).node :: []⟩
      ⟨[.comment ""] ++ (bare "p" ([] ++ (bare "a" [.text "x", image]).node :: [])).node :: []⟩
    refine .root ?_ (.inside _ [] [] (.here _ [] [image] rfl))
    intro node hnode
    rw [List.mem_singleton.1 hnode]
    rfl
  obtain ⟨root, root', ⟨hroot, hroot'⟩, -, hbecome⟩ :=
    insertion_creates_no_finding d d' (.text "x") 0 [0] hinserts
  obtain rfl : root = bare "p" [(bare "a" [image]).node] := (Option.some.inj hroot).symm
  obtain ⟨image', -, -, -, himage⟩ := hbecome [0, 0] (bare "img" []) rfl
  obtain ⟨link', -, -, -, hlink⟩ := hbecome [0] (bare "a" [image]) rfl
  refine ⟨hinserts, root', link', image', hroot', ?_, ?_⟩
  · apply (himage .imageDescription .missingImageDescription (.inr rfl)).2
    exact Check.mem_found.2 ⟨rfl, .missingImageDescription ⟨rfl, .inl rfl⟩ rfl⟩
  · apply (hlink .linkTarget .missingLinkTarget (.inl rfl)).2
    exact Check.mem_found.2 ⟨rfl, .missingLinkTarget ⟨rfl, .inl rfl⟩ rfl⟩

end TemplateLint
