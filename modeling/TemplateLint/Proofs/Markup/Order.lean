/-
  TemplateLint.Proofs.Markup.Order — places in a tree, and document order.

  A node of a tree has an address: the numbers of the children on the way to
  it.  One node comes before another in the document if its address does in the
  lexicographic order.  Main facts: the walk through a tree meets what stands
  at the addresses (`mem_placed`, `map_snd_placed`), each address once and in
  order (`sorted_placed`).
-/
import TemplateLint.Markup.Document

namespace TemplateLint

/-! ## §1. Addresses -/

namespace Node

/-- The node at an address: each number picks a child, from 0. -/
def at? : Node → List Nat → Option Node
  | node, [] => some node
  | element _ children, i :: address => children[i]?.bind (at? · address)
  | _, _ :: _ => none

mutual

/-- The node and all nodes below it with their addresses, in document order. -/
def placed : Node → List (List Nat × Node)
  | element tag children => ([], element tag children) :: placedFrom 0 children
  | text content => [([], text content)]
  | comment content => [([], comment content)]
  | instruction target content => [([], instruction target content)]

/-- The same for children, the first of which has the number `i`. -/
def placedFrom : Nat → List Node → List (List Nat × Node)
  | _, [] => []
  | i, node :: nodes =>
    (placed node).map (fun p => (i :: p.1, p.2)) ++ placedFrom (i + 1) nodes

end

/-! ## §2. The walk meets every address -/

mutual

theorem map_snd_placed (node : Node) : (placed node).map Prod.snd = walk node := by
  cases node with
  | element tag children =>
    rw [placed, List.map_cons, map_snd_placedFrom 0 children, walk_element]
  | text content => rfl
  | comment content => rfl
  | instruction target content => rfl

theorem map_snd_placedFrom (i : Nat) (nodes : List Node) :
    (placedFrom i nodes).map Prod.snd = walkAll nodes := by
  cases nodes with
  | nil => rfl
  | cons node nodes =>
    rw [placedFrom, List.map_append, List.map_map, map_snd_placedFrom (i + 1) nodes, walkAll_cons,
      ← map_snd_placed node]
    rfl

end

mutual

theorem mem_placed {address : List Nat} {inner : Node} (node : Node) :
    (address, inner) ∈ placed node ↔ node.at? address = some inner := by
  cases node with
  | element tag children =>
    rw [placed, List.mem_cons, mem_placedFrom 0 children]
    cases address with
    | nil => simp [at?, eq_comm]
    | cons i address =>
      -- the children of an element are numbered from 0
      constructor
      · rintro (h | ⟨k, rest, heq, hk⟩)
        · cases h
        · rw [Nat.zero_add] at heq
          cases heq
          exact hk
      · intro h
        exact .inr ⟨i, address, by rw [Nat.zero_add], h⟩
  | text content => cases address <;> simp [placed, at?, eq_comm]
  | comment content => cases address <;> simp [placed, at?, eq_comm]
  | instruction target content => cases address <;> simp [placed, at?, eq_comm]

/-- An address begins with the number of the child in which it lies. -/
theorem mem_placedFrom {address : List Nat} {inner : Node} (i : Nat) (nodes : List Node) :
    (address, inner) ∈ placedFrom i nodes ↔
      ∃ k rest, address = (i + k) :: rest ∧ nodes[k]?.bind (at? · rest) = some inner := by
  cases nodes with
  | nil => simp [placedFrom]
  | cons node nodes =>
    rw [placedFrom, List.mem_append, List.mem_map, mem_placedFrom (i + 1) nodes]
    constructor
    · rintro (⟨⟨rest, found⟩, hmem, heq⟩ | ⟨k, rest, rfl, hk⟩)
      · cases heq
        exact ⟨0, rest, rfl, (mem_placed node).1 hmem⟩
      · exact ⟨k + 1, rest, by rw [Nat.add_right_comm, Nat.add_assoc], hk⟩
    · rintro ⟨k, rest, rfl, hk⟩
      cases k with
      | zero => exact .inl ⟨(rest, inner), (mem_placed node).2 hk, rfl⟩
      | succ k => exact .inr ⟨k, rest, by rw [Nat.add_right_comm, Nat.add_assoc], hk⟩

end

/-! ## §3. Document order -/

mutual

/-- **Document order.**  A node comes before those below it, and these come child
by child. -/
theorem sorted_placed (node : Node) : ((placed node).map Prod.fst).Pairwise (· < ·) := by
  cases node with
  | element tag children =>
    rw [placed, List.map_cons, List.pairwise_cons]
    refine ⟨?_, sorted_placedFrom 0 children⟩
    -- the empty address comes before all others
    intro address haddress
    obtain ⟨⟨_, inner⟩, hmem, rfl⟩ := List.mem_map.1 haddress
    obtain ⟨k, rest, heq, -⟩ := (mem_placedFrom 0 children).1 hmem
    rw [heq]
    exact List.nil_lt_cons _ _
  | text content => exact List.pairwise_singleton _ _
  | comment content => exact List.pairwise_singleton _ _
  | instruction target content => exact List.pairwise_singleton _ _

theorem sorted_placedFrom (i : Nat) (nodes : List Node) :
    ((placedFrom i nodes).map Prod.fst).Pairwise (· < ·) := by
  cases nodes with
  | nil => exact .nil
  | cons node nodes =>
    rw [placedFrom, List.map_append, List.pairwise_append, List.map_map]
    refine ⟨?_, sorted_placedFrom (i + 1) nodes, ?_⟩
    · -- inside the first child all addresses begin with its number
      have hinner := sorted_placed node
      rw [List.pairwise_map] at hinner ⊢
      exact hinner.imp fun h => List.cons_lt_cons_iff.2 (.inr ⟨rfl, h⟩)
    · -- the later children have larger numbers
      intro first hfirst second hsecond
      obtain ⟨p, -, rfl⟩ := List.mem_map.1 hfirst
      obtain ⟨⟨_, inner⟩, hmem, rfl⟩ := List.mem_map.1 hsecond
      obtain ⟨k, rest, heq, -⟩ := (mem_placedFrom (i + 1) nodes).1 hmem
      rw [heq]
      exact List.cons_lt_cons_iff.2 (.inl (by omega))

end

end Node

/-! ## §4. Elements -/

namespace Element

/-- The element as a node. -/
def node (e : Element) : Node :=
  .element e.tag e.children

/-- The element and all elements below it with their addresses. -/
def placed (e : Element) : List (List Nat × Element) :=
  e.node.placed.filterMap fun p => p.2.element?.map fun inner => (p.1, inner)

theorem element?_eq_some {node : Node} {e : Element} : node.element? = some e ↔ node = e.node := by
  constructor
  · intro h
    cases node <;> cases h
    rfl
  · rintro rfl
    rfl

theorem mem_placed {e inner : Element} {address : List Nat} :
    (address, inner) ∈ e.placed ↔ e.node.at? address = some inner.node := by
  unfold placed
  rw [List.mem_filterMap, ← Node.mem_placed]
  constructor
  · rintro ⟨⟨address', node⟩, hmem, hsome⟩
    obtain ⟨found, hfound, hpair⟩ := Option.map_eq_some_iff.1 hsome
    cases hpair
    rw [← element?_eq_some.1 hfound]
    exact hmem
  · intro h
    exact ⟨(address, inner.node), h, rfl⟩

theorem map_snd_placed (e : Element) : e.placed.map Prod.snd = e.elements := by
  have helements : e.elements = e.node.walk.filterMap Node.element? := rfl
  rw [helements, ← Node.map_snd_placed, List.filterMap_map]
  unfold placed
  rw [List.map_filterMap]
  congr 1
  funext p
  show Option.map Prod.snd (p.2.element?.map fun inner => (p.1, inner)) = p.2.element?
  cases p.2.element? with
  | none => rfl
  | some inner => rfl

theorem sorted_placed (e : Element) : e.placed.Pairwise (fun p q => p.1 < q.1) := by
  have hsorted := Node.sorted_placed e.node
  rw [List.pairwise_map] at hsorted
  unfold placed
  rw [List.pairwise_filterMap]
  refine hsorted.imp fun hlt first hfirst second hsecond => ?_
  obtain ⟨_, -, rfl⟩ := Option.map_eq_some_iff.1 hfirst
  obtain ⟨_, -, rfl⟩ := Option.map_eq_some_iff.1 hsecond
  exact hlt

/-- Something with the property `p` stands properly below the element. -/
def HasBelow (e : Element) (p : Node → Prop) : Prop :=
  ∃ address node, address ≠ [] ∧ e.node.at? address = some node ∧ p node

/-- An element with the property `p` stands properly below the element. -/
def HasElementBelow (e : Element) (p : Element → Prop) : Prop :=
  e.HasBelow fun node => ∃ inner : Element, node = inner.node ∧ p inner

theorem mem_descendants {e : Element} {node : Node} :
    node ∈ e.descendants ↔ ∃ address, address ≠ [] ∧ e.node.at? address = some node := by
  unfold descendants
  rw [← Node.map_snd_placedFrom 0, List.mem_map]
  constructor
  · rintro ⟨⟨address, found⟩, hmem, rfl⟩
    obtain ⟨k, rest, -, hk⟩ := (Node.mem_placedFrom 0 e.children).1 hmem
    exact ⟨k :: rest, List.cons_ne_nil k rest, hk⟩
  · rintro ⟨address, hne, hat⟩
    cases address with
    | nil => exact absurd rfl hne
    | cons i rest =>
      exact ⟨(i :: rest, node),
        (Node.mem_placedFrom 0 e.children).2 ⟨i, rest, by rw [Nat.zero_add], hat⟩, rfl⟩

theorem any_descendants {e : Element} {test : Node → Bool} :
    e.descendants.any test = true ↔ e.HasBelow fun node => test node = true := by
  rw [List.any_eq_true]
  constructor
  · rintro ⟨node, hmem, htest⟩
    obtain ⟨address, hne, hat⟩ := mem_descendants.1 hmem
    exact ⟨address, node, hne, hat, htest⟩
  · rintro ⟨address, node, hne, hat, htest⟩
    exact ⟨node, mem_descendants.2 ⟨address, hne, hat⟩, htest⟩

theorem any_innerElements {e : Element} {test : Element → Bool} :
    e.innerElements.any test = true ↔ e.HasElementBelow fun inner => test inner = true := by
  unfold innerElements
  rw [List.any_eq_true]
  constructor
  · rintro ⟨inner, hmem, htest⟩
    obtain ⟨node, hnode, helement⟩ := List.mem_filterMap.1 hmem
    obtain ⟨address, hne, hat⟩ := mem_descendants.1 hnode
    exact ⟨address, node, hne, hat, inner, element?_eq_some.1 helement, htest⟩
  · rintro ⟨address, node, hne, hat, inner, rfl, htest⟩
    exact ⟨inner, List.mem_filterMap.2
      ⟨inner.node, mem_descendants.2 ⟨address, hne, hat⟩, rfl⟩, htest⟩

end Element

end TemplateLint
