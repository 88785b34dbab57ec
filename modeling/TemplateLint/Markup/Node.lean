/-
  TemplateLint.Markup.Node — document trees.

  Names are kept with the namespace that applies to them.  `none` is "no
  namespace"; a declaration with an empty value gives the namespace `""`,
  which is another one.
-/
import TemplateLint.Text.Position

namespace TemplateLint

/-- An attribute of an element. -/
structure Attribute where
  ns : Option String
  name : String
  value : String
  deriving DecidableEq, Repr

/-- What the start tag of an element says, and where its `<` stands. -/
structure Tag where
  start : Mark
  ns : Option String
  name : String
  attributes : List Attribute
  deriving DecidableEq, Repr

/-- The value of the attribute with this namespace and name. -/
def Tag.attribute? (tag : Tag) (ns : Option String) (name : String) : Option String :=
  (tag.attributes.find? fun a => a.ns = ns ∧ a.name = name).map (·.value)

/-- A part of a document. -/
inductive Node where
  | element (tag : Tag) (children : List Node)
  | text (content : String)
  | comment (content : String)
  | instruction (target content : String)

/-- An element with all that it holds. -/
structure Element where
  tag : Tag
  children : List Node

namespace Node

/-- Whether the node is a run of character data. -/
def isText : Node → Bool
  | text _ => true
  | _ => false

/-- The node as an element. -/
def element? : Node → Option Element
  | element tag children => some ⟨tag, children⟩
  | _ => none

mutual

/-- The node and all nodes below it, in document order, in front of `rest`. -/
def walkOnto : Node → List Node → List Node
  | element tag children, rest => element tag children :: walkAllOnto children rest
  | text content, rest => text content :: rest
  | comment content, rest => comment content :: rest
  | instruction target content, rest => instruction target content :: rest

/-- The given nodes, each followed by the nodes below it, in front of `rest`. -/
def walkAllOnto : List Node → List Node → List Node
  | [], rest => rest
  | node :: nodes, rest => walkOnto node (walkAllOnto nodes rest)

end

/-- The node and all nodes below it, in document order. -/
def walk (node : Node) : List Node :=
  walkOnto node []

/-- The given nodes, each followed by the nodes below it. -/
def walkAll (nodes : List Node) : List Node :=
  walkAllOnto nodes []

mutual

theorem walkOnto_append (node : Node) (xs ys : List Node) :
    walkOnto node (xs ++ ys) = walkOnto node xs ++ ys := by
  cases node with
  | element tag children => simp [walkOnto, walkAllOnto_append children xs ys]
  | text content => rfl
  | comment content => rfl
  | instruction target content => rfl

theorem walkAllOnto_append (nodes xs ys : List Node) :
    walkAllOnto nodes (xs ++ ys) = walkAllOnto nodes xs ++ ys := by
  cases nodes with
  | nil => rfl
  | cons node nodes =>
    simp [walkAllOnto, walkAllOnto_append nodes xs ys,
      walkOnto_append node (walkAllOnto nodes xs) ys]

end

@[simp] theorem walk_element (tag : Tag) (children : List Node) :
    walk (element tag children) = element tag children :: walkAll children := rfl

@[simp] theorem walk_text (content : String) : walk (text content) = [text content] := rfl

@[simp] theorem walk_comment (content : String) :
    walk (comment content) = [comment content] := rfl

@[simp] theorem walk_instruction (target content : String) :
    walk (instruction target content) = [instruction target content] := rfl

@[simp] theorem walkAll_nil : walkAll [] = [] := rfl

@[simp] theorem walkAll_cons (node : Node) (nodes : List Node) :
    walkAll (node :: nodes) = walk node ++ walkAll nodes := by
  simpa [walk, walkAll, walkAllOnto] using walkOnto_append node [] (walkAllOnto nodes [])

end Node

namespace Element

/-- All nodes below the element, in document order. -/
def descendants (e : Element) : List Node :=
  Node.walkAll e.children

/-- All elements below the element, in document order. -/
def innerElements (e : Element) : List Element :=
  e.descendants.filterMap Node.element?

/-- The element and all elements below it, in document order. -/
def elements (e : Element) : List Element :=
  e :: e.innerElements

end Element

/-- A document: its top-level nodes in order. -/
structure Document where
  children : List Node

namespace Document

/-- The first top-level element. -/
def root? (d : Document) : Option Element :=
  d.children.findSome? Node.element?

/-- All elements, in document order. -/
def elements (d : Document) : List Element :=
  (Node.walkAll d.children).filterMap Node.element?

end Document

end TemplateLint
