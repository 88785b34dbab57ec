/-
  TemplateLint.Markup.Builder — a document under construction.

  A `Builder` holds the elements that are still open, innermost first, and
  the start tag being read.  Attributes and namespace declarations wait
  until their tag ends, since a declaration applies to the whole tag; what
  waits survives the end of an entity that leaves its tag unfinished.  The
  numbers of nodes, attributes and namespaces are not limited: no document is
  rejected for its size.
-/
import TemplateLint.Markup.Expansion
import TemplateLint.Markup.Node
import TemplateLint.Markup.Rejection
import TemplateLint.Markup.Token

namespace TemplateLint

/-! ## §1. Namespaces -/

/-- A namespace declaration; the default namespace has the empty prefix. -/
structure Declaration where
  pfx : String
  uri : String
  deriving DecidableEq, Repr

/-- The namespace that the prefix `xml` has everywhere. -/
def xmlUri : String := "http://www.w3.org/XML/1998/namespace"

/-- The namespace of declarations, which none may declare. -/
def xmlnsUri : String := "http://www.w3.org/2000/xmlns/"

/-- The namespace of a prefix; without a prefix there may be none. -/
def Declaration.resolve (scope : List Declaration) (pfx : String) (mark : Mark) :
    Except SyntaxError (Option String) :=
  match scope.find? (·.pfx = pfx) with
  | some d => .ok (some d.uri)
  | none => if pfx.isEmpty then .ok none else .error (.located (.unknownPrefix pfx) mark)

/-- The declarations in scope inside a tag with its own ones in front. -/
def Declaration.extend (own outer : List Declaration) : List Declaration :=
  own ++ outer.filter fun d => !own.any (·.pfx = d.pfx)

/-- An attribute whose namespace is still to be found. -/
structure WrittenAttribute where
  start : Mark
  name : QName
  value : String
  deriving DecidableEq, Repr

namespace WrittenAttribute

/-- The namespace of the attribute; the default one does not apply to it. -/
def resolve (scope : List Declaration) (a : WrittenAttribute) :
    Except SyntaxError (Option String) :=
  if a.name.pfx = "xml" then .ok (some xmlUri)
  else if a.name.pfx.isEmpty then .ok none
  else Declaration.resolve scope a.name.pfx a.start

/-- The attributes with their namespaces, after those already `done`.  No
two may agree in namespace and name. -/
def resolveAll (scope : List Declaration) (done : List Attribute) :
    List WrittenAttribute → Except SyntaxError (List Attribute)
  | [] => .ok done
  | a :: rest => do
    let ns ← a.resolve scope
    if done.any fun b => b.ns = ns ∧ b.name = a.name.localPart then
      .error (.located (.attributeRepeated a.name.localPart) a.start)
    else
      resolveAll scope (done ++ [⟨ns, a.name.localPart, a.value⟩]) rest

end WrittenAttribute

/-! ## §2. The state -/

/-- An element whose close tag has not been read. -/
structure OpenElement where
  name : QName
  tag : Tag
  scope : List Declaration
  /-- The nodes inside, newest first. -/
  children : List Node

/-- The element once it is closed. -/
def OpenElement.toNode (e : OpenElement) : Node :=
  .element e.tag e.children.reverse

/-- A document under construction. -/
structure Builder where
  entities : List Entity := []
  /-- The open elements, innermost first. -/
  opened : List OpenElement := []
  /-- The top-level nodes that are complete, newest first. -/
  finished : List Node := []
  /-- The tag read last in the present text: place and name. -/
  tag : Option (Mark × QName) := none
  /-- The attributes that wait for the end of their tag. -/
  attributes : List WrittenAttribute := []
  /-- The declarations that wait for the end of their tag. -/
  declarations : List Declaration := []
  /-- The uses of entities since the outermost one. -/
  uses : Nat := 0

namespace Builder

/-- The declarations in scope at the present place. -/
def scope (b : Builder) : List Declaration :=
  match b.opened with
  | [] => []
  | e :: _ => e.scope

/-- Applies `f` to the nodes of the innermost open element. -/
def modifyNodes (f : List Node → List Node) (b : Builder) : Builder :=
  match b.opened with
  | [] => { b with finished := f b.finished }
  | e :: outer => { b with opened := { e with children := f e.children } :: outer }

/-- Adds a node. -/
def add (node : Node) (b : Builder) : Builder :=
  b.modifyNodes (node :: ·)

/-- Adds character data, which goes on with the text node before it. -/
def addText (content : List Char) (b : Builder) : Builder :=
  b.modifyNodes fun
    | .text before :: nodes => .text (before ++ String.ofList content) :: nodes
    | nodes => .text (String.ofList content) :: nodes

/-! ## §3. Tags -/

/-- Begins a tag. -/
def beginTag (start : Mark) (name : QName) (b : Builder) : Except SyntaxError Builder :=
  if name.pfx = "xmlns" then .error (.located .xmlnsPrefixOnElement (start - 1))
  else .ok { b with tag := some (start, name) }

/-- Adds a namespace declaration to the present tag. -/
def declare (pfx uri : String) (b : Builder) : Builder :=
  { b with declarations := b.declarations ++ [⟨pfx, uri⟩] }

/-- Adds an attribute to the present tag, or the declaration that it is. -/
def addAttribute (start : Mark) (name : QName) (value : String) (b : Builder) :
    Except SyntaxError Builder :=
  if name.pfx = "xmlns" then
    if value = xmlnsUri then .error (.located .xmlnsUriDeclared start)
    else if name.localPart = "xml" then
      if value = xmlUri then .ok b else .error (.located .xmlPrefixRebound start)
    else if value = xmlUri then .error (.located .xmlUriMisused start)
    else if b.declarations.any (·.pfx = name.localPart) then
      .error (.located (.namespaceRepeated name.localPart) start)
    else .ok (b.declare name.localPart value)
  else if name.localPart = "xmlns" then
    if value = xmlUri then .error (.located .xmlUriMisused start)
    else if value = xmlnsUri then .error (.located .xmlnsUriDeclared start)
    else .ok (b.declare "" value)
  else
    .ok { b with attributes := b.attributes ++ [⟨start, name, value⟩] }

/-- Settles what waits for the end of a tag: the declarations in scope from
here on and the attributes.  Nothing waits afterwards. -/
def settle (b : Builder) :
    Except SyntaxError (List Declaration × List Attribute × Builder) := do
  let scope := Declaration.extend b.declarations b.scope
  let attributes ← WrittenAttribute.resolveAll scope [] b.attributes
  return (scope, attributes, { b with attributes := [], declarations := [] })

/-- Ends a start tag; its element is complete or stays open.  Where no tag has
begun, there is none to end. -/
def endTag (selfClosing : Bool) (b : Builder) : Except SyntaxError Builder :=
  match b.tag with
  | none => .ok b
  | some (start, name) => do
    let (scope, attributes, b) ← b.settle
    let ns ← Declaration.resolve scope name.pfx (start - 1)
    let e : OpenElement :=
      { name, tag := ⟨start, ns, name.localPart, attributes⟩, scope, children := [] }
    if selfClosing then return b.add e.toNode
    else return { b with opened := e :: b.opened }

/-- Closes the innermost element, whose name must be written the same way.
A close tag cannot be the first tag in the text of an entity.  With no
element open the text is overclosed, whatever the name is. -/
def close (start : Mark) (name : QName) (b : Builder) : Except Rejection Builder :=
  match b.tag with
  | none => .error (.malformed (.located .unexpectedClose start))
  | some _ => do
    let (_, _, b) ← b.settle.mapError .malformed
    match b.opened with
    | [] => .error .overclosed
    | e :: outer =>
      if e.name = name then
        return { b with opened := outer }.add e.toNode
      else
        .error (.malformed (.located (.closeMismatch e.name.render name.render) start))

/-! ## §4. The end -/

/-- The document, if all elements are closed and there is one. -/
def finish (b : Builder) : Except SyntaxError Document :=
  if b.opened.isEmpty then
    if b.finished.any (·.element?.isSome) then .ok ⟨b.finished.reverse⟩ else .error .noRoot
  else
    .error .unclosedRoot

end Builder

end TemplateLint
