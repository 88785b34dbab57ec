/-
  TemplateLint.Directive — attributes that a template sets when rendered.

  A `tal:attributes` directive lists attributes with the expressions that
  give their values, separated by semicolons.  `Tag.value?` looks an
  attribute up the way the rendered page would have it: as written, from the
  directive, or from the two binding conventions of the client side.
-/
import TemplateLint.Markup.Node
import TemplateLint.Text.Blank
import TemplateLint.Text.Search

namespace TemplateLint

/-- The namespace of HTML elements. -/
def xhtmlNs : String := "http://www.w3.org/1999/xhtml"

/-- The namespace of template directives. -/
def talNs : String := "http://xml.zope.org/namespaces/tal"

namespace Directive

/-- The entries of a directive in order: the attribute's name and its
expression, which may be missing. Blank entries do not count. -/
def entries (directive : List Char) : List (List Char × List Char) :=
  (((fields ';' directive).map trim).filter (!·.isEmpty)).map splitWord

/-- The expression of the first entry for `name`. -/
def find? (directive name : List Char) : Option (List Char) :=
  ((entries directive).find? (·.1 = name)).map (·.2)

end Directive

namespace Tag

/-- The value of an attribute without namespace. -/
def plain? (tag : Tag) (name : String) : Option String :=
  tag.attribute? none name

/-- The value of a directive. -/
def tal? (tag : Tag) (name : String) : Option String :=
  tag.attribute? (some talNs) name

/-- The value that a client side binding gives the attribute. -/
def bound? (tag : Tag) (name : String) : Option String :=
  (tag.plain? ("x-ng-attr-" ++ name)).or (tag.plain? ("x-ng-" ++ name))

/-- The value of an attribute: the written one; else the directive's, if the
name occurs anywhere in the directive; else that of a binding. -/
def value? (tag : Tag) (name : String) : Option String :=
  match tag.plain? name, tag.tal? "attributes" with
  | some value, _ => some value
  | none, some directive =>
    if contains name.toList directive.toList then
      (Directive.find? directive.toList name.toList).map String.ofList
    else
      tag.bound? name
  | none, none => tag.bound? name

end Tag

end TemplateLint
