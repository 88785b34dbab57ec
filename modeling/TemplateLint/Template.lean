/-
  TemplateLint.Template — linting one template.

  Templates are often fragments and use entities of HTML that XML does not
  know.  One that does not mention a document type gets one in front that
  declares two such entities; lines are counted in the file as written.
-/
import TemplateLint.Check
import TemplateLint.Finding
import TemplateLint.Markup.Document
import TemplateLint.Template.Location

namespace TemplateLint

/-! ## §1. Preparation -/

/-- The document type put in front of templates without one. -/
def injectedDoctype : String :=
  "<!DOCTYPE html [<!ENTITY nbsp 'no-break space'>\n<!ENTITY times 'multiplication sign'>]>\n"

/-- What a template says that brings a document type of its own. -/
def doctypeMark : String := "<!DOCTYPE"

/-- Whether the text mentions a document type, be it in a comment. -/
def hasDoctype (source : String) : Bool :=
  contains doctypeMark.toList source.toList

/-- A template that is ready to be read. -/
structure Template where
  path : Path
  /-- The text with the document type that was put in front. -/
  content : String
  /-- The number of lines that were put in front. -/
  offset : Nat
  /-- The prefix of the paths that are not checked. -/
  exclude : Option String
  deriving DecidableEq, Repr

namespace Template

/-- Prepares the template `source` that stands at `path`. -/
def prepare (path : Path) (source : String) (exclude : Option String) : Template :=
  if hasDoctype source then { path, content := source, offset := 0, exclude }
  else
    { path, content := injectedDoctype ++ source, offset := injectedDoctype.toList.count '\n',
      exclude }

/-- Whether the checks are off for this template. -/
def isExcluded (t : Template) : Bool :=
  t.exclude.any fun start => start.toList.isPrefixOf t.path.display.toList

/-- The template as a document. -/
def document (t : Template) : Except Rejection Document :=
  Document.read t.content.toList

/-! ## §2. Linting -/

/-- The line of the file at which an element begins. -/
def lineOf (t : Template) (e : Element) : Nat :=
  (Position.ofMark t.content.toList e.tag.start).row - t.offset

/-- The finding for an element that breaks a rule. -/
def finding (t : Template) (e : Element) (rule : Rule) : Finding :=
  ⟨t.path, some (t.lineOf e), rule.id, rule.guidance⟩

/-- The message for a template that cannot be read. -/
def errorMessage (t : Template) (error : SyntaxError) : String :=
  Location.describe t.content.toList t.offset error

/-- What the checks find in a document, check by check. -/
def runChecks (t : Template) (checks : List Check) (document : Document) : List Finding :=
  match document.root? with
  | none => []
  | some root =>
    checks.flatMap fun check => (check.offenders root).map fun (e, rule) => t.finding e rule

/-- Reads the template and runs the checks.  One that is malformed gives a
single finding; an excluded one is only read.  Of one that is overclosed
nothing can be said. -/
def lint (t : Template) (checks : List Check) : Option (List Finding) :=
  match t.document with
  | .error (.malformed error) => some [.malformed t.path (t.errorMessage error)]
  | .error .overclosed => none
  | .ok document => some (if t.isExcluded then [] else t.runChecks checks document)

/-- Only an overclosed template has no result, whatever is checked. -/
theorem lint_eq_none_iff (t : Template) (checks : List Check) :
    t.lint checks = none ↔ t.document = .error .overclosed := by
  unfold lint
  split
  · next h => simp [h]
  · next h => simp [h]
  · next h => simp [h]

/-- The notes that `lint` leaves in the log. -/
def log (t : Template) (checks : List Check) : List String :=
  match t.document with
  | .error (.malformed error) =>
    [t.path.display ++ ": not well-formed: " ++ t.errorMessage error]
  | .error .overclosed => []
  | .ok _ =>
    if t.isExcluded then [t.path.display ++ ": checks excluded by prefix"]
    else checks.map fun check =>
      t.path.display ++ ": " ++ check.name ++ " (" ++ check.description ++ ")"

end Template

end TemplateLint
