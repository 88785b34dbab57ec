/-
  TemplateLint.Finding — what a run reports.

  A finding is a problem in a file.  A template that cannot be read has one
  finding without a line, whose message names the place.
-/
import TemplateLint.Files.Path
import TemplateLint.Text.Decimal

namespace TemplateLint

/-- One reported problem. -/
structure Finding where
  file : Path
  line : Option Nat
  rule : String
  message : String
  deriving DecidableEq, Repr

namespace Finding

/-- The rule of templates that cannot be read. -/
def syntaxErrorRule : String := "syntax-error"

/-- The finding for a template that cannot be read. -/
def malformed (file : Path) (message : String) : Finding :=
  ⟨file, none, syntaxErrorRule, message⟩

/-- Whether the template could not be read. -/
def isMalformed (f : Finding) : Bool :=
  f.rule = syntaxErrorRule

/-- The finding as one line. -/
def render (f : Finding) : String :=
  match f.line with
  | some line => f.file.display ++ ":" ++ Decimal.render line ++ " " ++ f.message
  | none => f.file.display ++ ": " ++ f.message

/-- The findings of one rule. -/
def ofRule (rule : String) (findings : List Finding) : List Finding :=
  findings.filter (·.rule = rule)

/-- The exit status of a run: 1 if anything was reported. -/
def exitStatus (findings : List Finding) : Nat :=
  if findings.isEmpty then 0 else 1

end Finding

end TemplateLint
