/-
  TemplateLint.Report — findings in the three output formats.

  As text, one line a finding; as JSON, the list of findings; as SARIF, the
  interchange format of static analysis tools.
-/
import TemplateLint.Finding
import TemplateLint.Json

namespace TemplateLint

/-- The format of a report. -/
inductive Format where
  | text
  | json
  | sarif
  deriving DecidableEq, Repr

/-- The format with this name. -/
def Format.ofName? : String → Option Format
  | "text" => some .text
  | "json" => some .json
  | "sarif" => some .sarif
  | _ => none

namespace Report

/-- The name of the tool. -/
def toolName : String := "check-chameleon"

/-- The version of the tool. -/
def toolVersion : String := "0.1.0"

/-! ## §1. JSON -/

/-- A number, or `null` if there is none. -/
def optional : Option Nat → Json
  | some n => .number n
  | none => .null

/-- A finding whose file has a name in UTF-8. -/
def findingJson? (f : Finding) : Option Json :=
  f.file.text?.map fun file =>
    .object [("file", .string file), ("line", optional f.line), ("rule_id", .string f.rule),
      ("message", .string f.message)]

/-- The findings as one value, if all files have names in UTF-8. -/
def findingsJson? (findings : List Finding) : Option Json :=
  (findings.mapM findingJson?).map fun items => .object [("diagnostics", .array items)]

/-- What stands for the report if a file has no name in UTF-8. -/
def jsonFailure : String :=
  "\x7b\"error\": \"Failed to serialize diagnostics: path contains invalid UTF-8 characters\"\x7d"

/-- The report in JSON. -/
def json (findings : List Finding) : String :=
  ((findingsJson? findings).map Json.render).getD jsonFailure

/-! ## §2. SARIF -/

/-- The place of a result: its file, and its line if it has one. -/
def sarifLocation (f : Finding) : Json :=
  .object [("physicalLocation", .object
    (("artifactLocation", .object [("uri", .string f.file.display)]) ::
      match f.line with
      | some line => [("region", .object [("startLine", .number line)])]
      | none => []))]

/-- A finding as a result. -/
def sarifResult (f : Finding) : Json :=
  .object [("ruleId", .string f.rule), ("level", .string "error"),
    ("message", .object [("text", .string f.message)]),
    ("locations", .array [sarifLocation f])]

/-- The tool that made the report. -/
def sarifTool : Json :=
  .object [("driver", .object [("name", .string toolName), ("version", .string toolVersion)])]

/-- The findings as a log of one run. -/
def sarifJson (findings : List Finding) : Json :=
  .object [("$schema", .string "https://json.schemastore.org/sarif-2.1.0.json"),
    ("version", .string "2.1.0"),
    ("runs", .array [.object
      [("tool", sarifTool), ("results", .array (findings.map sarifResult))]])]

/-! ## §3. All formats -/

/-- The lines of the report as text. -/
def lines (findings : List Finding) : List String :=
  findings.map Finding.render

/-- The report, or nothing if there is nothing to print: only the text format
is silent without findings. -/
def render (format : Format) (findings : List Finding) : Option String :=
  match format with
  | .text => if findings.isEmpty then none else some ("\n".intercalate (lines findings))
  | .json => some (json findings)
  | .sarif => some (sarifJson findings).render

end Report

end TemplateLint
