/-
  TemplateLint.Proofs.Reports — what a decoder finds in a structured report.

  A report in JSON lists the findings as they are, so two runs with the same
  report had the same findings; where the name of a file is not UTF-8 it says
  instead that it failed.  A log in SARIF holds one result a finding.  Main
  result: `reports_decode`, over all lists of findings.
-/
import Mathlib.Data.List.Forall2
import TemplateLint.Proofs.Json.RoundTrip
import TemplateLint.Proofs.Text.Utf8
import TemplateLint.Report

namespace TemplateLint

open Json (Value Step)

/-! ## §1. What is to be found -/

/-- The name of the file is UTF-8. -/
def Finding.HasPlainFile (f : Finding) : Prop :=
  ∃ text, Path.ofString text = f.file

/-- The number, or `null` if there is none. -/
def Json.Value.ofLine : Option Nat → Value
  | some line => .number line
  | none => .null

/-- The value has the four members of a finding and no others. -/
def Json.Value.Lists (v : Value) (f : Finding) : Prop :=
  ∃ file, Path.ofString file = f.file ∧
    v = .object [("file", .string file), ("line", .ofLine f.line), ("rule_id", .string f.rule),
      ("message", .string f.message)]

/-- The way from a result to the place that it names. -/
def Json.Step.place : List Step :=
  [.member "locations", .item 0, .member "physicalLocation"]

/-- The value is the result for a finding. -/
structure Json.Value.IsResult (v : Value) (f : Finding) : Prop where
  rule : v.at? [.member "ruleId"] = some (.string f.rule)
  message : v.at? [.member "message", .member "text"] = some (.string f.message)
  file : v.at? (Step.place ++ [.member "artifactLocation", .member "uri"]) =
    some (.string f.file.display)
  line : v.at? (Step.place ++ [.member "region"]) =
    f.line.map fun line => .object [("startLine", .number line)]

/-! ## §2. JSON -/

variable {f : Finding} {findings : List Finding}

theorem Path.text?_eq_some_iff {p : Path} {text : String} :
    p.text? = some text ↔ Path.ofString text = p := by
  unfold Path.text? Path.ofString
  rw [Utf8.decode?_eq_some_iff]
  cases p
  rw [Path.mk.injEq]

theorem meaning_optional (line : Option Nat) :
    (Report.optional line).meaning = .ofLine line := by
  cases line with
  | none => rw [Report.optional, Json.meaning, Json.Value.ofLine]
  | some line => rw [Report.optional, Json.meaning, Json.Value.ofLine]

theorem ofLine_injective : Function.Injective Json.Value.ofLine := by
  intro line line' h
  cases line <;> cases line' <;> cases h <;> rfl

theorem lists_of_findingJson? {v : Json} (h : Report.findingJson? f = some v) :
    v.meaning.Lists f := by
  obtain ⟨file, hfile, rfl⟩ := Option.map_eq_some_iff.1 h
  refine ⟨file, Path.text?_eq_some_iff.1 hfile, ?_⟩
  simp only [Json.meaning, List.map_cons, List.map_nil, meaning_optional]

theorem not_hasPlainFile_of_findingJson? (h : Report.findingJson? f = none) : ¬ f.HasPlainFile := by
  rintro ⟨text, htext⟩
  have hnone := Option.map_eq_none_iff.1 h
  rw [Path.text?_eq_some_iff.2 htext] at hnone
  cases hnone

/-- A finding is known from the value that lists it. -/
theorem lists_rightUnique : Relator.RightUnique Json.Value.Lists := by
  rintro v ⟨path, line, rule, message⟩ ⟨path', line', rule', message'⟩ ⟨file, hfile, hv⟩
    ⟨file', hfile', hv'⟩
  rw [hv] at hv'
  simp only [Json.Value.object.injEq, List.cons.injEq, Prod.mk.injEq, Json.Value.string.injEq,
    ofLine_injective.eq_iff, true_and, and_true] at hv'
  obtain ⟨rfl, rfl, rfl, rfl⟩ := hv'
  rw [Finding.mk.injEq]
  exact ⟨hfile.symm.trans hfile', rfl, rfl, rfl⟩

theorem hasPlainFile_of_lists {items : List Value}
    (h : List.Forall₂ Json.Value.Lists items findings) : ∀ f ∈ findings, f.HasPlainFile := by
  induction h with
  | nil => nofun
  | cons hlists _ ih =>
    obtain ⟨file, hfile, -⟩ := hlists
    exact List.forall_mem_cons.2 ⟨⟨file, hfile⟩, ih⟩

/-- The findings as values, if all of them have one. -/
theorem mapM_findingJson? (findings : List Finding) :
    (∃ items, findings.mapM Report.findingJson? = some items ∧
      List.Forall₂ Json.Value.Lists (items.map Json.meaning) findings) ∨
    (findings.mapM Report.findingJson? = none ∧ ∃ f ∈ findings, ¬ f.HasPlainFile) := by
  induction findings with
  | nil => exact .inl ⟨[], rfl, .nil⟩
  | cons f findings ih =>
    rw [List.mapM_cons]
    cases hf : Report.findingJson? f with
    | none => exact .inr ⟨rfl, f, List.mem_cons_self, not_hasPlainFile_of_findingJson? hf⟩
    | some v =>
      rcases ih with ⟨items, hitems, hlists⟩ | ⟨hnone, f', hf', hplain⟩
      · rw [hitems]
        exact .inl ⟨v :: items, rfl, .cons (lists_of_findingJson? hf) hlists⟩
      · rw [hnone]
        exact .inr ⟨rfl, f', List.mem_cons_of_mem f hf', hplain⟩

/-- What a failed report says. -/
def failureReason : String :=
  "Failed to serialize diagnostics: path contains invalid UTF-8 characters"

theorem decode?_jsonFailure :
    Json.decode? Report.jsonFailure = some (.object [("error", .string failureReason)]) :=
  Json.decode?_oneMember "error" failureReason (by decide +kernel)

/-- **The report in JSON lists all findings**, or fails for a file whose name is
not UTF-8. -/
theorem json_cases (findings : List Finding) :
    (∃ items, Json.decode? (Report.json findings) = some (.object [("diagnostics", .array items)]) ∧
      List.Forall₂ Json.Value.Lists items findings) ∨
    (Json.decode? (Report.json findings) = some (.object [("error", .string failureReason)]) ∧
      ∃ f ∈ findings, ¬ f.HasPlainFile) := by
  rcases mapM_findingJson? findings with ⟨items, hitems, hlists⟩ | ⟨hnone, hplain⟩
  · refine .inl ⟨items.map Json.meaning, ?_, hlists⟩
    simp only [Report.json, Report.findingsJson?, hitems, Option.map_some, Option.getD_some,
      Json.decode?_render, Json.meaning, List.map_cons, List.map_nil]
  · refine .inr ⟨?_, hplain⟩
    simp only [Report.json, Report.findingsJson?, hnone, Option.map_none, Option.getD_none,
      decode?_jsonFailure]

/-! ## §3. SARIF -/

theorem isResult_sarifResult (f : Finding) : (Report.sarifResult f).meaning.IsResult f := by
  obtain ⟨path, line, rule, message⟩ := f
  cases line with
  | none =>
    simp only [Report.sarifResult, Report.sarifLocation, Json.meaning, List.map_cons, List.map_nil]
    exact ⟨rfl, rfl, rfl, rfl⟩
  | some line =>
    simp only [Report.sarifResult, Report.sarifLocation, Json.meaning, List.map_cons, List.map_nil]
    exact ⟨rfl, rfl, rfl, rfl⟩

/-- **The log has one run, whose results are those of the findings.** -/
theorem results_sarifJson (findings : List Finding) :
    (Report.sarifJson findings).meaning.at? [.member "runs", .item 0, .member "results"] =
      some (.array ((findings.map Report.sarifResult).map Json.meaning)) := by
  simp only [Report.sarifJson, Json.meaning, List.map_cons, List.map_nil]
  rfl

theorem forall₂_sarifResult (findings : List Finding) :
    List.Forall₂ Json.Value.IsResult ((findings.map Report.sarifResult).map Json.meaning)
      findings := by
  rw [List.map_map, List.forall₂_map_left_iff, List.forall₂_same]
  exact fun f _ => isResult_sarifResult f

/-! ## §4. Both formats -/

/-- **Structured reports are valid and lose nothing.**  If all files have names
in UTF-8 the report in JSON lists the findings in order, so it is the report of
no other findings; else it is an object that holds an error.  The log in SARIF
can always be decoded, and has one result a finding, in order. -/
theorem reports_decode (findings : List Finding) :
    ((∀ f ∈ findings, f.HasPlainFile) →
      ∃ report items, Report.render .json findings = some report ∧
        Json.decode? report = some (.object [("diagnostics", .array items)]) ∧
        List.Forall₂ Json.Value.Lists items findings ∧
        ∀ others, Report.render .json others = some report → others = findings) ∧
    ((∃ f ∈ findings, ¬ f.HasPlainFile) →
      ∃ report reason, Report.render .json findings = some report ∧
        Json.decode? report = some (.object [("error", .string reason)])) ∧
    ∃ report log results, Report.render .sarif findings = some report ∧
      Json.decode? report = some log ∧
      log.at? [.member "runs", .item 0, .member "results"] = some (.array results) ∧
      List.Forall₂ Json.Value.IsResult results findings := by
  refine ⟨?_, ?_, ?_⟩
  · intro hplain
    rcases json_cases findings with ⟨items, hdecode, hlists⟩ | ⟨-, f, hf, hnot⟩
    · refine ⟨_, items, rfl, hdecode, hlists, ?_⟩
      intro others hothers
      rw [← Option.some.inj hothers] at hdecode
      rcases json_cases others with ⟨items', hdecode', hlists'⟩ | ⟨hdecode', -⟩
      · rw [hdecode] at hdecode'
        cases hdecode'
        exact List.right_unique_forall₂' lists_rightUnique hlists' hlists
      · -- a failed report has no member of that name
        rw [hdecode] at hdecode'
        simp only [Option.some.injEq, Json.Value.object.injEq, List.cons.injEq, Prod.mk.injEq] at hdecode'
        exact absurd hdecode'.1.1 (by decide)
    · exact absurd (hplain f hf) hnot
  · rintro ⟨f, hf, hnot⟩
    rcases json_cases findings with ⟨items, -, hlists⟩ | ⟨hdecode, -⟩
    · exact absurd (hasPlainFile_of_lists hlists f hf) hnot
    · exact ⟨_, failureReason, rfl, hdecode⟩
  · exact ⟨_, _, _, rfl, Json.decode?_render _, results_sarifJson findings,
      forall₂_sarifResult findings⟩

/-- A finding with a letter outside ASCII, quotes, a backslash and a line feed is
read back from its report, and no others have this report.  A file whose name is a
byte that begins no letter makes the report an error. -/
theorem reports_decode_escaped_and_failed :
    (∃ report items,
      Report.render .json [⟨.ofString "é.pt", some 3, "a\\b", "say \"no\"\n"⟩] = some report ∧
        Json.decode? report = some (.object [("diagnostics", .array items)]) ∧
        List.Forall₂ Json.Value.Lists items [⟨.ofString "é.pt", some 3, "a\\b", "say \"no\"\n"⟩] ∧
        ∀ others, Report.render .json others = some report →
          others = [⟨.ofString "é.pt", some 3, "a\\b", "say \"no\"\n"⟩]) ∧
    ∃ report reason, Report.render .json [⟨⟨[0xff]⟩, none, "a", "b"⟩] = some report ∧
      Json.decode? report = some (.object [("error", .string reason)]) := by
  constructor
  · apply (reports_decode _).1
    exact List.forall_mem_singleton.2 ⟨"é.pt", rfl⟩
  · apply (reports_decode _).2.1
    refine ⟨_, List.mem_singleton_self _, ?_⟩
    rintro ⟨text, htext⟩
    have hnone : Path.text? ⟨[0xff]⟩ = none := by decide
    rw [Path.text?_eq_some_iff.2 htext] at hnone
    cases hnone

end TemplateLint
