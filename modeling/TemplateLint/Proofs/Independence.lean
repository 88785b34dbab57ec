/-
  TemplateLint.Proofs.Independence — what the result for a template depends on.

  Whether a template can be read, and with which error it cannot, is decided by
  its source alone.  The path shows in the findings as the file and nowhere
  else, the exclusion prefix takes findings away but no error, and each check
  adds its findings without a look at those of the others.

  Main result: `results_isolated`.
-/
import TemplateLint.Proofs.Lines

namespace TemplateLint

/-! ## §1. What the source decides -/

/-- The prefix excludes the path: the path, as it is shown, begins with it. -/
def Excludes (exclude : Option String) (path : Path) : Prop :=
  ∃ start, exclude = some start ∧ start.toList <+: path.display.toList

/-- How a source is read once it is prepared. -/
def readPrepared (source : String) : Except Rejection Document :=
  Document.read ((injectedPart source).toList ++ source.toList)

/-- No rule of a check is that of templates that cannot be read. -/
theorem Rule.id_ne_syntaxErrorRule (rule : Rule) : rule.id ≠ Finding.syntaxErrorRule := by
  cases rule <;> decide

namespace Template

variable {path : Path} {source : String} {exclude : Option String} {checks : List Check}

theorem isExcluded_iff : (prepare path source exclude).isExcluded = true ↔ Excludes exclude path := by
  have hparts : (prepare path source exclude).isExcluded
      = exclude.any fun start => start.toList.isPrefixOf path.display.toList := by
    unfold prepare isExcluded
    split
    · rfl
    · rfl
  rw [hparts]
  cases exclude with
  | none => simp [Excludes]
  | some start => simp [Excludes]

theorem document_prepare : (prepare path source exclude).document = readPrepared source := by
  unfold document readPrepared
  rw [prepare_content]

/-- The path and the prefix are kept apart from the text. -/
theorem prepare_eq (path : Path) (source : String) (exclude : Option String) :
    prepare path source exclude
      = { prepare ⟨[]⟩ source none with path := path, exclude := exclude } := by
  by_cases h : hasDoctype source = true
  · rw [prepare_of_hasDoctype path source exclude h, prepare_of_hasDoctype ⟨[]⟩ source none h]
  · rw [prepare_of_not_hasDoctype path source exclude h,
      prepare_of_not_hasDoctype ⟨[]⟩ source none h]

/-- An error is worded without a look at the path and the prefix. -/
theorem errorMessage_prepare (error : SyntaxError) :
    (prepare path source exclude).errorMessage error
      = (prepare ⟨[]⟩ source none).errorMessage error := by
  rw [prepare_eq path source exclude]
  rfl

/-! ## §2. What the checks add -/

/-- Every finding of a check has a line and the rule that is broken. -/
theorem of_mem_runChecks {t : Template} {d : Document} {f : Finding}
    (hf : f ∈ t.runChecks checks d) : ∃ e rule, f = t.finding e rule := by
  unfold runChecks at hf
  split at hf
  · cases hf
  · obtain ⟨check, -, hf⟩ := List.mem_flatMap.1 hf
    obtain ⟨⟨e, rule⟩, -, rfl⟩ := List.mem_map.1 hf
    exact ⟨e, rule, rfl⟩

/-- The checks of a list are run one after the other. -/
theorem runChecks_append (t : Template) (checks₁ checks₂ : List Check) (d : Document) :
    t.runChecks (checks₁ ++ checks₂) d = t.runChecks checks₁ d ++ t.runChecks checks₂ d := by
  unfold runChecks
  cases d.root? with
  | none => rfl
  | some root => exact List.flatMap_append

theorem runChecks_perm (t : Template) {checks₁ checks₂ : List Check} (h : checks₁.Perm checks₂)
    (d : Document) : (t.runChecks checks₁ d).Perm (t.runChecks checks₂ d) := by
  unfold runChecks
  cases d.root? with
  | none => exact .refl _
  | some root => exact h.flatMap_right _

/-- The path of a template shows in the findings as the file, and the prefix
does not show. -/
theorem runChecks_prepare_path (q : Path) (d : Document) :
    (prepare q source none).runChecks checks d
      = ((prepare path source exclude).runChecks checks d).map ({ · with file := q }) := by
  rw [prepare_eq q source none, prepare_eq path source exclude]
  unfold runChecks
  cases d.root? with
  | none => rfl
  | some root =>
    simp only [List.map_flatMap, List.map_map]
    rfl

/-! ## §3. What linting comes to -/

/-- A malformed source has one finding, which is worded once for all paths. -/
theorem lint_of_malformed {error : SyntaxError}
    (h : readPrepared source = .error (.malformed error)) :
    (prepare path source exclude).lint checks
      = some [.malformed path ((prepare ⟨[]⟩ source none).errorMessage error)] := by
  unfold lint
  rw [document_prepare, h]
  show some [Finding.malformed (prepare path source exclude).path _] = _
  rw [prepare_path, errorMessage_prepare]

/-- The prefix decides whether the checks run, and not what they find. -/
theorem runChecks_prepare_exclude (d : Document) :
    (prepare path source exclude).runChecks checks d
      = (prepare path source none).runChecks checks d := by
  rw [prepare_eq path source exclude, prepare_eq path source none]
  rfl

theorem lint_of_excludes {d : Document} (h : readPrepared source = .ok d)
    (hexcludes : Excludes exclude path) :
    (prepare path source exclude).lint checks = some [] := by
  unfold lint
  rw [document_prepare, h]
  exact congrArg some (if_pos (isExcluded_iff.2 hexcludes))

theorem lint_of_not_excludes {d : Document} (h : readPrepared source = .ok d)
    (hexcludes : ¬ Excludes exclude path) :
    (prepare path source exclude).lint checks
      = some ((prepare path source none).runChecks checks d) := by
  have hoff : (prepare path source exclude).isExcluded = false :=
    Bool.eq_false_iff.2 fun hon => hexcludes (isExcluded_iff.1 hon)
  rw [lint_of_document (document_prepare.trans h) hoff, runChecks_prepare_exclude]

end Template

theorem not_excludes_none (path : Path) : ¬ Excludes none path := by
  rintro ⟨start, h, -⟩
  cases h

/-! ## §4. The parts do not interfere -/

/-- The prepared source is malformed. -/
def Malformed (source : String) : Prop :=
  ∃ error, readPrepared source = .error (.malformed error)

/-- What path, prefix and checks have to do with the results for a source. -/
structure Isolated (source : String)
    (result : Path → Option String → List Check → List Finding) : Prop where
  /-- An excluded template keeps its error and no other finding. -/
  excluded : ∀ path exclude checks, Excludes exclude path →
    result path exclude checks
      = Finding.ofRule Finding.syntaxErrorRule (result path none checks)
  /-- The prefix does nothing to other templates. -/
  notExcluded : ∀ path exclude checks, ¬ Excludes exclude path →
    result path exclude checks = result path none checks
  /-- The path shows as the file of the findings and nowhere else. -/
  path : ∀ p q checks, result q none checks = (result p none checks).map ({ · with file := q })
  /-- A malformed source has one error, the same for all prefixes and checks. -/
  malformed : Malformed source → ∃ message, ∀ path exclude checks,
    result path exclude checks = [⟨path, none, Finding.syntaxErrorRule, message⟩]
  /-- Only a malformed source has an error without a line. -/
  malformed_of_error : ∀ path exclude checks f, result path exclude checks = [f] →
    f.rule = Finding.syntaxErrorRule → f.line = none → Malformed source
  /-- All other findings have a line, and a rule that is not that of errors. -/
  wellFormed : ¬ Malformed source → ∀ path exclude checks, ∀ f ∈ result path exclude checks,
    f.line ≠ none ∧ f.rule ≠ Finding.syntaxErrorRule
  /-- Lists of checks are run one after the other. -/
  append : ¬ Malformed source → ∀ path exclude, ¬ Excludes exclude path →
    ∀ checks₁ checks₂, result path exclude (checks₁ ++ checks₂)
      = result path exclude checks₁ ++ result path exclude checks₂
  /-- The order of the checks decides the order of the findings only. -/
  perm : ¬ Malformed source → ∀ path exclude, ¬ Excludes exclude path →
    ∀ checks₁ checks₂, checks₁.Perm checks₂ →
      (result path exclude checks₁).Perm (result path exclude checks₂)

/-- The results of a malformed source. -/
theorem isolated_of_message {source : String} (h : Malformed source) (message : String) :
    Isolated source fun path _ _ => [⟨path, none, Finding.syntaxErrorRule, message⟩] where
  excluded := by
    intro path exclude checks _
    simp [Finding.ofRule]
  notExcluded := by
    intro path exclude checks _
    rfl
  path := by
    intro p q checks
    rfl
  malformed := fun _ => ⟨message, fun _ _ _ => rfl⟩
  malformed_of_error := fun _ _ _ _ _ _ _ => h
  wellFormed := fun hno => absurd h hno
  append := fun hno => absurd h hno
  perm := fun hno => absurd h hno

/-- The findings of checks are about elements. -/
theorem Template.line_and_rule_of_mem_runChecks {t : Template} {checks : List Check} {d : Document}
    {f : Finding} (hf : f ∈ t.runChecks checks d) :
    f.line ≠ none ∧ f.rule ≠ Finding.syntaxErrorRule := by
  obtain ⟨e, rule, rfl⟩ := Template.of_mem_runChecks hf
  exact ⟨Option.some_ne_none _, rule.id_ne_syntaxErrorRule⟩

/-- No finding of a check is about a template that cannot be read. -/
theorem Template.ofRule_runChecks (t : Template) (checks : List Check) (d : Document) :
    Finding.ofRule Finding.syntaxErrorRule (t.runChecks checks d) = [] := by
  refine List.filter_eq_nil_iff.2 fun f hf => ?_
  simpa using (Template.line_and_rule_of_mem_runChecks hf).2

open Classical in
/-- The results of a source that can be read. -/
theorem isolated_of_document {source : String} {d : Document} (h : readPrepared source = .ok d) :
    Isolated source fun path exclude checks =>
      if Excludes exclude path then [] else (Template.prepare path source none).runChecks checks d where
  excluded := by
    intro path exclude checks hexcludes
    rw [if_pos hexcludes, if_neg (not_excludes_none path), Template.ofRule_runChecks]
  notExcluded := by
    intro path exclude checks hexcludes
    rw [if_neg hexcludes, if_neg (not_excludes_none path)]
  path := by
    intro p q checks
    rw [if_neg (not_excludes_none p), if_neg (not_excludes_none q)]
    exact Template.runChecks_prepare_path q d
  malformed := by
    rintro ⟨error, herror⟩
    rw [h] at herror
    cases herror
  malformed_of_error := by
    intro path exclude checks f hf hrule
    split at hf
    · cases hf
    · have hmem : f ∈ (Template.prepare path source none).runChecks checks d := by
        rw [hf]
        exact List.mem_singleton_self f
      exact absurd hrule (Template.line_and_rule_of_mem_runChecks hmem).2
  wellFormed := by
    intro _ path exclude checks f hf
    split at hf
    · cases hf
    · exact Template.line_and_rule_of_mem_runChecks hf
  append := by
    intro _ path exclude hexcludes checks₁ checks₂
    simp only [if_neg hexcludes]
    exact Template.runChecks_append _ checks₁ checks₂ d
  perm := by
    intro _ path exclude hexcludes checks₁ checks₂ hperm
    simp only [if_neg hexcludes]
    exact Template.runChecks_perm _ hperm d

/-- **Path, prefix and checks do not interfere.**  A source that is not
overclosed has a result for every path, prefix and list of checks.  The prefix
filters it, the path names the file in it, the checks add to it one by one, and
whether it is an error is settled by the source. -/
theorem results_isolated (source : String) (hclosed : readPrepared source ≠ .error .overclosed) :
    ∃ result : Path → Option String → List Check → List Finding,
      (∀ path exclude checks,
        (Template.prepare path source exclude).lint checks = some (result path exclude checks)) ∧
      Isolated source result := by
  cases h : readPrepared source with
  | error rejection =>
    cases rejection with
    | overclosed => exact absurd h hclosed
    | malformed error =>
      exact ⟨_, fun _ _ _ => Template.lint_of_malformed h, isolated_of_message ⟨error, h⟩ _⟩
  | ok d =>
    refine ⟨_, fun path exclude checks => ?_, isolated_of_document h⟩
    split
    · next hexcludes => exact Template.lint_of_excludes h hexcludes
    · next hexcludes => exact Template.lint_of_not_excludes h hexcludes

/-- An image without a description: with its path excluded nothing is left, and
under another path the file changes and nothing else. -/
theorem results_isolated_image :
    readPrepared "<img/>" ≠ .error .overclosed ∧
    (Template.prepare (.ofString "old/t.pt") "<img/>" (some "old")).lint Check.all = some [] ∧
    ∃ f : Finding,
      (Template.prepare (.ofString "t.pt") "<img/>" none).lint Check.all = some [f] ∧
      (Template.prepare (.ofString "s.pt") "<img/>" none).lint Check.all
        = some [{ f with file := .ofString "s.pt" }] := by
  have hok : (readPrepared "<img/>").toBool = true := by decide +kernel
  have hclosed : readPrepared "<img/>" ≠ .error .overclosed := by
    intro h
    rw [h] at hok
    cases hok
  obtain ⟨result, hresult, hisolated⟩ := results_isolated "<img/>" hclosed
  have hone : (Template.prepare (.ofString "t.pt") "<img/>" none).lint Check.all
      = some [⟨.ofString "t.pt", some 1, Rule.missingImageDescription.id,
        Rule.missingImageDescription.guidance⟩] := by
    decide +kernel
  rw [hresult] at hone
  have hpath : ∀ q, result q none Check.all = _ := fun q =>
    (hisolated.path (.ofString "t.pt") q Check.all).trans (by rw [Option.some.inj hone])
  refine ⟨hclosed, ?_, _, (hresult _ _ _).trans hone, ?_⟩
  · have hexcludes : Excludes (some "old") (.ofString "old/t.pt") :=
      ⟨"old", rfl, by decide +kernel⟩
    rw [hresult, hisolated.excluded _ _ _ hexcludes, hpath]
    decide +kernel
  · rw [hresult, hpath]
    rfl

/-- The text of an entity closes the outermost element, and a close tag follows.
Such a source is no document, but there is no finding that says so. -/
theorem overclosed_without_result :
    readPrepared "<!DOCTYPE r [<!ENTITY e '<b></b></r>'>]><r>&e;</r>" = .error .overclosed ∧
    (Template.prepare (.ofString "t.pt") "<!DOCTYPE r [<!ENTITY e '<b></b></r>'>]><r>&e;</r>"
      none).lint Check.all = none := by
  have hlint : (Template.prepare (.ofString "t.pt")
      "<!DOCTYPE r [<!ENTITY e '<b></b></r>'>]><r>&e;</r>" none).lint Check.all = none := by
    decide +kernel
  have hdocument := (Template.lint_eq_none_iff _ _).1 hlint
  rw [Template.document_prepare] at hdocument
  exact ⟨hdocument, hlint⟩

end TemplateLint
