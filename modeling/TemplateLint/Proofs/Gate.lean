/-
  TemplateLint.Proofs.Gate — what the exit status of a run says.

  A run stands between an author and a shared repository: it lets a change pass
  if all files are clean, and holds it back otherwise.  `IsClean` says what that
  means for a file, through its text, the document read from it and the table of
  rules.  Main result: `gate_decides`, over all command lines and lookups.

  A template that is overclosed ends a run without a report, which is the one
  way in which a file that can be read is not accounted for.
-/
import TemplateLint.Command
import TemplateLint.Files.Volume
import TemplateLint.Proofs.Independence
import TemplateLint.Proofs.Text.Utf8
import TemplateLint.Proofs.Violations

namespace TemplateLint

/-! ## §1. Files -/

/-- The path leads to a file that holds the text in UTF-8. -/
def Lookup.HasText (look : Lookup) (path : Path) (source : String) : Prop :=
  look path = .ok (.file (Utf8.encode source))

/-- No element at or below the root element breaks a rule. -/
def Document.IsAccessible (d : Document) : Prop :=
  ∀ root, d.root? = some root → ∀ e ∈ root.elements, ∀ check rule, ¬ Violates e check rule

/-- The file can be read, is well-formed, and is either excluded or breaks no
rule. -/
def IsClean (look : Lookup) (exclude : Option String) (path : Path) : Prop :=
  ∃ source d, look.HasText path source ∧ readPrepared source = .ok d ∧
    (Excludes exclude path ∨ d.IsAccessible)

/-- The file holds a template that is overclosed. -/
def IsOverclosed (look : Lookup) (path : Path) : Prop :=
  ∃ source, look.HasText path source ∧ readPrepared source = .error .overclosed

variable {look : Lookup} {path : Path} {exclude : Option String}

theorem text_eq_ok_iff {source : String} :
    (look path).bind Entry.text = .ok source ↔ look.HasText path source := by
  unfold Lookup.HasText
  cases look path with
  | error cause => simp [Except.bind]
  | ok entry =>
    cases entry with
    | file content =>
      rw [Except.ok.injEq, Entry.file.injEq, eq_comm (a := content), ← Utf8.decode?_eq_some_iff]
      cases hdecode : Utf8.decode? content with
      | none => simp [Except.bind, Entry.text, hdecode]
      | some text => simp [Except.bind, Entry.text, hdecode]
    | directory entries => simp [Except.bind, Entry.text]
    | link target => simp [Except.bind, Entry.text]

/-! ## §2. The findings of a document -/

theorem Check.mem_all (check : Check) : check ∈ Check.all := by
  cases check <;> decide

theorem Check.offenders_eq_nil_iff {check : Check} {root : Element} :
    check.offenders root = [] ↔ ∀ e ∈ root.elements, ∀ rule, ¬ Violates e check rule := by
  unfold offenders
  rw [List.filterMap_eq_nil_iff]
  refine forall₂_congr fun e he => ?_
  rw [Option.map_eq_none_iff, Option.eq_none_iff_forall_ne_some]
  simp only [ne_eq, verdict_eq_some_iff]

/-- The checks find nothing in an accessible document, and only there. -/
theorem Template.runChecks_eq_nil_iff {t : Template} {d : Document} :
    t.runChecks Check.all d = [] ↔ d.IsAccessible := by
  unfold Template.runChecks Document.IsAccessible
  cases d.root? with
  | none => simp
  | some root =>
    simp only [List.flatMap_eq_nil_iff, List.map_eq_nil_iff, Check.offenders_eq_nil_iff,
      Option.some.injEq, forall_eq']
    constructor
    · intro h e he check rule
      exact h check check.mem_all e he rule
    · intro h check _ e he rule
      exact h e he check rule

/-- A template has a result without findings if and only if it can be read and is
either excluded or accessible. -/
theorem Template.lint_eq_nil_iff {source : String} :
    (prepare path source exclude).lint Check.all = some [] ↔
      ∃ d, readPrepared source = .ok d ∧ (Excludes exclude path ∨ d.IsAccessible) := by
  cases hread : readPrepared source with
  | error rejection =>
    have hno : ¬ (prepare path source exclude).lint Check.all = some [] := by
      cases rejection with
      | malformed error =>
        rw [lint_of_malformed hread]
        simp
      | overclosed =>
        rw [(lint_eq_none_iff _ _).2 (document_prepare.trans hread)]
        simp
    simp [hno]
  | ok d =>
    simp only [Except.ok.injEq, exists_eq_left']
    by_cases hexcludes : Excludes exclude path
    · simp [lint_of_excludes hread hexcludes, hexcludes]
    · rw [lint_of_not_excludes hread hexcludes, Option.some.injEq, runChecks_eq_nil_iff]
      simp [hexcludes]

/-! ## §3. One file after the other -/

namespace Linter

variable {r : Linter} {p : Path} {files : List Path} {findings : List Finding} {failure : Failure}

/-- What linting a file that holds a text comes to. -/
theorem lintFile_of_hasText {source : String} (h : look.HasText path source) :
    r.lintFile look path = match (Template.prepare path source r.exclude).lint r.checks with
      | some findings => .ok findings
      | none => .error (.overclosed path) := by
  have htext := text_eq_ok_iff.2 h
  cases hlint : (Template.prepare path source r.exclude).lint r.checks with
  | none => simp only [lintFile, Template.load, htext, hlint]
  | some findings => simp only [lintFile, Template.load, htext, hlint]

/-- What linting a file that cannot be read comes to. -/
theorem lintFile_of_unreadable (h : ¬ ∃ source, look.HasText path source) :
    ∃ cause, (look path).bind Entry.text = .error cause ∧
      r.lintFile look path = .error (.unreadable ⟨path, cause⟩) := by
  cases htext : (look path).bind Entry.text with
  | ok source => exact absurd ⟨source, text_eq_ok_iff.1 htext⟩ h
  | error cause =>
    refine ⟨cause, rfl, ?_⟩
    unfold lintFile Template.load
    rw [htext]

/-- A file that can be read and is not overclosed has findings. -/
theorem exists_lintFile (htext : ∃ source, look.HasText path source)
    (hclosed : ¬ IsOverclosed look path) : ∃ findings, r.lintFile look path = .ok findings := by
  obtain ⟨source, htext⟩ := htext
  rw [lintFile_of_hasText htext]
  cases hlint : (Template.prepare path source r.exclude).lint r.checks with
  | some findings => exact ⟨findings, rfl⟩
  | none =>
    have hdocument := (Template.lint_eq_none_iff _ _).1 hlint
    rw [Template.document_prepare] at hdocument
    exact absurd ⟨source, htext, hdocument⟩ hclosed

theorem isOverclosed_of_lintFile {q : Path} (h : r.lintFile look path = .error (.overclosed q)) :
    IsOverclosed look path := by
  by_cases htext : ∃ source, look.HasText path source
  · obtain ⟨source, htext⟩ := htext
    rw [lintFile_of_hasText htext] at h
    split at h
    · cases h
    · next hlint =>
      have hdocument := (Template.lint_eq_none_iff _ _).1 hlint
      rw [Template.document_prepare] at hdocument
      exact ⟨source, htext, hdocument⟩
  · obtain ⟨cause, -, herror⟩ := lintFile_of_unreadable htext (r := r)
    rw [herror] at h
    cases h

/-- Findings come from the text of a file. -/
theorem lintFile_eq_ok_iff : r.lintFile look path = .ok findings ↔
    ∃ source, look.HasText path source ∧
      (Template.prepare path source r.exclude).lint r.checks = some findings := by
  constructor
  · intro h
    by_cases htext : ∃ source, look.HasText path source
    · obtain ⟨source, htext⟩ := htext
      rw [lintFile_of_hasText htext] at h
      split at h
      · next hlint => exact ⟨source, htext, by rw [hlint, Except.ok.inj h]⟩
      · cases h
    · obtain ⟨cause, -, herror⟩ := lintFile_of_unreadable htext (r := r)
      rw [herror] at h
      cases h
  · rintro ⟨source, htext, hlint⟩
    rw [lintFile_of_hasText htext, hlint]

/-- **One file.**  It has a result without findings if and only if it is clean. -/
theorem lintFile_eq_nil_iff :
    ({ exclude } : Linter).lintFile look path = .ok [] ↔ IsClean look exclude path := by
  rw [lintFile_eq_ok_iff]
  simp only [Template.lint_eq_nil_iff]
  constructor
  · rintro ⟨source, htext, d, hread, hclean⟩
    exact ⟨source, d, htext, hread, hclean⟩
  · rintro ⟨source, d, htext, hread, hclean⟩
    exact ⟨source, htext, d, hread, hclean⟩

/-- The findings of files in their order, or the first failure. -/
def lintAll (r : Linter) (look : Lookup) (files : List Path) : Except Failure (List Finding) :=
  (files.mapM (r.lintFile look)).map List.flatten

theorem lintAll_cons_ok (h : r.lintFile look p = .ok findings) :
    r.lintAll look (p :: files) = (r.lintAll look files).map (findings ++ ·) := by
  unfold lintAll
  rw [List.mapM_cons, h]
  cases files.mapM (r.lintFile look) with
  | error e => rfl
  | ok lists => rfl

theorem lintAll_cons_error (h : r.lintFile look p = .error failure) :
    r.lintAll look (p :: files) = .error failure := by
  unfold lintAll
  rw [List.mapM_cons, h]
  rfl

/-- **A run.**  It has a result without findings if and only if every file has. -/
theorem lintAll_eq_nil_iff : r.lintAll look files = .ok [] ↔
    ∀ p ∈ files, r.lintFile look p = .ok [] := by
  induction files with
  | nil => simp [lintAll, Except.map, pure, Except.pure]
  | cons p files ih =>
    rw [List.forall_mem_cons, ← ih]
    cases h : r.lintFile look p with
    | error failure => simp [lintAll_cons_error h]
    | ok findings =>
      rw [lintAll_cons_ok h]
      cases r.lintAll look files with
      | error failure => simp [Except.map]
      | ok later => simp [Except.map]

/-- The first file that fails decides about the whole run. -/
theorem lintAll_of_error {before after : List Path}
    (hbefore : ∀ q ∈ before, ∃ findings, r.lintFile look q = .ok findings)
    (h : r.lintFile look p = .error failure) :
    r.lintAll look (before ++ p :: after) = .error failure := by
  induction before with
  | nil => exact lintAll_cons_error h
  | cons q before ih =>
    obtain ⟨findings, hq⟩ := hbefore q List.mem_cons_self
    rw [List.cons_append, lintAll_cons_ok hq, ih fun p hp => hbefore p (List.mem_cons_of_mem _ hp)]
    rfl

/-- A run in which no file fails has findings. -/
theorem exists_lintAll (h : ∀ p ∈ files, ∃ findings, r.lintFile look p = .ok findings) :
    ∃ findings, r.lintAll look files = .ok findings := by
  induction files with
  | nil => exact ⟨[], rfl⟩
  | cons p files ih =>
    obtain ⟨findings, hp⟩ := h p List.mem_cons_self
    obtain ⟨later, hlater⟩ := ih fun q hq => h q (List.mem_cons_of_mem _ hq)
    exact ⟨findings ++ later, by rw [lintAll_cons_ok hp, hlater]; rfl⟩

/-- A run that fails has a first file that fails. -/
theorem exists_first_of_lintAll_eq_error (h : r.lintAll look files = .error failure) :
    ∃ before file after, files = before ++ file :: after ∧
      (∀ earlier ∈ before, ∃ findings, r.lintFile look earlier = .ok findings) ∧
      r.lintFile look file = .error failure := by
  induction files with
  | nil => cases h
  | cons file files ih =>
    cases hfile : r.lintFile look file with
    | error cause =>
      rw [lintAll_cons_error hfile] at h
      exact ⟨[], file, files, rfl, by simp, hfile.trans h⟩
    | ok first =>
      rw [lintAll_cons_ok hfile] at h
      cases hfiles : r.lintAll look files with
      | ok later =>
        rw [hfiles] at h
        cases h
      | error cause =>
        rw [hfiles] at h
        obtain ⟨before, second, after, heq, hbefore, herror⟩ := ih (hfiles.trans h)
        refine ⟨file :: before, second, after, by rw [heq, List.cons_append], ?_, herror⟩
        exact List.forall_mem_cons.2 ⟨⟨first, hfile⟩, hbefore⟩

end Linter

/-! ## §4. The outcome of a run -/

namespace Command

variable {o o' : Options} {findings : List Finding} {failure : Failure}

/-- The files that a run looks at, in order: a directory stands for the templates
below it, every other path for itself. -/
def Options.targets (look : Lookup) (o : Options) : List Path :=
  o.files.flatMap (Path.targets look)

/-- What a run comes to before it is reported. -/
def Options.result (look : Lookup) (o : Options) : Except Failure (List Finding) :=
  ({ exclude := o.exclude } : Linter).lintAll look (o.targets look)

/-- What a run that ends well writes. -/
theorem lint_of_ok (h : o.result look = .ok findings) :
    (lint look o).exitCode = Finding.exitStatus findings ∧
    (lint look o).stdout
      = ((Report.render (o.format.getD .text) findings).map (· ++ "\n")).getD "" := by
  have hrun : ({ exclude := o.exclude } : Linter).run look o.files = .ok findings := h
  unfold lint
  simp only [hrun, and_self]

/-- What a run that fails writes. -/
theorem lint_of_error (h : o.result look = .error failure) :
    (lint look o).exitCode = failureStatus failure ∧ (lint look o).stdout = "" ∧
    ∃ log, (lint look o).stderr = log ++ failureText failure := by
  have hrun : ({ exclude := o.exclude } : Linter).run look o.files = .error failure := h
  unfold lint
  simp only [hrun, true_and]
  exact ⟨_, rfl⟩

theorem lint_exitCode_eq_zero_iff :
    (lint look o).exitCode = 0 ↔ ∀ p ∈ o.targets look, IsClean look o.exclude p := by
  simp only [← Linter.lintFile_eq_nil_iff]
  rw [← Linter.lintAll_eq_nil_iff]
  show _ ↔ o.result look = .ok []
  cases h : o.result look with
  | error failure =>
    rw [(lint_of_error h).1]
    cases failure <;> simp [failureStatus]
  | ok findings =>
    rw [(lint_of_ok h).1]
    cases findings <;> simp [Finding.exitStatus]

/-- With no template overclosed the exit status is 0 or 1. -/
theorem lint_exitCode_of_closed (hclosed : ∀ p ∈ o.targets look, ¬ IsOverclosed look p) :
    (lint look o).exitCode = 0 ∨ (lint look o).exitCode = 1 := by
  cases h : o.result look with
  | error failure =>
    rw [(lint_of_error h).1]
    cases failure with
    | unreadable error => exact .inr rfl
    | overclosed path =>
      obtain ⟨before, p, after, heq, -, herror⟩ := Linter.exists_first_of_lintAll_eq_error h
      have hp : p ∈ o.targets look := by
        rw [heq]
        exact List.mem_append_right before List.mem_cons_self
      exact absurd (Linter.isOverclosed_of_lintFile herror) (hclosed p hp)
  | ok findings =>
    rw [(lint_of_ok h).1]
    cases findings with
    | nil => exact .inl rfl
    | cons f findings => exact .inr rfl

/-- The exit status depends on the files and the prefix, and what is printed on
the format besides. -/
theorem lint_congr (hfiles : o'.files = o.files) (hexclude : o'.exclude = o.exclude) :
    (lint look o').exitCode = (lint look o).exitCode ∧
    (o'.format.getD .text = o.format.getD .text →
      (lint look o').stdout = (lint look o).stdout) := by
  have hresult : o'.result look = o.result look := by
    unfold Options.result Options.targets
    rw [hfiles, hexclude]
  cases h : o.result look with
  | error failure =>
    obtain ⟨hexit, hstdout, -⟩ := lint_of_error h
    obtain ⟨hexit', hstdout', -⟩ := lint_of_error (hresult.trans h)
    exact ⟨by rw [hexit, hexit'], fun _ => by rw [hstdout, hstdout']⟩
  | ok findings =>
    obtain ⟨hexit, hstdout⟩ := lint_of_ok h
    obtain ⟨hexit', hstdout'⟩ := lint_of_ok (hresult.trans h)
    exact ⟨by rw [hexit, hexit'], fun hformat => by rw [hstdout, hstdout', hformat]⟩

/-- The first file that cannot be read is named, and nothing is reported. -/
theorem lint_of_unreadable {before after : List Path} {p : Path}
    (htargets : o.targets look = before ++ p :: after)
    (hbefore : ∀ q ∈ before, (∃ source, look.HasText q source) ∧ ¬ IsOverclosed look q)
    (hp : ¬ ∃ source, look.HasText p source) :
    (lint look o).exitCode = 1 ∧ (lint look o).stdout = "" ∧
    ∃ cause log, (look p).bind Entry.text = .error cause ∧
      (lint look o).stderr = log ++ failureText (.unreadable ⟨p, cause⟩) := by
  obtain ⟨cause, hcause, herror⟩ :=
    Linter.lintFile_of_unreadable hp (r := { exclude := o.exclude })
  have hresult : o.result look = .error (.unreadable ⟨p, cause⟩) := by
    unfold Options.result
    rw [htargets]
    refine Linter.lintAll_of_error (fun q hq => ?_) herror
    exact Linter.exists_lintFile (hbefore q hq).1 (hbefore q hq).2
  obtain ⟨hexit, hstdout, log, hlog⟩ := lint_of_error hresult
  exact ⟨hexit, hstdout, cause, log, hcause, hlog⟩

/-- A report is printed with a line end, so that even an empty one shows. -/
theorem printed_ne_empty (report : String) : ((some report).map (· ++ "\n")).getD "" ≠ "" := by
  intro h
  have hlist : (report ++ "\n").toList = [] := congrArg String.toList h
  simp at hlist

/-- When all files can be read and none is overclosed, only the text format is
ever silent, and that exactly on a clean run. -/
theorem lint_stdout_of_readable
    (hfiles : ∀ p ∈ o.targets look,
      (∃ source, look.HasText p source) ∧ ¬ IsOverclosed look p) :
    (o.format.getD .text = .text → ((lint look o).stdout = "" ↔ (lint look o).exitCode = 0)) ∧
    (o.format.getD .text ≠ .text → (lint look o).stdout ≠ "") := by
  obtain ⟨findings, hresult⟩ : ∃ findings, o.result look = .ok findings :=
    Linter.exists_lintAll fun p hp => Linter.exists_lintFile (hfiles p hp).1 (hfiles p hp).2
  obtain ⟨hexit, hstdout⟩ := lint_of_ok hresult
  rw [hexit, hstdout]
  constructor
  · intro hformat
    rw [hformat]
    cases findings with
    | nil => simp [Report.render, Finding.exitStatus]
    | cons f findings => simp [Report.render, Finding.exitStatus]
  · intro hformat
    cases hf : o.format.getD .text with
    | text => exact absurd hf hformat
    | json => exact printed_ne_empty _
    | sarif => exact printed_ne_empty _

/-- **The gate is sound and complete.**  Let the command line ask for files to be
linted.  The exit status is 0 if and only if every file is clean: it can be read
as UTF-8, its prepared text is a document, and either its path is excluded or no
element at or below the root element breaks a rule.  Otherwise the status is 1,
unless a template is overclosed.  It depends neither on the format nor on the
log, and what is printed does not depend on the log.  If a file cannot be read,
nothing is printed and the first such file is named; else the text format is
silent exactly for the status 0, and the others never are. -/
theorem gate_decides (look : Lookup) (args : List (List UInt8)) (o : Options)
    (hargs : Request.ofArgs args = .ok (.lint o)) :
    ((run look args).exitCode = 0 ↔ ∀ p ∈ o.targets look, IsClean look o.exclude p) ∧
    ((∀ p ∈ o.targets look, ¬ IsOverclosed look p) →
      (run look args).exitCode = 0 ∨ (run look args).exitCode = 1) ∧
    (∀ args' o', Request.ofArgs args' = .ok (.lint o') → o'.files = o.files →
      o'.exclude = o.exclude →
      (run look args').exitCode = (run look args).exitCode ∧
      (o'.format.getD .text = o.format.getD .text →
        (run look args').stdout = (run look args).stdout)) ∧
    (∀ before p after, o.targets look = before ++ p :: after →
      (∀ q ∈ before, (∃ source, look.HasText q source) ∧ ¬ IsOverclosed look q) →
      (¬ ∃ source, look.HasText p source) →
      (run look args).exitCode = 1 ∧ (run look args).stdout = "" ∧
      ∃ cause log, (look p).bind Entry.text = .error cause ∧
        (run look args).stderr = log ++ failureText (.unreadable ⟨p, cause⟩)) ∧
    ((∀ p ∈ o.targets look, (∃ source, look.HasText p source) ∧ ¬ IsOverclosed look p) →
      (o.format.getD .text = .text →
        ((run look args).stdout = "" ↔ (run look args).exitCode = 0)) ∧
      (o.format.getD .text ≠ .text → (run look args).stdout ≠ "")) := by
  have hrun : ∀ {args o}, Request.ofArgs args = .ok (.lint o) → run look args = lint look o := by
    intro args o h
    unfold run
    rw [h]
  rw [hrun hargs]
  refine ⟨lint_exitCode_eq_zero_iff, lint_exitCode_of_closed, ?_, ?_, lint_stdout_of_readable⟩
  · intro args' o' hargs' hfiles hexclude
    rw [hrun hargs']
    exact lint_congr hfiles hexclude
  · intro before p after htargets hbefore hp
    exact lint_of_unreadable htargets hbefore hp

theorem eq_ok_of_toOption {ε α : Type} {r : Except ε α} {a : α} (h : r.toOption = some a) :
    r = .ok a := by
  cases r with
  | error e => cases h
  | ok a' => exact congrArg Except.ok (Option.some.inj h)

/-- A volume with one file. -/
def oneFile (name content : String) : Volume :=
  Volume.empty.writeFile (.ofString name) (Utf8.encode content)

/-- A link with a target and a text passes, with the log and in a format of
choice. -/
theorem gate_decides_clean_link :
    Request.ofArgs (["-v", "--format=json", "a.pt"].map Utf8.encode)
      = .ok (.lint ⟨[.ofString "a.pt"], none, some .json, true⟩) ∧
    (run (oneFile "a.pt" "<a href='b'>c</a>").look
      (["-v", "--format=json", "a.pt"].map Utf8.encode)).exitCode = 0 ∧
    IsClean (oneFile "a.pt" "<a href='b'>c</a>").look none (.ofString "a.pt") := by
  have hargs : Request.ofArgs (["-v", "--format=json", "a.pt"].map Utf8.encode)
      = .ok (.lint ⟨[.ofString "a.pt"], none, some .json, true⟩) :=
    eq_ok_of_toOption (by decide +kernel)
  have hexit : (run (oneFile "a.pt" "<a href='b'>c</a>").look
      (["-v", "--format=json", "a.pt"].map Utf8.encode)).exitCode = 0 := by
    decide +kernel
  have htarget : Options.targets (oneFile "a.pt" "<a href='b'>c</a>").look
      ⟨[.ofString "a.pt"], none, some .json, true⟩ = [.ofString "a.pt"] := by
    decide +kernel
  have hclean := (gate_decides _ _ _ hargs).1.1 hexit
  rw [htarget] at hclean
  exact ⟨hargs, hexit, hclean _ (List.mem_singleton_self _)⟩

/-- Two ways around the gate.  An image behind the root element, where the text of
an entity has made room for it, breaks a rule and passes; and an overclosed
template ends the run with a status of its own. -/
theorem gate_passes_image_behind_root :
    (∃ d e, Lookup.HasText
        (oneFile "t.pt" "<!DOCTYPE r [<!ENTITY e '<b></b></r>'>]><r>&e;<img/>").look
        (.ofString "t.pt") "<!DOCTYPE r [<!ENTITY e '<b></b></r>'>]><r>&e;<img/>" ∧
      readPrepared "<!DOCTYPE r [<!ENTITY e '<b></b></r>'>]><r>&e;<img/>" = .ok d ∧
      e ∈ d.elements ∧ Violates e .imageDescription .missingImageDescription) ∧
    (run (oneFile "t.pt" "<!DOCTYPE r [<!ENTITY e '<b></b></r>'>]><r>&e;<img/>").look
      [Utf8.encode "t.pt"]).exitCode = 0 ∧
    (run (oneFile "t.pt" "<!DOCTYPE r [<!ENTITY e '<b></b></r>'>]><r>&e;</r>").look
      [Utf8.encode "t.pt"]).exitCode = 101 := by
  refine ⟨?_, by decide +kernel, by decide +kernel⟩
  have hany : (readPrepared
      "<!DOCTYPE r [<!ENTITY e '<b></b></r>'>]><r>&e;<img/>").toOption.any
      (fun d => d.elements.any fun e =>
        Check.imageDescription.verdict e == some .missingImageDescription) = true := by
    decide +kernel
  have htext : ((oneFile "t.pt" "<!DOCTYPE r [<!ENTITY e '<b></b></r>'>]><r>&e;<img/>").look
      (.ofString "t.pt")).bind Entry.text
      = .ok "<!DOCTYPE r [<!ENTITY e '<b></b></r>'>]><r>&e;<img/>" :=
    eq_ok_of_toOption (by decide +kernel)
  generalize readPrepared "<!DOCTYPE r [<!ENTITY e '<b></b></r>'>]><r>&e;<img/>" = r at *
  cases r with
  | error e => cases hany
  | ok d =>
    obtain ⟨e, he, hverdict⟩ := List.any_eq_true.1 hany
    exact ⟨d, e, text_eq_ok_iff.1 htext, rfl, he,
      Check.verdict_eq_some_iff.1 (beq_iff_eq.1 hverdict)⟩

end Command

end TemplateLint
