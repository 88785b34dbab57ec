/-
  TemplateLint.Proofs.Preparation — which templates survive their preparation.

  A byte order mark and an XML declaration have their place at the very start
  of a document.  The injected document type is put in front of them all the
  same, and behind it neither can be read.  No other template without a
  document type is harmed: if it can be read as it is written, no error is
  reported for it.

  Main result: `prepared_malformed_iff`.
-/
import TemplateLint.Proofs.Independence
import TemplateLint.Proofs.Transparency

namespace TemplateLint

/-- The text begins with what can stand at the start of a document only: a byte
order mark or an XML declaration. -/
def BeginsDocument (source : List Char) : Prop :=
  source.head? = some '\ufeff' ∨ "<?xml ".toList <+: source

/-! ## §1. At the start of a document, and behind it -/

namespace Lexer

variable {n : Nat} {cs : List Char}

theorem misc_byteOrderMark : misc ⟨'\ufeff' :: cs, n⟩ = .ok (none, ⟨'\ufeff' :: cs, n⟩) := by
  rfl

/-- What looks like a processing instruction is an XML declaration, and late. -/
theorem misc_declaration :
    misc ⟨"<?xml ".toList ++ cs, n⟩ = .error (.located .lateDeclaration n) := by
  rfl

end Lexer

namespace Document

variable {source : List Char}

/-- Behind a document type a byte order mark is no white space and begins
nothing. -/
theorem readBody_byteOrderMark {cs : List Char} {n : Nat} (b : Builder) :
    readBody ⟨'\ufeff' :: cs, n⟩ b = .error (.malformed (.located .unknownToken n)) := by
  have hmisc : b.readMisc ⟨'\ufeff' :: cs, n⟩ = .ok (b, ⟨'\ufeff' :: cs, n⟩) := by
    rw [Builder.readMisc_eq, Lexer.misc_byteOrderMark]
  show (Except.mapError Rejection.malformed (b.readMisc ⟨'\ufeff' :: cs, n⟩) >>= _) = _
  rw [hmisc]
  rfl

/-- **What begins a document cannot follow a document type.** -/
theorem read_injected_of_beginsDocument (h : BeginsDocument source) :
    ∃ error, Document.read (injectedDoctype.toList ++ source) = .error (.malformed error) := by
  unfold Document.read
  rw [readProlog_injected]
  rcases h with hmark | ⟨cs, rfl⟩
  · obtain ⟨cs, rfl⟩ : ∃ cs, source = '\ufeff' :: cs := by
      cases source with
      | nil => cases hmark
      | cons c cs =>
        cases hmark
        exact ⟨cs, rfl⟩
    refine ⟨.located .unknownToken ('\ufeff' :: cs).length, ?_⟩
    rw [Builder.readMisc_eq, Lexer.misc_byteOrderMark]
    exact readBody_byteOrderMark _
  · refine ⟨.located .lateDeclaration ("<?xml ".toList ++ cs).length, ?_⟩
    rw [Builder.readMisc_eq, Lexer.misc_declaration]
    rfl

end Document

/-! ## §2. Preparing a template that can be read -/

/-- A source without a document type that can be read as it is written can be
read when prepared, unless it begins a document. -/
theorem readPrepared_of_read {source : String} {d : Document} (hdoctype : hasDoctype source = false)
    (hbegins : ¬ BeginsDocument source.toList) (hread : Document.read source.toList = .ok d) :
    readPrepared source = .ok d := by
  have hfollows := Document.read_injected_follows hdoctype
    (fun hmark => hbegins (.inl hmark)) (fun hdeclaration => hbegins (.inr hdeclaration))
  obtain ⟨d', hd', rfl⟩ := hfollows d hread
  unfold readPrepared injectedPart
  rw [if_neg (by rw [hdoctype]; exact Bool.false_ne_true)]
  exact hd'

theorem malformed_of_beginsDocument {source : String} (hdoctype : hasDoctype source = false)
    (hbegins : BeginsDocument source.toList) : Malformed source := by
  unfold Malformed readPrepared injectedPart
  rw [if_neg (by rw [hdoctype]; exact Bool.false_ne_true)]
  exact Document.read_injected_of_beginsDocument hbegins

/-- **Preparing a template breaks it only at its very start.**  Take a source
without a document type that can be read as it is written.  Whatever the path,
the prefix and the checks, it has a result, and an error is reported in it if
and only if the source begins with a byte order mark or an XML declaration. -/
theorem prepared_malformed_iff (source : String) (d : Document)
    (hdoctype : hasDoctype source = false) (hread : Document.read source.toList = .ok d)
    (path : Path) (exclude : Option String) (checks : List Check) :
    ∃ findings, (Template.prepare path source exclude).lint checks = some findings ∧
      ((∃ f ∈ findings, f.isMalformed = true) ↔ BeginsDocument source.toList) := by
  by_cases hbegins : BeginsDocument source.toList
  · obtain ⟨error, herror⟩ := malformed_of_beginsDocument hdoctype hbegins
    refine ⟨_, Template.lint_of_malformed herror, fun _ => hbegins, fun _ => ?_⟩
    exact ⟨_, List.mem_singleton_self _, rfl⟩
  · have hprepared := readPrepared_of_read hdoctype hbegins hread
    by_cases hexcludes : Excludes exclude path
    · refine ⟨[], Template.lint_of_excludes hprepared hexcludes, ?_, fun h => absurd h hbegins⟩
      rintro ⟨f, hf, -⟩
      cases hf
    · refine ⟨_, Template.lint_of_not_excludes hprepared hexcludes, ?_, fun h => absurd h hbegins⟩
      -- what the checks find is about elements
      rintro ⟨f, hf, hmalformed⟩
      exact absurd (of_decide_eq_true hmalformed) (Template.line_and_rule_of_mem_runChecks hf).2

/-- An instruction whose name begins like that of an XML declaration does no
harm: the image behind it is found and no error is reported. -/
theorem prepared_malformed_iff_instruction :
    hasDoctype "<?xml-stylesheet a?><img/>" = false ∧
    ∃ d findings, Document.read "<?xml-stylesheet a?><img/>".toList = .ok d ∧
      (Template.prepare ⟨[]⟩ "<?xml-stylesheet a?><img/>" none).lint Check.all = some findings ∧
      findings ≠ [] ∧ ¬ ∃ f ∈ findings, f.isMalformed = true := by
  have hdoctype : hasDoctype "<?xml-stylesheet a?><img/>" = false := by decide +kernel
  obtain ⟨d, hread⟩ : ∃ d, Document.read "<?xml-stylesheet a?><img/>".toList = .ok d := by
    have hok : (Document.read "<?xml-stylesheet a?><img/>".toList).toBool = true := by
      decide +kernel
    generalize Document.read "<?xml-stylesheet a?><img/>".toList = r at *
    cases r with
    | ok d => exact ⟨d, rfl⟩
    | error e => cases hok
  obtain ⟨findings, hlint, hiff⟩ :=
    prepared_malformed_iff "<?xml-stylesheet a?><img/>" d hdoctype hread ⟨[]⟩ none Check.all
  refine ⟨hdoctype, d, findings, hread, hlint, ?_, fun h => ?_⟩
  · rintro rfl
    have hsome : (Template.prepare ⟨[]⟩ "<?xml-stylesheet a?><img/>" none).lint Check.all
        ≠ some [] := by
      decide +kernel
    exact hsome hlint
  · have hbegins : ¬ BeginsDocument "<?xml-stylesheet a?><img/>".toList := by
      unfold BeginsDocument
      decide +kernel
    exact hbegins (hiff.1 h)

/-- A document that begins with an XML declaration, or with a byte order mark,
can be read as it is written.  Preparing it makes an error of its beginning. -/
theorem declaration_broken_by_preparation :
    (hasDoctype "<?xml version='1.0'?><p/>" = false ∧
      (Document.read "<?xml version='1.0'?><p/>".toList).toBool = true ∧
      (Template.prepare (.ofString "t.pt") "<?xml version='1.0'?><p/>" none).lint Check.all
        = some [⟨.ofString "t.pt", none, Finding.syntaxErrorRule,
          "unexpected XML declaration, line 1, column 1"⟩]) ∧
    (hasDoctype "\ufeff<p/>" = false ∧
      (Document.read "\ufeff<p/>".toList).toBool = true ∧
      (Template.prepare (.ofString "t.pt") "\ufeff<p/>" none).lint Check.all
        = some [⟨.ofString "t.pt", none, Finding.syntaxErrorRule,
          "unknown token, line 1, column 1"⟩]) := by
  decide +kernel

end TemplateLint
