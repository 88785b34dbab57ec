/-
  TemplateLint.Proofs.Transparency — the injected document type does not show.

  A template without a document type that can be read as it is written, is
  read behind the injected one to the same tree.  Its elements begin where
  they begin in the file, with the injected text in front, and the checks find
  the same in it, on the same lines.

  Main result: `injection_transparent`.
-/
import TemplateLint.Proofs.Lines

namespace TemplateLint

/-! ## §1. A text without a document type -/

theorem contains_append (before needle after : List Char) :
    contains needle (before ++ (needle ++ after)) = true := by
  induction before with
  | nil =>
    have hstart : needle.isPrefixOf (needle ++ after) = true :=
      List.isPrefixOf_iff_prefix.2 (List.prefix_append needle after)
    rw [List.nil_append]
    cases htext : needle ++ after with
    | nil =>
      rw [(List.append_eq_nil_iff.1 htext).1]
      rfl
    | cons c cs =>
      rw [htext] at hstart
      unfold contains
      rw [hstart]
      rfl
  | cons c before ih =>
    rw [List.cons_append]
    unfold contains
    rw [ih, Bool.or_true]

/-- What a text does not contain is seen nowhere in it. -/
theorem Cursor.LiesIn.sees_eq_false {c : Cursor} {source : List Char} {word : String}
    (h : c.LiesIn source) (hword : contains word.toList source = false) : c.sees word = false := by
  cases hsees : c.sees word with
  | false => rfl
  | true =>
    obtain ⟨before, after, htext, -⟩ := h
    obtain ⟨back, hback⟩ := List.isPrefixOf_iff_prefix.1 hsees
    rw [htext, ← hback, List.append_assoc, contains_append] at hword
    cases hword

namespace Document

variable {source : List Char}

/-- Without a document type, comments and instructions are all that stands in
front of the element. -/
theorem readProlog_plain (hdoctype : contains doctypeMark.toList source = false)
    (hmark : source.head? ≠ some '\ufeff') (hdeclaration : ¬ "<?xml ".toList <+: source) :
    readProlog (Cursor.ofText source) = Builder.readMisc (Cursor.ofText source) {} := by
  have hfront : skipDeclaration (skipByteOrderMark (Cursor.ofText source))
      = .ok (Cursor.ofText source) := by
    have hstart : skipByteOrderMark (Cursor.ofText source) = Cursor.ofText source :=
      if_neg hmark
    rw [hstart]
    exact if_neg fun hsees => hdeclaration (List.isPrefixOf_iff_prefix.1 hsees)
  have hmisc := Builder.readMisc_ensures (Cursor.liesIn_ofText source)
    (Builder.standsIn_ofEntities [] nofun)
  unfold readProlog
  rw [hfront]
  show (Builder.readMisc (Cursor.ofText source) {} >>= _) = _
  cases hread : Builder.readMisc (Cursor.ofText source) {} with
  | error e => rfl
  | ok r =>
    rw [hread] at hmisc
    -- the reader is still in the source, which has no document type anywhere
    have hlies : r.2.dropSpaces.LiesIn source := hmisc.2.advance _
    have hunseen : r.2.dropSpaces.sees "<!DOCTYPE" = false := hlies.sees_eq_false hdoctype
    exact if_neg (by rw [hunseen]; exact Bool.false_ne_true)

/-- **Reading behind the injected document type** succeeds where reading
without it does, with the same document. -/
theorem read_injected_follows (hdoctype : contains doctypeMark.toList source = false)
    (hmark : source.head? ≠ some '\ufeff') (hdeclaration : ¬ "<?xml ".toList <+: source) :
    Follows (Document.read source) (Document.read (injectedDoctype.toList ++ source)) Eq := by
  unfold Document.read
  rw [readProlog_plain hdoctype hmark hdeclaration, readProlog_injected]
  refine Follows.bind (Builder.readMisc_follows rfl).mapError fun r r' hr => ?_
  obtain ⟨b₁, c₁⟩ := r
  obtain ⟨b₂, c₂⟩ := r'
  dsimp only at hr
  obtain ⟨⟨hnil, rfl⟩, rfl⟩ := hr
  exact readBody_follows hnil

end Document

/-! ## §2. Lines and findings -/

namespace Template

variable (path : Path) (source : String) (exclude : Option String)

/-- The template as it is written, with nothing put in front. -/
def asWritten : Template :=
  { path, content := source, offset := 0, exclude }

/-- The line of an element is the same whether something is put in front or
not. -/
theorem lineOf_prepare {e : Element} (he : OpensAt source.toList e.tag.start) :
    (prepare path source exclude).lineOf e = (asWritten path source exclude).lineOf e := by
  have hmark : (e.tag.start : Nat) ≤ source.toList.length := he.mark_le
  unfold lineOf
  rw [ofMark_prepare path source exclude hmark]
  exact Nat.add_sub_cancel_left _ _

/-- The checks find the same in a document, on the same lines. -/
theorem runChecks_prepare (checks : List Check) {d : Document}
    (hd : d.StandsIn source.toList) :
    (prepare path source exclude).runChecks checks d
      = (asWritten path source exclude).runChecks checks d := by
  unfold runChecks
  cases hroot : d.root? with
  | none => rfl
  | some root =>
    show checks.flatMap _ = checks.flatMap _
    congr 1
    funext check
    refine List.map_congr_left fun offender hmem => ?_
    have he : offender.1 ∈ d.elements :=
      Document.mem_elements_of_root hroot (Check.mem_elements_of_offenders hmem)
    show Finding.mk _ (some ((prepare path source exclude).lineOf offender.1)) _ _
      = Finding.mk _ (some ((asWritten path source exclude).lineOf offender.1)) _ _
    rw [lineOf_prepare path source exclude (hd.opens _ he), prepare_path]
    rfl

end Template

/-! ## §3. The injected document type does not show -/

/-- The bytes in front of an element are those of the injected document type
and those in front of it in the source. -/
theorem byteOffset_injected {source : String} {mark : Mark} (h : OpensAt source.toList mark) :
    byteOffset (injectedDoctype ++ source).toList mark
      = (Utf8.encode injectedDoctype).length + byteOffset source.toList mark := by
  obtain ⟨before, after, htext, hmark⟩ := h
  have hplain : byteOffset ([] ++ source.toList) mark
      = (Utf8.encodeChars []).length + (Utf8.encodeChars before).length :=
    byteOffset_append htext hmark
  rw [List.nil_append] at hplain
  rw [String.toList_append, byteOffset_append htext hmark, hplain]
  exact congrArg _ (Nat.zero_add _).symm

/-- **Injection is transparent.**  A source without a document type begins
neither with a byte order mark nor with an XML declaration, and can be read on
its own.  Then it can be read behind the injected document type, as the same
document: marks count from the end, so that every element begins where it did,
with the injected bytes in front.  Whatever the path and the checks, the
findings are those of the source itself with no lines put in front. -/
theorem injection_transparent (source : String) (d : Document)
    (hdoctype : hasDoctype source = false) (hmark : source.toList.head? ≠ some '\ufeff')
    (hdeclaration : ¬ "<?xml ".toList <+: source.toList)
    (hread : Document.read source.toList = .ok d) :
    Document.read (injectedDoctype ++ source).toList = .ok d ∧
    (∀ e ∈ d.elements, byteOffset (injectedDoctype ++ source).toList e.tag.start
      = (Utf8.encode injectedDoctype).length + byteOffset source.toList e.tag.start) ∧
    ∀ (path : Path) (exclude : Option String) (checks : List Check),
      (Template.prepare path source exclude).isExcluded = false →
      (Template.prepare path source exclude).content = injectedDoctype ++ source ∧
      (Template.prepare path source exclude).lint checks
        = some ((Template.asWritten path source exclude).runChecks checks d) := by
  have hstands : d.StandsIn source.toList := by
    have h := Document.read_ensures source.toList
    rw [hread] at h
    exact h
  have hinjected : Document.read (injectedDoctype ++ source).toList = .ok d := by
    rw [String.toList_append]
    obtain ⟨d', hd', rfl⟩ := Document.read_injected_follows hdoctype hmark hdeclaration d hread
    exact hd'
  refine ⟨hinjected, fun e he => byteOffset_injected (hstands.opens e he), ?_⟩
  intro path exclude checks hexcluded
  have hprepare := Template.prepare_of_not_hasDoctype path source exclude
    (by rw [hdoctype]; exact Bool.false_ne_true)
  have hcontent : (Template.prepare path source exclude).content = injectedDoctype ++ source := by
    rw [hprepare]
  refine ⟨hcontent, ?_⟩
  have hdocument : (Template.prepare path source exclude).document = .ok d := by
    unfold Template.document
    rw [hcontent, hinjected]
  rw [Template.lint_of_document hdocument hexcluded,
    Template.runChecks_prepare path source exclude checks hstands]

/-- A comment, white space and an element with an image, which is found on the
second line. -/
theorem injection_transparent_comment :
    hasDoctype "<!-- c -->\n<p a='&lt;'>x<img/></p>" = false ∧
    ∃ d, Document.read "<!-- c -->\n<p a='&lt;'>x<img/></p>".toList = .ok d ∧
      Document.read (injectedDoctype ++ "<!-- c -->\n<p a='&lt;'>x<img/></p>").toList = .ok d ∧
      (Template.prepare ⟨[]⟩ "<!-- c -->\n<p a='&lt;'>x<img/></p>" none).lint
        [.imageDescription] = some
          ((Template.asWritten ⟨[]⟩ "<!-- c -->\n<p a='&lt;'>x<img/></p>" none).runChecks
            [.imageDescription] d) := by
  have hdoctype : hasDoctype "<!-- c -->\n<p a='&lt;'>x<img/></p>" = false := by decide +kernel
  obtain ⟨d, hread⟩ : ∃ d, Document.read "<!-- c -->\n<p a='&lt;'>x<img/></p>".toList = .ok d := by
    have hok : (Document.read "<!-- c -->\n<p a='&lt;'>x<img/></p>".toList).toBool = true := by
      decide +kernel
    generalize Document.read "<!-- c -->\n<p a='&lt;'>x<img/></p>".toList = r at *
    cases r with
    | ok d => exact ⟨d, rfl⟩
    | error e => cases hok
  obtain ⟨hinjected, -, hfindings⟩ :=
    injection_transparent "<!-- c -->\n<p a='&lt;'>x<img/></p>" d hdoctype (by decide +kernel)
      (by decide +kernel) hread
  exact ⟨hdoctype, d, hread, hinjected, (hfindings ⟨[]⟩ none [.imageDescription] rfl).2⟩

end TemplateLint
