/-
  TemplateLint.Proofs.SourceOrder — findings come in the order of the file.

  A template without a document type gets one that declares idle entities, so
  all its tags are its own.  Its elements are met in the order in which their
  tags stand in the file; each check keeps that order, and the lines that it
  names never go back.

  Main result: `checks_report_in_source_order`.
-/
import TemplateLint.Proofs.Independence
import TemplateLint.Proofs.Markup.Nesting

namespace TemplateLint

/-! ## §1. Places and bytes -/

theorem Utf8.length_encodeChars_pos {cs : List Char} (h : cs ≠ []) :
    0 < (encodeChars cs).length := by
  obtain ⟨c, cs, rfl⟩ := List.exists_cons_of_ne_nil h
  have hpos : 0 < (String.utf8EncodeChar c).length :=
    List.length_pos_iff.2 String.utf8EncodeChar_ne_nil
  show 0 < (String.utf8EncodeChar c ++ encodeChars cs).length
  rw [List.length_append]
  exact Nat.add_pos_left hpos _

/-- What has a smaller mark stands behind. -/
theorem take_eq_append {text : List Char} {mark mark' : Nat} (hlt : mark' < mark)
    (hmark : mark ≤ text.length) : ∃ between, between ≠ [] ∧
      text.take (text.length - mark') = text.take (text.length - mark) ++ between := by
  refine ⟨(text.take (text.length - mark')).drop (text.length - mark), ?_, ?_⟩
  · rw [← List.length_pos_iff, List.length_drop, List.length_take]
    omega
  · have hmin : text.take (text.length - mark)
        = (text.take (text.length - mark')).take (text.length - mark) := by
      rw [List.take_take, Nat.min_eq_left (by omega)]
    rw [hmin, List.take_append_drop]

theorem byteOffset_lt {text : List Char} {mark mark' : Nat} (hlt : mark' < mark)
    (hmark : mark ≤ text.length) : byteOffset text mark < byteOffset text mark' := by
  obtain ⟨between, hne, htake⟩ := take_eq_append hlt hmark
  unfold byteOffset
  rw [htake, Utf8.encodeChars_append, List.length_append]
  exact Nat.lt_add_of_pos_right (Utf8.length_encodeChars_pos hne)

theorem Position.row_le {text : List Char} {mark mark' : Nat} (hlt : mark' < mark)
    (hmark : mark ≤ text.length) : (ofMark text mark).row ≤ (ofMark text mark').row := by
  obtain ⟨between, -, htake⟩ := take_eq_append hlt hmark
  show (text.take _).count '\n' + 1 ≤ (text.take _).count '\n' + 1
  rw [htake, List.count_append]
  omega

/-- At the place of a tag there is the byte of its `<`. -/
theorem OpensAt.byte {source : String} {mark : Mark} (h : OpensAt source.toList mark) :
    (Utf8.encode source)[byteOffset source.toList mark]? = some 0x3c := by
  obtain ⟨before, after, htext, hmark⟩ := h
  have hoffset : byteOffset ([] ++ source.toList) mark
      = (Utf8.encodeChars []).length + (Utf8.encodeChars before).length :=
    byteOffset_append htext hmark
  rw [List.nil_append, show (Utf8.encodeChars []).length = 0 from rfl, Nat.zero_add] at hoffset
  have hbytes : Utf8.encode source
      = Utf8.encodeChars before ++ 0x3c :: Utf8.encodeChars after := by
    show Utf8.encodeChars source.toList = _
    rw [htext, Utf8.encodeChars_append]
    rfl
  rw [hoffset, hbytes, List.getElem?_append_right (Nat.le_refl _), Nat.sub_self]
  rfl

/-! ## §2. Elements in the order of the file -/

/-- The elements of the root are among those of the document, in their order. -/
theorem Document.elements_root_sublist {d : Document} {root : Element} (h : d.root? = some root) :
    root.elements.Sublist d.elements := by
  obtain ⟨before, top, after, hchildren, htop, -⟩ := List.findSome?_eq_some_iff.1 h
  have hroot : root.elements = top.walk.filterMap Node.element? := by
    cases top with
    | element tag children =>
      cases htop
      rfl
    | text content => cases htop
    | comment content => cases htop
    | instruction target content => cases htop
  unfold Document.elements
  rw [hchildren, Node.walkAll_append, Node.walkAll_cons, List.filterMap_append,
    List.filterMap_append, hroot]
  exact (List.sublist_append_left _ _).trans (List.sublist_append_right _ _)

/-- A check looks at the elements one after the other. -/
theorem Check.offenders_sorted {root : Element} (check : Check)
    (h : (root.elements.map (·.tag.start)).Pairwise (· > ·)) :
    (check.offenders root).Pairwise fun p q => p.1.tag.start > q.1.tag.start := by
  rw [List.pairwise_map] at h
  unfold Check.offenders
  rw [List.pairwise_filterMap]
  refine h.imp fun hgt p hp q hq => ?_
  obtain ⟨_, -, rfl⟩ := Option.map_eq_some_iff.1 hp
  obtain ⟨_, -, rfl⟩ := Option.map_eq_some_iff.1 hq
  exact hgt

theorem isIdle_injectedEntities (n : Nat) : ∀ e ∈ injectedEntities n, e.value.IsIdle := by
  intro e he
  simp only [injectedEntities, List.mem_cons, List.not_mem_nil, or_false] at he
  rcases he with rfl | rfl
  · exact (show "no-break space".toList.all isIdleChar = true by decide)
  · exact (show "multiplication sign".toList.all isIdleChar = true by decide)

/-- **A source without a document type** is read to elements that begin one
behind the other, or has an error. -/
theorem readPrepared_sorted {source : String} (hdoctype : hasDoctype source = false) :
    Ensures (readPrepared source)
      (fun d => (d.elements.map (·.tag.start)).Pairwise (· > ·)) Builder.IsTold := by
  have hinjected : injectedPart source = injectedDoctype := by
    unfold injectedPart
    rw [hdoctype]
    rfl
  have hbuilder : Builder.StandsIn source.toList
      { entities := injectedEntities source.toList.length } :=
    Builder.standsIn_ofEntities _ (injectedEntities_usable _)
  have hfresh : Builder.IsFresh { entities := injectedEntities source.toList.length } :=
    Builder.isFresh_ofEntities (isIdle_injectedEntities _)
  unfold readPrepared Document.read
  rw [hinjected, Document.readProlog_injected]
  have hmisc := (Builder.readMisc_ensures (Cursor.liesIn_ofText source.toList) hbuilder).and
    (Builder.readMisc_outline (Cursor.ofText source.toList) _)
  refine (hmisc.mapError fun _ _ => nofun).bind fun r hr => ?_
  exact Document.readBody_sorted hr.1.2.fits (hr.2.isFresh hfresh)

/-! ## §3. Findings in the order of the file -/

/-- What a check reports about a document, read from `source`, in the order of
the file. -/
structure Check.ReportsInOrder (check : Check) (t : Template) (source : String) (d : Document)
    (reported : List (Element × Rule)) : Prop where
  /-- Elements of the document are reported, with the rule that they break. -/
  breaks : ∀ p ∈ reported, p.1 ∈ d.elements ∧ check.verdict p.1 = some p.2
  /-- Each begins at a `<` of the source. -/
  opens : ∀ p ∈ reported,
    (Utf8.encode source)[byteOffset source.toList p.1.tag.start]? = some 0x3c
  /-- Each begins behind the one before, so none is there twice. -/
  increasing : reported.Pairwise fun p q =>
    byteOffset source.toList p.1.tag.start < byteOffset source.toList q.1.tag.start
  /-- The lines never go back. -/
  lines : reported.Pairwise fun p q => t.lineOf p.1 ≤ t.lineOf q.1

theorem Check.reportsInOrder_nil (check : Check) (t : Template) (source : String) (d : Document) :
    check.ReportsInOrder t source d [] :=
  ⟨nofun, nofun, .nil, .nil⟩

theorem Check.reportsInOrder_offenders {source : String} {d : Document} {root : Element}
    (check : Check) (path : Path) (exclude : Option String) (hd : d.StandsIn source.toList)
    (hroot : d.root? = some root) (hsorted : (d.elements.map (·.tag.start)).Pairwise (· > ·)) :
    check.ReportsInOrder (Template.prepare path source exclude) source d (check.offenders root) := by
  have hmem : ∀ p ∈ check.offenders root, p.1 ∈ d.elements := fun p hp =>
    Document.mem_elements_of_root hroot (Check.mem_elements_of_offenders hp)
  have hopens : ∀ p ∈ check.offenders root, OpensAt source.toList p.1.tag.start :=
    fun p hp => hd.opens p.1 (hmem p hp)
  have hoffenders : (check.offenders root).Pairwise fun p q => p.1.tag.start > q.1.tag.start :=
    check.offenders_sorted (hsorted.sublist ((Document.elements_root_sublist hroot).map _))
  constructor
  · intro p hp
    obtain ⟨e, -, hverdict⟩ := List.mem_filterMap.1 hp
    obtain ⟨rule, hrule, rfl⟩ := Option.map_eq_some_iff.1 hverdict
    exact ⟨hmem _ hp, hrule⟩
  · intro p hp
    exact (hopens p hp).byte
  · refine hoffenders.imp_of_mem fun {p q} hp _ hgt => ?_
    exact byteOffset_lt hgt (hopens p hp).mark_le
  · refine hoffenders.imp_of_mem fun {p q} hp _ hgt => ?_
    -- the source ends the prepared text, so the marks are marks of both
    have hmark : (p.1.tag.start : Nat)
        ≤ (Template.prepare path source exclude).content.toList.length := by
      rw [Template.prepare_content, List.length_append]
      exact Nat.le_trans (hopens p hp).mark_le (Nat.le_add_left _ _)
    exact Nat.sub_le_sub_right (Position.row_le hgt hmark) _

/-- **Within a file, each check reports in source order.**  Take a source without
a document type, a path and a prefix.  Either the source is malformed, and one
error without a line is all that is reported; or there is a document, and a list
of its elements for each check, such that the findings of every list of checks
are those about the elements of its checks, one list behind the other.  In each
list the elements begin one behind the other in the source, and the lines never
go back. -/
theorem checks_report_in_source_order (source : String) (hdoctype : hasDoctype source = false)
    (path : Path) (exclude : Option String) :
    (∃ message, ∀ checks, (Template.prepare path source exclude).lint checks
      = some [.malformed path message]) ∨
    ∃ (d : Document) (reported : Check → List (Element × Rule)),
      (Template.prepare path source exclude).document = .ok d ∧
      (∀ checks, (Template.prepare path source exclude).lint checks
        = some (checks.flatMap fun check => (reported check).map fun p =>
            (Template.prepare path source exclude).finding p.1 p.2)) ∧
      ∀ check : Check, check.ReportsInOrder (Template.prepare path source exclude) source d
        (reported check) := by
  have hensures := Template.document_ensures path source exclude
  have hsorted := readPrepared_sorted hdoctype
  rw [Template.document_prepare] at hensures ⊢
  cases hread : readPrepared source with
  | error rejection =>
    rw [hread] at hsorted
    cases rejection with
    | overclosed => exact absurd rfl hsorted
    | malformed error => exact .inl ⟨_, fun checks => Template.lint_of_malformed hread⟩
  | ok d =>
    rw [hread] at hensures hsorted
    refine .inr ?_
    by_cases hexcludes : Excludes exclude path
    · refine ⟨d, fun _ => [], rfl, fun checks => ?_, fun check => check.reportsInOrder_nil _ _ _⟩
      rw [Template.lint_of_excludes hread hexcludes]
      simp
    · obtain ⟨root, hroot⟩ := Option.isSome_iff_exists.1 hensures.root
      refine ⟨d, fun check => check.offenders root, rfl, fun checks => ?_, fun check =>
        check.reportsInOrder_offenders path exclude hensures hroot hsorted⟩
      rw [Template.lint_of_not_excludes hread hexcludes, ← Template.runChecks_prepare_exclude]
      unfold Template.runChecks
      rw [hroot]

/-- An image inside a link, and one behind it on a later line, with an entity in
between: both are reported, the one on the first line first. -/
theorem checks_report_in_source_order_nested :
    hasDoctype "<p><a><img/></a>&nbsp;\n<img/></p>" = false ∧
    ∃ (d : Document) (reported : Check → List (Element × Rule)),
      (Template.prepare ⟨[]⟩ "<p><a><img/></a>&nbsp;\n<img/></p>" none).document = .ok d ∧
      ((reported .imageDescription).map fun p =>
        (Template.prepare ⟨[]⟩ "<p><a><img/></a>&nbsp;\n<img/></p>" none).lineOf p.1) = [1, 2] ∧
      (reported .imageDescription).Pairwise fun p q =>
        byteOffset "<p><a><img/></a>&nbsp;\n<img/></p>".toList p.1.tag.start
          < byteOffset "<p><a><img/></a>&nbsp;\n<img/></p>".toList q.1.tag.start := by
  have hdoctype : hasDoctype "<p><a><img/></a>&nbsp;\n<img/></p>" = false := by decide +kernel
  have hlines : ((Template.prepare ⟨[]⟩ "<p><a><img/></a>&nbsp;\n<img/></p>" none).lint
      [.imageDescription]).map (·.map (·.line)) = some [some 1, some 2] := by
    decide +kernel
  rcases checks_report_in_source_order _ hdoctype ⟨[]⟩ none with
    ⟨message, hmalformed⟩ | ⟨d, reported, hdocument, hlint, horder⟩
  · rw [hmalformed] at hlines
    cases hlines
  · refine ⟨hdoctype, d, reported, hdocument, ?_, (horder .imageDescription).increasing⟩
    rw [hlint, List.flatMap_singleton, Option.map_some, List.map_map, Option.some.injEq] at hlines
    have hsome : ((reported .imageDescription).map fun p => some
        ((Template.prepare ⟨[]⟩ "<p><a><img/></a>&nbsp;\n<img/></p>" none).lineOf p.1))
        = [some 1, some 2] := hlines
    refine (List.map_inj_right fun _ _ => Option.some.inj).1 ?_
    rw [List.map_map]
    exact hsome

end TemplateLint
