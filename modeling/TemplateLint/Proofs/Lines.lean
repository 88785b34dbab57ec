/-
  TemplateLint.Proofs.Lines — the line of a finding is a line of the file as written.

  A finding of a check is about an element.  Its `<` stands at some byte of
  the file, and the line of the finding counts the line feeds in front of
  that byte.  Nothing that was put in front of the file shows: the place is
  never inside the injected document type, and taking the injected lines off
  the row never goes below line 1.

  Main result: `finding_line`.
-/
import TemplateLint.Proofs.Injection

namespace TemplateLint

/-! ## §1. Line feeds as bytes -/

namespace Utf8

/-- The bytes of the characters, one after the other. -/
def encodeChars (cs : List Char) : List UInt8 :=
  cs.flatMap String.utf8EncodeChar

theorem encodeChars_append (xs ys : List Char) :
    encodeChars (xs ++ ys) = encodeChars xs ++ encodeChars ys :=
  List.flatMap_append

/-- Bytes from 0x80 on are no line feeds. -/
theorem ofNat_ne_lineFeed {n : Nat} (hlow : 0x80 ≤ n) (hhigh : n < 0x100) :
    UInt8.ofNat n ≠ 0x0a := by
  intro h
  have hmod : n % 0x100 = 0x0a := congrArg UInt8.toNat h
  omega

/-- Only the line feed is encoded with the byte of a line feed. -/
theorem count_utf8EncodeChar (c : Char) :
    (String.utf8EncodeChar c).count 0x0a = [c].count '\n' := by
  by_cases hc : c = '\n'
  · rw [hc]
    decide
  · have hval : c.val.toNat ≠ 0x0a := fun h => hc (Char.ext (UInt32.toNat.inj h))
    rw [List.count_eq_zero.2 (show '\n' ∉ [c] by simpa using Ne.symm hc), List.count_eq_zero]
    unfold String.utf8EncodeChar
    generalize c.val.toNat = v at *
    dsimp only
    -- one byte, or two to four of which each is at least 0x80
    split
    · intro hmem
      have hbyte : v % 0x100 = 0x0a :=
        congrArg UInt8.toNat (List.mem_singleton.1 hmem).symm
      omega
    · split
      · simp only [List.mem_cons, List.not_mem_nil, or_false, not_or]
        exact ⟨(ofNat_ne_lineFeed (by omega) (by omega)).symm,
          (ofNat_ne_lineFeed (by omega) (by omega)).symm⟩
      · split
        · simp only [List.mem_cons, List.not_mem_nil, or_false, not_or]
          exact ⟨(ofNat_ne_lineFeed (by omega) (by omega)).symm,
            (ofNat_ne_lineFeed (by omega) (by omega)).symm,
            (ofNat_ne_lineFeed (by omega) (by omega)).symm⟩
        · simp only [List.mem_cons, List.not_mem_nil, or_false, not_or]
          exact ⟨(ofNat_ne_lineFeed (by omega) (by omega)).symm,
            (ofNat_ne_lineFeed (by omega) (by omega)).symm,
            (ofNat_ne_lineFeed (by omega) (by omega)).symm,
            (ofNat_ne_lineFeed (by omega) (by omega)).symm⟩

/-- Counting line feeds in the bytes is counting them in the characters. -/
theorem count_encodeChars (cs : List Char) : (encodeChars cs).count 0x0a = cs.count '\n' := by
  induction cs with
  | nil => rfl
  | cons c cs ih =>
    show (String.utf8EncodeChar c ++ encodeChars cs).count 0x0a = ([c] ++ cs).count '\n'
    rw [List.count_append, List.count_append, ih, count_utf8EncodeChar]

end Utf8

/-! ## §2. The byte at which an element begins -/

/-- The number of bytes of `text` in front of `mark`. -/
def byteOffset (text : List Char) (mark : Mark) : Nat :=
  (Utf8.encodeChars (text.take (text.length - mark))).length

/-- The bytes in front of a tag are those of the injected part and those of
the source in front of its `<`. -/
theorem byteOffset_append {front text before after : List Char} {mark : Nat}
    (htext : text = before ++ '<' :: after) (hmark : after.length + 1 = mark) :
    byteOffset (front ++ text) mark
      = (Utf8.encodeChars front).length + (Utf8.encodeChars before).length := by
  have hlength : (front ++ text).length - mark = front.length + before.length := by
    rw [htext, ← hmark, List.length_append, List.length_append, List.length_cons]
    omega
  unfold byteOffset
  rw [hlength, htext, List.take_length_add_append, List.take_left, Utf8.encodeChars_append,
    List.length_append]

/-- The row of a tag counts the line feeds in front of its `<`. -/
theorem Position.row_ofMark {text before after : List Char} {mark : Nat}
    (htext : text = before ++ '<' :: after) (hmark : after.length + 1 = mark) :
    (ofMark text mark).row = before.count '\n' + 1 := by
  have hlength : text.length - mark = before.length := by
    rw [htext, ← hmark, List.length_append, List.length_cons]
    omega
  unfold ofMark
  rw [hlength, htext, List.take_left]
  rfl

/-! ## §3. Findings -/

/-- The elements of the root are elements of the document. -/
theorem Document.mem_elements_of_root {d : Document} {root e : Element}
    (hroot : d.root? = some root) (he : e ∈ root.elements) : e ∈ d.elements := by
  obtain ⟨top, htop, hsome⟩ := List.exists_of_findSome?_eq_some hroot
  have htop_eq : top = .element root.tag root.children := by
    cases top <;> cases hsome
    rfl
  have hwalk : ∀ node ∈ (Node.element root.tag root.children).walk, node ∈ Node.walkAll d.children :=
    fun node hnode => Node.mem_walkAll.2 ⟨top, htop, by rw [htop_eq]; exact hnode⟩
  rcases List.mem_cons.1 he with rfl | he
  · exact List.mem_filterMap.2 ⟨.element e.tag e.children, hwalk _ List.mem_cons_self, rfl⟩
  · obtain ⟨node, hnode, hinner⟩ := List.mem_filterMap.1 he
    exact List.mem_filterMap.2 ⟨node, hwalk node (List.mem_cons_of_mem _ hnode), hinner⟩

/-- What a check finds is at or below the root. -/
theorem Check.mem_elements_of_offenders {check : Check} {root : Element}
    {offender : Element × Rule} (h : offender ∈ check.offenders root) :
    offender.1 ∈ root.elements := by
  obtain ⟨e, he, hverdict⟩ := List.mem_filterMap.1 h
  obtain ⟨rule, -, rfl⟩ := Option.map_eq_some_iff.1 hverdict
  exact he

/-- A template that can be read and is not excluded is checked. -/
theorem Template.lint_of_document {t : Template} {checks : List Check} {d : Document}
    (hdocument : t.document = .ok d) (hexcluded : t.isExcluded = false) :
    t.lint checks = some (t.runChecks checks d) := by
  unfold Template.lint
  rw [hdocument]
  show some (if t.isExcluded = true then _ else _) = _
  rw [hexcluded, if_neg Bool.false_ne_true]

/-- A finding with a line comes from a check on an element of the document. -/
theorem Template.exists_element_of_lint {t : Template} {checks : List Check}
    {findings : List Finding} {f : Finding} {n : Nat} (hlint : t.lint checks = some findings)
    (hf : f ∈ findings) (hline : f.line = some n) :
    ∃ d e rule, t.document = .ok d ∧ e ∈ d.elements ∧ f = t.finding e rule := by
  unfold Template.lint at hlint
  split at hlint
  · cases hlint
    rw [List.mem_singleton.1 hf] at hline
    cases hline
  · cases hlint
  · next d hd =>
    cases hlint
    split at hf
    · cases hf
    · unfold Template.runChecks at hf
      split at hf
      · cases hf
      · next root hroot =>
        obtain ⟨check, -, hf⟩ := List.mem_flatMap.1 hf
        obtain ⟨⟨e, rule⟩, hmem, rfl⟩ := List.mem_map.1 hf
        have he : e ∈ root.elements := Check.mem_elements_of_offenders hmem
        exact ⟨d, e, rule, hd, Document.mem_elements_of_root hroot he, rfl⟩

/-- **Lines point into the file as written.**  A finding with line `n` is about
an element of the document.  Its `<` is the byte `p` of the source, which is
its place in the prepared text less the bytes of the injected part; `n` counts
the line feeds of the source in front of that byte, from 1.  The row in the
prepared text is `n` and the injected lines, so that taking these off again
never stops at a bound. -/
theorem finding_line (path : Path) (source : String) (exclude : Option String)
    (checks : List Check) (findings : List Finding) (f : Finding) (n : Nat)
    (hlint : (Template.prepare path source exclude).lint checks = some findings)
    (hf : f ∈ findings) (hline : f.line = some n) :
    ∃ (d : Document) (e : Element) (rule : Rule) (p : Nat),
      (Template.prepare path source exclude).document = .ok d ∧ e ∈ d.elements ∧
      f = (Template.prepare path source exclude).finding e rule ∧
      byteOffset (Template.prepare path source exclude).content.toList e.tag.start
        = (Utf8.encode (injectedPart source)).length + p ∧
      (Utf8.encode source)[p]? = some 0x3c ∧
      n = 1 + ((Utf8.encode source).take p).count 0x0a ∧
      1 ≤ n ∧ n ≤ 1 + (Utf8.encode source).count 0x0a ∧
      (Position.ofMark (Template.prepare path source exclude).content.toList e.tag.start).row
        = (Template.prepare path source exclude).offset + n := by
  obtain ⟨d, e, rule, hd, he, hfinding⟩ := Template.exists_element_of_lint hlint hf hline
  -- where the element begins in the source
  have hensures := Template.document_ensures path source exclude
  rw [hd] at hensures
  have hopens : OpensAt source.toList e.tag.start := hensures.opens e he
  have hle : (e.tag.start : Nat) ≤ source.toList.length := hopens.mark_le
  obtain ⟨before, after, htext, hmark⟩ := hopens
  have hbytes : Utf8.encode source
      = Utf8.encodeChars before ++ 0x3c :: Utf8.encodeChars after := by
    show Utf8.encodeChars source.toList = _
    rw [htext, Utf8.encodeChars_append]
    rfl
  -- the line that the finding names
  have hrow : (Position.ofMark (Template.prepare path source exclude).content.toList e.tag.start).row
      = (Template.prepare path source exclude).offset
        + (Position.ofMark source.toList e.tag.start).row := by
    rw [Template.ofMark_prepare path source exclude hle]
  have hn : n = (Position.ofMark source.toList e.tag.start).row := by
    rw [hfinding] at hline
    have hsub : (Template.prepare path source exclude).lineOf e = n := Option.some.inj hline
    unfold Template.lineOf at hsub
    rw [hrow, Nat.add_sub_cancel_left] at hsub
    exact hsub.symm
  have hcount : n = 1 + before.count '\n' := by
    rw [hn, Position.row_ofMark htext hmark, Nat.add_comm]
  refine ⟨d, e, rule, (Utf8.encodeChars before).length, hd, he, hfinding, ?_, ?_, ?_, ?_, ?_, ?_⟩
  · rw [Template.prepare_content]
    exact byteOffset_append htext hmark
  · rw [hbytes, List.getElem?_append_right (Nat.le_refl _), Nat.sub_self]
    rfl
  · rw [hbytes, List.take_left, Utf8.count_encodeChars, hcount]
  · omega
  · rw [hbytes, List.count_append, Utf8.count_encodeChars]
    omega
  · rw [hrow, ← hn]

/-- An image on the second line, behind a character of two bytes and the use
of an injected entity. -/
theorem finding_line_behind_entity :
    (Template.prepare ⟨[]⟩ "<p>é&nbsp;\n<img/></p>" none).lint [.imageDescription]
      = some [⟨⟨[]⟩, some 2, Rule.missingImageDescription.id,
          Rule.missingImageDescription.guidance⟩] ∧
    ∃ p, (Utf8.encode "<p>é&nbsp;\n<img/></p>")[p]? = some 0x3c ∧
      2 = 1 + ((Utf8.encode "<p>é&nbsp;\n<img/></p>").take p).count 0x0a := by
  have hlint : (Template.prepare ⟨[]⟩ "<p>é&nbsp;\n<img/></p>" none).lint [.imageDescription]
      = some [⟨⟨[]⟩, some 2, Rule.missingImageDescription.id,
          Rule.missingImageDescription.guidance⟩] := by
    decide +kernel
  obtain ⟨d, e, rule, p, -, -, -, -, hbyte, hcount, -⟩ :=
    finding_line _ _ _ _ _ _ 2 hlint (List.mem_singleton_self _) rfl
  exact ⟨hlint, p, hbyte, hcount⟩

end TemplateLint
