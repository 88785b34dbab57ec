/-
  TemplateLint.Proofs.Markup.Attributes — no tag has an attribute twice.

  The attributes of a tag get their namespaces at its end, and one that agrees with an
  earlier one in namespace and name is refused there.  So every tag that is built is
  unambiguous; all other steps of reading move elements around or add nodes without
  tags.  One token keeps this (`take_unambiguous`), so a run of tokens does
  (`read_unambiguous`), and so do the texts of entities.

  Main result: `Document.read_unambiguous`, for whole documents.
-/
import TemplateLint.Proofs.Markup.Nesting

namespace TemplateLint

/-! ## §1. Tags -/

/-- No two attributes agree in namespace and name. -/
def Tag.IsUnambiguous (tag : Tag) : Prop :=
  (tag.attributes.map fun a => (a.ns, a.name)).Nodup

/-- Attributes that get their namespaces stay distinct, or one is refused. -/
theorem WrittenAttribute.resolveAll_nodup {scope : List Declaration}
    (written : List WrittenAttribute) {done : List Attribute}
    (hdone : (done.map fun a => (a.ns, a.name)).Nodup) :
    Ensures (resolveAll scope done written)
      (fun attributes => (attributes.map fun a => (a.ns, a.name)).Nodup) fun _ => True := by
  induction written generalizing done with
  | nil => exact hdone
  | cons a rest ih =>
    refine (Ensures.any (a.resolve scope)).bind fun ns _ => ?_
    split
    · exact trivial
    · next hnew =>
      apply ih
      have hfresh : (ns, a.name.localPart) ∉ done.map fun b => (b.ns, b.name) := by
        simpa using hnew
      rw [List.map_append, List.map_singleton, List.nodup_append]
      refine ⟨hdone, by simp, ?_⟩
      intro x hx y hy
      rw [List.mem_singleton.1 hy]
      intro heq
      exact hfresh (heq ▸ hx)

/-! ## §2. The invariant -/

/-- All tags of a builder are unambiguous, those of open elements included. -/
structure Builder.IsUnambiguous (b : Builder) : Prop where
  opened : ∀ e ∈ b.opened, e.toNode.AllTags Tag.IsUnambiguous
  finished : ∀ node ∈ b.finished, node.AllTags Tag.IsUnambiguous

theorem OpenElement.allTags_toNode {good : Tag → Prop} {e : OpenElement} :
    e.toNode.AllTags good ↔ good e.tag ∧ ∀ node ∈ e.children, node.AllTags good := by
  unfold toNode
  rw [Node.allTags_element]
  simp

namespace Builder

variable {b : Builder}

theorem IsUnambiguous.modifyNodes {f : List Node → List Node} (hb : b.IsUnambiguous)
    (hf : ∀ nodes, (∀ node ∈ nodes, node.AllTags Tag.IsUnambiguous) →
      ∀ node ∈ f nodes, node.AllTags Tag.IsUnambiguous) :
    (b.modifyNodes f).IsUnambiguous := by
  unfold Builder.modifyNodes
  split
  · exact ⟨hb.opened, hf _ hb.finished⟩
  · next e outer hopened =>
    have hall := hb.opened
    rw [hopened, List.forall_mem_cons, OpenElement.allTags_toNode] at hall
    refine ⟨List.forall_mem_cons.2 ⟨?_, hall.2⟩, hb.finished⟩
    exact OpenElement.allTags_toNode.2 ⟨hall.1.1, hf _ hall.1.2⟩

theorem IsUnambiguous.add {node : Node} (hb : b.IsUnambiguous)
    (hnode : node.AllTags Tag.IsUnambiguous) : (b.add node).IsUnambiguous := by
  apply hb.modifyNodes
  intro nodes hnodes
  exact List.forall_mem_cons.2 ⟨hnode, hnodes⟩

theorem IsUnambiguous.addText (content : List Char) (hb : b.IsUnambiguous) :
    (b.addText content).IsUnambiguous := by
  apply hb.modifyNodes
  intro nodes hnodes
  -- the last text goes on, or there is a new one
  split
  · rw [List.forall_mem_cons] at hnodes ⊢
    exact ⟨Node.allTags_of_element? rfl, hnodes.2⟩
  · exact List.forall_mem_cons.2 ⟨Node.allTags_of_element? rfl, hnodes⟩

/-! ## §3. One token -/

theorem beginTag_unambiguous {start : Mark} {name : QName} (hb : b.IsUnambiguous) :
    Ensures (b.beginTag start name) IsUnambiguous fun _ => True := by
  unfold beginTag
  split
  · exact trivial
  · exact ⟨hb.opened, hb.finished⟩

theorem addAttribute_unambiguous {start : Mark} {name : QName} {value : String}
    (hb : b.IsUnambiguous) :
    Ensures (b.addAttribute start name value) IsUnambiguous fun _ => True := by
  refine addAttribute_eq.mono fun b' hb' => ?_
  obtain ⟨attributes, declarations, rfl⟩ := hb'
  exact ⟨hb.opened, hb.finished⟩

theorem settle_unambiguous (hb : b.IsUnambiguous) :
    Ensures b.settle (fun r => (r.2.1.map fun a => (a.ns, a.name)).Nodup ∧ r.2.2.IsUnambiguous)
      fun _ => True := by
  have hnil : (([] : List Attribute).map fun a => (a.ns, a.name)).Nodup := List.nodup_nil
  unfold settle
  refine (WrittenAttribute.resolveAll_nodup b.attributes hnil).bind fun attributes h => ?_
  exact ⟨h, hb.opened, hb.finished⟩

/-- The one place at which a tag is built. -/
theorem endTag_unambiguous {selfClosing : Bool} (hb : b.IsUnambiguous) :
    Ensures (b.endTag selfClosing) IsUnambiguous fun _ => True := by
  unfold endTag
  split
  · exact hb
  · next start name htag =>
    refine (settle_unambiguous hb).bind fun r hr => ?_
    refine (Ensures.any _).bind fun ns _ => ?_
    have helement : (OpenElement.mk name ⟨start, ns, name.localPart, r.2.1⟩ r.1 []).toNode.AllTags
        Tag.IsUnambiguous :=
      OpenElement.allTags_toNode.2 ⟨hr.1, by simp⟩
    cases selfClosing with
    | true => exact hr.2.add helement
    | false => exact ⟨List.forall_mem_cons.2 ⟨helement, hr.2.opened⟩, hr.2.finished⟩

theorem close_unambiguous {start : Mark} {name : QName} (hb : b.IsUnambiguous) :
    Ensures (b.close start name) IsUnambiguous fun _ => True := by
  unfold close
  split
  · exact trivial
  · refine ((settle_unambiguous hb).mapError fun _ _ => trivial).bind fun r hr => ?_
    obtain ⟨scope, attributes, b'⟩ := r
    dsimp only at hr ⊢
    split
    · exact trivial
    · next e outer hopened =>
      have hall := hr.2.opened
      rw [hopened, List.forall_mem_cons] at hall
      split
      · have houter : IsUnambiguous { b' with opened := outer } := ⟨hall.2, hr.2.finished⟩
        exact houter.add hall.1
      · exact trivial

/-- What is asked of the reader for the texts of entities. -/
def ExpandsUnambiguously (expand : Cursor → Builder → Except Rejection Builder) : Prop :=
  ∀ value b, b.IsUnambiguous → Ensures (expand value b) IsUnambiguous fun _ => True

variable {level : Nat} {expand : Cursor → Builder → Except Rejection Builder}

theorem addPieces_unambiguous (hexpand : ExpandsUnambiguously expand) (pieces : List Piece)
    (gathered : List Char) (hb : b.IsUnambiguous) :
    Ensures (addPieces level expand pieces gathered b) IsUnambiguous fun _ => True := by
  induction pieces generalizing gathered b with
  | nil =>
    unfold addPieces
    split
    · exact hb
    · exact hb.addText _
  | cons piece pieces ih =>
    cases piece with
    | raw c =>
      unfold addPieces
      split
      · split
        · exact ih gathered hb
        · exact ih _ hb
      · exact ih _ hb
    | escaped c start =>
      unfold addPieces
      exact ih _ hb
    | broken error => exact trivial
    | entity value after =>
      unfold addPieces
      have hgathered :
          (if gathered.isEmpty then b else b.addText gathered.reverse).IsUnambiguous := by
        split
        · exact hb
        · exact hb.addText _
      refine (Ensures.any _).bind fun uses _ => ?_
      -- the text of the entity is read from here, without the tag that is under way
      have hstart : IsUnambiguous
          { (if gathered.isEmpty then b else b.addText gathered.reverse) with
            uses, tag := none } := ⟨hgathered.opened, hgathered.finished⟩
      refine (hexpand value _ hstart).bind fun inner hinner => ?_
      exact ih [] ⟨hinner.opened, hinner.finished⟩

/-- **One token** keeps all tags unambiguous. -/
theorem take_unambiguous (level : Nat) (hexpand : ExpandsUnambiguously expand) (token : Token)
    (hb : b.IsUnambiguous) : Ensures (b.take level expand token) IsUnambiguous fun _ => True := by
  cases token with
  | tagName start name => exact (beginTag_unambiguous hb).mapError fun _ _ => trivial
  | attr start name raw =>
    refine (Ensures.any _).bind fun r _ => ?_
    have hcounted : IsUnambiguous { b with uses := r.2 } := ⟨hb.opened, hb.finished⟩
    exact (addAttribute_unambiguous hcounted).mapError fun _ _ => trivial
  | tagEnd selfClosing => exact (endTag_unambiguous hb).mapError fun _ _ => trivial
  | closeTag start name => exact close_unambiguous hb
  | text raw => exact addPieces_unambiguous hexpand _ [] hb
  | cdata content => exact hb.addText _
  | comment content => exact hb.add (Node.allTags_of_element? rfl)
  | instruction target content => exact hb.add (Node.allTags_of_element? rfl)

/-! ## §4. Runs of tokens -/

/-- **A run of tokens** keeps all tags unambiguous. -/
theorem read_unambiguous (hexpand : ExpandsUnambiguously expand) {insideTag : Bool} {depth : Nat}
    {cursor : Cursor} (hb : b.IsUnambiguous) :
    Ensures (b.read level expand insideTag depth cursor) (fun r => r.1.IsUnambiguous)
      fun _ => True := by
  fun_induction Builder.read level expand insideTag depth cursor b with
  | case1 insideTag depth cursor b hend => exact hb
  | case2 insideTag depth cursor b hmore e htoken => exact trivial
  | case3 insideTag depth cursor b hmore token cursor' htoken e htake => exact trivial
  | case4 insideTag depth cursor b hmore token cursor' htoken b' htake ih =>
    have htaken := take_unambiguous level hexpand token hb
    rw [htake] at htaken
    exact ih htaken

theorem expand_unambiguous (level : Nat) : ExpandsUnambiguously (Builder.expand level) := by
  induction level with
  | zero =>
    intro value b hb
    exact hb
  | succ level ih =>
    intro value b hb
    exact (read_unambiguous ih hb).bind fun r hr => hr

theorem readElement_unambiguous {cursor : Cursor} (hb : b.IsUnambiguous) :
    Ensures (b.readElement cursor) (fun r => r.1.IsUnambiguous) fun _ => True := by
  unfold readElement
  refine (Ensures.any _).bind fun r _ => ?_
  refine (take_unambiguous maxLevel (expand_unambiguous maxLevel) r.1 hb).bind fun b' hb' => ?_
  exact read_unambiguous (expand_unambiguous maxLevel) hb'

/-! ## §5. Whole documents -/

theorem IsUnambiguous.takeItem (item : DoctypeItem) (hb : b.IsUnambiguous) :
    (b.takeItem item).IsUnambiguous := by
  unfold Builder.takeItem
  split
  · exact ⟨hb.opened, hb.finished⟩
  · exact hb.add (Node.allTags_of_element? rfl)
  · exact hb.add (Node.allTags_of_element? rfl)
  · exact hb

theorem readItems_unambiguous {start : Mark} {cursor : Cursor} (hb : b.IsUnambiguous) :
    Ensures (b.readItems start cursor) (fun r => r.1.IsUnambiguous) fun _ => True := by
  fun_induction Builder.readItems start cursor b with
  | case1 cursor b hend => exact hb
  | case2 cursor b hmore e hitem => exact trivial
  | case3 cursor b hmore cursor' hitem => exact hb
  | case4 cursor b hmore item cursor' hfinal hitem ih => exact ih (hb.takeItem item)

theorem readDoctype_unambiguous {cursor : Cursor} (hb : b.IsUnambiguous) :
    Ensures (b.readDoctype cursor) (fun r => r.1.IsUnambiguous) fun _ => True := by
  unfold readDoctype
  refine (Ensures.any _).bind fun r _ => ?_
  obtain ⟨bracketed, cursor'⟩ := r
  cases bracketed with
  | true => exact readItems_unambiguous hb
  | false => exact hb

theorem readMisc_unambiguous {cursor : Cursor} (hb : b.IsUnambiguous) :
    Ensures (b.readMisc cursor) (fun r => r.1.IsUnambiguous) fun _ => True := by
  fun_induction Builder.readMisc cursor b with
  | case1 cursor b e hmisc => exact trivial
  | case2 cursor b cursor' hmisc => exact hb
  | case3 cursor b token cursor' hmisc ih => exact ih (hb.takeItem (.node token))

theorem finish_unambiguous (hb : b.IsUnambiguous) :
    Ensures b.finish (fun d => ∀ e ∈ d.elements, e.tag.IsUnambiguous) fun _ => True := by
  unfold finish
  split
  · split
    · have hnodes : ∀ top ∈ b.finished.reverse, top.AllTags Tag.IsUnambiguous := by
        intro top htop
        exact hb.finished top (List.mem_reverse.1 htop)
      exact Node.allTags_walkAll.2 hnodes
    · exact trivial
  · exact trivial

end Builder

namespace Document

theorem readProlog_unambiguous (c : Cursor) :
    Ensures (readProlog c) (fun r => r.1.IsUnambiguous) fun _ => True := by
  have hempty : Builder.IsUnambiguous {} := ⟨by simp, by simp⟩
  unfold readProlog
  refine (Ensures.any _).bind fun c₁ _ => ?_
  refine (Builder.readMisc_unambiguous hempty).bind fun r hr => ?_
  obtain ⟨b, c₂⟩ := r
  dsimp only at hr ⊢
  split
  · refine (Builder.readDoctype_unambiguous hr).bind fun r' hr' => ?_
    exact Builder.readMisc_unambiguous hr'
  · exact hr

theorem readBody_unambiguous {c : Cursor} {b : Builder} (hb : b.IsUnambiguous) :
    Ensures (readBody c b) (fun d => ∀ e ∈ d.elements, e.tag.IsUnambiguous) fun _ => True := by
  unfold readBody
  extract_lets c' after
  have hafter : ∀ r : Builder × Cursor, r.1.IsUnambiguous →
      Ensures (after r) (fun d => ∀ e ∈ d.elements, e.tag.IsUnambiguous) fun _ => True := by
    intro r hr
    refine ((Builder.readMisc_unambiguous hr).mapError fun _ _ => trivial).bind fun r' hr' => ?_
    obtain ⟨b', c₂⟩ := r'
    dsimp only at hr' ⊢
    split
    · exact (Builder.finish_unambiguous hr').mapError fun _ _ => trivial
    · exact trivial
  split
  · exact (Builder.readElement_unambiguous hb).bind hafter
  · exact hafter (b, c') hb

/-- **No tag of a document has an attribute twice.** -/
theorem read_unambiguous (text : List Char) :
    Ensures (Document.read text) (fun d => ∀ e ∈ d.elements, e.tag.IsUnambiguous)
      fun _ => True := by
  unfold Document.read
  refine ((readProlog_unambiguous _).mapError fun _ _ => trivial).bind fun r hr => ?_
  exact readBody_unambiguous hr

end Document

end TemplateLint
