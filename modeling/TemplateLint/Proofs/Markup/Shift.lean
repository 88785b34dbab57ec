/-
  TemplateLint.Proofs.Markup.Shift — the same document, further from the end.

  Where a text goes on, the marks in it grow by the length of what follows.
  Marks are handed on and found again in errors, but nothing is decided by them:
  what the builder does without an error it does with all marks grown, and the
  result has grown alike.  `Builder.Grown` is the relation of the two builders.

  Main facts: `Builder.take_grown` for one token, `Builder.expand_grown` for the
  text of an entity.
-/
import TemplateLint.Proofs.Markup.Continuation
import TemplateLint.Proofs.Markup.Entities

namespace TemplateLint

variable {k : Nat}

/-! ## §1. Nodes -/

/-- The tag with its place grown by `k`. -/
def Tag.shift (k : Nat) (tag : Tag) : Tag :=
  { tag with start := tag.start + k }

namespace Node

mutual

/-- The node with the places of all its tags grown by `k`. -/
def shift (k : Nat) : Node → Node
  | element tag children => element (tag.shift k) (shiftAll k children)
  | text content => text content
  | comment content => comment content
  | instruction target content => instruction target content

/-- The nodes with the places of all their tags grown by `k`. -/
def shiftAll (k : Nat) : List Node → List Node
  | [] => []
  | node :: nodes => shift k node :: shiftAll k nodes

end

theorem shiftAll_eq_map (nodes : List Node) : shiftAll k nodes = nodes.map (shift k) := by
  induction nodes with
  | nil => rfl
  | cons node nodes ih => rw [shiftAll, List.map_cons, ih]

theorem shift_element (tag : Tag) (children : List Node) :
    shift k (element tag children) = element (tag.shift k) (children.map (shift k)) := by
  rw [shift, shiftAll_eq_map]

mutual

theorem walk_shift (node : Node) : walk (node.shift k) = (walk node).map (shift k) := by
  cases node with
  | element tag children =>
    rw [shift_element, walk_element, walk_element, walkAll_shift children, List.map_cons,
      shift_element]
  | text content => rfl
  | comment content => rfl
  | instruction target content => rfl

theorem walkAll_shift (nodes : List Node) :
    walkAll (nodes.map (shift k)) = (walkAll nodes).map (shift k) := by
  cases nodes with
  | nil => rfl
  | cons node nodes =>
    rw [List.map_cons, walkAll_cons, walkAll_cons, walk_shift node, walkAll_shift nodes,
      List.map_append]

end

end Node

/-- The element with the places of all its tags grown by `k`. -/
def Element.shift (k : Nat) (e : Element) : Element :=
  ⟨e.tag.shift k, e.children.map (Node.shift k)⟩

theorem Node.element?_shift (node : Node) :
    (node.shift k).element? = node.element?.map (Element.shift k) := by
  cases node with
  | element tag children =>
    rw [shift_element]
    rfl
  | text content => rfl
  | comment content => rfl
  | instruction target content => rfl

/-! ## §2. References and attribute values -/

/-- The piece with all its marks grown by `k`. -/
def Piece.shift (k : Nat) : Piece → Piece
  | raw c => raw c
  | escaped c start => escaped c (start + k)
  | entity value after => entity (value.shift k) (after + k)
  | broken (.located fault mark) => broken (.located fault (mark + k))
  | broken error => broken error

/-- The entity with the place of its text grown by `k`. -/
def Entity.shift (k : Nat) (e : Entity) : Entity :=
  { e with value := e.value.shift k }

theorem Entity.find?_shift (entities : List Entity) (name : String) :
    Entity.find? (entities.map (Entity.shift k)) name
      = (Entity.find? entities name).map (Cursor.shift k) := by
  unfold Entity.find?
  rw [List.find?_map, Option.map_map, Option.map_map]
  rfl

namespace Piece

/-- A character that stands for itself is found at no place. -/
theorem shift_eq_raw {piece : Piece} {c : Char} : piece.shift k = raw c ↔ piece = raw c := by
  cases piece with
  | broken error => cases error <;> simp [shift]
  | _ => simp [shift]

theorem head?_shift (pieces : List Piece) (c : Char) :
    (pieces.map (shift k)).head? = some (raw c) ↔ pieces.head? = some (raw c) := by
  cases pieces with
  | nil => simp
  | cons piece pieces => simp [shift_eq_raw]

/-- The pieces of a text do not depend on where it stands. -/
theorem ofText_shift (entities : List Entity) {c : Cursor} (hc : c.Fits) :
    ofText (entities.map (Entity.shift k)) (c.shift k) = (ofText entities c).map (shift k) := by
  fun_induction ofText entities c with
  | case1 c hrest =>
    obtain ⟨rest, mark⟩ := c
    cases hrest
    rw [ofText]
    rfl
  | case2 c tail hrest hnone =>
    obtain ⟨rest, mark⟩ := c
    cases hrest
    rw [ofText]
    exact if_pos hnone
  | case3 c tail hrest body hnone hbody =>
    obtain ⟨rest, mark⟩ := c
    cases hrest
    rw [ofText]
    show (if _ then _ else _) = _
    rw [if_neg hnone, hbody]
    rfl
  | case4 c tail hrest body after hsome a hbody ih =>
    obtain ⟨rest, mark⟩ := c
    cases hrest
    rw [ofText]
    show (if _ then _ else _) = _
    rw [if_neg hsome, hbody, Cursor.advance_shift _ hc, ih (hc.advance _)]
    rfl
  | case5 c tail hrest body hsome name hbody hfind =>
    obtain ⟨rest, mark⟩ := c
    cases hrest
    rw [ofText]
    show (if _ then _ else _) = _
    rw [if_neg hsome, hbody]
    dsimp only
    rw [Entity.find?_shift, hfind]
    rfl
  | case6 c tail hrest body after hsome name hbody found hfind ih =>
    obtain ⟨rest, mark⟩ := c
    cases hrest
    rw [ofText]
    show (if _ then _ else _) = _
    rw [if_neg hsome, hbody]
    dsimp only
    rw [Entity.find?_shift, hfind, Option.map_some, Cursor.advance_shift _ hc, ih (hc.advance _)]
    rfl
  | case7 c a tail hne hrest ih =>
    obtain ⟨rest, mark⟩ := c
    cases hrest
    rw [List.map_cons, ← ih (hc.advance 1), ofText, ← Cursor.advance_shift 1 hc]
    split
    · next hnil => cases hnil
    · next hamp =>
      cases hamp
      exact absurd rfl hne
    · next hcons =>
      cases hcons
      rfl

end Piece

/-- Both runs take the same branch. -/
theorem Follows.ite {ε α β : Type} {c c' : Prop} [Decidable c] [Decidable c']
    {r₁ r₂ : Except ε α} {r₁' r₂' : Except ε β} {rel : α → β → Prop} (hc : c ↔ c')
    (h₁ : Follows r₁ r₁' rel) (h₂ : Follows r₂ r₂' rel) :
    Follows (if c then r₁ else r₂) (if c' then r₁' else r₂') rel := by
  by_cases h : c
  · rw [if_pos h, if_pos (hc.1 h)]
    exact h₁
  · rw [if_neg h, if_neg (mt hc.2 h)]
    exact h₂

theorem enterEntity_follows (level uses : Nat) (after after' : Mark) :
    Follows (enterEntity level uses after) (enterEntity level uses after') Eq :=
  .ite .rfl .error (.ok rfl)

/-- The value is the same, if the entities stand for the same. -/
theorem joinValue_grown {nested : Bool}
    {expand expand' : Cursor → Mark → Nat → Except SyntaxError (List Char × Nat)}
    {pieces : List Piece}
    (hexpand : ∀ value after, .entity value after ∈ pieces → ∀ uses,
      Follows (expand value after uses) (expand' (value.shift k) (after + k) uses) Eq) (uses : Nat) :
    Follows (joinValue nested expand pieces uses)
      (joinValue nested expand' (pieces.map (Piece.shift k)) uses) Eq := by
  induction pieces generalizing uses with
  | nil => exact .refl _
  | cons piece pieces ih =>
    -- what is behind the piece is joined the same way, whatever it stands for
    have hback : ∀ front : List Char × Nat, Follows
        (joinValue nested expand pieces front.2 >>= fun back => pure (front.1 ++ back.1, back.2))
        (joinValue nested expand' (pieces.map (Piece.shift k)) front.2 >>=
          fun back => pure (front.1 ++ back.1, back.2)) Eq := by
      intro front
      have hrest := ih (fun value after hmem => hexpand value after (List.mem_cons_of_mem _ hmem))
      refine (hrest front.2).bind fun back back' hback => ?_
      cases hback
      exact .refl _
    rw [List.map_cons]
    unfold joinValue
    cases piece with
    | broken error => exact .error
    | raw c =>
      refine .ite ?_ (hback ([], uses)) (hback ([flattenSpace c], uses))
      exact and_congr_right fun _ => (Piece.head?_shift pieces '\n').symm
    | escaped c start =>
      exact .ite .rfl (hback ([c], uses)) (.ite .rfl .error (hback ([flattenSpace c], uses)))
    | entity value after =>
      refine (hexpand value after List.mem_cons_self uses).bind fun front front' hfront => ?_
      cases hfront
      exact hback front

/-- **The value of an attribute** does not depend on where it stands. -/
theorem attributeValue_grown {entities : List Entity} (hentities : ∀ e ∈ entities, e.value.Fits)
    (level : Nat) {raw : Cursor} (hraw : raw.Fits) (uses : Nat) :
    Follows (attributeValue entities level raw uses)
      (attributeValue (entities.map (Entity.shift k)) level (raw.shift k) uses) Eq := by
  induction level generalizing raw uses with
  | zero =>
    unfold attributeValue
    rw [Piece.ofText_shift entities hraw]
    exact joinValue_grown (fun value after _ uses => .error) uses
  | succ level ih =>
    unfold attributeValue
    rw [Piece.ofText_shift entities hraw]
    refine joinValue_grown (fun value after hmem uses => ?_) uses
    have hvalue : value.Fits := Piece.of_mem_ofText hentities hmem
    refine (enterEntity_follows _ _ _ _).bind fun uses uses' huses => ?_
    cases huses
    refine (ih hvalue uses).bind fun r r' hr => ?_
    cases hr
    exact .refl _

/-! ## §3. Builders -/

/-- The attribute with its place grown by `k`. -/
def WrittenAttribute.shift (k : Nat) (a : WrittenAttribute) : WrittenAttribute :=
  { a with start := a.start + k }

/-- The open element with the places of all its tags grown by `k`. -/
def OpenElement.shift (k : Nat) (e : OpenElement) : OpenElement :=
  { e with tag := e.tag.shift k, children := e.children.map (Node.shift k) }

theorem OpenElement.toNode_shift (e : OpenElement) : (e.shift k).toNode = e.toNode.shift k := by
  unfold toNode shift
  rw [Node.shift_element, List.map_reverse]

theorem Declaration.resolve_follows (scope : List Declaration) (pfx : String) (mark mark' : Mark) :
    Follows (resolve scope pfx mark) (resolve scope pfx mark') Eq := by
  unfold resolve
  cases scope.find? (·.pfx = pfx) with
  | some d => exact .refl _
  | none => exact .ite .rfl (.refl _) .error

theorem WrittenAttribute.resolveAll_follows (scope : List Declaration) (done : List Attribute)
    (written : List WrittenAttribute) :
    Follows (resolveAll scope done written) (resolveAll scope done (written.map (shift k))) Eq := by
  induction written generalizing done with
  | nil => exact .refl _
  | cons a rest ih =>
    have hns : Follows (a.resolve scope) ((a.shift k).resolve scope) Eq :=
      .ite .rfl (.refl _) (.ite .rfl (.refl _) (Declaration.resolve_follows _ _ _ _))
    refine hns.bind fun ns ns' h => ?_
    cases h
    exact .ite .rfl .error (ih _)

namespace Builder

/-- The builder with all its marks grown by `k`. -/
def shift (k : Nat) (b : Builder) : Builder where
  entities := b.entities.map (Entity.shift k)
  opened := b.opened.map (OpenElement.shift k)
  finished := b.finished.map (Node.shift k)
  tag := b.tag.map fun (start, name) => (start + k, name)
  attributes := b.attributes.map (WrittenAttribute.shift k)
  declarations := b.declarations
  uses := b.uses

/-- The second builder is the first one, with all its marks grown by `k`, and the
texts of the entities lie in front of the end. -/
structure Grown (k : Nat) (b b' : Builder) : Prop where
  fits : ∀ e ∈ b.entities, e.value.Fits
  eq : b' = b.shift k

variable {b b' : Builder}

theorem scope_shift : (b.shift k).scope = b.scope := by
  unfold scope shift
  cases b.opened with
  | nil => rfl
  | cons e outer => rfl

theorem Grown.modifyNodes {f f' : List Node → List Node} (h : Grown k b b')
    (hf : ∀ nodes, f' (nodes.map (Node.shift k)) = (f nodes).map (Node.shift k)) :
    Grown k (b.modifyNodes f) (b'.modifyNodes f') := by
  obtain ⟨hfits, rfl⟩ := h
  refine ⟨by rw [entities_modifyNodes]; exact hfits, ?_⟩
  obtain ⟨entities, opened, finished, tag, attributes, declarations, uses⟩ := b
  cases opened with
  | nil => exact congrArg (fun nodes => Builder.mk _ [] nodes _ _ declarations uses) (hf finished)
  | cons e outer =>
    exact congrArg (fun nodes =>
      Builder.mk _ ({ e.shift k with children := nodes } :: _) _ _ _ declarations uses) (hf e.children)

theorem Grown.add {node : Node} (h : Grown k b b') :
    Grown k (b.add node) (b'.add (node.shift k)) :=
  h.modifyNodes fun _ => rfl

theorem Grown.addText (content : List Char) (h : Grown k b b') :
    Grown k (b.addText content) (b'.addText content) := by
  refine h.modifyNodes fun nodes => ?_
  cases nodes with
  | nil => rfl
  | cons node nodes => cases node <;> rfl

/-! ## §4. Tags -/

theorem beginTag_grown (start : Mark) (name : QName) (h : Grown k b b') :
    Follows (b.beginTag start name) (b'.beginTag (start + k) name) (Grown k) := by
  obtain ⟨hfits, rfl⟩ := h
  exact .ite .rfl .error (.ok ⟨hfits, rfl⟩)

theorem addAttribute_grown (start : Mark) (name : QName) (value : String) (h : Grown k b b') :
    Follows (b.addAttribute start name value) (b'.addAttribute (start + k) name value)
      (Grown k) := by
  obtain ⟨hfits, rfl⟩ := h
  have hdeclare : ∀ pfx, Grown k (b.declare pfx value) ((b.shift k).declare pfx value) :=
    fun pfx => ⟨hfits, rfl⟩
  have hadd : Grown k { b with attributes := b.attributes ++ [⟨start, name, value⟩] }
      { b.shift k with
        attributes := (b.shift k).attributes ++ [⟨start + k, name, value⟩] } := by
    refine ⟨hfits, ?_⟩
    unfold shift
    dsimp only
    rw [List.map_append]
    rfl
  unfold addAttribute
  refine .ite .rfl (.ite .rfl .error (.ite .rfl ?_ ?_)) (.ite .rfl ?_ (.ok hadd))
  · exact .ite .rfl (.ok ⟨hfits, rfl⟩) .error
  · exact .ite .rfl .error (.ite .rfl .error (.ok (hdeclare _)))
  · exact .ite .rfl .error (.ite .rfl .error (.ok (hdeclare _)))

theorem settle_grown (h : Grown k b b') :
    Follows b.settle b'.settle
      fun r r' => r'.1 = r.1 ∧ r'.2.1 = r.2.1 ∧ Grown k r.2.2 r'.2.2 := by
  obtain ⟨hfits, rfl⟩ := h
  unfold settle
  rw [scope_shift]
  refine (WrittenAttribute.resolveAll_follows _ _ _).bind fun attributes attributes' h => ?_
  cases h
  exact .ok ⟨rfl, rfl, hfits, rfl⟩

theorem endTag_grown (selfClosing : Bool) (h : Grown k b b') :
    Follows (b.endTag selfClosing) (b'.endTag selfClosing) (Grown k) := by
  have htag : b'.tag = b.tag.map fun (start, name) => (start + k, name) := by
    rw [h.eq]
    rfl
  unfold endTag
  rw [htag]
  cases b.tag with
  | none => exact .ok h
  | some tag =>
    refine (settle_grown h).bind fun r r' hr => ?_
    obtain ⟨scope, attributes, settled⟩ := r
    obtain ⟨scope', attributes', settled'⟩ := r'
    dsimp only at hr
    obtain ⟨rfl, rfl, hsettled⟩ := hr
    refine (Declaration.resolve_follows _ _ _ _).bind fun ns ns' hns => ?_
    cases hns
    cases selfClosing with
    | true => exact .ok hsettled.add
    | false =>
      obtain ⟨hfits, rfl⟩ := hsettled
      exact .ok ⟨hfits, rfl⟩

theorem close_grown (start : Mark) (name : QName) (h : Grown k b b') :
    Follows (b.close start name) (b'.close (start + k) name) (Grown k) := by
  have htag : b'.tag = b.tag.map fun (start, name) => (start + k, name) := by
    rw [h.eq]
    rfl
  unfold close
  rw [htag]
  cases b.tag with
  | none => exact .error
  | some tag =>
    refine (settle_grown h).mapError.bind fun r r' hr => ?_
    obtain ⟨scope, attributes, settled⟩ := r
    obtain ⟨scope', attributes', settled'⟩ := r'
    dsimp only at hr
    obtain ⟨rfl, rfl, hfits, rfl⟩ := hr
    obtain ⟨entities, opened, finished, tag, waiting, declared, uses⟩ := settled
    cases opened with
    | nil => exact .error
    | cons e outer =>
      refine .ite .rfl (.ok ?_) .error
      have houter : Grown k ⟨entities, outer, finished, tag, waiting, declared, uses⟩
          (shift k ⟨entities, outer, finished, tag, waiting, declared, uses⟩) := ⟨hfits, rfl⟩
      rw [OpenElement.toNode_shift]
      exact houter.add

end Builder

/-! ## §5. Tokens -/

/-- A cursor that fits lies in some text, which may be as long as one likes. -/
theorem Cursor.Fits.liesIn {c : Cursor} (h : c.Fits) (n : Nat) :
    ∃ source, c.LiesIn source ∧ n ≤ source.length := by
  refine ⟨_, ⟨List.replicate n ' ', List.replicate (c.mark - c.rest.length) ' ', rfl, ?_⟩, ?_⟩
  · rw [List.length_replicate]
    exact Nat.add_sub_of_le h
  · rw [List.length_append, List.length_replicate]
    exact Nat.le_add_right n _

/-- The characters of the token lie in front of the end. -/
def Token.Fits : Token → Prop
  | attr _ _ value => value.Fits
  | text value => value.Fits
  | _ => True

theorem Lexer.fits_of_token {insideTag : Bool} {c c' : Cursor} {t : Token} (hc : c.Fits)
    (h : token insideTag c = .ok (t, c')) : t.Fits := by
  obtain ⟨source, hlies, -⟩ := hc.liesIn 0
  have hread := token_reads insideTag c hlies
  rw [h] at hread
  cases t with
  | attr start name value => exact hread.1.2.2.fits
  | text value => exact Cursor.LiesIn.fits hread.1
  | _ => exact trivial

theorem Token.staysInTag_shift (token : Token) : (token.shift k).staysInTag = token.staysInTag := by
  cases token <;> rfl

theorem Token.depthAfter_shift (token : Token) (depth : Nat) :
    (token.shift k).depthAfter depth = token.depthAfter depth := by
  cases token <;> rfl

namespace Builder

/-- The text of an entity is read the same way wherever it stands. -/
def ExpandsAlong (k : Nat) (expand : Cursor → Builder → Except Rejection Builder) : Prop :=
  ∀ value b b', value.Fits → Grown k b b' →
    Follows (expand value b) (expand (value.shift k) b') (Grown k)

variable {b b' : Builder} {level : Nat} {expand : Cursor → Builder → Except Rejection Builder}

theorem Grown.addGathered (gathered : List Char) (h : Grown k b b') :
    Grown k (if gathered.isEmpty then b else b.addText gathered.reverse)
      (if gathered.isEmpty then b' else b'.addText gathered.reverse) := by
  split
  · exact h
  · exact h.addText _

theorem addPieces_grown (hexpand : ExpandsAlong k expand) {pieces : List Piece}
    (hpieces : ∀ value after, .entity value after ∈ pieces → value.Fits) (gathered : List Char)
    (h : Grown k b b') :
    Follows (addPieces level expand pieces gathered b)
      (addPieces level expand (pieces.map (Piece.shift k)) gathered b') (Grown k) := by
  induction pieces generalizing gathered b b' with
  | nil => exact .ite .rfl (.ok h) (.ok (h.addText _))
  | cons piece pieces ih =>
    have hrest : ∀ value after, .entity value after ∈ pieces → value.Fits :=
      fun value after hmem => hpieces value after (List.mem_cons_of_mem _ hmem)
    rw [List.map_cons]
    cases piece with
    | raw c =>
      refine .ite .rfl (.ite ?_ (ih hrest _ h) (ih hrest _ h)) (ih hrest _ h)
      exact (Piece.head?_shift pieces '\n').symm
    | escaped c start => exact ih hrest _ h
    | broken error => exact .error
    | entity value after =>
      -- what is read before the entity is added, then the two runs go through its text
      have hentity : ∀ c c', Grown k c c' → Follows
          ((enterEntity level c.uses after).mapError .malformed >>= fun uses =>
            expand value { c with uses, tag := none } >>= fun inner =>
              addPieces level expand pieces []
                { inner with tag := c.tag, uses := leaveEntity level inner.uses })
          ((enterEntity level c'.uses (after + k)).mapError .malformed >>= fun uses =>
            expand (value.shift k) { c' with uses, tag := none } >>= fun inner =>
              addPieces level expand (pieces.map (Piece.shift k)) []
                { inner with tag := c'.tag, uses := leaveEntity level inner.uses }) (Grown k) := by
        intro c c' hc
        obtain ⟨hfits, rfl⟩ := hc
        refine (enterEntity_follows _ _ _ _).mapError.bind fun uses uses' huses => ?_
        cases huses
        have hstart : Grown k { c with uses, tag := none } { c.shift k with uses, tag := none } :=
          ⟨hfits, rfl⟩
        refine (hexpand value _ _ (hpieces value after List.mem_cons_self) hstart).bind
          fun inner inner' hinner => ?_
        obtain ⟨hfits', rfl⟩ := hinner
        exact ih hrest [] ⟨hfits', rfl⟩
      exact hentity _ _ (h.addGathered gathered)

/-- **One token** is taken by both builders. -/
theorem take_grown (hexpand : ExpandsAlong k expand) {token : Token} (htoken : token.Fits)
    (h : Grown k b b') :
    Follows (b.take level expand token) (b'.take level expand (token.shift k)) (Grown k) := by
  cases token with
  | tagName start name => exact (beginTag_grown start name h).mapError
  | attr start name raw =>
    obtain ⟨hfits, rfl⟩ := h
    refine (attributeValue_grown hfits level htoken b.uses).mapError.bind fun r r' hr => ?_
    cases hr
    have hcounted : Grown k { b with uses := r.2 } { b.shift k with uses := r.2 } := ⟨hfits, rfl⟩
    exact (addAttribute_grown start name _ hcounted).mapError
  | tagEnd selfClosing => exact (endTag_grown selfClosing h).mapError
  | closeTag start name => exact close_grown start name h
  | text raw =>
    have hpieces : Piece.ofText b'.entities (raw.shift k)
        = (Piece.ofText b.entities raw).map (Piece.shift k) := by
      rw [h.eq]
      exact Piece.ofText_shift b.entities htoken
    show Follows _ (addPieces level expand (Piece.ofText b'.entities (raw.shift k)) [] b') _
    rw [hpieces]
    exact addPieces_grown hexpand (fun value after hmem => Piece.of_mem_ofText h.fits hmem) [] h
  | cdata content => exact .ok (h.addText _)
  | comment content => exact .ok h.add
  | instruction target content => exact .ok h.add

/-! ## §6. Runs of tokens -/

variable {insideTag : Bool} {depth : Nat} {cursor cursor' : Cursor} {more : List Char} [Further more]

/-- **The token that comes next** comes next in the text that goes on, and both
runs are at related places behind it. -/
theorem read_grown_step (hexpand : ExpandsAlong k expand) {token : Token} {after : Builder}
    (hcursor : cursor.Fits)
    (hmore : ¬ (cursor.rest.isEmpty = true ∨ (insideTag = false ∧ depth = 0)))
    (htoken : Lexer.token insideTag cursor = .ok (token, cursor'))
    (htake : b.take level expand token = .ok after) (h : Grown k b b') :
    ∃ after', Grown k after after' ∧
      b'.read level expand insideTag depth (cursor.continued more k)
        = after'.read level expand token.staysInTag (token.depthAfter depth)
            (cursor'.continued more k) := by
  obtain ⟨after', htake', hafter⟩ :=
    take_grown hexpand (Lexer.fits_of_token hcursor htoken) h after htake
  have htoken' : Lexer.token insideTag (cursor.continued more k) = .ok (token.shift k, _) :=
    Lexer.token_carries insideTag cursor token cursor' hcursor htoken
  have hmore' : ¬ ((cursor.continued more k).rest.isEmpty = true ∨ (insideTag = false ∧ depth = 0)) := by
    rw [List.isEmpty_iff] at hmore ⊢
    rintro (hnil | hdone)
    · exact Cursor.rest_continued_ne_nil (fun h => hmore (.inl h)) hnil
    · exact hmore (.inr hdone)
  refine ⟨after', hafter, ?_⟩
  rw [read_of_token hmore' htoken' htake', Token.staysInTag_shift, Token.depthAfter_shift]

/-- A whole text without anything behind it. -/
theorem read_grown (hexpand : ExpandsAlong k expand) (hcursor : cursor.Fits) (h : Grown k b b') :
    Follows (b.read level expand insideTag depth cursor)
      (b'.read level expand insideTag depth (cursor.shift k))
      fun r r' => Grown k r.1 r'.1 ∧ r'.2 = r.2.shift k := by
  fun_induction Builder.read level expand insideTag depth cursor b generalizing b' with
  | case1 insideTag depth cursor b hend =>
    rw [Builder.read, if_pos (show (cursor.shift k).rest.isEmpty = true ∨ _ from hend)]
    exact .ok ⟨h, rfl⟩
  | case2 insideTag depth cursor b hmore e htoken => exact .error
  | case3 insideTag depth cursor b hmore token cursor' htoken e htake => exact .error
  | case4 insideTag depth cursor b hmore token cursor' htoken after htake ih =>
    obtain ⟨after', hafter, hread⟩ : ∃ after', Grown k after after' ∧
        b'.read level expand insideTag depth (cursor.continued [] k) = _ :=
      read_grown_step hexpand hcursor hmore htoken htake h
    rw [Cursor.continued_nil, Cursor.continued_nil] at hread
    rw [hread]
    exact ih (Lexer.mark_lt_of_token hcursor htoken).1 hafter

/-- **The text of an entity**, however many levels may still be opened. -/
theorem expand_grown (level : Nat) : ExpandsAlong k (Builder.expand level) := by
  induction level with
  | zero => exact fun value b b' _ h => .ok h
  | succ level ih =>
    intro value b b' hvalue h
    refine (read_grown ih hvalue h).bind fun r r' hr => ?_
    exact .ok hr.1

end Builder

end TemplateLint
