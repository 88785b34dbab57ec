/-
  TemplateLint.Proofs.Markup.Nesting — elements nest in the order of their tags.

  Tags are read one behind the other, and where the entities stand for idle
  text none comes from an entity.  `Builder.Nested` is the invariant of reading
  such a text: the elements, in document order, begin one behind the other and
  behind all of them the tag that is being read, as many elements are open as
  were opened in the text, and the outermost one is not complete before its
  close tag.  One token keeps it (`take_nested`), so a run does (`read_nested`).

  Main result: `Document.readBody_sorted`, for whole documents.
-/
import TemplateLint.Proofs.Markup.Document

namespace TemplateLint

/-! ## §1. Tokens move forward -/

namespace Cursor

variable {c : Cursor} {source : List Char} {n : Nat}

/-- The mark counts at least the characters that may be read. -/
def Fits (c : Cursor) : Prop :=
  c.rest.length ≤ c.mark

theorem LiesIn.fits (h : c.LiesIn source) : c.Fits := by
  obtain ⟨before, after, -, hmark⟩ := h
  unfold Fits
  rw [← hmark]
  exact Nat.le_add_right _ _

theorem mark_advance (n : Nat) (c : Cursor) :
    (c.advance n).mark = c.mark - min n c.rest.length := by
  induction n generalizing c with
  | zero => simp [advance]
  | succ n ih =>
    obtain ⟨rest, mark⟩ := c
    cases rest with
    | nil => rfl
    | cons a rest =>
      rw [advance, ih, List.length_cons, Nat.add_min_add_right, Nat.add_comm _ 1, ← Nat.sub_sub]

theorem Fits.advance (n : Nat) (h : c.Fits) : (c.advance n).Fits := by
  have hfits : c.rest.length ≤ c.mark := h
  unfold Fits
  rw [rest_advance, mark_advance, List.length_drop]
  generalize c.mark = mark at *
  omega

/-- Where characters are taken, the mark goes down. -/
theorem Fits.mark_lt (h : c.Fits) (hshrinks : (c.advance n).rest.length < c.rest.length) :
    (c.advance n).mark < c.mark := by
  have hfits : c.rest.length ≤ c.mark := h
  rw [rest_advance, List.length_drop] at hshrinks
  rw [mark_advance]
  exact Nat.sub_lt (by omega) (by omega)

end Cursor

/-- Where and in which part of a text a token is found.  A tag name begins at the
place at which it is looked for. -/
def Token.FoundAt (insideTag : Bool) (mark : Mark) : Token → Prop
  | tagName start _ => insideTag = false ∧ start = mark
  | attr .. => insideTag = true
  | tagEnd _ => insideTag = true
  | _ => insideTag = false

namespace Lexer

variable {c c' : Cursor} {t : Token}

instance (error : SyntaxError) : Forward (throw error : Lexer Token) where
  moves h := by cases h

instance : Forward comment := by
  unfold comment
  infer_instance

instance : Forward instruction := by
  unfold instruction
  infer_instance

instance : Forward cdata := by
  unfold cdata
  infer_instance

instance : Forward closeTag := by
  unfold closeTag
  infer_instance

instance : Forward tagName := by
  unfold tagName
  infer_instance

instance : Forward characters := by
  unfold characters
  infer_instance

instance (cs : List Char) : Forward (tokenAt cs) := by
  unfold tokenAt
  split <;> infer_instance

instance : Forward inContent := by
  unfold inContent
  infer_instance

instance (start : Mark) : Forward (attr start) := by
  unfold attr
  infer_instance

theorem Forward.bind {α β : Type} {p : Lexer α} {f : α → Lexer β} [Forward p]
    (hf : ∀ a, Forward (f a)) : Forward (p >>= f) :=
  inferInstance

instance : Forward inTag := by
  unfold inTag
  refine .bind fun cs => .bind fun _ => .bind fun start => .bind fun a => ?_
  split <;> infer_instance

instance (insideTag : Bool) : Forward (token insideTag) := by
  unfold token
  infer_instance

/-- Every token takes characters and brings the mark down. -/
theorem mark_lt_of_token {insideTag : Bool} (hc : c.Fits)
    (h : token insideTag c = .ok (t, c')) : c'.Fits ∧ c'.mark < c.mark := by
  have hshrinks := Progress.shrinks h
  obtain ⟨n, rfl⟩ := Forward.moves h
  exact ⟨hc.advance n, hc.mark_lt hshrinks⟩

/-- A lexer that ends by putting its result together. -/
theorem eq_of_map {α : Type} {p : Lexer α} {f : α → Token}
    (h : (p >>= fun a => pure (f a)) c = .ok (t, c')) : ∃ a, t = f a := by
  obtain ⟨a, c₁, -, h₁⟩ := bind_eq_ok.1 h
  cases h₁
  exact ⟨a, rfl⟩

/-- The name of a tag is found with the place of its `<`. -/
theorem tagName_eq_ok (h : tagName c = .ok (t, c')) : ∃ name, t = .tagName c.mark name := by
  obtain ⟨start, c₁, h₁, h₂⟩ := bind_eq_ok.1 h
  cases h₁
  obtain ⟨_, c₂, -, h₃⟩ := bind_eq_ok.1 h₂
  exact eq_of_map h₃

theorem foundAt_inContent (h : inContent c = .ok (t, c')) : t.FoundAt false c.mark := by
  obtain ⟨cs, c₁, h₁, h₂⟩ := bind_eq_ok.1 h
  cases h₁
  generalize c.rest = cs at h₂
  unfold tokenAt at h₂
  split at h₂
  · -- a comment
    obtain ⟨start, c₁, -, h₃⟩ := bind_eq_ok.1 h₂
    obtain ⟨_, c₂, -, h₄⟩ := bind_eq_ok.1 h₃
    obtain ⟨content, c₃, -, h₅⟩ := bind_eq_ok.1 h₄
    split at h₅
    · cases h₅
    · cases h₅
      rfl
  · obtain ⟨_, c₁, -, h₃⟩ := bind_eq_ok.1 h₂
    obtain ⟨content, rfl⟩ := eq_of_map h₃
    rfl
  · cases h₂
  · -- a processing instruction
    obtain ⟨_, c₁, -, h₃⟩ := bind_eq_ok.1 h₂
    obtain ⟨_, c₂, -, h₄⟩ := bind_eq_ok.1 h₃
    obtain ⟨_, c₃, -, h₅⟩ := bind_eq_ok.1 h₄
    obtain ⟨target, c₄, -, h₆⟩ := bind_eq_ok.1 h₅
    obtain ⟨_, c₅, -, h₇⟩ := bind_eq_ok.1 h₆
    obtain ⟨content, rfl⟩ := eq_of_map h₇
    rfl
  · -- a close tag
    obtain ⟨start, c₁, -, h₃⟩ := bind_eq_ok.1 h₂
    obtain ⟨_, c₂, -, h₄⟩ := bind_eq_ok.1 h₃
    obtain ⟨name, c₃, -, h₅⟩ := bind_eq_ok.1 h₄
    obtain ⟨_, c₄, -, h₆⟩ := bind_eq_ok.1 h₅
    obtain ⟨_, rfl⟩ := eq_of_map h₆
    rfl
  · cases h₂
  · obtain ⟨name, rfl⟩ := tagName_eq_ok h₂
    exact ⟨rfl, rfl⟩
  · cases h₂
  · -- character data
    obtain ⟨start, c₁, -, h₃⟩ := bind_eq_ok.1 h₂
    obtain ⟨content, c₂, -, h₄⟩ := bind_eq_ok.1 h₃
    obtain ⟨_, rfl⟩ := eq_of_map h₄
    rfl

theorem foundAt_inTag (h : inTag c = .ok (t, c')) : t.FoundAt true c.mark := by
  obtain ⟨cs, c₁, -, h₁⟩ := bind_eq_ok.1 h
  obtain ⟨_, c₂, -, h₂⟩ := bind_eq_ok.1 h₁
  obtain ⟨start, c₃, -, h₃⟩ := bind_eq_ok.1 h₂
  obtain ⟨a, c₄, -, h₄⟩ := bind_eq_ok.1 h₃
  split at h₄
  · obtain ⟨_, c₅, -, h₅⟩ := bind_eq_ok.1 h₄
    obtain ⟨_, rfl⟩ := eq_of_map h₅
    rfl
  · obtain ⟨_, rfl⟩ := eq_of_map h₄
    rfl
  · -- an attribute
    obtain ⟨_, c₅, -, h₅⟩ := bind_eq_ok.1 h₄
    obtain ⟨name, c₆, -, h₆⟩ := bind_eq_ok.1 h₅
    obtain ⟨_, c₇, -, h₇⟩ := bind_eq_ok.1 h₆
    obtain ⟨value, rfl⟩ := eq_of_map h₇
    rfl

/-- Inside a tag there are attributes and its end, between tags all the rest. -/
theorem foundAt_token {insideTag : Bool} (h : token insideTag c = .ok (t, c')) :
    t.FoundAt insideTag c.mark := by
  cases insideTag with
  | false => exact foundAt_inContent h
  | true => exact foundAt_inTag h

end Lexer

/-! ## §2. The places of elements -/

namespace Node

theorem walkAll_append (xs ys : List Node) : walkAll (xs ++ ys) = walkAll xs ++ walkAll ys := by
  induction xs with
  | nil => rfl
  | cons node xs ih => rw [List.cons_append, walkAll_cons, walkAll_cons, ih, List.append_assoc]

/-- Where the elements at or below the nodes begin, in document order. -/
def starts (nodes : List Node) : List Mark :=
  ((walkAll nodes).filterMap element?).map (·.tag.start)

theorem starts_append (xs ys : List Node) : starts (xs ++ ys) = starts xs ++ starts ys := by
  unfold starts
  rw [walkAll_append, List.filterMap_append, List.map_append]

theorem starts_element (tag : Tag) (children : List Node) :
    starts [element tag children] = tag.start :: starts children := by
  unfold starts
  rw [walkAll_cons, walkAll_nil, List.append_nil, walk_element]
  rfl

/-- A node that is no element has none below it. -/
theorem starts_of_element? {node : Node} (h : node.element? = none) : starts [node] = [] := by
  cases node with
  | element tag children => cases h
  | text content => rfl
  | comment content => rfl
  | instruction target content => rfl

end Node

/-- Where the open element and those inside it begin. -/
def OpenElement.starts (e : OpenElement) : List Mark :=
  e.tag.start :: Node.starts e.children.reverse

theorem OpenElement.starts_toNode (e : OpenElement) : Node.starts [e.toNode] = e.starts :=
  Node.starts_element e.tag e.children.reverse

namespace Builder

variable {b b' : Builder}

/-- Where all elements begin, complete or open, in document order. -/
def starts (b : Builder) : List Mark :=
  Node.starts b.finished.reverse ++ b.opened.reverse.flatMap OpenElement.starts

/-- Whether an element at the top is complete. -/
def hasElement (b : Builder) : Bool :=
  b.finished.any (·.element?.isSome)

/-- What is added to the nodes of the innermost element comes last. -/
theorem starts_modifyNodes {f : List Node → List Node} {new : List Mark}
    (hf : ∀ nodes, Node.starts (f nodes).reverse = Node.starts nodes.reverse ++ new) :
    (b.modifyNodes f).starts = b.starts ++ new := by
  unfold modifyNodes starts
  split
  · next hopened =>
    rw [hopened]
    simp only [List.reverse_nil, List.flatMap_nil, List.append_nil, hf]
  · next e outer hopened =>
    rw [hopened]
    simp only [List.reverse_cons, List.flatMap_append, List.flatMap_singleton, OpenElement.starts, hf,
      List.append_assoc, List.cons_append]

theorem starts_add (node : Node) : (b.add node).starts = b.starts ++ Node.starts [node] := by
  refine starts_modifyNodes fun nodes => ?_
  rw [List.reverse_cons, Node.starts_append]

theorem length_opened_modifyNodes (f : List Node → List Node) :
    (b.modifyNodes f).opened.length = b.opened.length := by
  unfold modifyNodes
  split
  · rfl
  · next e outer hopened =>
    rw [hopened]
    rfl

theorem tag_modifyNodes (f : List Node → List Node) : (b.modifyNodes f).tag = b.tag := by
  unfold modifyNodes
  split
  · rfl
  · rfl

theorem entities_modifyNodes (f : List Node → List Node) :
    (b.modifyNodes f).entities = b.entities := by
  unfold modifyNodes
  split
  · rfl
  · rfl

/-- While an element is open, nothing is added at the top. -/
theorem finished_modifyNodes {f : List Node → List Node} (h : 0 < b.opened.length) :
    (b.modifyNodes f).finished = b.finished := by
  unfold modifyNodes
  split
  · next hopened =>
    rw [hopened] at h
    exact absurd h (Nat.lt_irrefl 0)
  · rfl

/-! ## §3. What idle text cannot change -/

/-- The second builder has the elements, open and complete, of the first. -/
structure SameOutline (b b' : Builder) : Prop where
  entities : b'.entities = b.entities
  starts : b'.starts = b.starts
  opened : b'.opened.length = b.opened.length
  hasElement : b'.hasElement = b.hasElement

namespace SameOutline

theorem refl (b : Builder) : SameOutline b b :=
  ⟨rfl, rfl, rfl, rfl⟩

theorem trans {b'' : Builder} (h : SameOutline b b') (h' : SameOutline b' b'') :
    SameOutline b b'' :=
  ⟨h'.entities.trans h.entities, h'.starts.trans h.starts, h'.opened.trans h.opened,
    h'.hasElement.trans h.hasElement⟩

theorem modifyNodes {f : List Node → List Node}
    (hstarts : ∀ nodes, Node.starts (f nodes).reverse = Node.starts nodes.reverse)
    (helement : ∀ nodes, (f nodes).any (·.element?.isSome) = nodes.any (·.element?.isSome)) :
    SameOutline b (b.modifyNodes f) where
  entities := entities_modifyNodes f
  starts := by
    have hsame : ∀ nodes, Node.starts (f nodes).reverse = Node.starts nodes.reverse ++ [] :=
      fun nodes => by rw [hstarts, List.append_nil]
    rw [starts_modifyNodes hsame, List.append_nil]
  opened := length_opened_modifyNodes f
  hasElement := by
    unfold Builder.hasElement Builder.modifyNodes
    split
    · exact helement _
    · rfl

end SameOutline

theorem sameOutline_add {node : Node} (h : node.element? = none) : SameOutline b (b.add node) := by
  refine .modifyNodes (fun nodes => ?_) fun nodes => ?_
  · rw [List.reverse_cons, Node.starts_append, Node.starts_of_element? h, List.append_nil]
  · rw [List.any_cons, h]
    rfl

theorem sameOutline_addText (content : List Char) : SameOutline b (b.addText content) := by
  refine .modifyNodes (fun nodes => ?_) fun nodes => ?_
  · -- the last text goes on, or a new one comes behind the last node
    split
    · rw [List.reverse_cons, List.reverse_cons, Node.starts_append, Node.starts_append]
      rfl
    · rw [List.reverse_cons, Node.starts_append, Node.starts_of_element? rfl, List.append_nil]
  · split
    · rfl
    · rfl

end Builder

/-- The texts of the entities that are used are texts of entities that are
declared. -/
theorem Piece.of_mem_ofText {entities : List Entity} {good : Cursor → Prop}
    (hentities : ∀ e ∈ entities, good e.value) {c value : Cursor} {after : Mark}
    (h : .entity value after ∈ Piece.ofText entities c) : good value := by
  fun_induction Piece.ofText entities c with
  | case1 c hrest => cases h
  | case2 c tail hrest hnone => cases List.mem_singleton.1 h
  | case3 c tail hrest body hbody => cases List.mem_singleton.1 h
  | case4 c tail hrest body after' hsome a hbody ih =>
    rcases List.mem_cons.1 h with heq | h
    · cases heq
    · exact ih h
  | case5 c tail hrest body hsome name hbody hfind => cases List.mem_singleton.1 h
  | case6 c tail hrest body after' hsome name hbody found hfind ih =>
    rcases List.mem_cons.1 h with heq | h
    · cases heq
      obtain ⟨e, he, rfl⟩ := Option.map_eq_some_iff.1 hfind
      exact hentities e (List.mem_of_find?_eq_some he)
    · exact ih h
  | case7 c a tail hrest hne ih =>
    rcases List.mem_cons.1 h with heq | h
    · cases heq
    · exact ih h

namespace Builder

variable {b b' : Builder} {level : Nat} {expand : Cursor → Builder → Except Rejection Builder}

/-- A rejection with an error that can be told. -/
def IsTold (rejection : Rejection) : Prop :=
  rejection ≠ .overclosed

/-- Idle texts of entities add no elements. -/
def ExpandsIdly (expand : Cursor → Builder → Except Rejection Builder) : Prop :=
  ∀ value b, value.IsIdle → Ensures (expand value b) (SameOutline b) IsTold

theorem isTold_mapError {α : Type} {r : Except SyntaxError α} {good : α → Prop}
    (h : Ensures r good fun _ => True) : Ensures (r.mapError .malformed) good IsTold :=
  h.mapError fun _ _ => nofun

theorem addPieces_outline (hexpand : ExpandsIdly expand) {pieces : List Piece}
    (hpieces : ∀ value after, .entity value after ∈ pieces → value.IsIdle)
    (gathered : List Char) (b : Builder) :
    Ensures (addPieces level expand pieces gathered b)
      (fun b' => SameOutline b b' ∧ b'.tag = b.tag) IsTold := by
  have hadded : ∀ (gathered : List Char) (b : Builder),
      SameOutline b (if gathered.isEmpty then b else b.addText gathered.reverse) ∧
        (if gathered.isEmpty then b else b.addText gathered.reverse).tag = b.tag := by
    intro gathered b
    split
    · exact ⟨.refl b, rfl⟩
    · exact ⟨sameOutline_addText _, tag_modifyNodes _⟩
  induction pieces generalizing gathered b with
  | nil =>
    unfold addPieces
    split
    · exact ⟨.refl b, rfl⟩
    · exact ⟨sameOutline_addText _, tag_modifyNodes _⟩
  | cons piece pieces ih =>
    have hrest : ∀ value after, .entity value after ∈ pieces → value.IsIdle :=
      fun value after hmem => hpieces value after (List.mem_cons_of_mem _ hmem)
    cases piece with
    | raw c =>
      unfold addPieces
      split
      · split
        · exact ih hrest _ _
        · exact ih hrest _ _
      · exact ih hrest _ _
    | escaped c start =>
      unfold addPieces
      exact ih hrest _ _
    | broken error =>
      intro h
      cases h
    | entity value after =>
      unfold addPieces
      obtain ⟨hfront, htag⟩ := hadded gathered b
      refine (isTold_mapError (Ensures.any _)).bind fun uses _ => ?_
      have hinner := hexpand value { (if gathered.isEmpty then b else b.addText gathered.reverse) with
        uses, tag := none } (hpieces value after List.mem_cons_self)
      refine hinner.bind fun inner hinner => ?_
      refine (ih hrest [] _).mono fun b' hb' => ⟨?_, hb'.2.trans htag⟩
      refine hfront.trans (SameOutline.trans ?_ hb'.1)
      exact ⟨hinner.entities, hinner.starts, hinner.opened, hinner.hasElement⟩

/-- **Idle text adds no elements**, however many levels may still be opened. -/
theorem expand_outline (level : Nat) : ExpandsIdly (Builder.expand level) := by
  induction level with
  | zero => exact fun value b _ => .refl b
  | succ level ih =>
    intro value b hvalue
    have htake : Ensures (b.take level (Builder.expand level) (.text value)) (SameOutline b) IsTold := by
      refine (addPieces_outline ih ?_ [] b).mono fun b' hb' => hb'.1
      intro value' after hmem
      rw [Piece.ofText_of_isIdle _ hvalue] at hmem
      obtain ⟨a, -, ha⟩ := List.mem_map.1 hmem
      cases ha
    unfold Builder.expand
    rw [Builder.read]
    split
    · exact .refl b
    · next hmore =>
      have hne : value.rest ≠ [] := fun h => hmore (.inl (by simp [h]))
      split
      · next e htoken =>
        rw [token_of_isIdle hvalue hne] at htoken
        cases htoken
      · next token cursor' htoken =>
        rw [token_of_isIdle hvalue hne] at htoken
        cases htoken
        split
        · next e he =>
          rw [he] at htake
          exact htake
        · next b' hb' =>
          rw [hb'] at htake
          -- nothing is left to read
          rw [Builder.read, if_pos (.inl (by simp))]
          exact htake

/-! ## §4. Tags one behind the other -/

/-- Where the tag that is being read begins. -/
def pending (insideTag : Bool) (b : Builder) : List Mark :=
  if insideTag then (b.tag.map (·.1)).toList else []

/-- The invariant of reading a text whose entities are idle, `limit` being the
place that has been reached. -/
structure Nested (limit : Mark) (insideTag : Bool) (depth : Nat) (b : Builder) : Prop where
  idle : ∀ e ∈ b.entities, e.value.IsIdle
  tagged : b.tag.isSome = true
  /-- All elements that are open were opened in this text. -/
  opened : b.opened.length = depth
  /-- The outermost element is not complete as long as it is read. -/
  unfinished : insideTag = true ∨ 0 < depth → b.hasElement = false
  /-- Marks count from the end, so what comes later has the smaller one. -/
  sorted : (b.starts ++ b.pending insideTag).Pairwise (· > ·)
  above : ∀ mark ∈ b.starts ++ b.pending insideTag, limit < mark

variable {limit limit' : Mark} {insideTag : Bool} {depth : Nat}

theorem SameOutline.nested (h : SameOutline b b') (htag : b'.tag = b.tag) (hlimit : limit' ≤ limit)
    (hb : Nested limit insideTag depth b) : Nested limit' insideTag depth b' := by
  have hpending : b'.starts ++ b'.pending insideTag = b.starts ++ b.pending insideTag := by
    unfold pending
    rw [h.starts, htag]
  constructor
  · rw [h.entities]
    exact hb.idle
  · rw [htag]
    exact hb.tagged
  · exact h.opened.trans hb.opened
  · intro hinside
    exact h.hasElement.trans (hb.unfinished hinside)
  · rw [hpending]
    exact hb.sorted
  · intro mark hmark
    rw [hpending] at hmark
    exact Nat.lt_of_le_of_lt hlimit (hb.above mark hmark)

/-- A tag begins behind all elements. -/
theorem beginTag_nested {name : QName} (hidle : ∀ e ∈ b.entities, e.value.IsIdle)
    (hopened : b.opened.length = depth) (hunfinished : b.hasElement = false)
    (hsorted : b.starts.Pairwise (· > ·)) (habove : ∀ mark ∈ b.starts, limit < mark)
    (hlimit : limit' < limit) :
    Ensures (b.beginTag limit name) (Nested limit' true depth) fun _ => True := by
  unfold beginTag
  split
  · exact trivial
  · refine ⟨hidle, rfl, hopened, fun _ => hunfinished, ?_, ?_⟩
    · refine List.pairwise_append.2 ⟨hsorted, List.pairwise_singleton _ _, ?_⟩
      intro mark hmark last hlast
      rw [List.mem_singleton.1 hlast]
      exact habove mark hmark
    · intro mark hmark
      rcases List.mem_append.1 hmark with hmark | hmark
      · exact Nat.lt_trans hlimit (habove mark hmark)
      · rw [List.mem_singleton.1 hmark]
        exact hlimit

/-- Attributes and declarations wait, and change nothing else. -/
theorem addAttribute_eq {start : Mark} {name : QName} {value : String} :
    Ensures (b.addAttribute start name value)
      (fun b' => ∃ attributes declarations, b' = { b with attributes, declarations })
      fun _ => True := by
  have hdeclare : ∀ pfx uri, ∃ attributes declarations,
      b.declare pfx uri = { b with attributes, declarations } := fun _ _ => ⟨_, _, rfl⟩
  unfold addAttribute
  split
  · split
    · exact trivial
    · split
      · split
        · exact ⟨_, _, rfl⟩
        · exact trivial
      · split
        · exact trivial
        · split
          · exact trivial
          · exact hdeclare _ _
  · split
    · split
      · exact trivial
      · split
        · exact trivial
        · exact hdeclare _ _
    · exact ⟨_, _, rfl⟩

theorem addAttribute_outline {start : Mark} {name : QName} {value : String} :
    Ensures (b.addAttribute start name value) (fun b' => SameOutline b b' ∧ b'.tag = b.tag)
      fun _ => True := by
  refine addAttribute_eq.mono fun b' hb' => ?_
  obtain ⟨attributes, declarations, rfl⟩ := hb'
  exact ⟨⟨rfl, rfl, rfl, rfl⟩, rfl⟩

/-- Nothing waits any longer, and all else is as it was. -/
theorem settle_eq : Ensures b.settle
    (fun r => r.2.2 = { b with attributes := [], declarations := [] }) fun _ => True := by
  unfold settle
  exact (Ensures.any _).bind fun attributes _ => rfl

/-- Between tags no tag is being read. -/
theorem nested_between (hidle : ∀ e ∈ b.entities, e.value.IsIdle) (htagged : b.tag.isSome = true)
    (hopened : b.opened.length = depth) (hunfinished : 0 < depth → b.hasElement = false)
    (hsorted : b.starts.Pairwise (· > ·)) (habove : ∀ mark ∈ b.starts, limit < mark) :
    Nested limit false depth b := by
  have hstarts : b.starts ++ b.pending false = b.starts := List.append_nil _
  refine ⟨hidle, htagged, hopened, ?_, by rwa [hstarts], by rwa [hstarts]⟩
  rintro (hinside | hpos)
  · cases hinside
  · exact hunfinished hpos

theorem Nested.between (hb : Nested limit false depth b) (hlimit : limit' ≤ limit) :
    b.starts.Pairwise (· > ·) ∧ ∀ mark ∈ b.starts, limit' < mark := by
  have hstarts : b.starts ++ b.pending false = b.starts := List.append_nil _
  have hsorted := hb.sorted
  have habove := hb.above
  rw [hstarts] at hsorted habove
  exact ⟨hsorted, fun mark hmark => Nat.lt_of_le_of_lt hlimit (habove mark hmark)⟩

/-- A node is added between tags: inside an open element, or at the top. -/
theorem add_nested {node : Node} (hidle : ∀ e ∈ b.entities, e.value.IsIdle)
    (htagged : b.tag.isSome = true) (hopened : b.opened.length = depth)
    (hunfinished : 0 < depth → b.hasElement = false)
    (hsorted : (b.starts ++ Node.starts [node]).Pairwise (· > ·))
    (habove : ∀ mark ∈ b.starts ++ Node.starts [node], limit < mark) :
    Nested limit false depth (b.add node) := by
  apply nested_between
  · rw [add, entities_modifyNodes]
    exact hidle
  · rw [add, tag_modifyNodes]
    exact htagged
  · exact (length_opened_modifyNodes _).trans hopened
  · intro hpos
    unfold hasElement
    rw [add, finished_modifyNodes (by rw [hopened]; exact hpos)]
    exact hunfinished hpos
  · rw [starts_add]
    exact hsorted
  · rw [starts_add]
    exact habove

/-- The element of a tag comes behind all others: it is complete, or open. -/
theorem endTag_nested {selfClosing : Bool} (hb : Nested limit true depth b) (hlimit : limit' ≤ limit) :
    Ensures (b.endTag selfClosing)
      (Nested limit' false ((Token.tagEnd selfClosing).depthAfter depth)) fun _ => True := by
  obtain ⟨⟨start, name⟩, htag⟩ := Option.isSome_iff_exists.1 hb.tagged
  have hpending : b.pending true = [start] := by
    unfold pending
    rw [if_pos rfl, htag]
    rfl
  have hsorted := hb.sorted
  have habove : ∀ mark ∈ b.starts ++ b.pending true, limit' < mark :=
    fun mark hmark => Nat.lt_of_le_of_lt hlimit (hb.above mark hmark)
  have hunfinished := hb.unfinished (.inl rfl)
  rw [hpending] at hsorted habove
  unfold endTag
  rw [htag]
  refine settle_eq.bind fun r hr => ?_
  obtain ⟨scope, attributes, settled⟩ := r
  obtain rfl : settled = { b with attributes := [], declarations := [] } := hr
  refine (Ensures.any _).bind fun ns _ => ?_
  cases selfClosing with
  | true =>
    refine add_nested hb.idle hb.tagged hb.opened (fun _ => hunfinished) ?_ ?_
    · rw [OpenElement.starts_toNode]
      exact hsorted
    · rw [OpenElement.starts_toNode]
      exact habove
  | false =>
    -- the element is the innermost one, and the last in document order
    have hstarts : ∀ e : OpenElement, e.starts = [start] →
        Builder.starts { b with attributes := [], declarations := [], opened := e :: b.opened }
          = b.starts ++ [start] := by
      intro e he
      unfold Builder.starts
      rw [List.reverse_cons, List.flatMap_append, List.flatMap_singleton, he, List.append_assoc]
    refine nested_between hb.idle hb.tagged (congrArg (· + 1) hb.opened) (fun _ => hunfinished) ?_ ?_
    · rw [hstarts _ rfl]
      exact hsorted
    · rw [hstarts _ rfl]
      exact habove

/-- A close tag completes the innermost element, which is there. -/
theorem close_nested {start : Mark} {name : QName} (hb : Nested limit false depth b)
    (hdepth : 0 < depth) (hlimit : limit' ≤ limit) :
    Ensures (b.close start name) (Nested limit' false (depth - 1)) IsTold := by
  obtain ⟨tag, htag⟩ := Option.isSome_iff_exists.1 hb.tagged
  obtain ⟨hsorted, habove⟩ := hb.between hlimit
  unfold close
  rw [htag]
  refine (isTold_mapError settle_eq).bind fun r hr => ?_
  obtain ⟨scope, attributes, settled⟩ := r
  obtain rfl : settled = { b with attributes := [], declarations := [] } := hr
  dsimp only
  split
  · next hopened =>
    have hlength := hb.opened
    rw [hopened] at hlength
    exact absurd hdepth (by rw [← hlength]; exact Nat.lt_irrefl 0)
  · next e outer hopened =>
    have hlength := hb.opened
    rw [hopened, List.length_cons] at hlength
    -- the innermost element comes last, with all that it holds
    have hlast : Builder.starts { b with attributes := [], declarations := [], opened := outer }
        ++ Node.starts [e.toNode] = b.starts := by
      unfold Builder.starts
      rw [OpenElement.starts_toNode, hopened, List.reverse_cons, List.flatMap_append,
        List.flatMap_singleton, List.append_assoc]
    split
    · refine add_nested hb.idle hb.tagged (Nat.eq_sub_of_add_eq hlength)
        (fun _ => hb.unfinished (.inr hdepth)) ?_ ?_
      · rw [hlast]
        exact hsorted
      · rw [hlast]
        exact habove
    · exact nofun

/-! ## §5. Runs of tokens -/

/-- **One token** keeps the elements nested in the order of their tags. -/
theorem take_nested (level : Nat) (hexpand : ExpandsIdly expand) {token : Token}
    (hfound : token.FoundAt insideTag limit) (hlimit : limit' < limit)
    (hinside : insideTag = true ∨ 0 < depth) (hb : Nested limit insideTag depth b) :
    Ensures (b.take level expand token) (Nested limit' token.staysInTag (token.depthAfter depth))
      IsTold := by
  have hle : limit' ≤ limit := Nat.le_of_lt hlimit
  cases token with
  | tagName start name =>
    obtain ⟨rfl, rfl⟩ := hfound
    obtain ⟨hsorted, habove⟩ := hb.between (Nat.le_refl _)
    exact isTold_mapError
      (beginTag_nested hb.idle hb.opened (hb.unfinished hinside) hsorted habove hlimit)
  | attr start name raw =>
    obtain rfl : insideTag = true := hfound
    refine (isTold_mapError (Ensures.any _)).bind fun r _ => ?_
    refine (isTold_mapError addAttribute_outline).mono fun b' hb' => ?_
    have hcounted : SameOutline b { b with uses := r.2 } := ⟨rfl, rfl, rfl, rfl⟩
    exact (hcounted.trans hb'.1).nested hb'.2 hle hb
  | tagEnd selfClosing =>
    obtain rfl : insideTag = true := hfound
    exact isTold_mapError (endTag_nested hb hle)
  | closeTag start name =>
    obtain rfl : insideTag = false := hfound
    exact close_nested hb (hinside.resolve_left Bool.false_ne_true) hle
  | text raw =>
    obtain rfl : insideTag = false := hfound
    have hpieces : ∀ value after, .entity value after ∈ Piece.ofText b.entities raw → value.IsIdle :=
      fun value after hmem => Piece.of_mem_ofText hb.idle hmem
    exact (addPieces_outline hexpand hpieces [] b).mono fun b' hb' => hb'.1.nested hb'.2 hle hb
  | cdata content =>
    obtain rfl : insideTag = false := hfound
    exact (sameOutline_addText _).nested (tag_modifyNodes _) hle hb
  | comment content =>
    obtain rfl : insideTag = false := hfound
    exact (sameOutline_add rfl).nested (tag_modifyNodes _) hle hb
  | instruction target content =>
    obtain rfl : insideTag = false := hfound
    exact (sameOutline_add rfl).nested (tag_modifyNodes _) hle hb

/-- The token that comes next is taken. -/
theorem take_step (level : Nat) (hexpand : ExpandsIdly expand) {cursor cursor' : Cursor} {token : Token}
    (hcursor : cursor.Fits) (hmore : ¬ (cursor.rest.isEmpty = true ∨ (insideTag = false ∧ depth = 0)))
    (htoken : Lexer.token insideTag cursor = .ok (token, cursor'))
    (hb : Nested cursor.mark insideTag depth b) :
    Ensures (b.take level expand token)
      (Nested cursor'.mark token.staysInTag (token.depthAfter depth)) IsTold := by
  have hinside : insideTag = true ∨ 0 < depth := by
    cases insideTag with
    | true => exact .inl rfl
    | false => exact .inr (Nat.pos_of_ne_zero fun hzero => hmore (.inr ⟨rfl, hzero⟩))
  exact take_nested level hexpand (Lexer.foundAt_token htoken)
    (Lexer.mark_lt_of_token hcursor htoken).2 hinside hb

/-- **A run of tokens** keeps the elements nested in the order of their tags. -/
theorem read_nested (hexpand : ExpandsIdly expand) {cursor : Cursor} (hcursor : cursor.Fits)
    (hb : Nested cursor.mark insideTag depth b) :
    Ensures (b.read level expand insideTag depth cursor)
      (fun r => ∃ insideTag depth, Nested r.2.mark insideTag depth r.1) IsTold := by
  fun_induction Builder.read level expand insideTag depth cursor b with
  | case1 insideTag depth cursor b hend => exact ⟨insideTag, depth, hb⟩
  | case2 insideTag depth cursor b hmore e htoken =>
    intro h
    cases h
  | case3 insideTag depth cursor b hmore token cursor' htoken e htake =>
    have htaken := take_step level hexpand hcursor hmore htoken hb
    rw [htake] at htaken
    exact htaken
  | case4 insideTag depth cursor b hmore token cursor' htoken b' htake ih =>
    have htaken := take_step level hexpand hcursor hmore htoken hb
    rw [htake] at htaken
    exact ih (Lexer.mark_lt_of_token hcursor htoken).1 htaken

/-! ## §6. Whole documents -/

/-- Nothing but comments and instructions has been read, and the entities are
idle. -/
structure IsFresh (b : Builder) : Prop where
  idle : ∀ e ∈ b.entities, e.value.IsIdle
  opened : b.opened.length = 0
  starts : b.starts = []
  hasElement : b.hasElement = false

theorem isFresh_ofEntities {entities : List Entity} (h : ∀ e ∈ entities, e.value.IsIdle) :
    ({ entities } : Builder).IsFresh :=
  ⟨h, rfl, rfl, rfl⟩

theorem SameOutline.isFresh (h : SameOutline b b') (hb : b.IsFresh) : b'.IsFresh where
  idle := by
    rw [h.entities]
    exact hb.idle
  opened := h.opened.trans hb.opened
  starts := h.starts.trans hb.starts
  hasElement := h.hasElement.trans hb.hasElement

theorem sameOutline_takeItem (token : Token) : SameOutline b (b.takeItem (.node token)) := by
  cases token with
  | comment content => exact sameOutline_add rfl
  | instruction target content => exact sameOutline_add rfl
  | _ => exact .refl b

/-- Around the element there are no others. -/
theorem readMisc_outline (cursor : Cursor) (b : Builder) :
    Ensures (b.readMisc cursor) (fun r => SameOutline b r.1) fun _ => True := by
  fun_induction Builder.readMisc cursor b with
  | case1 cursor b e hmisc => exact trivial
  | case2 cursor b cursor' hmisc => exact .refl b
  | case3 cursor b token cursor' hmisc ih =>
    exact ih.mono fun r hr => (sameOutline_takeItem token).trans hr

/-- The tag of the outermost element begins: there is no element that it could not
stand behind. -/
theorem take_tagName_nested (level : Nat) {cursor cursor' : Cursor} {token : Token}
    (hcursor : cursor.Fits) (hb : b.IsFresh) (htag : Lexer.tagName cursor = .ok (token, cursor')) :
    Ensures (b.take level expand token) (Nested cursor'.mark true 0) IsTold := by
  have hshrinks := Lexer.Progress.shrinks htag
  obtain ⟨name, rfl⟩ := Lexer.tagName_eq_ok htag
  obtain ⟨n, rfl⟩ := Lexer.Forward.moves htag
  refine isTold_mapError (beginTag_nested hb.idle hb.opened hb.hasElement ?_ ?_ (hcursor.mark_lt hshrinks))
  · rw [hb.starts]
    exact .nil
  · rw [hb.starts]
    exact nofun

/-- The outermost element is read, with all elements in it. -/
theorem readElement_nested {cursor : Cursor} (hcursor : cursor.Fits) (hb : b.IsFresh) :
    Ensures (b.readElement cursor)
      (fun r => ∃ insideTag depth, Nested r.2.mark insideTag depth r.1) IsTold := by
  unfold readElement
  cases htag : Lexer.tagName cursor with
  | error e => exact nofun
  | ok r =>
    obtain ⟨token, cursor'⟩ := r
    refine (take_tagName_nested maxLevel hcursor hb htag).bind fun b' hb' => ?_
    obtain ⟨n, rfl⟩ := Lexer.Forward.moves htag
    exact read_nested (expand_outline maxLevel) (hcursor.advance n) hb'

theorem finish_starts : Ensures b.finish (fun d => d.elements.map (·.tag.start) = b.starts)
    fun _ => True := by
  unfold finish
  split
  · next hopened =>
    split
    · unfold Builder.starts
      rw [List.isEmpty_iff.1 hopened]
      exact (List.append_nil _).symm
    · exact trivial
  · exact trivial

end Builder

/-- **Document order is the order of the tags.**  Where the entities are idle, the
elements of a document begin one behind the other, and every text that is no
document has an error. -/
theorem Document.readBody_sorted {c : Cursor} {b : Builder} (hc : c.Fits) (hb : b.IsFresh) :
    Ensures (readBody c b) (fun d => (d.elements.map (·.tag.start)).Pairwise (· > ·))
      Builder.IsTold := by
  have hspaces : c.dropSpaces.Fits := hc.advance _
  unfold readBody
  extract_lets c' after
  have hafter : ∀ r : Builder × Cursor, r.1.starts.Pairwise (· > ·) →
      Ensures (after r) (fun d => (d.elements.map (·.tag.start)).Pairwise (· > ·))
        Builder.IsTold := by
    intro r hr
    refine (Builder.isTold_mapError (Builder.readMisc_outline r.2 r.1)).bind fun r' hr' => ?_
    obtain ⟨b₁, c₁⟩ := r'
    dsimp only at hr' ⊢
    split
    · refine (Builder.isTold_mapError Builder.finish_starts).mono fun d hd => ?_
      rw [hd, hr'.starts]
      exact hr
    · exact nofun
  split
  · refine (Builder.readElement_nested hspaces hb).bind fun r hr => hafter r ?_
    obtain ⟨insideTag, depth, hnested⟩ := hr
    exact (List.pairwise_append.1 hnested.sorted).1
  · refine hafter (b, c') ?_
    show b.starts.Pairwise (· > ·)
    rw [hb.starts]
    exact .nil

end TemplateLint
