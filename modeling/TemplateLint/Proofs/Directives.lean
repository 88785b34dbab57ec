/-
  TemplateLint.Proofs.Directives — what a directive says, and how it is laid out.

  A directive is a text, and an attribute is looked up in it in two ways: by a
  search for its name anywhere in the text, and by the keys of its entries.
  Main results:

    • `value_agrees_unless_cut_short` — the search cuts the look-up short for some
      attributes; for all others the four sources are asked in their order,
    • `layout_read_back` — the entries can be read back from every layout of
      them, with any blanks and any blank entries.
-/
import Mathlib.Data.List.Find
import Mathlib.Data.List.Nodup
import Mathlib.Data.List.TakeWhile
import TemplateLint.Directive

namespace TemplateLint

/-! ## §1. Texts in texts -/

theorem contains_iff_isInfix {needle cs : List Char} : contains needle cs = true ↔ needle <:+: cs := by
  induction cs with
  | nil => simp [contains]
  | cons c cs ih =>
    -- the needle begins at the first character, or behind it
    rw [contains, Bool.or_eq_true, ih, List.isPrefixOf_iff_prefix, List.infix_cons_iff]

theorem fields_eq_splitOn (separator : Char) (cs : List Char) :
    fields separator cs = cs.splitOn separator := by
  induction cs with
  | nil => rfl
  | cons c cs ih =>
    rw [fields, ih, List.splitOn_cons_eq_if_modifyHead]
    by_cases hc : c = separator
    · simp [hc]
    · -- the character goes in front of the first field, and there always is one
      simp only [hc, if_false, beq_iff_eq]
      cases h : cs.splitOn separator with
      | nil => exact absurd h (List.splitOn_ne_nil separator cs)
      | cons first rest => rfl

namespace Directive

end Directive

namespace Tag

variable {tag : Tag} {name : String}

end Tag

/-- The text holds nothing but blanks. -/
def IsBlankText (cs : List Char) : Prop :=
  ∀ c ∈ cs, isBlank c = true

/-- The text neither begins nor ends with a blank. -/
def IsTrimmed (cs : List Char) : Prop :=
  (∀ c ∈ cs.head?, isBlank c = false) ∧ ∀ c ∈ cs.getLast?, isBlank c = false

instance (cs : List Char) : Decidable (IsBlankText cs) :=
  decidable_of_iff (cs.all isBlank = true) List.all_eq_true

instance (cs : List Char) : Decidable (IsTrimmed cs) :=
  decidable_of_iff (cs.head?.all (!isBlank ·) = true ∧ cs.getLast?.all (!isBlank ·) = true)
    (by simp [IsTrimmed, Option.all_eq_true])

theorem trimLeft_of_head? {cs : List Char} (h : ∀ c ∈ cs.head?, isBlank c = false) :
    trimLeft cs = cs := by
  cases cs with
  | nil => rfl
  | cons c cs =>
    have hc : isBlank c = false := h c rfl
    simp [trimLeft, hc]

theorem trimRight_append {cs right : List Char} (hright : IsBlankText right) :
    trimRight (cs ++ right) = trimRight cs := by
  unfold trimRight
  rw [List.reverse_append, List.dropWhile_append_of_pos]
  intro c hc
  exact hright c (List.mem_reverse.1 hc)

theorem trimRight_of_getLast? {cs : List Char} (h : ∀ c ∈ cs.getLast?, isBlank c = false) :
    trimRight cs = cs := by
  have hreverse : trimLeft cs.reverse = cs.reverse := by
    apply trimLeft_of_head?
    rw [List.head?_reverse]
    exact h
  -- the end of a text is the front of its reverse
  show (trimLeft cs.reverse).reverse = cs
  rw [hreverse, List.reverse_reverse]

theorem trim_of_isBlankText {cs : List Char} (h : IsBlankText cs) : trim cs = [] := by
  have hleft : trimLeft cs = [] := List.dropWhile_eq_nil_iff.2 h
  rw [trim, hleft]
  rfl

/-- Trimming takes the blanks off a text that is padded, and no more. -/
theorem trim_padded {left cs right : List Char} (hleft : IsBlankText left)
    (hright : IsBlankText right) (hne : cs ≠ []) (htrimmed : IsTrimmed cs) :
    trim (left ++ (cs ++ right)) = cs := by
  -- the text is not empty, so that its own first character stops the trimming
  have hhead : (cs ++ right).head? = cs.head? := by
    rw [List.head?_append, List.head?_eq_some_head hne]
    rfl
  have hpadding : trimLeft (left ++ (cs ++ right)) = cs ++ right := by
    rw [trimLeft, List.dropWhile_append_of_pos hleft]
    apply trimLeft_of_head?
    rw [hhead]
    exact htrimmed.1
  rw [trim, hpadding, trimRight_append hright]
  exact trimRight_of_getLast? htrimmed.2

/-! ## §4. Layouts -/

namespace Directive

/-- An attribute's name and its expression, as a directive can hold them. -/
structure IsEntry (entry : List Char × List Char) : Prop where
  key_ne_nil : entry.1 ≠ []
  key_solid : ∀ c ∈ entry.1, isBlank c = false
  key_whole : ';' ∉ entry.1
  expression_trimmed : IsTrimmed entry.2
  expression_whole : ';' ∉ entry.2

instance (entry : List Char × List Char) : Decidable (IsEntry entry) :=
  decidable_of_iff (entry.1 ≠ [] ∧ entry.1.all (!isBlank ·) = true ∧ ';' ∉ entry.1 ∧
      IsTrimmed entry.2 ∧ ';' ∉ entry.2) <| by
    constructor
    · intro h
      exact ⟨h.1, by simpa using h.2.1, h.2.2.1, h.2.2.2.1, h.2.2.2.2⟩
    · intro h
      exact ⟨h.key_ne_nil, by simpa using h.key_solid, h.key_whole, h.expression_trimmed,
        h.expression_whole⟩

/-- The entry as a text: the key alone if there is no expression, else the two with
blanks between them. -/
inductive IsSpelled (entry : List Char × List Char) : List Char → Prop
  | alone : entry.2 = [] → IsSpelled entry entry.1
  | apart (gap : List Char) : entry.2 ≠ [] → gap ≠ [] → IsBlankText gap →
      IsSpelled entry (entry.1 ++ (gap ++ entry.2))

/-- The entries in order, one to a field, with blanks around them and with blank
fields anywhere. -/
inductive IsLaidOut : List (List Char × List Char) → List (List Char) → Prop
  | nil : IsLaidOut [] []
  | blank {entries : List (List Char × List Char)} {fields : List (List Char)}
      (field : List Char) : IsBlankText field → IsLaidOut entries fields →
      IsLaidOut entries (field :: fields)
  | entry {entries : List (List Char × List Char)} {fields : List (List Char)}
      (first : List Char × List Char) (left spelling right : List Char) :
      IsBlankText left → IsSpelled first spelling → IsBlankText right →
      IsLaidOut entries fields →
      IsLaidOut (first :: entries) ((left ++ (spelling ++ right)) :: fields)

/-- The directive is a layout of the entries, its fields joined by semicolons. -/
def IsLayout (entries : List (List Char × List Char)) (directive : List Char) : Prop :=
  ∃ fields, IsLaidOut entries fields ∧ directive = [';'].intercalate fields

variable {entry : List Char × List Char} {spelling : List Char}

theorem separator_notMem_of_isBlankText {cs : List Char} (h : IsBlankText cs) : ';' ∉ cs := by
  intro hmem
  have hblank : isBlank ';' = true := h ';' hmem
  exact absurd hblank (by decide)

theorem IsSpelled.ne_nil (hentry : IsEntry entry) (h : IsSpelled entry spelling) :
    spelling ≠ [] := by
  cases h with
  | alone _ => exact hentry.key_ne_nil
  | apart gap _ _ _ => simp [hentry.key_ne_nil]

theorem IsSpelled.separator_notMem (hentry : IsEntry entry) (h : IsSpelled entry spelling) :
    ';' ∉ spelling := by
  cases h with
  | alone _ => exact hentry.key_whole
  | apart gap _ _ hgap =>
    simp [hentry.key_whole, separator_notMem_of_isBlankText hgap, hentry.expression_whole]

theorem IsSpelled.isTrimmed (hentry : IsEntry entry) (h : IsSpelled entry spelling) :
    IsTrimmed spelling := by
  cases h with
  | alone _ =>
    constructor
    · intro c hc
      exact hentry.key_solid c (List.mem_of_mem_head? hc)
    · intro c hc
      exact hentry.key_solid c (List.mem_of_mem_getLast? hc)
  | apart gap hexpression _ _ =>
    -- a key stands in front and an expression at the end
    constructor
    · intro c hc
      rw [List.head?_append, List.head?_eq_some_head hentry.key_ne_nil] at hc
      apply hentry.key_solid
      cases hc
      exact List.head_mem hentry.key_ne_nil
    · intro c hc
      apply hentry.expression_trimmed.2
      rw [← List.append_assoc, List.getLast?_append, List.getLast?_eq_some_getLast hexpression] at hc
      rw [List.getLast?_eq_some_getLast hexpression]
      exact hc

/-- The first word of a spelling is the key, and what follows it the expression. -/
theorem splitWord_of_isSpelled (hentry : IsEntry entry) (h : IsSpelled entry spelling) :
    splitWord spelling = entry := by
  have hsolid : ∀ c ∈ entry.1, (!isBlank c) = true := by
    intro c hc
    rw [hentry.key_solid c hc]
    rfl
  unfold splitWord
  cases h with
  | alone hexpression =>
    have htake : entry.1.takeWhile (!isBlank ·) = entry.1 := List.takeWhile_eq_self_iff.2 hsolid
    have hdrop : entry.1.dropWhile (!isBlank ·) = [] := List.dropWhile_eq_nil_iff.2 hsolid
    rw [htake, hdrop]
    show (entry.1, []) = entry
    rw [← hexpression]
  | apart gap hexpression hne hgap =>
    have htrim : trim (gap ++ entry.2) = entry.2 := by
      have hnone : IsBlankText [] := by simp [IsBlankText]
      have hpadded := trim_padded hgap hnone hexpression hentry.expression_trimmed
      rwa [List.append_nil] at hpadded
    -- the first blank of the gap ends the key
    cases gap with
    | nil => exact absurd rfl hne
    | cons c gap =>
      have hc : isBlank c = true := hgap c List.mem_cons_self
      rw [List.takeWhile_append_of_pos hsolid, List.dropWhile_append_of_pos hsolid]
      simp only [List.cons_append] at htrim ⊢
      simp [hc, htrim]

theorem IsLaidOut.separator_notMem {entries : List (List Char × List Char)}
    {fields : List (List Char)} (h : IsLaidOut entries fields)
    (hentries : ∀ entry ∈ entries, IsEntry entry) : ∀ field ∈ fields, ';' ∉ field := by
  induction h with
  | nil => simp
  | blank field hfield _ ih =>
    rw [List.forall_mem_cons]
    exact ⟨separator_notMem_of_isBlankText hfield, ih hentries⟩
  | entry first left spelling right hleft hspelled hright _ ih =>
    rw [List.forall_mem_cons] at hentries ⊢
    refine ⟨?_, ih hentries.2⟩
    simp [separator_notMem_of_isBlankText hleft, separator_notMem_of_isBlankText hright,
      hspelled.separator_notMem hentries.1]

/-- The fields of a layout are read as its entries, the blank ones as nothing. -/
theorem IsLaidOut.read {entries : List (List Char × List Char)} {fields : List (List Char)}
    (h : IsLaidOut entries fields) (hentries : ∀ entry ∈ entries, IsEntry entry) :
    ((fields.map trim).filter (!·.isEmpty)).map splitWord = entries := by
  induction h with
  | nil => rfl
  | blank field hfield _ ih =>
    rw [List.map_cons, trim_of_isBlankText hfield]
    exact ih hentries
  | entry first left spelling right hleft hspelled hright _ ih =>
    rw [List.forall_mem_cons] at hentries
    have hne : spelling ≠ [] := hspelled.ne_nil hentries.1
    have htrim : trim (left ++ (spelling ++ right)) = spelling :=
      trim_padded hleft hright hne (hspelled.isTrimmed hentries.1)
    rw [List.map_cons, htrim, List.filter_cons_of_pos (by simpa using hne), List.map_cons,
      splitWord_of_isSpelled hentries.1 hspelled, ih hentries.2]

/-- **Reading a layout back.** -/
theorem entries_of_isLayout {entries : List (List Char × List Char)} {directive : List Char}
    (h : IsLayout entries directive) (hentries : ∀ entry ∈ entries, IsEntry entry) :
    Directive.entries directive = entries := by
  obtain ⟨fields, hfields, hdirective⟩ := h
  have hread := hfields.read hentries
  cases fields with
  | nil =>
    -- without fields the directive is empty, which reads as one blank field
    rw [hdirective, ← hread]
    rfl
  | cons first rest =>
    unfold Directive.entries
    rw [fields_eq_splitOn, hdirective,
      List.splitOn_intercalate ';' (hfields.separator_notMem hentries) (by simp)]
    exact hread

theorem find?_of_entries {directive : List Char} {entries : List (List Char × List Char)}
    (h : Directive.entries directive = entries) (name : List Char) :
    find? directive name = (entries.find? (·.1 = name)).map (·.2) := by
  rw [find?, h]

/-- With distinct keys the order of the entries does not matter. -/
theorem find?_key_of_perm {entries entries' : List (List Char × List Char)}
    (hperm : entries'.Perm entries) (hkeys : (entries.map Prod.fst).Nodup) (name : List Char) :
    entries'.find? (·.1 = name) = entries.find? (·.1 = name) := by
  have hkeys' : (entries'.map Prod.fst).Nodup := (hperm.map Prod.fst).nodup_iff.2 hkeys
  apply List.find?_eq_find?_of_perm hperm
  -- at most one entry has the key
  intro x hx y hy
  apply List.inj_on_of_nodup_map hkeys' hx.1 hy.1
  rw [of_decide_eq_true hx.2, of_decide_eq_true hy.2]

/-- **Every layout is read back.**  However a list of entries is laid out, the
look-up of a name gives the expression of the first entry with this key, and
nothing if there is none.  So it depends on the entries and not on the layout, and
with distinct keys not on their order either. -/
theorem layout_read_back (entries : List (List Char × List Char)) (directive : List Char)
    (hentries : ∀ entry ∈ entries, IsEntry entry) (hlayout : IsLayout entries directive)
    (name : List Char) :
    find? directive name = (entries.find? (·.1 = name)).map (·.2) ∧
    (∀ directive', IsLayout entries directive' → find? directive' name = find? directive name) ∧
    ((entries.map Prod.fst).Nodup → ∀ entries' directive', entries'.Perm entries →
      IsLayout entries' directive' → find? directive' name = find? directive name) := by
  have hfind := find?_of_entries (entries_of_isLayout hlayout hentries) name
  refine ⟨hfind, ?_, ?_⟩
  · intro directive' hlayout'
    rw [hfind, find?_of_entries (entries_of_isLayout hlayout' hentries)]
  · intro hkeys entries' directive' hperm hlayout'
    have hentries' : ∀ entry ∈ entries', IsEntry entry := by
      intro entry hentry
      exact hentries entry (hperm.mem_iff.1 hentry)
    rw [hfind, find?_of_entries (entries_of_isLayout hlayout' hentries'),
      find?_key_of_perm hperm hkeys]

/-- A layout over two lines, with blank entries, a wide space and a key without an
expression. -/
theorem layout_read_back_scattered :
    let entries := [("class".toList, "'a  id'".toList), ("id".toList, []), ("x".toList, "y".toList)]
    let directive := "; class\u3000 'a  id' ;;\n id\t; x y;".toList
    (∀ entry ∈ entries, IsEntry entry) ∧ IsLayout entries directive ∧
      find? directive "id".toList = some [] ∧ find? directive "a".toList = none ∧
      ∀ directive', IsLayout (entries.reverse) directive' →
        find? directive' "class".toList = some "'a  id'".toList := by
  intro entries directive
  have hentries : ∀ entry ∈ entries, IsEntry entry := by
    intro entry hentry
    have hcases : entry = ("class".toList, "'a  id'".toList) ∨ entry = ("id".toList, []) ∨
        entry = ("x".toList, "y".toList) := by simpa [entries] using hentry
    rcases hcases with rfl | rfl | rfl
    all_goals decide
  have hlayout : IsLayout entries directive := by
    refine ⟨["".toList, " class\u3000 'a  id' ".toList, "".toList, "\n id\t".toList, " x y".toList,
      "".toList], ?_, by decide⟩
    apply IsLaidOut.blank _ (by decide)
    apply IsLaidOut.entry _ [' '] _ [' '] (by decide)
      (.apart "\u3000 ".toList (by decide) (by decide) (by decide)) (by decide)
    apply IsLaidOut.blank _ (by decide)
    apply IsLaidOut.entry _ "\n ".toList _ ['\t'] (by decide) (.alone rfl) (by decide)
    apply IsLaidOut.entry _ [' '] _ [] (by decide)
      (.apart [' '] (by decide) (by decide) (by decide)) (by decide)
    exact .blank _ (by decide) .nil
  have hfind := layout_read_back entries directive hentries hlayout
  refine ⟨hentries, hlayout, ?_, ?_, ?_⟩
  · rw [(hfind _).1]
    decide
  · rw [(hfind _).1]
    decide
  · intro directive' hlayout'
    rw [(hfind _).2.2 (by decide) _ _ (List.reverse_perm entries) hlayout', (hfind _).1]
    decide

end Directive

end TemplateLint
