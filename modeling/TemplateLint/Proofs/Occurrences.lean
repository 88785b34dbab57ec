/-
  TemplateLint.Proofs.Occurrences — what is recognised in a text, and where.

  `occurrences find cs` collects what `find` recognises at the places of `cs`,
  from left to right.  A place in a message begins with a word, a space and a
  digit; a text is `Quiet` if none of its spaces has a digit behind it.  Main
  facts: nothing is recognised inside a quiet text, and replacing what is
  recognised leaves such a text alone.
-/
import Mathlib.Data.List.Chain
import TemplateLint.Template.Location

namespace TemplateLint

/-! ## §1. Numbers written and read -/

namespace Decimal

theorem isDigit_of_mem_digits {n : Nat} {c : Char} (h : c ∈ digits n) : c.isDigit = true :=
  Nat.isDigit_of_mem_toDigits (by decide) (by decide) h

theorem digits_ne_nil (n : Nat) : digits n ≠ [] :=
  Nat.toDigits_ne_nil

/-- A number that is written is read again. -/
theorem value_digits (n : Nat) : value (digits n) = n := by
  have h : Nat.ofDigitChars 10 (Nat.toDigits 10 n) 0 = n := Nat.ofDigitChars_ten_toDigits
  rw [Nat.ofDigitChars_eq_foldl] at h
  exact h

end Decimal

namespace Location

/-- A number is read to its end, which is where no digit follows. -/
theorem number?_eq_some_iff {cs digits rest : List Char} : number? cs = some (digits, rest) ↔
    cs = digits ++ rest ∧ digits ≠ [] ∧ (∀ c ∈ digits, c.isDigit = true) ∧
      ∀ c ∈ rest.head?, c.isDigit = false := by
  unfold number?
  constructor
  · intro h
    split at h
    · cases h
    · next hne =>
      cases h
      refine ⟨List.takeWhile_append_dropWhile.symm, fun hnil => hne (by rw [hnil]; rfl), ?_, ?_⟩
      · intro c hc
        exact List.all_eq_true.1 List.all_takeWhile c hc
      · intro c hc
        have hstop := List.head?_dropWhile_not Char.isDigit cs
        rw [Option.mem_def.1 hc] at hstop
        simpa using hstop
  · intro h
    obtain ⟨hcs, hne, hdigits, hend⟩ := h
    have hstop : rest.takeWhile Char.isDigit = [] ∧ rest.dropWhile Char.isDigit = rest := by
      cases rest with
      | nil => exact ⟨rfl, rfl⟩
      | cons c rest => simp [hend c rfl]
    rw [hcs, List.takeWhile_append_of_pos hdigits, List.dropWhile_append_of_pos hdigits, hstop.1,
      hstop.2, List.append_nil, if_neg (by simp [hne])]

theorem number?_digits_append (n : Nat) {rest : List Char}
    (hrest : ∀ c ∈ rest.head?, c.isDigit = false) :
    number? (Decimal.digits n ++ rest) = some (Decimal.digits n, rest) := by
  apply number?_eq_some_iff.2
  exact ⟨rfl, Decimal.digits_ne_nil n, fun _ => Decimal.isDigit_of_mem_digits, hrest⟩

theorem after?_append (word rest : List Char) : after? word (word ++ rest) = some rest := by
  unfold after?
  rw [if_pos (List.isPrefixOf_iff_prefix.2 (List.prefix_append word rest)), List.drop_left]

theorem eq_append_of_after? {word cs rest : List Char} (h : after? word cs = some rest) :
    cs = word ++ rest := by
  unfold after? at h
  split at h
  · next hword =>
    obtain ⟨back, rfl⟩ := List.isPrefixOf_iff_prefix.1 hword
    rw [List.drop_left] at h
    rw [Option.some.inj h]
  · cases h

theorem exists_digit_of_number? {cs : List Char} (h : (number? cs).isSome = true) :
    ∃ d rest, cs = d :: rest ∧ d.isDigit = true := by
  cases cs with
  | nil => cases h
  | cons d rest =>
    refine ⟨d, rest, rfl, ?_⟩
    by_contra hd
    have hnone : number? (d :: rest) = none := by
      unfold number?
      rw [List.takeWhile_cons_of_neg hd]
      rfl
    rw [hnone] at h
    cases h

/-! ## §2. Occurrences -/

variable {α : Type} {find : List Char → Option α} {xs ys : List Char}

/-- What `find` recognises at the places of a text, from left to right. -/
def occurrences (find : List Char → Option α) : List Char → List α
  | [] => []
  | c :: cs => (find (c :: cs)).toList ++ occurrences find cs

theorem occurrences_cons (c : Char) (cs : List Char) :
    occurrences find (c :: cs) = (find (c :: cs)).toList ++ occurrences find cs :=
  rfl

/-- Nothing is recognised that begins in `xs`, when `ys` follows. -/
def Skips (find : List Char → Option α) (xs ys : List Char) : Prop :=
  ∀ s, s ≠ [] → s <:+ xs → find (s ++ ys) = none

theorem skips_nil : Skips find [] ys :=
  fun _ hs hsuffix => absurd (List.suffix_nil.1 hsuffix) hs

theorem skips_cons {c : Char} :
    Skips find (c :: xs) ys ↔ find (c :: (xs ++ ys)) = none ∧ Skips find xs ys := by
  constructor
  · intro h
    exact ⟨h (c :: xs) (List.cons_ne_nil _ _) (List.suffix_refl _),
      fun s hs hsuffix => h s hs (hsuffix.trans (List.suffix_cons c xs))⟩
  · rintro ⟨hhead, htail⟩ s hs hsuffix
    rcases List.suffix_cons_iff.1 hsuffix with rfl | hsuffix
    · exact hhead
    · exact htail s hs hsuffix

theorem skips_append {zs : List Char} :
    Skips find (xs ++ ys) zs ↔ Skips find xs (ys ++ zs) ∧ Skips find ys zs := by
  induction xs with
  | nil => exact (and_iff_right skips_nil).symm
  | cons c xs ih => rw [List.cons_append, skips_cons, skips_cons, ih, List.append_assoc, and_assoc]

/-- A reader that begins with another one recognises nothing where that one
does not. -/
theorem Skips.mono {β : Type} {find' : List Char → Option β} (h : Skips find xs ys)
    (hfind : ∀ cs, find cs = none → find' cs = none) : Skips find' xs ys :=
  fun s hs hsuffix => hfind _ (h s hs hsuffix)

/-- What is recognised begins behind what is skipped. -/
theorem Skips.exists_append {before found : List Char} (h : Skips find xs ys)
    (heq : xs ++ ys = before ++ found) (hfound : find found ≠ none) :
    ∃ more, before = xs ++ more ∧ ys = more ++ found := by
  induction xs generalizing before with
  | nil => exact ⟨before, rfl, heq⟩
  | cons c xs ih =>
    rw [skips_cons] at h
    cases before with
    | nil =>
      rw [List.nil_append, List.cons_append] at heq
      exact absurd h.1 (by rwa [heq])
    | cons first before =>
      obtain ⟨hfirst, htail⟩ := List.cons.inj heq
      obtain ⟨more, hbefore, hys⟩ := ih h.2 htail
      exact ⟨more, by rw [hfirst, hbefore, List.cons_append], hys⟩

theorem occurrences_append (h : Skips find xs ys) :
    occurrences find (xs ++ ys) = occurrences find ys := by
  induction xs with
  | nil => rfl
  | cons c xs ih =>
    rw [skips_cons] at h
    rw [List.cons_append, occurrences_cons, h.1, ih h.2]
    rfl

theorem spellPlaces_append (h : Skips place? xs ys) :
    spellPlaces (xs ++ ys) = xs ++ spellPlaces ys := by
  induction xs with
  | nil => rfl
  | cons c xs ih =>
    rw [skips_cons] at h
    rw [List.cons_append, spellPlaces]
    split
    · next hsome =>
      rw [h.1] at hsome
      cases hsome
    · rw [ih h.2, List.cons_append]

/-- A character that names no line stays. -/
theorem shiftLines_of_none {offset : Nat} {c : Char} {tail : List Char}
    (h : lineNumber? (c :: tail) = none) :
    shiftLines offset (c :: tail) = c :: shiftLines offset tail := by
  rw [shiftLines]
  split
  · next hsome =>
    rw [h] at hsome
    cases hsome
  · rfl

theorem shiftLines_append {offset : Nat} (h : Skips lineNumber? xs ys) :
    shiftLines offset (xs ++ ys) = xs ++ shiftLines offset ys := by
  induction xs with
  | nil => rfl
  | cons c xs ih =>
    rw [skips_cons] at h
    rw [List.cons_append, shiftLines_of_none h.1, ih h.2, List.cons_append]

/-- A place at the front is spelled out. -/
theorem spellPlaces_of_place? {cs row column rest : List Char}
    (h : place? cs = some (row, column, rest)) :
    spellPlaces cs = "at ".toList ++ spelled row column ++ spellPlaces rest := by
  cases cs with
  | nil => cases h
  | cons c cs =>
    rw [spellPlaces]
    split
    · next hsome =>
      rw [h] at hsome
      cases hsome
      rfl
    · next hnone =>
      rw [h] at hnone
      cases hnone

/-- A line at the front is moved. -/
theorem shiftLines_of_lineNumber? {offset : Nat} {cs digits rest : List Char}
    (h : lineNumber? cs = some (digits, rest)) :
    shiftLines offset cs = "line ".toList ++ shifted offset digits ++ shiftLines offset rest := by
  cases cs with
  | nil => cases h
  | cons c cs =>
    rw [shiftLines]
    split
    · next hsome =>
      rw [h] at hsome
      cases hsome
      rfl
    · next hnone =>
      rw [h] at hnone
      cases hnone

theorem occurrences_eq_nil (h : Skips find xs []) : occurrences find xs = [] := by
  have happend := occurrences_append h
  rw [List.append_nil] at happend
  exact happend

theorem spellPlaces_eq_self (h : Skips place? xs []) : spellPlaces xs = xs := by
  have happend := spellPlaces_append h
  rw [List.append_nil, spellPlaces, List.append_nil] at happend
  exact happend

theorem shiftLines_eq_self {offset : Nat} (h : Skips lineNumber? xs []) :
    shiftLines offset xs = xs := by
  have happend : shiftLines offset (xs ++ []) = xs ++ shiftLines offset [] := shiftLines_append h
  rw [List.append_nil, shiftLines, List.append_nil] at happend
  exact happend

theorem hasPlace_eq (cs : List Char) : hasPlace cs = !(occurrences place? cs).isEmpty := by
  induction cs with
  | nil => rfl
  | cons c cs ih =>
    show ((place? (c :: cs)).isSome || hasPlace cs) = _
    rw [ih, occurrences_cons]
    cases place? (c :: cs) with
    | none => rfl
    | some found => rfl

/-! ## §3. Quiet texts -/

/-- No space of the text has a digit behind it. -/
def Quiet (cs : List Char) : Prop :=
  cs.IsChain fun c next => c = ' ' → next.isDigit = false

instance (cs : List Char) : Decidable (Quiet cs) :=
  inferInstanceAs (Decidable (cs.IsChain _))

theorem quiet_of_space_notMem (h : ' ' ∉ xs) : Quiet xs := by
  induction xs with
  | nil => exact .nil
  | cons c xs ih =>
    rw [List.mem_cons, not_or] at h
    exact (ih h.2).cons fun _ _ hspace => absurd hspace.symm h.1

theorem quiet_of_all_not_isDigit (h : xs.all (!·.isDigit) = true) : Quiet xs := by
  induction xs with
  | nil => exact .nil
  | cons c xs ih =>
    simp only [List.all_cons, Bool.and_eq_true] at h
    refine (ih h.2).cons fun next hnext _ => ?_
    have hmem : next ∈ xs := List.mem_of_mem_head? hnext
    simpa using List.all_eq_true.1 h.2 next hmem

/-- Quiet texts can be put together, but for a digit behind a space. -/
theorem Quiet.append (hx : Quiet xs) (hy : Quiet ys)
    (h : xs.getLast? ≠ some ' ' ∨ ∀ c ∈ ys.head?, c.isDigit = false) : Quiet (xs ++ ys) := by
  refine List.IsChain.append hx hy fun c hc next hnext hspace => ?_
  rcases h with h | h
  · rw [hspace] at hc
    exact absurd hc h
  · exact h next hnext

/-- Whatever is recognised begins with `word`, a space and a digit. -/
def Announced (word : List Char) (find : List Char → Option α) : Prop :=
  ∀ cs, (find cs).isSome = true → ∃ d rest, cs = word ++ ' ' :: d :: rest ∧ d.isDigit = true

/-- In a quiet text nothing is announced, not even with a few more characters
at its end. -/
theorem Announced.skips_of_quiet {word : List Char} (h : Announced word find)
    (hquiet : Quiet (xs ++ ys.take (word.length + 1))) : Skips find xs ys := by
  intro s hs hsuffix
  by_contra hsome
  obtain ⟨d, rest, htext, hd⟩ := h (s ++ ys) (Option.isSome_iff_ne_none.2 hsome)
  -- the word, the space and the digit are over before the extra characters are
  have hpos : 0 < s.length := List.length_pos_iff.2 hs
  have hsplit : s ++ ys.take (word.length + 1)
      = (word ++ [' ', d]) ++ rest.take (s.length - 1) := by
    have hlength : s.length + (word.length + 1) = (word ++ [' ', d]).length + (s.length - 1) := by
      rw [List.length_append]
      simp only [List.length_cons, List.length_nil]
      omega
    have hword : s ++ ys = (word ++ [' ', d]) ++ rest := by
      rw [htext, List.append_assoc]
      rfl
    rw [← List.take_length_add_append, hlength, hword, List.take_length_add_append]
  have hquiet' := hquiet.suffix (List.suffix_append_self_iff.2 hsuffix)
  rw [hsplit] at hquiet'
  have hchain : Quiet [' ', d] := hquiet'.left_of_append.right_of_append
  have hnot : d.isDigit = false := (List.isChain_cons_cons.1 hchain).1 rfl
  rw [hd] at hnot
  cases hnot

/-- Nothing is announced where there are no digits at all. -/
theorem Announced.skips_of_all_not_isDigit {word : List Char} (h : Announced word find)
    (hxs : xs.all (!·.isDigit) = true) : Skips find xs [] :=
  h.skips_of_quiet (by rw [List.take_nil, List.append_nil]; exact quiet_of_all_not_isDigit hxs)

/-- Nothing is announced where its first character is missing. -/
theorem Announced.skips_of_notMem {first : Char} {word : List Char}
    (h : Announced (first :: word) find) (hxs : first ∉ xs) : Skips find xs ys := by
  intro s hs hsuffix
  by_contra hsome
  obtain ⟨d, rest, htext, -⟩ := h (s ++ ys) (Option.isSome_iff_ne_none.2 hsome)
  cases s with
  | nil => exact hs rfl
  | cons c s =>
    have hfirst : c = first := (List.cons.inj htext).1
    exact hxs (hsuffix.subset (hfirst ▸ List.mem_cons_self))

/-- The word with its space, and then a number. -/
theorem exists_digit_of_after? {word cs rest : List Char}
    (hword : after? (word ++ [' ']) cs = some rest) (hnumber : (number? rest).isSome = true) :
    ∃ d rest, cs = word ++ ' ' :: d :: rest ∧ d.isDigit = true := by
  obtain ⟨d, back, rfl, hd⟩ := exists_digit_of_number? hnumber
  refine ⟨d, back, ?_, hd⟩
  rw [eq_append_of_after? hword, List.append_assoc]
  rfl

theorem announced_place? : Announced ['a', 't'] place? := by
  intro cs h
  obtain ⟨found, hfound⟩ := Option.isSome_iff_exists.1 h
  obtain ⟨rest, hword, hbind⟩ := Option.bind_eq_some_iff.1 hfound
  exact exists_digit_of_after? hword
    (Option.isSome_of_isSome_bind (Option.isSome_iff_exists.2 ⟨found, hbind⟩))

theorem announced_lineNumber? : Announced ['l', 'i', 'n', 'e'] lineNumber? := by
  intro cs h
  obtain ⟨found, hfound⟩ := Option.isSome_iff_exists.1 h
  obtain ⟨rest, hword, hnumber⟩ := Option.bind_eq_some_iff.1 hfound
  exact exists_digit_of_after? hword (Option.isSome_iff_exists.2 ⟨found, hnumber⟩)

/-! ## §4. A place that is written out -/

/-- The line that a text names, if it begins with `line N`. -/
def lineAt? (cs : List Char) : Option (List Char) :=
  (lineNumber? cs).map Prod.fst

/-- The line and column that a text names, if it begins with `line N, column M`. -/
def lineColumnAt? (cs : List Char) : Option (List Char × List Char) :=
  (lineNumber? cs).bind fun line =>
    (after? ", column ".toList line.2).bind fun rest =>
      (number? rest).map fun column => (line.1, column.1)

variable {row column : Nat} {back : List Char}

theorem place?_written (hback : ∀ c ∈ back.head?, c.isDigit = false) :
    place? ("at ".toList ++ (Decimal.digits row ++ ':' :: (Decimal.digits column ++ back)))
      = some (Decimal.digits row, Decimal.digits column, back) := by
  have hcolon : ∀ c ∈ (':' :: (Decimal.digits column ++ back)).head?, c.isDigit = false := by
    intro c hc
    cases hc
    rfl
  unfold place?
  rw [after?_append, Option.bind_some, number?_digits_append row hcolon, Option.bind_some]
  show (after? ":".toList (":".toList ++ (Decimal.digits column ++ back))).bind _ = _
  rw [after?_append, Option.bind_some, number?_digits_append column hback]
  rfl

theorem spelled_append (row column back : List Char) :
    spelled row column ++ back
      = "line ".toList ++ (row ++ (", column ".toList ++ (column ++ back))) := by
  unfold spelled
  simp only [List.append_assoc]

theorem lineNumber?_spelled :
    lineNumber? (spelled (Decimal.digits row) (Decimal.digits column) ++ back)
      = some (Decimal.digits row, ", column ".toList ++ (Decimal.digits column ++ back)) := by
  have hcomma : ∀ c ∈ (", column ".toList ++ (Decimal.digits column ++ back)).head?,
      c.isDigit = false := by
    intro c hc
    cases hc
    rfl
  unfold lineNumber?
  rw [spelled_append, after?_append, Option.bind_some, number?_digits_append row hcomma]

theorem lineColumnAt?_spelled (hback : ∀ c ∈ back.head?, c.isDigit = false) :
    lineColumnAt? (spelled (Decimal.digits row) (Decimal.digits column) ++ back)
      = some (Decimal.digits row, Decimal.digits column) := by
  unfold lineColumnAt?
  rw [lineNumber?_spelled, Option.bind_some, after?_append, Option.bind_some,
    number?_digits_append column hback]
  rfl

theorem notMem_digits {c : Char} (hc : c.isDigit = false) (n : Nat) : c ∉ Decimal.digits n := by
  intro h
  rw [Decimal.isDigit_of_mem_digits h] at hc
  cases hc

/-- Behind the line no second one is announced. -/
theorem skips_column : Skips lineNumber? (", column ".toList ++ Decimal.digits column) back := by
  have hcolumn : 'l' ∉ "umn ".toList ++ Decimal.digits column := by
    rw [List.mem_append, not_or]
    exact ⟨by decide, notMem_digits (by decide) column⟩
  -- the one `l` is that of `column`
  show Skips lineNumber? (", co".toList ++ 'l' :: ("umn ".toList ++ Decimal.digits column)) back
  rw [skips_append, skips_cons]
  exact ⟨announced_lineNumber?.skips_of_notMem (by decide), rfl,
    announced_lineNumber?.skips_of_notMem hcolumn⟩

/-- Inside a place that is spelled out, no other line is announced. -/
theorem skips_spelled_tail : Skips lineNumber?
    ("ine ".toList ++ (Decimal.digits row ++ (", column ".toList ++ Decimal.digits column)))
    back := by
  rw [skips_append, skips_append]
  exact ⟨announced_lineNumber?.skips_of_notMem (by decide),
    announced_lineNumber?.skips_of_notMem (notMem_digits (by decide) row), skips_column⟩

theorem skips_place?_spelled :
    Skips place? (spelled (Decimal.digits row) (Decimal.digits column)) back := by
  refine announced_place?.skips_of_notMem ?_
  unfold spelled
  rw [List.mem_append, List.mem_append, List.mem_append, not_or, not_or, not_or]
  exact ⟨⟨⟨by decide, notMem_digits (by decide) row⟩, by decide⟩, notMem_digits (by decide) column⟩

/-! ## §5. One place in a message -/

variable {front : List Char}

/-- A quiet text announces no line, up to the one that follows. -/
theorem skips_front (hfront : Quiet front) {row column : List Char} :
    Skips lineNumber? front (spelled row column ++ back) := by
  refine announced_lineNumber?.skips_of_quiet ?_
  show Quiet (front ++ "line ".toList)
  exact hfront.append (by decide) (.inr fun c hc => by cases hc; rfl)

/-- **One line.**  Between a quiet text and one without digits, a place that is
spelled out is the only one that names a line. -/
theorem occurrences_spelled {find : List Char → Option α}
    (hfind : ∀ cs, lineNumber? cs = none → find cs = none) (hfront : Quiet front)
    (hback : back.all (!·.isDigit) = true) :
    occurrences find (front ++ (spelled (Decimal.digits row) (Decimal.digits column) ++ back))
      = (find (spelled (Decimal.digits row) (Decimal.digits column) ++ back)).toList := by
  have hrest : occurrences find back = [] :=
    occurrences_eq_nil ((announced_lineNumber?.skips_of_all_not_isDigit hback).mono hfind)
  have hspelled : spelled (Decimal.digits row) (Decimal.digits column)
      = 'l' :: ("ine ".toList
        ++ (Decimal.digits row ++ (", column ".toList ++ Decimal.digits column))) := by
    unfold spelled
    rw [List.append_assoc, List.append_assoc]
    rfl
  rw [occurrences_append ((skips_front hfront).mono hfind), hspelled, List.cons_append,
    occurrences_cons, occurrences_append (skips_spelled_tail.mono hfind), hrest, List.append_nil]

theorem occurrences_lineAt?_spelled (hfront : Quiet front) (hback : back.all (!·.isDigit) = true) :
    occurrences lineAt? (front ++ (spelled (Decimal.digits row) (Decimal.digits column) ++ back))
      = [Decimal.digits row] := by
  have hfind : ∀ cs, lineNumber? cs = none → lineAt? cs = none := by
    intro cs h
    unfold lineAt?
    rw [h]
    rfl
  rw [occurrences_spelled hfind hfront hback]
  unfold lineAt?
  rw [lineNumber?_spelled]
  rfl

theorem occurrences_lineColumnAt?_spelled (hfront : Quiet front)
    (hback : back.all (!·.isDigit) = true) :
    occurrences lineColumnAt?
        (front ++ (spelled (Decimal.digits row) (Decimal.digits column) ++ back))
      = [(Decimal.digits row, Decimal.digits column)] := by
  have hfind : ∀ cs, lineNumber? cs = none → lineColumnAt? cs = none := by
    intro cs h
    unfold lineColumnAt?
    rw [h]
    rfl
  have hhead : ∀ c ∈ back.head?, c.isDigit = false := by
    intro c hc
    simpa using List.all_eq_true.1 hback c (List.mem_of_mem_head? hc)
  rw [occurrences_spelled hfind hfront hback, lineColumnAt?_spelled hhead]
  rfl

/-- No place is left that is not spelled out. -/
theorem hasPlace_spelled (hfront : Quiet front) (hback : back.all (!·.isDigit) = true) :
    hasPlace (front ++ (spelled (Decimal.digits row) (Decimal.digits column) ++ back)) = false := by
  have hskips : Skips place? front (spelled (Decimal.digits row) (Decimal.digits column) ++ back) := by
    refine announced_place?.skips_of_quiet ?_
    show Quiet (front ++ "lin".toList)
    exact hfront.append (by decide) (.inr fun c hc => by cases hc; rfl)
  rw [hasPlace_eq, occurrences_append hskips, occurrences_append skips_place?_spelled,
    occurrences_eq_nil (announced_place?.skips_of_all_not_isDigit hback)]
  rfl

/-- A line that is far enough down is moved back, not stopped at line 1. -/
theorem shifted_digits {offset row : Nat} (hpos : 1 ≤ row) (hmax : offset + row ≤ maxLine) :
    shifted offset (Decimal.digits (offset + row)) = Decimal.digits row := by
  unfold shifted
  rw [Decimal.value_digits, if_pos hmax, Nat.add_sub_cancel_left, Nat.max_eq_left hpos]

/-- **Moving back.**  In such a text exactly the line of the place is moved. -/
theorem shiftLines_place {offset : Nat} (hfront : Quiet front) (hback : back.all (!·.isDigit) = true) :
    shiftLines offset (front ++ (spelled (Decimal.digits row) (Decimal.digits column) ++ back))
      = front ++ (spelled (shifted offset (Decimal.digits row)) (Decimal.digits column) ++ back) := by
  rw [shiftLines_append (skips_front hfront), shiftLines_of_lineNumber? lineNumber?_spelled,
    ← List.append_assoc ", column ".toList, shiftLines_append skips_column,
    shiftLines_eq_self (announced_lineNumber?.skips_of_all_not_isDigit hback), spelled_append]
  simp only [List.append_assoc]

/-- A line that is far enough down comes out as it was counted. -/
theorem shiftLines_spelled {offset : Nat} (hfront : Quiet front) (hback : back.all (!·.isDigit) = true)
    (hpos : 1 ≤ row) (hmax : offset + row ≤ maxLine) :
    shiftLines offset
        (front ++ (spelled (Decimal.digits (offset + row)) (Decimal.digits column) ++ back))
      = front ++ (spelled (Decimal.digits row) (Decimal.digits column) ++ back) := by
  rw [shiftLines_place hfront hback, shifted_digits hpos hmax]

end Location

end TemplateLint
