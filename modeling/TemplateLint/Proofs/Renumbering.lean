/-
  TemplateLint.Proofs.Renumbering — moving lines back changes line numbers only.

  A message is cut into its parts: a number that follows the word `line` is a part
  of its own, every other character is one.  Moving lines back keeps the parts in
  their order, keeps the characters, and moves the numbers.  No line is named anew
  by that and none gets lost, so that moving twice is moving once by the sum.

  Main result: `line_shifts_compose`.
-/
import TemplateLint.Proofs.Occurrences

namespace TemplateLint

namespace Location

/-! ## §1. Where a line is named -/

variable {cs digits rest : List Char}

theorem lineNumber?_eq_some_iff : lineNumber? cs = some (digits, rest) ↔
    cs = "line ".toList ++ (digits ++ rest) ∧ digits ≠ [] ∧
      (∀ c ∈ digits, c.isDigit = true) ∧ ∀ c ∈ rest.head?, c.isDigit = false := by
  unfold lineNumber?
  rw [Option.bind_eq_some_iff]
  constructor
  · intro h
    obtain ⟨back, hword, hnumber⟩ := h
    obtain ⟨hback, hdigits⟩ := number?_eq_some_iff.1 hnumber
    exact ⟨by rw [eq_append_of_after? hword, hback], hdigits⟩
  · intro h
    obtain ⟨hcs, hdigits⟩ := h
    refine ⟨digits ++ rest, ?_, number?_eq_some_iff.2 ⟨rfl, hdigits⟩⟩
    rw [hcs, after?_append]

/-- The word, the space and one digit are enough to name a line. -/
theorem lineNumber?_ne_none_iff : lineNumber? cs ≠ none ↔
    ∃ d back, cs = "line ".toList ++ d :: back ∧ d.isDigit = true := by
  constructor
  · intro h
    exact announced_lineNumber? cs (Option.isSome_iff_ne_none.2 h)
  · intro h hnone
    obtain ⟨d, back, hcs, hd⟩ := h
    have hnumber : number? (d :: back) = none := by
      rw [hcs, lineNumber?, after?_append] at hnone
      exact hnone
    simp [number?, hd] at hnumber

/-- Six characters decide whether a text begins with `line N`. -/
theorem lineNumber?_eq_none_of_take {cs' : List Char} (htake : cs'.take 6 = cs.take 6)
    (h : lineNumber? cs = none) : lineNumber? cs' = none := by
  by_contra hne
  obtain ⟨d, back, hcs', hd⟩ := lineNumber?_ne_none_iff.1 hne
  have hfront : cs.take 6 = "line ".toList ++ [d] := by
    rw [← htake, hcs']
    rfl
  have hcs : cs = "line ".toList ++ d :: cs.drop 6 := by
    rw [← List.take_append_drop 6 cs, hfront]
    simp
  exact lineNumber?_ne_none_iff.2 ⟨d, cs.drop 6, hcs, hd⟩ h

/-! ## §2. Moving twice -/

/-- What is replaced begins with the word and the space, which stay. -/
theorem take_shiftLines (offset : Nat) (cs : List Char) :
    ∀ n, n ≤ 5 → (shiftLines offset cs).take n = cs.take n := by
  fun_induction shiftLines offset cs with
  | case1 =>
    intro n _
    rfl
  | case2 c tail digits rest hline ih =>
    intro n hn
    obtain ⟨hcs, -⟩ := lineNumber?_eq_some_iff.1 hline
    rw [hcs, List.append_assoc, List.take_append_of_le_length hn, List.take_append_of_le_length hn]
  | case3 c tail hline ih =>
    intro n hn
    cases n with
    | zero => rfl
    | succ n => rw [List.take_succ_cons, List.take_succ_cons, ih n (by omega)]

theorem head?_shiftLines (offset : Nat) (cs : List Char) :
    (shiftLines offset cs).head? = cs.head? := by
  have htake := congrArg List.head? (take_shiftLines offset cs 1 (by omega))
  simpa [List.head?_take] using htake

theorem isDigit_of_mem_shifted {offset : Nat} {c : Char} (hdigits : ∀ c ∈ digits, c.isDigit = true)
    (hc : c ∈ shifted offset digits) : c.isDigit = true := by
  unfold shifted at hc
  split at hc
  · exact Decimal.isDigit_of_mem_digits hc
  · exact hdigits c hc

theorem shifted_ne_nil {offset : Nat} (hdigits : digits ≠ []) : shifted offset digits ≠ [] := by
  unfold shifted
  split
  · exact Decimal.digits_ne_nil _
  · exact hdigits

/-- Line 1 stays where it is, and a number that is too large stays too large. -/
theorem shifted_shifted (a b : Nat) (digits : List Char) :
    shifted b (shifted a digits) = shifted (a + b) digits := by
  by_cases hsmall : Decimal.value digits ≤ maxLine
  · have hmoved : max (Decimal.value digits - a) 1 ≤ maxLine := by
      unfold maxLine at *
      omega
    have hsum : max (max (Decimal.value digits - a) 1 - b) 1
        = max (Decimal.value digits - (a + b)) 1 := by omega
    simp only [shifted, if_pos hsmall, Decimal.value_digits, if_pos hmoved, hsum]
  · simp only [shifted, if_neg hsmall]

/-- **Moving twice.**  What the first pass leaves behind is cut in the same places. -/
theorem shiftLines_shiftLines (a b : Nat) (cs : List Char) :
    shiftLines b (shiftLines a cs) = shiftLines (a + b) cs := by
  fun_induction shiftLines a cs with
  | case1 => simp [shiftLines]
  | case2 c tail digits rest hline ih =>
    obtain ⟨-, hne, hdigits, hend⟩ := lineNumber?_eq_some_iff.1 hline
    -- the moved number ends where the old one did, in front of no digit
    have hmoved : lineNumber? ("line ".toList ++ shifted a digits ++ shiftLines a rest)
        = some (shifted a digits, shiftLines a rest) := by
      apply lineNumber?_eq_some_iff.2
      refine ⟨by rw [List.append_assoc], shifted_ne_nil hne, ?_, ?_⟩
      · intro c hc
        exact isDigit_of_mem_shifted hdigits hc
      · rw [head?_shiftLines]
        exact hend
    rw [shiftLines_of_lineNumber? hmoved, shiftLines_of_lineNumber? hline, shifted_shifted, ih]
  | case3 c tail hline ih =>
    -- a character that is kept begins no line, before the move and after it
    have hkept : lineNumber? (c :: shiftLines a tail) = none := by
      refine lineNumber?_eq_none_of_take ?_ hline
      rw [List.take_succ_cons, List.take_succ_cons, take_shiftLines a tail 5 (by omega)]
    rw [shiftLines_of_none hkept, shiftLines_of_none hline, ih]

/-! ## §3. The parts of a message -/

/-- A part of a message: the digits behind `line `, or a character. -/
inductive Part where
  | other (c : Char)
  | line (digits : List Char)

namespace Part

/-- The part as it is written. -/
def text : Part → List Char
  | other c => [c]
  | line digits => "line ".toList ++ digits

/-- The part after lines were moved back.  A number N up to the greatest signed one
of 64 bits becomes N - offset, but at least 1, in decimal digits. -/
def moved (offset : Nat) : Part → Part
  | other c => other c
  | line digits =>
    if Decimal.value digits ≤ Nat.pow 2 63 - 1 then
      line (Decimal.digits (max 1 (Decimal.value digits - offset)))
    else
      line digits

theorem text_moved_line (offset : Nat) (digits : List Char) :
    ((line digits).moved offset).text = "line ".toList ++ shifted offset digits := by
  by_cases hsmall : Decimal.value digits ≤ maxLine
  · have hbound : Decimal.value digits ≤ Nat.pow 2 63 - 1 := by rwa [← maxLine_eq]
    simp only [moved, shifted, if_pos hsmall, if_pos hbound, Nat.max_comm]
    rfl
  · have hbound : ¬ Decimal.value digits ≤ Nat.pow 2 63 - 1 := by rwa [← maxLine_eq]
    simp only [moved, shifted, if_neg hsmall, if_neg hbound]
    rfl

end Part

/-- The text of parts, one after the other. -/
def spell (parts : List Part) : List Char :=
  parts.flatMap Part.text

/-- The parts of a message in order.  The parts with digits are the longest runs of
digits that directly follow `line `, all of them. -/
structure IsCut (message : List Char) (parts : List Part) : Prop where
  spells : spell parts = message
  /-- There are digits, and nothing else. -/
  digits : ∀ ds, .line ds ∈ parts → ds ≠ [] ∧ ∀ c ∈ ds, c.isDigit = true
  /-- No digit follows them. -/
  longest : ∀ before ds after, parts = before ++ .line ds :: after →
    ∀ c ∈ (spell after).head?, c.isDigit = false
  /-- Wherever a digit follows `line `, there is such a part. -/
  all : ∀ before d after, message = before ++ ("line ".toList ++ d :: after) → d.isDigit = true →
    ∃ front ds back, parts = front ++ .line ds :: back ∧ spell front = before

theorem isCut_nil : IsCut [] [] where
  spells := rfl
  digits := by simp
  longest := by simp
  all := by simp

theorem IsCut.other {c : Char} {tail : List Char} {parts : List Part} (h : IsCut tail parts)
    (hline : lineNumber? (c :: tail) = none) : IsCut (c :: tail) (.other c :: parts) where
  spells := by
    show c :: spell parts = _
    rw [h.spells]
  digits := by
    intro ds hds
    apply h.digits ds
    simpa using hds
  longest := by
    intro before ds after heq
    cases before with
    | nil => simp at heq
    | cons part before => exact h.longest before ds after (List.cons.inj heq).2
  all := by
    intro before d after heq hd
    have hskips : Skips lineNumber? [c] tail := skips_cons.2 ⟨hline, skips_nil⟩
    obtain ⟨more, rfl, htail⟩ :=
      hskips.exists_append heq (lineNumber?_ne_none_iff.2 ⟨d, after, rfl, hd⟩)
    obtain ⟨front, ds, back, hparts, hspell⟩ := h.all more d after htail hd
    refine ⟨.other c :: front, ds, back, by rw [hparts, List.cons_append], ?_⟩
    show c :: spell front = _
    rw [hspell]
    rfl

theorem IsCut.line {parts : List Part} (h : IsCut rest parts)
    (hline : lineNumber? cs = some (digits, rest)) : IsCut cs (.line digits :: parts) := by
  obtain ⟨hcs, hne, hdigits, hend⟩ := lineNumber?_eq_some_iff.1 hline
  constructor
  · show ("line ".toList ++ digits) ++ spell parts = cs
    rw [h.spells, hcs, List.append_assoc]
  · intro ds hds
    rcases List.mem_cons.1 hds with heq | hds
    · cases heq
      exact ⟨hne, hdigits⟩
    · exact h.digits ds hds
  · intro before ds after heq
    cases before with
    | nil =>
      obtain ⟨-, rfl⟩ := List.cons.inj heq
      rw [h.spells]
      exact hend
    | cons part before => exact h.longest before ds after (List.cons.inj heq).2
  · intro before d after heq hd
    cases before with
    | nil => exact ⟨[], digits, parts, rfl, rfl⟩
    | cons first before =>
      -- the next `l` comes behind the digits
      have hskips : Skips lineNumber? ("ine ".toList ++ digits) rest := by
        apply announced_lineNumber?.skips_of_notMem
        rw [List.mem_append, not_or]
        exact ⟨by decide, fun hmem => absurd (hdigits 'l' hmem) (by decide)⟩
      have hsplit : 'l' :: (("ine ".toList ++ digits) ++ rest)
          = first :: (before ++ ("line ".toList ++ d :: after)) := by
        refine Eq.trans ?_ heq
        rw [hcs, List.append_assoc]
        rfl
      obtain ⟨hfirst, htail⟩ := List.cons.inj hsplit
      obtain ⟨more, rfl, hrest⟩ :=
        hskips.exists_append htail (lineNumber?_ne_none_iff.2 ⟨d, after, rfl, hd⟩)
      obtain ⟨front, ds, back, hparts, hspell⟩ := h.all more d after hrest hd
      refine ⟨.line digits :: front, ds, back, by rw [hparts, List.cons_append], ?_⟩
      show ("line ".toList ++ digits) ++ spell front = _
      rw [hspell, ← hfirst]
      rfl

/-- **Moving lines back, part by part.** -/
theorem exists_isCut (message : List Char) : ∃ parts, IsCut message parts ∧
    ∀ offset, shiftLines offset message = spell (parts.map (Part.moved offset)) := by
  -- the scan itself: a line at the front is one part, else the first character is
  fun_induction shiftLines 0 message with
  | case1 => exact ⟨[], isCut_nil, fun offset => by simp [shiftLines, spell]⟩
  | case2 c tail digits rest hline ih =>
    obtain ⟨parts, hcut, hmoved⟩ := ih
    refine ⟨.line digits :: parts, hcut.line hline, ?_⟩
    intro offset
    rw [shiftLines_of_lineNumber? hline, hmoved offset, ← Part.text_moved_line]
    rfl
  | case3 c tail hline ih =>
    obtain ⟨parts, hcut, hmoved⟩ := ih
    refine ⟨.other c :: parts, hcut.other hline, ?_⟩
    intro offset
    rw [shiftLines_of_none hline, hmoved offset]
    rfl

/-- **Line correction adds up and touches nothing else.**  Moving lines back by `a`
and then by `b` is moving them back by `a + b`.  A message has parts, which are the
longest runs of digits that directly follow `line ` and all other characters, such that
moving lines back by any offset keeps the characters and moves the numbers in the
runs: up to the greatest signed number of 64 bits, but not above line 1. -/
theorem line_shifts_compose (message : List Char) :
    (∀ a b, shiftLines b (shiftLines a message) = shiftLines (a + b) message) ∧
    ∃ parts, IsCut message parts ∧
      ∀ offset, shiftLines offset message = spell (parts.map (Part.moved offset)) := by
  constructor
  · intro a b
    exact shiftLines_shiftLines a b message
  · exact exists_isCut message

end Location

end TemplateLint
