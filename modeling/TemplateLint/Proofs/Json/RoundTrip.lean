/-
  TemplateLint.Proofs.Json.RoundTrip — the text of a value says that value.

  Reading leaves the text behind a value alone; only behind a number it matters
  what follows (`EndsNumber`).  `IsRead` is proved kind by kind, a list from its
  pieces.  Main result: `decode?_render`, whatever value is written, decoding its
  text gives it back, through all escapes and layouts.
-/
import TemplateLint.Json
import TemplateLint.Proofs.Json.Decoder
import TemplateLint.Proofs.Occurrences

namespace TemplateLint.Json

/-! ## §1. Meanings -/

/-- The value that is written. -/
def meaning : Json → Value
  | null => .null
  | number n => .number n
  | string s => .string s
  | array items => .array (items.map meaning)
  | object members => .object (members.map fun m => (m.1, meaning m.2))
decreasing_by
  · next h =>
    have hsize := List.sizeOf_lt_of_mem h
    simp only [array.sizeOf_spec]
    omega
  · next h =>
    have hsize := List.sizeOf_lt_of_mem h
    have hpair : sizeOf m = 1 + sizeOf m.1 + sizeOf m.2 := rfl
    simp only [object.sizeOf_spec]
    omega

/-! ## §2. Blanks -/

theorem isBlank_newline (level : Nat) : ∀ c ∈ newline level, isBlank c = true := by
  intro c h
  rcases List.mem_cons.1 h with rfl | h
  · rfl
  · rw [List.eq_of_mem_replicate h]
    rfl

variable {blanks : List Char} (hblanks : ∀ c ∈ blanks, isBlank c = true)

include hblanks in
theorem skip_append (cs : List Char) : skip (blanks ++ cs) = skip cs :=
  List.dropWhile_append_of_pos hblanks

theorem skip_cons {c : Char} (h : isBlank c = false) (cs : List Char) : skip (c :: cs) = c :: cs :=
  List.dropWhile_cons_of_neg (by simp [h])

/-- Whether a number may go on with this character. -/
def continuesNumber (c : Char) : Bool :=
  c.isDigit || c = '.' || c = 'e' || c = 'E'

/-- No number goes on with this text. -/
def EndsNumber (rest : List Char) : Prop :=
  ∀ c ∈ rest.head?, continuesNumber c = false

theorem of_continuesNumber {c : Char} (h : continuesNumber c = false) :
    c.isDigit = false ∧ c ≠ '.' ∧ c ≠ 'e' ∧ c ≠ 'E' := by
  simpa only [continuesNumber, Bool.or_eq_false_iff, decide_eq_false_iff_not, and_assoc] using h

theorem endsNumber_nil : EndsNumber [] := nofun

theorem endsNumber_cons {c : Char} (h : continuesNumber c = false) (rest : List Char) :
    EndsNumber (c :: rest) := by
  rintro c' ⟨⟩
  exact h

theorem continuesNumber_of_isBlank {c : Char} (h : isBlank c = true) :
    continuesNumber c = false := by
  simp only [isBlank, Bool.or_eq_true, decide_eq_true_eq] at h
  rcases h with ((rfl | rfl) | rfl) | rfl <;> rfl

include hblanks in
theorem EndsNumber.append {rest : List Char} (h : EndsNumber rest) :
    EndsNumber (blanks ++ rest) := by
  cases blanks with
  | nil => exact h
  | cons c cs =>
    exact endsNumber_cons (continuesNumber_of_isBlank (hblanks c List.mem_cons_self)) _

/-! ## §3. Strings -/

/-- Two digits of base 16 behind two zeros. -/
theorem number?_low {n : Nat} (h : n < 0x20) :
    Reference.number? 16 ['0', '0', Nat.digitChar (n / 16), Nat.digitChar (n % 16)] = some n := by
  have hall : ∀ n : Fin 0x20, Reference.number? 16
      ['0', '0', Nat.digitChar (n.1 / 16), Nat.digitChar (n.1 % 16)] = some n.1 := by
    decide
  exact hall ⟨n, h⟩

theorem escaped?_low {c : Char} (h : c.toNat < 0x20) (rest : List Char) :
    escaped? ('u' :: '0' :: '0' :: Nat.digitChar (c.toNat / 16) :: Nat.digitChar (c.toNat % 16)
      :: rest) = some (c, rest) := by
  have hsurrogate : ¬ (0xd800 ≤ c.toNat ∧ c.toNat ≤ 0xdbff) := by omega
  have hvalid : c.toNat.isValidChar := Or.inl (by omega)
  simp only [escaped?, unit?, number?_low h, Option.map_some, Option.bind_some, ofUnit?,
    if_neg hsurrogate, if_pos hvalid, Char.ofNat_toNat]

/-- **A character is read as it was written**, escaped or not. -/
theorem letter_escape (c : Char) (rest : List Char) :
    letter.read (escape c ++ rest) = some (some c, rest) := by
  unfold escape
  by_cases hquote : c = '"'
  · rw [if_pos hquote, hquote]
    rfl
  by_cases hbackslash : c = '\\'
  · rw [if_neg hquote, if_pos hbackslash, hbackslash]
    rfl
  rw [if_neg hquote, if_neg hbackslash]
  -- five control characters have short escapes, the others have numbers
  split
  · next h => rw [h]; rfl
  split
  · next h => rw [h]; rfl
  split
  · next h => rw [h]; rfl
  split
  · next h => rw [h]; rfl
  split
  · next h => rw [h]; rfl
  split
  · next hlow =>
    have hescaped := escaped?_low hlow rest
    show (escaped? ('u' :: '0' :: '0' :: _ :: _ :: rest)).map _ = _
    rw [hescaped]
    rfl
  · next hlow =>
    unfold letter
    dsimp only [List.cons_append, List.nil_append]
    split
    · next heq => exact absurd (List.cons.inj heq).1 hquote
    · next heq => exact absurd (List.cons.inj heq).1 hbackslash
    · next heq =>
      obtain ⟨rfl, rfl⟩ := List.cons.inj heq
      rw [if_neg hlow]
    · next heq => cases heq

/-! ## §4. One item after the other -/

section Items

variable {α β : Type} {r : Reader (Option α)} {cs rest : List Char}

theorem many_of_none (h : r.read cs = some (none, rest)) : many r cs = some ([], rest) := by
  rw [many]
  split
  · next heq => rw [h] at heq; cases heq
  · next heq => rw [h] at heq; cases heq; rfl
  · next heq => rw [h] at heq; cases heq

theorem many_of_some {a : α} {as : List α} {rest' : List Char}
    (h : r.read cs = some (some a, rest)) (hmany : many r rest = some (as, rest')) :
    many r cs = some (a :: as, rest') := by
  rw [many]
  split
  · next heq => rw [h] at heq; cases heq
  · next heq => rw [h] at heq; cases heq
  · next heq => rw [h] at heq; cases heq; rw [hmany]; rfl

/-- Pieces that are read one by one are read one after the other.  `Follows`
is what a piece needs of the text behind it. -/
theorem many_flatMap (piece : β → List Char) (val : β → α) (close : List Char)
    (Follows : List Char → Prop) {bs : List β}
    (hclose : r.read (close ++ rest) = some (none, rest))
    (hread : ∀ b ∈ bs, ∀ rest, Follows rest → r.read (piece b ++ rest) = some (some (val b), rest))
    (hcloses : Follows (close ++ rest)) (hfollows : ∀ b rest, Follows (piece b ++ rest)) :
    many r (bs.flatMap piece ++ (close ++ rest)) = some (bs.map val, rest) := by
  induction bs with
  | nil => exact many_of_none hclose
  | cons b bs ih =>
    -- behind a piece there is the next one, or the end
    have hrest : Follows (bs.flatMap piece ++ (close ++ rest)) := by
      cases bs with
      | nil => exact hcloses
      | cons b' bs =>
        rw [List.flatMap_cons, List.append_assoc]
        exact hfollows b' _
    rw [List.flatMap_cons, List.append_assoc, List.map_cons]
    exact many_of_some (hread b List.mem_cons_self _ hrest)
      (ih fun b' hb' => hread b' (List.mem_cons_of_mem b hb'))

end Items

/-- A string is read up to its last quote. -/
theorem string?_escape (s : String) (rest : List Char) :
    string? (s.toList.flatMap escape ++ (['"'] ++ rest)) = some (s, rest) := by
  have hmany : many letter (s.toList.flatMap escape ++ (['"'] ++ rest)) =
      some (s.toList.map id, rest) :=
    many_flatMap escape id ['"'] (fun _ => True) rfl (fun c _ rest _ => letter_escape c rest)
      trivial (fun _ _ => trivial)
  unfold string?
  rw [hmany, List.map_id]
  show some (String.ofList s.toList, rest) = _
  rw [String.ofList_toList]

/-! ## §5. Numbers -/

theorem exists_digits (n : Nat) : ∃ c cs, Decimal.digits n = c :: cs ∧ c.isDigit = true := by
  obtain ⟨c, cs, hdigits⟩ := List.exists_cons_of_ne_nil (Decimal.digits_ne_nil n)
  exact ⟨c, cs, hdigits, Decimal.isDigit_of_mem_digits (hdigits ▸ List.mem_cons_self)⟩

/-- Only zero is written with a zero in front. -/
theorem head?_digits_ne {n : Nat} (h : 0 < n) : (Decimal.digits n).head? ≠ some '0' := by
  unfold Decimal.digits
  induction n using Nat.strongRecOn with
  | ind n ih =>
    by_cases hn : n < 10
    · have hall : ∀ k : Fin 10, 0 < k.1 → Nat.digitChar k.1 ≠ '0' := by decide
      rw [Nat.toDigits_of_lt_base hn, List.head?_cons]
      exact fun heq => hall ⟨n, hn⟩ h (Option.some.inj heq)
    · rw [Nat.toDigits_of_base_le (by decide) (Nat.le_of_not_lt hn),
        List.head?_append_of_ne_nil _ Nat.toDigits_ne_nil]
      exact ih (n / 10) (by omega) (by omega)

theorem magnitude?_digits (n : Nat) {rest : List Char} (hrest : EndsNumber rest) :
    magnitude? (Decimal.digits n ++ rest) = some ((n : Rat), rest) := by
  have hnumber := Location.number?_digits_append n fun c hc => (of_continuesNumber (hrest c hc)).1
  have hfraction : fraction? rest = some ([], rest) := by
    cases rest with
    | nil => rfl
    | cons c cs =>
      unfold fraction?
      split
      · next heq => exact absurd (List.cons.inj heq).1 (of_continuesNumber (hrest c rfl)).2.1
      · rfl
  have hexponent : exponent? rest = some (0, rest) := by
    cases rest with
    | nil => rfl
    | cons c cs =>
      have hc := (of_continuesNumber (hrest c rfl)).2.2
      simp only [exponent?, hc.1, hc.2, or_self, if_false]
  have hvalue : Rat.ofScientific (Decimal.value (Decimal.digits n ++ [])) false 0 = (n : Rat) := by
    rw [List.append_nil, Decimal.value_digits, Rat.ofScientific_false_def]
    simp
  -- the one check that a number has to pass
  have hzero : ¬ ((Decimal.digits n).head? = some '0' ∧ Decimal.digits n ≠ ['0']) := by
    rintro ⟨hhead, hne⟩
    cases n with
    | zero => exact hne rfl
    | succ n => exact head?_digits_ne n.succ_pos hhead
  unfold magnitude?
  simp only [hnumber, Option.bind_eq_bind, Option.bind_some, if_neg hzero, hfraction, hexponent]
  exact congrArg (fun q => some (q, rest)) hvalue

/-- Nothing but a number begins with a digit. -/
theorem bare?_of_isDigit {item : Reader Value} {c : Char} (h : c.isDigit = true) (cs : List Char) :
    bare? item (c :: cs) =
      (magnitude? (c :: cs)).map fun (n, rest) => (Value.number n, rest) := by
  have hne : ∀ c' : Char, c'.isDigit = false → c ≠ c' := by
    rintro c' hc' rfl
    rw [h] at hc'
    cases hc'
  unfold bare?
  split
  case h_7 =>
    unfold number?
    split
    · next heq => exact absurd (List.cons.inj heq).1 (hne '-' rfl)
    · rfl
  all_goals
    next heq => exact absurd (List.cons.inj heq).1 (hne _ rfl)

theorem bare?_digits (item : Reader Value) (n : Nat) {rest : List Char} (hrest : EndsNumber rest) :
    bare? item (Decimal.digits n ++ rest) = some (.number n, rest) := by
  have hmagnitude := magnitude?_digits n hrest
  obtain ⟨c, cs, hdigits, hc⟩ := exists_digits n
  rw [hdigits, List.cons_append] at hmagnitude ⊢
  rw [bare?_of_isDigit hc, hmagnitude]
  rfl

/-! ## §6. Lists -/

section Lists

variable {α β : Type} {item : Reader α} {close : Char}

/-- A bracket at the end of a list is no blank and no comma, and ends a number. -/
theorem of_isClose (h : close = ']' ∨ close = '\x7d') :
    isBlank close = false ∧ close ≠ ',' ∧ continuesNumber close = false := by
  rcases h with rfl | rfl <;> decide

include hblanks in
theorem further_close (h : isBlank close = false) (rest : List Char) :
    (further item close).read (blanks ++ [close] ++ rest) = some (none, rest) := by
  have hskip : skip (blanks ++ [close] ++ rest) = close :: rest := by
    rw [List.append_assoc, skip_append hblanks, List.singleton_append, skip_cons h]
  simp only [further, hskip, if_true]

theorem further_comma (h : close ≠ ',') {a : α} {cs rest : List Char}
    (hread : item.read cs = some (a, rest)) :
    (further item close).read (',' :: cs) = some (some a, rest) := by
  have hskip : skip (',' :: cs) = ',' :: cs := skip_cons rfl cs
  simp only [further, hskip, if_neg h.symm, if_true, hread, Option.map_some]

theorem list?_of_read {a : α} {as : List α} {cs rest rest' : List Char}
    (hfirst : (skip cs).head? ≠ some close) (hread : item.read cs = some (a, rest))
    (hmany : many (further item close) rest = some (as, rest')) :
    list? item close cs = some (a :: as, rest') := by
  unfold list?
  rw [if_neg hfirst, hread]
  simp only [Option.bind_eq_bind, Option.bind_some, hmany]

include hblanks in
/-- **Items that are read one by one are read as a list.** -/
theorem list?_flatMap (piece : β → List Char) (val : β → α) (rest : List Char) {b : β} {bs : List β}
    (hclose : close = ']' ∨ close = '\x7d')
    (hfirst : ∀ cs, (skip (piece b ++ cs)).head? ≠ some close)
    (hread : ∀ b' ∈ b :: bs, ∀ rest, EndsNumber rest →
      item.read (piece b' ++ rest) = some (val b', rest)) :
    list? item close
        (piece b ++ ((bs.flatMap fun b' => ',' :: piece b') ++ (blanks ++ [close] ++ rest))) =
      some ((b :: bs).map val, rest) := by
  obtain ⟨hblank, hcomma, hends⟩ := of_isClose hclose
  have hlast : EndsNumber (blanks ++ [close] ++ rest) := by
    rw [List.append_assoc]
    exact EndsNumber.append hblanks (endsNumber_cons hends rest)
  have hrest : EndsNumber ((bs.flatMap fun b' => ',' :: piece b') ++ (blanks ++ [close] ++ rest)) := by
    cases bs with
    | nil => exact hlast
    | cons b' bs => exact endsNumber_cons rfl _
  have hmany : many (further item close)
      ((bs.flatMap fun b' => ',' :: piece b') ++ (blanks ++ [close] ++ rest)) =
        some (bs.map val, rest) := by
    apply many_flatMap (fun b' => ',' :: piece b') val (blanks ++ [close]) EndsNumber
    · exact further_close hblanks hblank rest
    · intro b' hb' rest hrest
      exact further_comma hcomma (hread b' (List.mem_cons_of_mem b hb') rest hrest)
    · exact hlast
    · exact fun b' rest => endsNumber_cons rfl _
  exact list?_of_read (hfirst _) (hread b List.mem_cons_self _ hrest) hmany

end Lists

/-! ## §7. Values -/

/-- Blanks in front of a value do not matter. -/
theorem value_blanks (hblanks : ∀ c ∈ blanks, isBlank c = true) (depth : Nat) (cs : List Char) :
    (value depth).read (blanks ++ cs) = (value depth).read cs := by
  cases depth with
  | zero => rfl
  | succ depth =>
    show bare? _ (skip (blanks ++ cs)) = bare? _ (skip cs)
    rw [skip_append hblanks]

/-- An item with the blanks in front of it. -/
def itemText (level : Nat) (v : Json) : List Char :=
  newline level ++ write level v

/-- A member with the blanks in front of it. -/
def memberText (level : Nat) (m : String × Json) : List Char :=
  newline level ++ (quote m.1 ++ ([':', ' '] ++ write level m.2))

theorem writeItems_eq (level : Nat) (items : List Json) :
    writeItems level items = items.flatMap fun v => ',' :: itemText level v := by
  induction items with
  | nil => rfl
  | cons v items ih =>
    rw [writeItems, ih, List.flatMap_cons]
    rfl

theorem writeMembers_eq (level : Nat) (members : List (String × Json)) :
    writeMembers level members = members.flatMap fun m => ',' :: memberText level m := by
  induction members with
  | nil => rfl
  | cons m members ih =>
    rw [writeMembers, ih, List.flatMap_cons]
    simp only [memberText, List.cons_append, List.append_assoc]

theorem write_array_cons (level : Nat) (v : Json) (items : List Json) :
    write level (array (v :: items)) = '[' :: (itemText (level + 1) v ++
      ((items.flatMap fun v => ',' :: itemText (level + 1) v) ++ (newline level ++ [']']))) := by
  rw [write, writeItems_eq]
  simp only [itemText, List.cons_append, List.append_assoc]

theorem write_object_cons (level : Nat) (m : String × Json) (members : List (String × Json)) :
    write level (object (m :: members)) = '\x7b' :: (memberText (level + 1) m ++
      ((members.flatMap fun m => ',' :: memberText (level + 1) m) ++
        (newline level ++ ['\x7d']))) := by
  rw [write, writeMembers_eq]
  simp only [memberText, List.cons_append, List.append_assoc]

/-- The text of a value begins with neither a blank nor a bracket that closes. -/
theorem exists_write (level : Nat) (v : Json) :
    ∃ c cs, write level v = c :: cs ∧ isBlank c = false ∧ c ≠ ']' := by
  cases v with
  | null => exact ⟨_, _, rfl, rfl, by decide⟩
  | number n =>
    obtain ⟨c, cs, hdigits, hc⟩ := exists_digits n
    refine ⟨c, cs, hdigits, ?_, ?_⟩
    · by_contra hblank
      rw [(of_continuesNumber (continuesNumber_of_isBlank (Bool.not_eq_false _ ▸ hblank))).1] at hc
      cases hc
    · rintro rfl
      cases hc
  | string s => exact ⟨_, _, rfl, rfl, by decide⟩
  | array items =>
    cases items with
    | nil => exact ⟨_, _, rfl, rfl, by decide⟩
    | cons item items => exact ⟨_, _, rfl, rfl, by decide⟩
  | object members =>
    cases members with
    | nil => exact ⟨_, _, rfl, rfl, by decide⟩
    | cons m members => exact ⟨_, _, rfl, rfl, by decide⟩

/-- A member is its name, read as a string, and its value. -/
theorem member_read {item : Reader Value} {v : Value} {cs rest : List Char}
    (hblanks : ∀ c ∈ blanks, isBlank c = true) (name : String)
    (h : item.read (' ' :: cs) = some (v, rest)) :
    (member item).read (blanks ++ (quote name ++ ([':', ' '] ++ cs))) = some ((name, v), rest) := by
  have hquote : Location.after? ['"'] (skip (blanks ++ (quote name ++ ([':', ' '] ++ cs)))) =
      some (name.toList.flatMap escape ++ (['"'] ++ ([':', ' '] ++ cs))) := by
    rw [skip_append hblanks, ← List.append_assoc (name.toList.flatMap escape)]
    exact Location.after?_append ['"'] _
  have hcolon : Location.after? [':'] (skip ([':', ' '] ++ cs)) = some (' ' :: cs) :=
    Location.after?_append [':'] (' ' :: cs)
  simp only [member, hquote, string?_escape, hcolon, h, Option.bind_eq_bind, Option.bind_some]

section

variable {β : Type} {piece : β → List Char} {b b' : β} {bs : List β}

/-- A piece is no longer than the list that holds it. -/
theorem length_piece_le (h : b' ∈ b :: bs) (tail : List Char) :
    (piece b').length ≤
      (piece b ++ ((bs.flatMap fun b => ',' :: piece b) ++ tail)).length := by
  rcases List.mem_cons.1 h with rfl | h
  · rw [List.length_append]
    omega
  · obtain ⟨front, back, rfl⟩ := List.append_of_mem h
    simp only [List.flatMap_append, List.flatMap_cons, List.length_append, List.length_cons]
    omega

end

theorem length_write_le_itemText (level : Nat) (v : Json) :
    (write level v).length ≤ (itemText level v).length := by
  simp only [itemText, List.length_append]
  omega

theorem length_write_le_memberText (level : Nat) (m : String × Json) :
    (write level m.2).length ≤ (memberText level m).length := by
  simp only [memberText, List.length_append]
  omega

/-- The text of a value is read as that value, at whatever level it is written and
whatever follows.  The text is at least as long as the value is deep. -/
def IsRead (v : Json) : Prop :=
  ∀ level depth rest, (write level v).length ≤ depth + 1 → EndsNumber rest →
    bare? (value depth) (write level v ++ rest) = some (v.meaning, rest)

/-- A value that is read behind blanks takes one of the levels that may be read. -/
theorem IsRead.value {v : Json} (h : IsRead v) (hblanks : ∀ c ∈ blanks, isBlank c = true)
    {level depth : Nat} {rest : List Char} (hdepth : (write level v).length ≤ depth)
    (hrest : EndsNumber rest) :
    (value depth).read (blanks ++ (write level v ++ rest)) = some (v.meaning, rest) := by
  obtain ⟨c, cs, hwrite, hblank, -⟩ := exists_write level v
  rw [value_blanks hblanks]
  cases depth with
  | zero =>
    -- no text is that short
    rw [hwrite] at hdepth
    cases hdepth
  | succ depth =>
    have hbare := h level depth rest hdepth hrest
    show bare? (Json.value depth) (skip (write level v ++ rest)) = _
    rw [hwrite, List.cons_append] at hbare ⊢
    rw [skip_cons hblank]
    exact hbare

theorem bare?_quote (item : Reader Value) (s : String) (rest : List Char) :
    bare? item (quote s ++ rest) = some (.string s, rest) := by
  have hquote : quote s ++ rest = '"' :: (s.toList.flatMap escape ++ (['"'] ++ rest)) := by
    simp only [quote, List.cons_append, List.append_assoc]
  rw [hquote]
  show (string? _).map _ = _
  rw [string?_escape]
  rfl

theorem isRead_array {items : List Json} (h : ∀ v ∈ items, IsRead v) : IsRead (array items) := by
  intro level depth rest hdepth hrest
  rw [meaning]
  cases items with
  | nil => rfl
  | cons item items =>
    rw [write_array_cons] at hdepth ⊢
    -- the text of an item is shorter by a bracket, so one level less will do
    have hread : ∀ v ∈ item :: items, ∀ rest, EndsNumber rest →
        (value depth).read (itemText (level + 1) v ++ rest) = some (v.meaning, rest) := by
      intro v hv rest hrest
      have hlength := (length_write_le_itemText (level + 1) v).trans
        ((length_piece_le hv _).trans (Nat.le_of_succ_le_succ hdepth))
      rw [itemText, List.append_assoc]
      exact (h v hv).value (isBlank_newline (level + 1)) hlength hrest
    -- and the array is not taken for an empty one
    have hfirst : ∀ cs, (skip (itemText (level + 1) item ++ cs)).head? ≠ some ']' := by
      intro cs
      obtain ⟨c, cs', hwrite, hblank, hne⟩ := exists_write (level + 1) item
      rw [itemText, hwrite, List.append_assoc, skip_append (isBlank_newline (level + 1)),
        List.cons_append, skip_cons hblank]
      exact fun heq => hne (Option.some.inj heq)
    have hlist := list?_flatMap (isBlank_newline level) (itemText (level + 1)) meaning rest
      (.inl rfl) hfirst hread
    rw [List.cons_append, List.append_assoc, List.append_assoc]
    show (list? _ ']' _).map _ = _
    rw [hlist]
    rfl

theorem isRead_object {members : List (String × Json)} (h : ∀ m ∈ members, IsRead m.2) :
    IsRead (object members) := by
  intro level depth rest hdepth hrest
  rw [meaning]
  cases members with
  | nil => rfl
  | cons m members =>
    rw [write_object_cons] at hdepth ⊢
    have hspace : ∀ c ∈ [' '], isBlank c = true := by
      intro c hc
      rw [List.mem_singleton.1 hc]
      rfl
    have hread : ∀ m' ∈ m :: members, ∀ rest, EndsNumber rest →
        (member (value depth)).read (memberText (level + 1) m' ++ rest) =
          some ((m'.1, m'.2.meaning), rest) := by
      intro m' hm' rest hrest
      have hlength := (length_write_le_memberText (level + 1) m').trans
        ((length_piece_le hm' _).trans (Nat.le_of_succ_le_succ hdepth))
      rw [memberText, List.append_assoc, List.append_assoc, List.append_assoc]
      exact member_read (isBlank_newline (level + 1)) m'.1 ((h m' hm').value hspace hlength hrest)
    -- a member begins with the quote of its name
    have hfirst : ∀ cs, (skip (memberText (level + 1) m ++ cs)).head? ≠ some '\x7d' := by
      intro cs
      rw [memberText, List.append_assoc, skip_append (isBlank_newline (level + 1))]
      exact fun heq => absurd (Option.some.inj heq) (by decide)
    have hlist := list?_flatMap (isBlank_newline level) (memberText (level + 1))
      (fun m => (m.1, m.2.meaning)) rest (.inr rfl) hfirst hread
    rw [List.cons_append, List.append_assoc, List.append_assoc]
    show (list? _ '\x7d' _).map _ = _
    rw [hlist]
    rfl

/-- **Every value is read from its text.** -/
theorem isRead (v : Json) : IsRead v := by
  induction v using meaning.induct with
  | case1 =>
    intro level depth rest _ _
    rw [meaning]
    rfl
  | case2 n =>
    intro level depth rest _ hrest
    rw [meaning]
    exact bare?_digits _ n hrest
  | case3 s =>
    intro level depth rest _ _
    rw [meaning]
    exact bare?_quote _ s rest
  | case4 items ih => exact isRead_array ih
  | case5 members ih => exact isRead_object ih

/-! ## §8. Texts -/

theorem decode?_of_read {text : String} {v : Value}
    (h : (value text.toList.length).read text.toList = some (v, [])) : decode? text = some v := by
  unfold decode?
  rw [h]
  rfl

/-- **Decoding gives back what was written.** -/
theorem decode?_render (v : Json) : decode? v.render = some v.meaning := by
  have hnone : ∀ c ∈ ([] : List Char), isBlank c = true := nofun
  have hread := (isRead v).value hnone (Nat.le_refl (write 0 v).length) endsNumber_nil
  rw [List.append_nil, List.nil_append] at hread
  apply decode?_of_read
  rw [render, String.toList_ofList]
  exact hread

/-- An object with one string in it, written on one line. -/
theorem decode?_oneMember (name s : String) {text : String}
    (htext : text.toList = '\x7b' :: (quote name ++ ([':', ' '] ++ (quote s ++ ['\x7d'])))) :
    decode? text = some (.object [(name, .string s)]) := by
  have hnone : ∀ c ∈ ([] : List Char), isBlank c = true := nofun
  obtain ⟨depth, hdepth⟩ : ∃ depth, text.toList.length = depth + 2 := by
    refine ⟨text.toList.length - 2, ?_⟩
    rw [htext]
    simp only [List.length_cons, List.length_append]
    omega
  have hstring : (value (depth + 1)).read (' ' :: (quote s ++ ['\x7d'])) =
      some (.string s, ['\x7d']) :=
    bare?_quote (value depth) s ['\x7d']
  have hmember := member_read hnone name hstring
  have hclose : many (further (member (value (depth + 1))) '\x7d') ['\x7d'] = some ([], []) :=
    many_of_none (further_close hnone rfl [])
  have hfirst : (skip (quote name ++ ([':', ' '] ++ (quote s ++ ['\x7d'])))).head? ≠ some '\x7d' :=
    fun heq => absurd (Option.some.inj heq) (by decide)
  have hlist := list?_of_read hfirst hmember hclose
  apply decode?_of_read
  rw [hdepth, htext]
  show (list? (member (value (depth + 1))) '\x7d' _).map _ = _
  rw [hlist]
  rfl

end TemplateLint.Json
