/-
  TemplateLint.Proofs.Json.Decoder — what a JSON text says.

  A decoder for the whole of JSON, as its standard has it and strictly: blanks are
  allowed around every token, strings may use every escape and hold no raw
  control character, numbers may have a sign, a fraction and an exponent but no
  zero in front, and are taken as exact rationals.  The members of an object
  keep their order, repeated ones included.  An escaped surrogate that is not
  half of a pair stands for no character and is refused.

  A `Reader` takes a value off the front of a text and always takes something,
  which is why reading one item after the other comes to an end.  Arrays and
  objects are read to a given depth; the length of the text is deep enough.
-/
import TemplateLint.Markup.Reference
import TemplateLint.Template.Location
import TemplateLint.Text.Decimal

namespace TemplateLint.Json

/-! ## §1. Values -/

/-- A JSON value of any kind. -/
inductive Value where
  | null
  | bool (b : Bool)
  | number (n : Rat)
  | string (s : String)
  | array (items : List Value)
  | object (members : List (String × Value))

/-- A step from a value to one inside it. -/
inductive Step where
  /-- The member of an object with this name. -/
  | member (name : String)
  /-- The item of an array with this number, from zero. -/
  | item (index : Nat)

namespace Value

/-- The value one step inside; a member has to be the only one of its name. -/
def step? : Value → Step → Option Value
  | object members, .member name =>
    match members.filter (·.1 = name) with
    | [(_, value)] => some value
    | _ => none
  | array items, .item index => items[index]?
  | _, _ => none

/-- The value at the end of a path. -/
def at? (v : Value) (path : List Step) : Option Value :=
  path.foldlM step? v

end Value

/-! ## §2. Readers -/

/-- A reader takes a value off the front of a text, if it can. -/
structure Reader (α : Type) where
  read : List Char → Option (α × List Char)
  /-- What is left is shorter than the text. -/
  shrinks : ∀ {cs a rest}, read cs = some (a, rest) → rest.length < cs.length

variable {α : Type}

/-- Values up to the first mark of their end, for which the reader gives none. -/
def many (r : Reader (Option α)) (cs : List Char) : Option (List α × List Char) :=
  match _h : r.read cs with
  | none => none
  | some (none, rest) => some ([], rest)
  | some (some a, rest) => (many r rest).map fun (as, rest) => (a :: as, rest)
termination_by cs.length
decreasing_by exact r.shrinks _h

theorem many_shrinks {r : Reader (Option α)} {cs rest : List Char} {as : List α}
    (h : many r cs = some (as, rest)) : rest.length < cs.length := by
  fun_induction many r cs generalizing as with
  | case1 => cases h
  | case2 cs rest' hread =>
    cases h
    exact r.shrinks hread
  | case3 cs a rest' hread ih =>
    obtain ⟨⟨as', rest''⟩, hmany, heq⟩ := Option.map_eq_some_iff.1 h
    cases heq
    exact Nat.lt_trans (ih hmany) (r.shrinks hread)

/-- Whether a character may stand between tokens. -/
def isBlank (c : Char) : Bool :=
  c = ' ' || c = '\t' || c = '\n' || c = '\r'

/-- The text behind the blanks in front. -/
def skip (cs : List Char) : List Char :=
  cs.dropWhile isBlank

theorem skip_length (cs : List Char) : (skip cs).length ≤ cs.length :=
  (List.dropWhile_suffix isBlank).length_le

/-! ## §3. Strings -/

/-- The number that four digits of base 16 denote. -/
def unit? : List Char → Option (Nat × List Char)
  | a :: b :: c :: d :: rest => (Reference.number? 16 [a, b, c, d]).map (·, rest)
  | _ => none

/-- The character of the number `high`, or of a pair of surrogates that begins
with it. -/
def ofUnit? (high : Nat) (cs : List Char) : Option (Char × List Char) :=
  if 0xd800 ≤ high ∧ high ≤ 0xdbff then do
    let rest ← Location.after? ['\\', 'u'] cs
    let (low, rest) ← unit? rest
    if 0xdc00 ≤ low ∧ low ≤ 0xdfff then
      some (Char.ofNat (0x10000 + (high - 0xd800) * 0x400 + (low - 0xdc00)), rest)
    else
      none
  else if high.isValidChar then
    some (Char.ofNat high, cs)
  else
    none

/-- The character that an escape stands for, behind its backslash. -/
def escaped? : List Char → Option (Char × List Char)
  | '"' :: rest => some ('"', rest)
  | '\\' :: rest => some ('\\', rest)
  | '/' :: rest => some ('/', rest)
  | 'b' :: rest => some ('\x08', rest)
  | 'f' :: rest => some ('\x0c', rest)
  | 'n' :: rest => some ('\n', rest)
  | 'r' :: rest => some ('\r', rest)
  | 't' :: rest => some ('\t', rest)
  | 'u' :: rest => (unit? rest).bind fun (high, rest) => ofUnit? high rest
  | _ => none

theorem unit?_length {cs rest : List Char} {n : Nat} (h : unit? cs = some (n, rest)) :
    rest.length ≤ cs.length := by
  unfold unit? at h
  split at h
  · obtain ⟨n', -, heq⟩ := Option.map_eq_some_iff.1 h
    cases heq
    simp only [List.length_cons]
    omega
  · cases h

theorem ofUnit?_length {high : Nat} {cs rest : List Char} {c : Char}
    (h : ofUnit? high cs = some (c, rest)) : rest.length ≤ cs.length := by
  unfold ofUnit? at h
  split at h
  · obtain ⟨rest₁, hafter, h⟩ := Option.bind_eq_some_iff.1 h
    obtain ⟨⟨low, rest₂⟩, hunit, h⟩ := Option.bind_eq_some_iff.1 h
    have hlength := Nat.le_trans (unit?_length hunit) (Location.after?_length hafter)
    dsimp only at h
    split at h
    · rw [← (Prod.mk.inj (Option.some.inj h)).2]
      exact hlength
    · cases h
  · split at h
    · cases h
      exact Nat.le_refl _
    · cases h

theorem escaped?_shrinks {cs rest : List Char} {c : Char} (h : escaped? cs = some (c, rest)) :
    rest.length < cs.length := by
  unfold escaped? at h
  split at h
  case h_9 =>
    obtain ⟨⟨high, rest'⟩, hunit, h⟩ := Option.bind_eq_some_iff.1 h
    have hlength := Nat.le_trans (ofUnit?_length h) (unit?_length hunit)
    simp only [List.length_cons]
    omega
  case h_10 => cases h
  all_goals
    cases h
    simp

/-- A character of a string, none for the quote at its end.  Control
characters have to be escaped. -/
def letter : Reader (Option Char) where
  read
    | '"' :: rest => some (none, rest)
    | '\\' :: rest => (escaped? rest).map fun (c, rest) => (some c, rest)
    | c :: rest => if c.toNat < 0x20 then none else some (some c, rest)
    | [] => none
  shrinks := by
    intro cs a rest h
    split at h
    · cases h
      simp
    · obtain ⟨⟨c, rest'⟩, hescaped, heq⟩ := Option.map_eq_some_iff.1 h
      cases heq
      have hlength := escaped?_shrinks hescaped
      simp only [List.length_cons]
      omega
    · split at h
      · cases h
      · cases h
        simp
    · cases h

/-- A string, behind its first quote. -/
def string? (cs : List Char) : Option (String × List Char) :=
  (many letter cs).map fun (letters, rest) => (String.ofList letters, rest)

theorem string?_shrinks {cs rest : List Char} {s : String} (h : string? cs = some (s, rest)) :
    rest.length < cs.length := by
  obtain ⟨⟨letters, rest'⟩, hmany, heq⟩ := Option.map_eq_some_iff.1 h
  cases heq
  exact many_shrinks hmany

/-! ## §4. Numbers -/

/-- The digits behind a point, if there is one. -/
def fraction? : List Char → Option (List Char × List Char)
  | '.' :: cs => Location.number? cs
  | cs => some ([], cs)

/-- The exponent, if there is one; it may have a sign. -/
def exponent? : List Char → Option (Int × List Char)
  | [] => some (0, [])
  | c :: cs =>
    if c = 'e' ∨ c = 'E' then
      match cs with
      | '-' :: cs => (Location.number? cs).map fun (ds, rest) => (-(Decimal.value ds : Int), rest)
      | '+' :: cs => (Location.number? cs).map fun (ds, rest) => ((Decimal.value ds : Int), rest)
      | cs => (Location.number? cs).map fun (ds, rest) => ((Decimal.value ds : Int), rest)
    else
      some (0, c :: cs)

/-- A number without its sign.  Only zero itself begins with a zero. -/
def magnitude? (cs : List Char) : Option (Rat × List Char) := do
  let (whole, rest) ← Location.number? cs
  if whole.head? = some '0' ∧ whole ≠ ['0'] then
    none
  else
    let (part, rest) ← fraction? rest
    let (exponent, rest) ← exponent? rest
    let scale := exponent - part.length
    some (.ofScientific (Decimal.value (whole ++ part)) (scale < 0) scale.natAbs, rest)

/-- A number. -/
def number? : List Char → Option (Rat × List Char)
  | '-' :: cs => (magnitude? cs).map fun (n, rest) => (-n, rest)
  | cs => magnitude? cs

theorem fraction?_length {cs part rest : List Char} (h : fraction? cs = some (part, rest)) :
    rest.length ≤ cs.length := by
  unfold fraction? at h
  split at h
  · have hlength := Location.number?_length h
    simp only [List.length_cons]
    omega
  · cases h
    exact Nat.le_refl _

theorem exponent?_length {cs rest : List Char} {e : Int} (h : exponent? cs = some (e, rest)) :
    rest.length ≤ cs.length := by
  unfold exponent? at h
  split at h
  · cases h
    exact Nat.le_refl _
  · split at h
    · split at h
      all_goals
        obtain ⟨⟨ds, rest'⟩, hnumber, heq⟩ := Option.map_eq_some_iff.1 h
        cases heq
        have hlength := Location.number?_length hnumber
        simp only [List.length_cons]
        omega
    · cases h
      exact Nat.le_refl _

theorem magnitude?_shrinks {cs rest : List Char} {n : Rat} (h : magnitude? cs = some (n, rest)) :
    rest.length < cs.length := by
  obtain ⟨⟨whole, rest₁⟩, hwhole, h⟩ := Option.bind_eq_some_iff.1 h
  dsimp only at h
  split at h
  · cases h
  · obtain ⟨⟨part, rest₂⟩, hpart, h⟩ := Option.bind_eq_some_iff.1 h
    obtain ⟨⟨exponent, rest₃⟩, hexponent, h⟩ := Option.bind_eq_some_iff.1 h
    cases h
    have hrest := Nat.le_trans (exponent?_length hexponent) (fraction?_length hpart)
    exact Nat.lt_of_le_of_lt hrest (Location.number?_length hwhole)

theorem number?_shrinks {cs rest : List Char} {n : Rat} (h : number? cs = some (n, rest)) :
    rest.length < cs.length := by
  unfold number? at h
  split at h
  · obtain ⟨⟨m, rest'⟩, hmagnitude, heq⟩ := Option.map_eq_some_iff.1 h
    cases heq
    have hlength := magnitude?_shrinks hmagnitude
    simp only [List.length_cons]
    omega
  · exact magnitude?_shrinks h

/-! ## §5. Lists -/

/-- An item behind a comma, none for the bracket at the end. -/
def further (item : Reader α) (close : Char) : Reader (Option α) where
  read cs :=
    match skip cs with
    | [] => none
    | c :: rest =>
      if c = close then some (none, rest)
      else if c = ',' then (item.read rest).map fun (a, rest) => (some a, rest)
      else none
  shrinks := by
    intro cs a rest h
    have hskip := skip_length cs
    split at h
    · cases h
    · next c tail heq =>
      rw [heq, List.length_cons] at hskip
      split at h
      · cases h
        omega
      · split at h
        · obtain ⟨⟨a', rest'⟩, hread, heq⟩ := Option.map_eq_some_iff.1 h
          cases heq
          have hlength := item.shrinks hread
          omega
        · cases h

/-- The items of a list, behind its first bracket. -/
def list? (item : Reader α) (close : Char) (cs : List Char) : Option (List α × List Char) :=
  if (skip cs).head? = some close then
    some ([], (skip cs).tail)
  else do
    let (a, rest) ← item.read cs
    let (as, rest) ← many (further item close) rest
    some (a :: as, rest)

theorem list?_length {item : Reader α} {close : Char} {cs rest : List Char} {as : List α}
    (h : list? item close cs = some (as, rest)) : rest.length ≤ cs.length := by
  unfold list? at h
  split at h
  · cases h
    have hskip := skip_length cs
    rw [List.length_tail]
    omega
  · obtain ⟨⟨a, rest₁⟩, hread, h⟩ := Option.bind_eq_some_iff.1 h
    obtain ⟨⟨as', rest₂⟩, hmany, h⟩ := Option.bind_eq_some_iff.1 h
    cases h
    exact Nat.le_of_lt (Nat.lt_trans (many_shrinks hmany) (item.shrinks hread))

/-- A member of an object: its name, a colon and its value. -/
def member (value : Reader Value) : Reader (String × Value) where
  read cs := do
    let rest ← Location.after? ['"'] (skip cs)
    let (name, rest) ← string? rest
    let rest ← Location.after? [':'] (skip rest)
    let (v, rest) ← value.read rest
    some ((name, v), rest)
  shrinks := by
    intro cs a rest h
    obtain ⟨rest₁, hquote, h⟩ := Option.bind_eq_some_iff.1 h
    obtain ⟨⟨name, rest₂⟩, hname, h⟩ := Option.bind_eq_some_iff.1 h
    obtain ⟨rest₃, hcolon, h⟩ := Option.bind_eq_some_iff.1 h
    obtain ⟨⟨v, rest₄⟩, hvalue, h⟩ := Option.bind_eq_some_iff.1 h
    cases h
    calc rest.length
      _ < rest₃.length := value.shrinks hvalue
      _ ≤ rest₂.length := Nat.le_trans (Location.after?_length hcolon) (skip_length rest₂)
      _ ≤ rest₁.length := Nat.le_of_lt (string?_shrinks hname)
      _ ≤ cs.length := Nat.le_trans (Location.after?_length hquote) (skip_length cs)

/-! ## §6. Texts -/

/-- A value without blanks in front, whose items `item` reads. -/
def bare? (item : Reader Value) : List Char → Option (Value × List Char)
  | '"' :: cs => (string? cs).map fun (s, rest) => (.string s, rest)
  | '[' :: cs => (list? item ']' cs).map fun (items, rest) => (.array items, rest)
  | '\x7b' :: cs =>
    (list? (member item) '\x7d' cs).map fun (members, rest) => (.object members, rest)
  | 'n' :: 'u' :: 'l' :: 'l' :: rest => some (.null, rest)
  | 't' :: 'r' :: 'u' :: 'e' :: rest => some (.bool true, rest)
  | 'f' :: 'a' :: 'l' :: 's' :: 'e' :: rest => some (.bool false, rest)
  | cs => (number? cs).map fun (n, rest) => (.number n, rest)

theorem bare?_shrinks {item : Reader Value} {cs rest : List Char} {v : Value}
    (h : bare? item cs = some (v, rest)) : rest.length < cs.length := by
  unfold bare? at h
  split at h
  case h_1 =>
    obtain ⟨⟨s, rest'⟩, hstring, heq⟩ := Option.map_eq_some_iff.1 h
    cases heq
    exact Nat.lt_succ_of_lt (string?_shrinks hstring)
  case h_2 =>
    obtain ⟨⟨items, rest'⟩, hlist, heq⟩ := Option.map_eq_some_iff.1 h
    cases heq
    exact Nat.lt_succ_of_le (list?_length hlist)
  case h_3 =>
    obtain ⟨⟨members, rest'⟩, hlist, heq⟩ := Option.map_eq_some_iff.1 h
    cases heq
    exact Nat.lt_succ_of_le (list?_length hlist)
  case h_7 =>
    obtain ⟨⟨n, rest'⟩, hnumber, heq⟩ := Option.map_eq_some_iff.1 h
    cases heq
    exact number?_shrinks hnumber
  all_goals
    cases h
    simp only [List.length_cons]
    omega

/-- A value of at most `depth` levels. -/
def value : Nat → Reader Value
  | 0 => ⟨fun _ => none, nofun⟩
  | depth + 1 =>
    ⟨fun cs => bare? (value depth) (skip cs),
      fun h => Nat.lt_of_lt_of_le (bare?_shrinks h) (skip_length _)⟩

/-- The value that a text says: there is nothing but blanks around it. -/
def decode? (text : String) : Option Value := do
  let (v, rest) ← (value text.toList.length).read text.toList
  if (skip rest).isEmpty then some v else none

example : (decode? " [-2.50e+1, \"\\u00e9\\ud83d\\ude00\", \x7b\"a\" : [ ]\x7d] ").isSome = true := by
  decide +kernel

-- a zero in front, a comma at the end, half a pair, a raw line break
example : ∀ text ∈ ["01", "[1,]", "\"\\ud83d\"", "\"\n\""], (decode? text).isNone = true := by
  decide +kernel

end TemplateLint.Json
