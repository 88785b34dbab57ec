/-
  TemplateLint.Proofs.Text.Utf8 — decoding undoes encoding, and nothing else.

  A byte string is decoded to a text exactly if it is the encoding of that
  text (`decode?_eq_some_iff`).  One half follows the machine through the
  bytes of a character, lead byte first; the other half keeps track of the
  bytes that the sequence under way has taken.
-/
import TemplateLint.Text.Utf8

namespace TemplateLint.Utf8

/-! ## §1. Bytes by their numbers -/

theorem toNat_ofNat_of_lt {n : Nat} (h : n < 0x100) : (UInt8.ofNat n).toNat = n := by
  show n % 256 = n
  omega

theorem ofNat_eq {n : Nat} {b : UInt8} (h : n = b.toNat) : UInt8.ofNat n = b := by
  apply UInt8.toNat.inj
  rw [h, toNat_ofNat_of_lt b.toNat_lt]

namespace Pending

theorem accepts_iff {p : Pending} {b : UInt8} :
    p.accepts b = true ↔ p.low.toNat ≤ b.toNat ∧ b.toNat ≤ p.high.toNat := by
  simp only [accepts, Bool.and_eq_true, decide_eq_true_eq, UInt8.le_iff_toNat_le]

/-- What the lead byte `b` opens, in numbers: how many bytes are to come, with
which bits, and which second bytes go on with it. -/
structure Opened (b : UInt8) (p : Pending) : Prop where
  bits : (p.more = 0 ∧ p.bits = b.toNat - 0xc0 ∧ 0xc2 ≤ b.toNat ∧ b.toNat ≤ 0xdf) ∨
    (p.more = 1 ∧ p.bits = b.toNat - 0xe0 ∧ 0xe0 ≤ b.toNat ∧ b.toNat ≤ 0xef) ∨
    (p.more = 2 ∧ p.bits = b.toNat - 0xf0 ∧ 0xf0 ≤ b.toNat ∧ b.toNat ≤ 0xf4)
  accepts : ∀ x : UInt8, p.accepts x = true ↔ 0x80 ≤ x.toNat ∧ x.toNat ≤ 0xbf ∧
    (b.toNat = 0xe0 → 0xa0 ≤ x.toNat) ∧ (b.toNat = 0xed → x.toNat ≤ 0x9f) ∧
    (b.toNat = 0xf0 → 0x90 ≤ x.toNat) ∧ (b.toNat = 0xf4 → x.toNat ≤ 0x8f)

theorem opened_of_ofLead? {b : UInt8} {p : Pending} (h : ofLead? b = some p) : Opened b p := by
  unfold ofLead? at h
  simp only [UInt8.le_iff_toNat_le, ← UInt8.toNat_inj, UInt8.reduceToNat] at h
  repeat' split at h
  case isFalse => cases h
  -- one range of lead bytes after the other
  all_goals
    obtain rfl := Option.some.inj h
    refine ⟨by dsimp only; omega, fun x => ?_⟩
    rw [accepts_iff]
    simp only [UInt8.reduceToNat]
    omega

/-- Every lead byte opens something. -/
theorem exists_ofLead? {b : UInt8} (hlow : 0xc2 ≤ b.toNat) (hhigh : b.toNat ≤ 0xf4) :
    ∃ p, ofLead? b = some p := by
  unfold ofLead?
  simp only [UInt8.le_iff_toNat_le, ← UInt8.toNat_inj, UInt8.reduceToNat]
  repeat' split
  case isFalse => omega
  all_goals exact ⟨_, rfl⟩

end Pending

/-! ## §2. Steps of the machine -/

section Steps

variable {p : Pending} {b : UInt8}

theorem step_last (hmore : p.more = 0) (haccepts : p.accepts b = true) :
    step (some p) b = ([some (Char.ofNat (p.extend b))], none) := by
  simp only [step, if_pos haccepts, hmore]

theorem step_more {more : Nat} (hmore : p.more = more + 1) (haccepts : p.accepts b = true) :
    step (some p) b = ([], some { bits := p.extend b, more }) := by
  simp only [step, if_pos haccepts, hmore]

theorem step_lead (hascii : ¬ b < 0x80) (hlead : Pending.ofLead? b = some p) :
    step none b = ([], some p) := by
  simp only [step, begin, if_neg hascii, hlead]

theorem step_noLead (hascii : ¬ b < 0x80) (hlead : Pending.ofLead? b = none) :
    step none b = ([none], none) := by
  simp only [step, begin, if_neg hascii, hlead]

theorem step_refuses (haccepts : ¬ p.accepts b = true) :
    step (some p) b = (none :: (begin b).1, (begin b).2) := by
  simp only [step, if_neg haccepts]

theorem step_ascii (hascii : b < 0x80) : step none b = ([some (Char.ofNat b.toNat)], none) := by
  simp only [step, begin, if_pos hascii]

end Steps

/-! ## §3. Reading the bytes of a character -/

/-- The byte with the lowest six bits of `n`. -/
def lowByte (n : Nat) : UInt8 := UInt8.ofNat (n % 64 + 128)

theorem toNat_lowByte (n : Nat) : (lowByte n).toNat = n % 64 + 128 :=
  toNat_ofNat_of_lt (by omega)

theorem accepts_lowByte (bits more n : Nat) :
    ({ bits, more } : Pending).accepts (lowByte n) = true := by
  rw [Pending.accepts_iff, toNat_lowByte]
  show 128 ≤ _ ∧ _ ≤ 191
  omega

/-- The six bits of a byte go behind those read before. -/
theorem extend_lowByte {p : Pending} {n : Nat} (h : p.bits = n / 64) : p.extend (lowByte n) = n := by
  unfold Pending.extend
  rw [toNat_lowByte, h]
  omega

variable {p : Pending} {n : Nat} {bs : List UInt8}

/-- The last byte of a sequence. -/
theorem segmentsFrom_one (hmore : p.more = 0) (hbits : p.bits = n / 64)
    (haccepts : p.accepts (lowByte n) = true) :
    segmentsFrom (some p) (lowByte n :: bs) = some (Char.ofNat n) :: segmentsFrom none bs := by
  rw [segmentsFrom, step_last hmore haccepts, extend_lowByte hbits]
  rfl

/-- A byte with another one to come. -/
theorem segmentsFrom_more {more : Nat} (hmore : p.more = more + 1) (hbits : p.bits = n / 64)
    (haccepts : p.accepts (lowByte n) = true) :
    segmentsFrom (some p) (lowByte n :: bs) = segmentsFrom (some { bits := n, more }) bs := by
  rw [segmentsFrom, step_more hmore haccepts, extend_lowByte hbits]
  rfl

theorem segmentsFrom_two (hmore : p.more = 1) (hbits : p.bits = n / 64 / 64)
    (haccepts : p.accepts (lowByte (n / 64)) = true) :
    segmentsFrom (some p) (lowByte (n / 64) :: lowByte n :: bs)
      = some (Char.ofNat n) :: segmentsFrom none bs := by
  rw [segmentsFrom_more hmore hbits haccepts]
  exact segmentsFrom_one rfl rfl (accepts_lowByte _ _ n)

theorem segmentsFrom_three (hmore : p.more = 2) (hbits : p.bits = n / 64 / 64 / 64)
    (haccepts : p.accepts (lowByte (n / 64 / 64)) = true) :
    segmentsFrom (some p) (lowByte (n / 64 / 64) :: lowByte (n / 64) :: lowByte n :: bs)
      = some (Char.ofNat n) :: segmentsFrom none bs := by
  rw [segmentsFrom_more hmore hbits haccepts]
  exact segmentsFrom_two rfl rfl (accepts_lowByte _ _ _)

/-- A lead byte opens a sequence. -/
theorem segmentsFrom_lead (b : UInt8) (bs : List UInt8) (hlow : 0xc2 ≤ b.toNat)
    (hhigh : b.toNat ≤ 0xf4) :
    ∃ p, Pending.Opened b p ∧ segmentsFrom none (b :: bs) = segmentsFrom (some p) bs := by
  obtain ⟨p, hp⟩ := Pending.exists_ofLead? hlow hhigh
  refine ⟨p, Pending.opened_of_ofLead? hp, ?_⟩
  have hascii : ¬ b < 0x80 := by
    rw [UInt8.lt_iff_toNat_lt]
    show ¬ b.toNat < 128
    omega
  rw [segmentsFrom, step_lead hascii hp]
  rfl

/-- The numbers of characters leave out the surrogates and end at U+10FFFF. -/
theorem toNat_valid (c : Char) : c.val.toNat < 0xd800 ∨ (0xdfff < c.val.toNat ∧ c.val.toNat < 0x110000) :=
  c.valid

/-- The bytes of a character, the later ones by their six bits. -/
theorem utf8EncodeChar_cases (c : Char) :
    (c.val.toNat ≤ 0x7f ∧ String.utf8EncodeChar c = [UInt8.ofNat c.val.toNat]) ∨
    (0x80 ≤ c.val.toNat ∧ c.val.toNat ≤ 0x7ff ∧ String.utf8EncodeChar c
      = [UInt8.ofNat (c.val.toNat / 64 + 0xc0), lowByte c.val.toNat]) ∨
    (0x800 ≤ c.val.toNat ∧ c.val.toNat ≤ 0xffff ∧ String.utf8EncodeChar c
      = [UInt8.ofNat (c.val.toNat / 64 / 64 + 0xe0), lowByte (c.val.toNat / 64),
        lowByte c.val.toNat]) ∨
    (0x10000 ≤ c.val.toNat ∧ String.utf8EncodeChar c
      = [UInt8.ofNat (c.val.toNat / 64 / 64 / 64 + 0xf0), lowByte (c.val.toNat / 64 / 64),
        lowByte (c.val.toNat / 64), lowByte c.val.toNat]) := by
  have hvalid := toNat_valid c
  unfold String.utf8EncodeChar lowByte
  generalize c.val.toNat = v at *
  dsimp only
  split
  · next h => exact .inl ⟨h, rfl⟩
  · split
    · next h =>
      refine .inr (.inl ⟨by omega, h, ?_⟩)
      rw [show v / 64 % 32 = v / 64 by omega]
    · split
      · next h =>
        refine .inr (.inr (.inl ⟨by omega, h, ?_⟩))
        rw [show v / 4096 % 16 = v / 64 / 64 by omega]
      · refine .inr (.inr (.inr ⟨by omega, ?_⟩))
        rw [show v / 262144 % 8 = v / 64 / 64 / 64 by omega, show v / 4096 = v / 64 / 64 by omega]

/-- **A character is read from its bytes.** -/
theorem segmentsFrom_utf8EncodeChar (c : Char) (bs : List UInt8) :
    segmentsFrom none (String.utf8EncodeChar c ++ bs) = some c :: segmentsFrom none bs := by
  have hvalid := toNat_valid c
  have hc : Char.ofNat c.val.toNat = c := Char.ofNat_toNat c
  have hcases := utf8EncodeChar_cases c
  generalize c.val.toNat = v at *
  rcases hcases with ⟨hle, h⟩ | ⟨hge, hle, h⟩ | ⟨hge, hle, h⟩ | ⟨hge, h⟩
  · have hb : (UInt8.ofNat v).toNat = v := toNat_ofNat_of_lt (by omega)
    have hascii : UInt8.ofNat v < 0x80 := by
      rw [UInt8.lt_iff_toNat_lt, hb]
      show v < 128
      omega
    rw [h]
    show segmentsFrom none (_ :: bs) = _
    rw [segmentsFrom, step_ascii hascii, hb, hc]
    rfl
  · have hb : (UInt8.ofNat (v / 64 + 0xc0)).toNat = v / 64 + 0xc0 := toNat_ofNat_of_lt (by omega)
    obtain ⟨p, hopened, hlead⟩ := segmentsFrom_lead _ (lowByte v :: bs)
      (show 0xc2 ≤ (UInt8.ofNat (v / 64 + 0xc0)).toNat by omega) (by omega)
    have hbits := hopened.bits
    rw [h]
    refine hlead.trans ?_
    rw [segmentsFrom_one (by omega) (by omega), hc]
    rw [hopened.accepts, toNat_lowByte]
    omega
  · have hb : (UInt8.ofNat (v / 64 / 64 + 0xe0)).toNat = v / 64 / 64 + 0xe0 :=
      toNat_ofNat_of_lt (by omega)
    obtain ⟨p, hopened, hlead⟩ := segmentsFrom_lead _ (lowByte (v / 64) :: lowByte v :: bs)
      (show 0xc2 ≤ (UInt8.ofNat (v / 64 / 64 + 0xe0)).toNat by omega) (by omega)
    have hbits := hopened.bits
    rw [h]
    refine hlead.trans ?_
    rw [segmentsFrom_two (by omega) (by omega), hc]
    -- neither overlong nor a surrogate
    rw [hopened.accepts, toNat_lowByte]
    omega
  · have hb : (UInt8.ofNat (v / 64 / 64 / 64 + 0xf0)).toNat = v / 64 / 64 / 64 + 0xf0 :=
      toNat_ofNat_of_lt (by omega)
    obtain ⟨p, hopened, hlead⟩ :=
      segmentsFrom_lead _ (lowByte (v / 64 / 64) :: lowByte (v / 64) :: lowByte v :: bs)
        (show 0xc2 ≤ (UInt8.ofNat (v / 64 / 64 / 64 + 0xf0)).toNat by omega) (by omega)
    have hbits := hopened.bits
    rw [h]
    refine hlead.trans ?_
    rw [segmentsFrom_three (by omega) (by omega), hc]
    -- neither overlong nor above U+10FFFF
    rw [hopened.accepts, toNat_lowByte]
    omega

theorem segments_flatMap (cs : List Char) :
    segments (cs.flatMap String.utf8EncodeChar) = cs.map some := by
  unfold segments
  induction cs with
  | nil => rfl
  | cons c cs ih => rw [List.flatMap_cons, segmentsFrom_utf8EncodeChar, ih, List.map_cons]

/-! ## §4. The bytes that were taken -/

/-- The sequence under way has taken these bytes. -/
inductive Taken : List UInt8 → Pending → Prop
  | lead {b : UInt8} {p : Pending} (hlead : Pending.ofLead? b = some p) : Taken [b] p
  | next {taken : List UInt8} {p : Pending} {b : UInt8} {more : Nat} (h : Taken taken p)
      (hmore : p.more = more + 1) (haccepts : p.accepts b = true) :
      Taken (taken ++ [b]) { bits := p.extend b, more }

/-- No sequence has more than four bytes: three taken and the last one. -/
theorem Taken.length_add_more {taken : List UInt8} {p : Pending} (h : Taken taken p) :
    1 ≤ taken.length ∧ taken.length + p.more ≤ 3 := by
  induction h with
  | lead hlead =>
    have hbits := (Pending.opened_of_ofLead? hlead).bits
    simp only [List.length_singleton]
    omega
  | next h hmore haccepts ih =>
    simp only [List.length_append, List.length_singleton]
    omega

theorem toNat_ofNat {n : Nat} (h : n < 0xd800 ∨ (0xdfff < n ∧ n < 0x110000)) :
    (Char.ofNat n).val.toNat = n := by
  have hvalid : n.isValidChar := h
  unfold Char.ofNat
  rw [dif_pos hvalid]
  rfl

theorem lowByte_eq {n : Nat} {b : UInt8} (h : n % 64 + 128 = b.toNat) : lowByte n = b :=
  ofNat_eq h

/-- The character of two bytes. -/
theorem utf8EncodeChar_two {a b : UInt8} {n : Nat} (hn : n = (a.toNat - 0xc0) * 64 + (b.toNat - 0x80))
    (ha : 0xc2 ≤ a.toNat ∧ a.toNat ≤ 0xdf) (hb : 0x80 ≤ b.toNat ∧ b.toNat ≤ 0xbf) :
    String.utf8EncodeChar (Char.ofNat n) = [a, b] := by
  have hcases := utf8EncodeChar_cases (Char.ofNat n)
  rw [toNat_ofNat (by omega)] at hcases
  rcases hcases with ⟨hle, -⟩ | ⟨-, -, h⟩ | ⟨hge, -, -⟩ | ⟨hge, -⟩
  · omega
  · rw [h, ofNat_eq (b := a) (by omega), lowByte_eq (b := b) (by omega)]
  · omega
  · omega

/-- The character of three bytes, which are neither overlong nor a surrogate. -/
theorem utf8EncodeChar_three {a b c : UInt8} {n : Nat}
    (hn : n = ((a.toNat - 0xe0) * 64 + (b.toNat - 0x80)) * 64 + (c.toNat - 0x80))
    (ha : 0xe0 ≤ a.toNat ∧ a.toNat ≤ 0xef) (hb : 0x80 ≤ b.toNat ∧ b.toNat ≤ 0xbf)
    (hlow : a.toNat = 0xe0 → 0xa0 ≤ b.toNat) (hhigh : a.toNat = 0xed → b.toNat ≤ 0x9f)
    (hc : 0x80 ≤ c.toNat ∧ c.toNat ≤ 0xbf) :
    String.utf8EncodeChar (Char.ofNat n) = [a, b, c] := by
  have hcases := utf8EncodeChar_cases (Char.ofNat n)
  rw [toNat_ofNat (by omega)] at hcases
  rcases hcases with ⟨hle, -⟩ | ⟨-, hle, -⟩ | ⟨-, -, h⟩ | ⟨hge, -⟩
  · omega
  · omega
  · rw [h, ofNat_eq (b := a) (by omega), lowByte_eq (b := b) (by omega),
      lowByte_eq (b := c) (by omega)]
  · omega

/-- The character of four bytes, which are neither overlong nor above U+10FFFF. -/
theorem utf8EncodeChar_four {a b c d : UInt8} {n : Nat}
    (hn : n = (((a.toNat - 0xf0) * 64 + (b.toNat - 0x80)) * 64 + (c.toNat - 0x80)) * 64
      + (d.toNat - 0x80))
    (ha : 0xf0 ≤ a.toNat ∧ a.toNat ≤ 0xf4) (hb : 0x80 ≤ b.toNat ∧ b.toNat ≤ 0xbf)
    (hlow : a.toNat = 0xf0 → 0x90 ≤ b.toNat) (hhigh : a.toNat = 0xf4 → b.toNat ≤ 0x8f)
    (hc : 0x80 ≤ c.toNat ∧ c.toNat ≤ 0xbf) (hd : 0x80 ≤ d.toNat ∧ d.toNat ≤ 0xbf) :
    String.utf8EncodeChar (Char.ofNat n) = [a, b, c, d] := by
  have hcases := utf8EncodeChar_cases (Char.ofNat n)
  rw [toNat_ofNat (by omega)] at hcases
  rcases hcases with ⟨hle, -⟩ | ⟨-, hle, -⟩ | ⟨-, hle, -⟩ | ⟨-, h⟩
  · omega
  · omega
  · omega
  · rw [h, ofNat_eq (b := a) (by omega), lowByte_eq (b := b) (by omega),
      lowByte_eq (b := c) (by omega), lowByte_eq (b := d) (by omega)]

/-- After the second byte any continuation byte goes on. -/
theorem accepts_next {bits more : Nat} {b : UInt8}
    (h : ({ bits, more } : Pending).accepts b = true) : 0x80 ≤ b.toNat ∧ b.toNat ≤ 0xbf :=
  Pending.accepts_iff.1 h

/-- **The bytes of a sequence that is read to its end are those of the
character.** -/
theorem Taken.last {taken : List UInt8} {p : Pending} {z : UInt8} (h : Taken taken p)
    (hmore : p.more = 0) (haccepts : p.accepts z = true) :
    taken ++ [z] = String.utf8EncodeChar (Char.ofNat (p.extend z)) := by
  cases h with
  | @lead a p hlead =>
    have hopened := Pending.opened_of_ofLead? hlead
    have hbits := hopened.bits
    have hz := (hopened.accepts z).1 haccepts
    exact (utf8EncodeChar_two (by unfold Pending.extend; omega) (by omega) ⟨hz.1, hz.2.1⟩).symm
  | @next taken p y more h hmore' haccepts' =>
    have hz := accepts_next haccepts
    dsimp only at hmore
    cases h with
    | @lead a p hlead =>
      have hopened := Pending.opened_of_ofLead? hlead
      have hbits := hopened.bits
      have hy := (hopened.accepts y).1 haccepts'
      refine (utf8EncodeChar_three (a := a) (b := y) (c := z) ?_ ?_ ?_ ?_ ?_ hz).symm
      · unfold Pending.extend
        dsimp only
        omega
      all_goals omega
    | @next taken p x more h hmore'' haccepts'' =>
      have hy := accepts_next haccepts'
      dsimp only at hmore'
      cases h with
      | @lead a p hlead =>
        have hopened := Pending.opened_of_ofLead? hlead
        have hbits := hopened.bits
        have hx := (hopened.accepts x).1 haccepts''
        refine (utf8EncodeChar_four (a := a) (b := x) (c := y) (d := z) ?_ ?_ ?_ ?_ ?_ hy hz).symm
        · unfold Pending.extend
          dsimp only
          omega
        all_goals omega
      | @next taken p w more h hmore''' haccepts''' =>
        have hlength := h.length_add_more
        dsimp only at hmore''
        omega

/-- The bytes that a state of the machine stands for. -/
def Holds : Option Pending → List UInt8 → Prop
  | none, taken => taken = []
  | some p, taken => Taken taken p

theorem Taken.holds {taken : List UInt8} {p : Pending} (h : Taken taken p) : Holds (some p) taken :=
  h

theorem holds_none : Holds none [] :=
  rfl

theorem mapM_some_cons (c : Char) (segments : List (Option Char)) :
    (some c :: segments).mapM id = (segments.mapM id).map (c :: ·) := by
  rw [List.mapM_cons]
  cases segments.mapM id <;> rfl

theorem mapM_none_cons (segments : List (Option Char)) : (none :: segments).mapM id = none := by
  rw [List.mapM_cons]
  rfl

theorem utf8EncodeChar_ascii {b : UInt8} (h : b < 0x80) :
    String.utf8EncodeChar (Char.ofNat b.toNat) = [b] := by
  have hb : b.toNat < 128 := UInt8.lt_iff_toNat_lt.1 h
  have hcases := utf8EncodeChar_cases (Char.ofNat b.toNat)
  rw [toNat_ofNat (by omega)] at hcases
  rcases hcases with ⟨-, h⟩ | ⟨hge, -, -⟩ | ⟨hge, -, -⟩ | ⟨hge, -⟩
  · rw [h, ofNat_eq rfl]
  · omega
  · omega
  · omega

/-- **Bytes without an ill-formed piece encode what is read from them.** -/
theorem eq_flatMap_of_mapM {state : Option Pending} {bs taken : List UInt8} {cs : List Char}
    (hstate : Holds state taken) (h : (segmentsFrom state bs).mapM id = some cs) :
    taken ++ bs = cs.flatMap String.utf8EncodeChar := by
  -- byte by byte: a byte is taken, or completes a character, or is refused
  induction bs generalizing state taken cs with
  | nil =>
    cases state with
    | none =>
      obtain rfl : taken = [] := hstate
      cases h
      rfl
    | some p => cases h
  | cons b bs ih =>
    rw [segmentsFrom] at h
    cases state with
    | none =>
      obtain rfl : taken = [] := hstate
      by_cases hascii : b < 0x80
      · rw [step_ascii hascii, List.singleton_append, mapM_some_cons] at h
        obtain ⟨cs', hcs', rfl⟩ := Option.map_eq_some_iff.1 h
        rw [List.flatMap_cons, utf8EncodeChar_ascii hascii, ← ih holds_none hcs']
        rfl
      · cases hlead : Pending.ofLead? b with
        | none =>
          rw [step_noLead hascii hlead, List.singleton_append, mapM_none_cons] at h
          cases h
        | some p =>
          rw [step_lead hascii hlead, List.nil_append] at h
          exact ih (Taken.lead hlead).holds h
    | some p =>
      by_cases haccepts : p.accepts b = true
      · cases hmore : p.more with
        | zero =>
          rw [step_last hmore haccepts, List.singleton_append, mapM_some_cons] at h
          obtain ⟨cs', hcs', rfl⟩ := Option.map_eq_some_iff.1 h
          have hchar := Taken.last hstate hmore haccepts
          rw [List.flatMap_cons, ← hchar, ← ih holds_none hcs', List.append_assoc]
          rfl
        | succ more =>
          rw [step_more hmore haccepts, List.nil_append] at h
          have hrest := ih (Taken.next hstate hmore haccepts).holds h
          rw [← hrest, List.append_assoc]
          rfl
      · rw [step_refuses haccepts, List.cons_append, mapM_none_cons] at h
        cases h

/-! ## §5. Texts -/

theorem mapM_map_some (cs : List Char) : (cs.map some).mapM id = some cs := by
  induction cs with
  | nil => rfl
  | cons c cs ih => rw [List.map_cons, mapM_some_cons, ih, Option.map_some]

theorem decode?_encode (text : String) : decode? (encode text) = some text := by
  unfold decode? encode
  rw [segments_flatMap, mapM_map_some, Option.map_some, String.ofList_toList]

theorem encode_of_decode? {bytes : List UInt8} {text : String} (h : decode? bytes = some text) :
    encode text = bytes := by
  obtain ⟨cs, hcs, rfl⟩ := Option.map_eq_some_iff.1 h
  unfold encode
  rw [String.toList_ofList]
  exact (eq_flatMap_of_mapM holds_none hcs).symm

/-- **Decoding accepts the encodings of texts, and nothing else.** -/
theorem decode?_eq_some_iff {bytes : List UInt8} {text : String} :
    decode? bytes = some text ↔ encode text = bytes := by
  constructor
  · exact encode_of_decode?
  · rintro rfl
    exact decode?_encode text

end TemplateLint.Utf8
