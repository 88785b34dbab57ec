/-
  TemplateLint.Text.Utf8 — UTF-8, well-formed or not.

  `segments` cuts a byte string into characters and ill-formed pieces, each
  ill-formed piece being as long as it can be while it still begins some
  well-formed sequence (one byte if it begins none).  `decode?` accepts a
  byte string without ill-formed pieces; `lossy` shows each of them as
  U+FFFD.
-/
namespace TemplateLint.Utf8

/-! ## §1. Sequences under way -/

/-- A sequence whose lead byte has been read: the bits so far, how many
bytes are to come after the next one, and the range of the next one. -/
structure Pending where
  bits : Nat
  more : Nat
  low : UInt8 := 0x80
  high : UInt8 := 0xbf
  deriving DecidableEq, Repr

namespace Pending

/-- What a lead byte opens.  The ranges of the second byte leave out
overlong forms, surrogates and code points above U+10FFFF. -/
def ofLead? (b : UInt8) : Option Pending :=
  if 0xc2 ≤ b ∧ b ≤ 0xdf then some { bits := b.toNat - 0xc0, more := 0 }
  else if b = 0xe0 then some { bits := 0, more := 1, low := 0xa0 }
  else if b = 0xed then some { bits := 0xd, more := 1, high := 0x9f }
  else if 0xe1 ≤ b ∧ b ≤ 0xef then some { bits := b.toNat - 0xe0, more := 1 }
  else if b = 0xf0 then some { bits := 0, more := 2, low := 0x90 }
  else if 0xf1 ≤ b ∧ b ≤ 0xf3 then some { bits := b.toNat - 0xf0, more := 2 }
  else if b = 0xf4 then some { bits := 4, more := 2, high := 0x8f }
  else none

/-- Whether `b` continues the sequence. -/
def accepts (p : Pending) (b : UInt8) : Bool :=
  p.low ≤ b && b ≤ p.high

/-- The bits with those of the continuation byte `b`. -/
def extend (p : Pending) (b : UInt8) : Nat :=
  p.bits * 64 + (b.toNat - 0x80)

end Pending

/-! ## §2. Segments -/

/-- What a byte does when no sequence is under way. -/
def begin (b : UInt8) : List (Option Char) × Option Pending :=
  if b < 0x80 then
    ([some (Char.ofNat b.toNat)], none)
  else
    match Pending.ofLead? b with
    | some p => ([], some p)
    | none => ([none], none)

/-- What a byte adds to the segments, and the sequence under way after it. -/
def step : Option Pending → UInt8 → List (Option Char) × Option Pending
  | none, b => begin b
  | some p, b =>
    if p.accepts b then
      match p.more with
      | 0 => ([some (Char.ofNat (p.extend b))], none)
      | more + 1 => ([], some { bits := p.extend b, more })
    else
      (none :: (begin b).1, (begin b).2)

/-- The segments of the given bytes after the sequence under way. -/
def segmentsFrom : Option Pending → List UInt8 → List (Option Char)
  | none, [] => []
  | some _, [] => [none]
  | state, b :: bs => (step state b).1 ++ segmentsFrom (step state b).2 bs

/-- The characters of a byte string in order, `none` for each ill-formed
piece. -/
def segments (bytes : List UInt8) : List (Option Char) :=
  segmentsFrom none bytes

/-! ## §3. Decoding and encoding -/

/-- The text that the bytes encode, if they are well-formed. -/
def decode? (bytes : List UInt8) : Option String :=
  ((segments bytes).mapM id).map String.ofList

/-- The text of the bytes with U+FFFD for each ill-formed piece. -/
def lossy (bytes : List UInt8) : String :=
  String.ofList ((segments bytes).map (·.getD '\ufffd'))

/-- The bytes that encode `text`. -/
def encode (text : String) : List UInt8 :=
  text.toList.flatMap String.utf8EncodeChar

/-- The first byte of the encoding of `c`, shown as the character with that
number. -/
def leadByte (c : Char) : Char :=
  match String.utf8EncodeChar c with
  | b :: _ => Char.ofNat b.toNat
  | [] => c

end TemplateLint.Utf8
