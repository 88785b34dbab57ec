/-
  TemplateLint.Text.Position — rows and columns of a text.

  A place in a document is kept as a `Mark`: how many characters there are
  from it to the end.  Text put in front of a document therefore leaves its
  marks as they are; only the row and column read off a mark depend on what
  stands before it.  Rows and columns are counted without a limit; `narrow` is
  what is left of them in 32 bits.
-/
namespace TemplateLint

/-- A place in a document: the number of characters from it to the end. -/
abbrev Mark := Nat

/-- A place as people count it: row and column, both from 1. -/
structure Position where
  row : Nat
  column : Nat
  deriving DecidableEq, Repr

namespace Position

/-- The place right after `before`.  Only a line feed begins a new row, and
every other character takes one column. -/
def after (before : List Char) : Position where
  row := before.count '\n' + 1
  column := (before.reverse.takeWhile (· != '\n')).length + 1

/-- The place that `mark` stands for in `text`. -/
def ofMark (text : List Char) (mark : Mark) : Position :=
  after (text.take (text.length - mark))

/-- The place after the last character of `text`. -/
def endOf (text : List Char) : Position :=
  after text

/-- The first place of any text. -/
def start : Position := ⟨1, 1⟩

/-- The place with its row and its column cut to 32 bits. -/
def narrow (p : Position) : Position where
  row := p.row.toUInt32.toNat
  column := p.column.toUInt32.toNat

/-- Row and column are numbers of 32 bits. -/
def Fits (p : Position) : Prop :=
  p.row < UInt32.size ∧ p.column < UInt32.size

theorem narrow_of_fits {p : Position} (h : p.Fits) : p.narrow = p := by
  obtain ⟨hrow, hcolumn⟩ := h
  unfold narrow
  rw [Nat.toUInt32_eq, Nat.toUInt32_eq, UInt32.toNat_ofNat_of_lt' hrow,
    UInt32.toNat_ofNat_of_lt' hcolumn]

end Position

end TemplateLint
