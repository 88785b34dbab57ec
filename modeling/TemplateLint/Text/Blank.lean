/-
  TemplateLint.Text.Blank — blank characters and the words between them.

  The class is the `White_Space` property of Unicode, which holds more than
  the space, the tab and the line breaks of ASCII.
-/
namespace TemplateLint

/-- The code points with the property `White_Space`, as closed ranges. -/
def blankRanges : List (Nat × Nat) :=
  [(0x09, 0x0d), (0x20, 0x20), (0x85, 0x85), (0xa0, 0xa0), (0x1680, 0x1680),
    (0x2000, 0x200a), (0x2028, 0x2029), (0x202f, 0x202f), (0x205f, 0x205f),
    (0x3000, 0x3000)]

/-- Whether `c` has the property `White_Space`. -/
def isBlank (c : Char) : Bool :=
  blankRanges.any fun (low, high) => low ≤ c.toNat && c.toNat ≤ high

/-- `cs` without the blanks in front. -/
def trimLeft (cs : List Char) : List Char :=
  cs.dropWhile isBlank

/-- `cs` without the blanks at its end. -/
def trimRight (cs : List Char) : List Char :=
  (cs.reverse.dropWhile isBlank).reverse

/-- `cs` without the blanks on both sides. -/
def trim (cs : List Char) : List Char :=
  trimRight (trimLeft cs)

/-- The first word of `cs` and what follows it, trimmed.  A text without a
blank is one word with nothing after it. -/
def splitWord (cs : List Char) : List Char × List Char :=
  (cs.takeWhile (!isBlank ·), trim (cs.dropWhile (!isBlank ·)))

end TemplateLint
