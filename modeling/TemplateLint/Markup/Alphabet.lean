/-
  TemplateLint.Markup.Alphabet — the character classes of XML.
-/
namespace TemplateLint

/-- White space between the parts of a tag or a declaration. -/
def isSpace (c : Char) : Bool :=
  c == ' ' || c == '\t' || c == '\n' || c == '\r'

/-- Characters that may stand in a document: no control characters but tab
and line ends, and neither U+FFFE nor U+FFFF. -/
def isXmlChar (c : Char) : Bool :=
  if c.toNat < 0x20 then isSpace c else c.toNat != 0xfffe && c.toNat != 0xffff

/-- The code points above ASCII that may begin a name, as closed ranges. -/
def nameStartRanges : List (Nat × Nat) :=
  [(0xc0, 0xd6), (0xd8, 0xf6), (0xf8, 0x2ff), (0x370, 0x37d), (0x37f, 0x1fff),
    (0x200c, 0x200d), (0x2070, 0x218f), (0x2c00, 0x2fef), (0x3001, 0xd7ff),
    (0xf900, 0xfdcf), (0xfdf0, 0xfffd), (0x10000, 0xeffff)]

/-- The code points above ASCII that may stand in a name but not begin it. -/
def nameInnerRanges : List (Nat × Nat) :=
  [(0xb7, 0xb7), (0x300, 0x36f), (0x203f, 0x2040)]

/-- Whether `c` lies in one of the ranges. -/
def inRanges (ranges : List (Nat × Nat)) (c : Char) : Bool :=
  ranges.any fun (low, high) => low ≤ c.toNat && c.toNat ≤ high

/-- Characters that may begin a name. -/
def isNameStart (c : Char) : Bool :=
  c.isAlpha || c == ':' || c == '_' || inRanges nameStartRanges c

/-- Characters that may stand in a name. -/
def isNameChar (c : Char) : Bool :=
  isNameStart c || c.isDigit || c == '-' || c == '.' || inRanges nameInnerRanges c

end TemplateLint
