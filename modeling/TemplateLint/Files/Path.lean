/-
  TemplateLint.Files.Path — paths of files.

  A path is any byte string.  It is shown with U+FFFD in place of what is
  not UTF-8.
-/
import TemplateLint.Text.Utf8

namespace TemplateLint

/-- A path of a file. -/
structure Path where
  bytes : List UInt8
  deriving DecidableEq, Repr

/-- The byte `/`, which separates the names in a path. -/
def slash : UInt8 := 0x2f

/-- The byte `.`. -/
def dot : UInt8 := 0x2e

namespace Path

/-- The path that `text` spells. -/
def ofString (text : String) : Path := ⟨Utf8.encode text⟩

/-- The path as it is shown. -/
def display (p : Path) : String := Utf8.lossy p.bytes

/-- The text of a path that is UTF-8. -/
def text? (p : Path) : Option String := Utf8.decode? p.bytes

/-- The path of what has the name `name` in the directory `p`. -/
def join (p : Path) (name : List UInt8) : Path :=
  if p.bytes.isEmpty || p.bytes.getLast? == some slash then ⟨p.bytes ++ name⟩
  else ⟨p.bytes ++ slash :: name⟩

end Path

end TemplateLint
