/-
  TemplateLint.Files.Search — the templates below a directory.

  A template is a regular file with one of four extensions.  Links are
  neither followed nor taken, and directories of build output, of
  dependencies and hidden ones are left out.  The order is that of the
  names on the way, byte by byte.
-/
import TemplateLint.Files.Entry

namespace TemplateLint

/-! ## §1. Names -/

namespace Name

/-- What follows the last dot of a name, unless that dot is its first byte. -/
def extension? (name : Name) : Option (List UInt8) :=
  let ending := name.reverse.takeWhile (· != dot)
  if ending.length + 1 < name.length then some ending.reverse else none

/-- The extensions of templates. -/
def templateEndings : List (List UInt8) :=
  ["pt", "cpt", "zpt", "html"].map Utf8.encode

/-- Whether a file of this name is taken for a template. -/
def isTemplate (name : Name) : Bool :=
  (extension? name).any templateEndings.contains

/-- The names of directories that are left out. -/
def skippedDirectories : List String :=
  ["node_modules", "target", "dist", "build", "_build", "vendor", "coverage"]

/-- Whether a directory of this name is left out.  A name that is no UTF-8
never is. -/
def isSkipped (name : Name) : Bool :=
  (Utf8.decode? name).any fun text =>
    skippedDirectories.contains text || text.toList.head? == some '.'

end Name

/-! ## §2. Trees -/

namespace Entry

mutual

/-- The regular files that an entry of this name is or holds, each by the
names that lead to it.  Nothing is found in directories that are left out. -/
def filesAs (name : Name) : Entry → List (List Name)
  | file _ => [[name]]
  | link _ => []
  | directory entries =>
    if Name.isSkipped name then [] else (filesIn entries).map (name :: ·)

/-- The regular files that the entries are or hold. -/
def filesIn : List (Name × Entry) → List (List Name)
  | [] => []
  | (name, entry) :: entries => filesAs name entry ++ filesIn entries

end

/-- The regular files below a directory, whatever its own name is. -/
def files : Entry → List (List Name)
  | directory entries => filesIn entries
  | _ => []

/-- The templates below a directory, in order. -/
def templates (e : Entry) : List (List Name) :=
  (e.files.filter (·.getLast?.any Name.isTemplate)).mergeSort fun a b => decide (a ≤ b)

end Entry

end TemplateLint
