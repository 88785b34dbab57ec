/-
  TemplateLint.Files.Entry — files, links and directories.

  A tree of entries is a file system at rest.  Directories list their
  entries by name in any order; a name counts where it stands first.
-/
import TemplateLint.Files.Path

namespace TemplateLint

/-- The name of an entry in its directory. -/
abbrev Name := List UInt8

/-- What a name can stand for. -/
inductive Entry where
  | file (content : List UInt8)
  | link (target : Path)
  | directory (entries : List (Name × Entry))

namespace Entry

/-- A directory without entries. -/
def empty : Entry := directory []

/-- Whether the entry is a directory. -/
def isDirectory : Entry → Bool
  | directory _ => true
  | _ => false

/-- The entry with this name in a list. -/
def find? (name : Name) (entries : List (Name × Entry)) : Option Entry :=
  (entries.find? (·.1 = name)).map (·.2)

/-- The entry that is reached by going down the names. -/
def at? (e : Entry) : List Name → Option Entry
  | [] => some e
  | name :: names =>
    match e with
    | directory entries => (find? name entries).bind (at? · names)
    | _ => none

/-- The list with `e` under the name. -/
def put (name : Name) (e : Entry) : List (Name × Entry) → List (Name × Entry)
  | [] => [(name, e)]
  | (n, old) :: entries => if n = name then (name, e) :: entries else (n, old) :: put name e entries

/-- The list without the name. -/
def erase (name : Name) (entries : List (Name × Entry)) : List (Name × Entry) :=
  entries.filter (·.1 ≠ name)

/-- The tree with `e` at the end of the names; directories that are missing
on the way are made. -/
def insertAt (e : Entry) : List Name → Entry → Entry
  | [], _ => e
  | name :: names, directory entries =>
    directory (put name (insertAt e names ((find? name entries).getD empty)) entries)
  | _ :: _, other => other

/-- The tree without the entry at the end of the names. -/
def eraseAt : List Name → Entry → Entry
  | [], e => e
  | [name], directory entries => directory (erase name entries)
  | name :: names, directory entries =>
    match find? name entries with
    | some inner => directory (put name (eraseAt names inner) entries)
    | none => directory entries
  | _, other => other

end Entry

end TemplateLint
