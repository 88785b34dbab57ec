/-
  TemplateLint.Files.Volume — following paths through a tree.

  A place in a tree is the list of names that lead to it from the root.
  `Volume.locate` follows a path to its place: name by name, links where
  they stand, forty of them at most.
-/
import TemplateLint.Files.Entry
import TemplateLint.Files.FileError

namespace TemplateLint

/-! ## §1. The parts of a path -/

namespace Path

/-- The pieces of a byte string between the slashes, empty ones included. -/
def split : List UInt8 → List Name
  | [] => [[]]
  | b :: bs =>
    if b = slash then
      [] :: split bs
    else
      match split bs with
      | [] => [[b]]
      | piece :: pieces => (b :: piece) :: pieces

/-- The steps of a path.  An empty one stays where it is, like `.`. -/
def steps (p : Path) : List Name := split p.bytes

/-- Whether the path begins at the root. -/
def isAbsolute (p : Path) : Bool := p.bytes.head? == some slash

end Path

/-! ## §2. Locating -/

/-- A tree with the place that relative paths start from. -/
structure Volume where
  root : Entry
  home : List Name

/-- What to do at the end of a path. -/
inductive Ending where
  /-- A link there is followed. -/
  | follow
  /-- A link there is the end itself. -/
  | keep
  /-- As `follow`, but nothing need be there yet. -/
  | create
  deriving DecidableEq, Repr

namespace Volume

/-- The length from which on a name is too long. -/
def maxName : Nat := 255

/-- The length from which on a path is too long. -/
def maxPath : Nat := 4095

/-- The number of links that a path may lead through. -/
def maxLinks : Nat := 40

/-- The place that the steps lead to from `place`.  Where a link is followed,
`follow` goes on from the place and the steps that it brings. -/
def walkSteps (root : Entry) (ending : Ending)
    (follow : List Name → List Name → Except FileError (List Name)) :
    (place : List Name) → (steps : List Name) → Except FileError (List Name)
  | place, [] => .ok place
  | place, step :: steps =>
    match root.at? place with
    | some (.directory entries) =>
      if step = [] ∨ step = [dot] then walkSteps root ending follow place steps
      else if step = [dot, dot] then walkSteps root ending follow place.dropLast steps
      else if step.length > maxName then .error .nameTooLong
      else
        match Entry.find? step entries with
        | none =>
          if ending = .create ∧ steps = [] then .ok (place ++ [step]) else .error .notFound
        | some (.link target) =>
          if ending = .keep ∧ steps = [] then .ok (place ++ [step])
          else follow (if target.isAbsolute then [] else place) (target.steps ++ steps)
        | some _ => walkSteps root ending follow (place ++ [step]) steps
    | some _ => .error .notDirectory
    | none => .error .notFound

/-- The place that the steps lead to, if `links` links may be followed. -/
def walk (root : Entry) (ending : Ending) :
    (links : Nat) → (place : List Name) → (steps : List Name) → Except FileError (List Name)
  | 0 => walkSteps root ending fun _ _ => .error .tooManyLinks
  | links + 1 => walkSteps root ending (walk root ending links)

/-- The place that a path leads to. -/
def locate (v : Volume) (ending : Ending) (p : Path) : Except FileError (List Name) :=
  if p.bytes.contains 0 then .error .zeroByte
  else if p.bytes.isEmpty then .error .notFound
  else if p.bytes.length > maxPath then .error .nameTooLong
  else walk v.root ending maxLinks (if p.isAbsolute then [] else v.home) p.steps

/-- What a path leads to, links followed. -/
def look (v : Volume) (p : Path) : Except FileError Entry := do
  match v.root.at? (← v.locate .follow p) with
  | some e => return e
  | none => .error .notFound

/-! ## §3. Changing a tree -/

/-- A volume without files: an empty directory to start from, which has no
name that a path could use to come back to it. -/
def empty : Volume where
  root := .directory [([], .empty)]
  home := [[]]

/-- The volume with `e` at a place. -/
def put (v : Volume) (place : List Name) (e : Entry) : Volume :=
  { v with root := Entry.insertAt e place v.root }

/-- Goes one step down; a directory that is missing is made. -/
def enter (v : Volume) (place : List Name) (step : Name) : Volume × List Name :=
  match walk v.root .create maxLinks place [step] with
  | .error _ => (v, place)
  | .ok place' =>
    match v.root.at? place' with
    | some _ => (v, place')
    | none => (v.put place' .empty, place')

/-- Follows steps from `place` and makes the directories that are missing. -/
def makeSteps (v : Volume) (place : List Name) (steps : List Name) : Volume × List Name :=
  steps.foldl (fun (v, place) step => v.enter place step) (v, place)

/-- The place from which a path starts. -/
def start (v : Volume) (p : Path) : List Name :=
  if p.isAbsolute then [] else v.home

/-- The volume with a directory at the path, and those on the way to it. -/
def makeDirectory (v : Volume) (p : Path) : Volume :=
  (v.makeSteps (v.start p) p.steps).1

/-- The volume with the directories on the way to the path, and the place of
the last of them. -/
def makeParents (v : Volume) (p : Path) : Volume × List Name :=
  v.makeSteps (v.start p) p.steps.dropLast

/-- The volume with `e` where the path leads to, and the directories on the
way.  With `keep`, a link there is replaced and not followed. -/
def insert (v : Volume) (ending : Ending) (p : Path) (e : Entry) : Volume :=
  let (v, parent) := v.makeParents p
  match p.steps.getLast? with
  | none => v
  | some name =>
    match walk v.root ending maxLinks parent [name] with
    | .ok place => v.put place e
    | .error _ => v.put (parent ++ [name]) e

/-- The volume with a file of this content at the path. -/
def writeFile (v : Volume) (p : Path) (content : List UInt8) : Volume :=
  v.insert .create p (.file content)

/-- The volume with a link at the path. -/
def makeLink (v : Volume) (p : Path) (target : Path) : Volume :=
  v.insert .keep p (.link target)

/-- The volume without what is at the path; a link goes, not its target. -/
def remove (v : Volume) (p : Path) : Volume :=
  match v.locate .keep p with
  | .ok place => { v with root := v.root.eraseAt place }
  | .error _ => v

end Volume

end TemplateLint
