/-
  TemplateLint.Linter — linting files and directories.

  Files are linted in the order of the arguments, and a directory stands for
  the templates below it.  A template that is malformed is reported.  A file
  that cannot be read ends the run, and so does an overclosed template.  A
  directory that cannot be walked ends it like a file that cannot be read: a
  lookup knows it by its error only, and it stands for itself.
-/
import TemplateLint.Files.Search
import TemplateLint.Files.FileError
import TemplateLint.Template
import TemplateLint.Text.Escape

namespace TemplateLint

/-! ## §1. Reading -/

/-- What stands at a path, links followed. -/
abbrev Lookup := Path → Except FileError Entry

/-- A file that could not be read, or a directory that could not be walked. -/
structure ReadError where
  path : Path
  cause : FileError
  deriving DecidableEq, Repr

/-- The wording of the error. -/
def ReadError.message (e : ReadError) : String :=
  "cannot " ++ e.cause.attempt ++ " " ++ e.path.display ++ ": " ++ e.cause.message

/-- What ends a run before all files are linted. -/
inductive Failure where
  /-- A file cannot be read, or a directory cannot be walked. -/
  | unreadable (error : ReadError)
  /-- The template at the path is overclosed. -/
  | overclosed (path : Path)
  deriving DecidableEq, Repr

/-- The text of an entry. -/
def Entry.text : Entry → Except FileError String
  | .file content =>
    match Utf8.decode? content with
    | some text => .ok text
    | none => .error .notText
  | .directory _ => .error .isDirectory
  | .link _ => .error .notFound

/-- The template at a path. -/
def Template.load (look : Lookup) (path : Path) (exclude : Option String) :
    Except ReadError Template :=
  match (look path).bind Entry.text with
  | .ok source => .ok (.prepare path source exclude)
  | .error cause => .error ⟨path, cause⟩

/-- The files that a path stands for: the templates below a directory, or
the path itself. -/
def Path.targets (look : Lookup) (path : Path) : List Path :=
  match look path with
  | .ok (.directory entries) =>
    (Entry.directory entries).templates.map fun names => names.foldl Path.join path
  | _ => [path]

/-! ## §2. Running -/

/-- The checks to run, and the prefix of the paths that are not checked. -/
structure Linter where
  checks : List Check := Check.all
  exclude : Option String := none
  deriving DecidableEq, Repr

namespace Linter

/-- Lints one file. -/
def lintFile (r : Linter) (look : Lookup) (path : Path) : Except Failure (List Finding) :=
  match Template.load look path r.exclude with
  | .error error => .error (.unreadable error)
  | .ok template =>
    match template.lint r.checks with
    | some findings => .ok findings
    | none => .error (.overclosed path)

/-- Lints all files that the paths stand for.  The first one that fails is
the result of the whole run. -/
def run (r : Linter) (look : Lookup) (paths : List Path) : Except Failure (List Finding) :=
  ((paths.flatMap (Path.targets look)).mapM (r.lintFile look)).map List.flatten

end Linter

/-! ## §3. The log -/

/-- How important a line of the log is. -/
inductive LogLevel where
  | debug
  | info
  deriving DecidableEq, Repr

/-- A line of the log. -/
structure LogLine where
  level : LogLevel
  message : String
  deriving DecidableEq, Repr

/-- The name of the level, to the right of five places. -/
def LogLevel.render : LogLevel → String
  | .debug => "DEBUG"
  | .info => " INFO"

/-- The line as it is written.  A message may name any path and quote any
character, so what could take hold of a terminal is escaped. -/
def LogLine.render (line : LogLine) : String :=
  line.level.render ++ " " ++ Escape.showControls line.message

namespace Linter

/-- The lines for one file, and whether it could be linted.  A directory that
cannot be walked is no file, and nothing is written for it. -/
def fileLog (r : Linter) (look : Lookup) (path : Path) : List LogLine × Bool :=
  let checking : LogLine := ⟨.debug, "Checking " ++ path.display⟩
  match Template.load look path r.exclude with
  | .ok template => (checking :: (template.log r.checks).map (⟨.debug, ·⟩),
      (template.lint r.checks).isSome)
  | .error ⟨_, .unlistable _ _⟩ => ([], false)
  | .error _ => ([checking], false)

/-- The lines for one argument, file by file; a directory is counted first. -/
def pathLog (r : Linter) (look : Lookup) (path : Path) : List (List LogLine × Bool) :=
  let files := path.targets look
  let counted : List LogLine :=
    match look path with
    | .ok (.directory _) =>
      [⟨.debug, path.display ++ ": " ++ Decimal.render files.length ++ " template files"⟩]
    | _ => []
  (counted, true) :: files.map (r.fileLog look)

/-- The lines up to the first file that could not be linted. -/
def untilFailure : List (List LogLine × Bool) → List LogLine
  | [] => []
  | (lines, true) :: rest => lines ++ untilFailure rest
  | (lines, false) :: _ => lines

/-- What a run writes to the log. -/
def log (r : Linter) (look : Lookup) (paths : List Path) : List LogLine :=
  untilFailure (paths.flatMap (r.pathLog look)) ++
    match r.run look paths with
    | .ok findings =>
      [⟨.info, "Checked " ++ Decimal.render (paths.flatMap (Path.targets look)).length ++
        " files, found " ++ Decimal.render findings.length ++ " issues"⟩]
    | .error _ => []

end Linter

end TemplateLint
