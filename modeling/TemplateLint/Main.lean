/-
  TemplateLint.Main — the program.

  The disk is looked at once, at the paths that the arguments stand for; what
  is found there is handed to `Command.run`, which decides all the rest.
-/
import TemplateLint.Command

namespace TemplateLint.Disk

/-! ## §1. Errors of the system -/

/-- The number and the wording of an error of the system. -/
def details : IO.Error → UInt32 × String
  | .alreadyExists _ number wording => (number, wording)
  | .otherError number wording => (number, wording)
  | .resourceBusy number wording => (number, wording)
  | .resourceVanished number wording => (number, wording)
  | .unsupportedOperation number wording => (number, wording)
  | .hardwareFault number wording => (number, wording)
  | .unsatisfiedConstraints number wording => (number, wording)
  | .illegalOperation number wording => (number, wording)
  | .protocolError number wording => (number, wording)
  | .timeExpired number wording => (number, wording)
  | .interrupted _ number wording => (number, wording)
  | .noFileOrDirectory _ number wording => (number, wording)
  | .invalidArgument _ number wording => (number, wording)
  | .permissionDenied _ number wording => (number, wording)
  | .resourceExhausted _ number wording => (number, wording)
  | .inappropriateType _ number wording => (number, wording)
  | .noSuchThing _ number wording => (number, wording)
  | .unexpectedEof => (0, "unexpected end of file")
  | .userError wording => (0, wording)

/-- An error of the system, whose number may be given as a negative one. -/
def systemError (e : IO.Error) : SystemError :=
  let (number, wording) := details e
  ⟨(if number < 0x80000000 then number else 0 - number).toNat, wording⟩

/-- The cause behind an error of the system. -/
def causeOf (e : IO.Error) : FileError :=
  match (systemError e).number with
  | 2 => .notFound
  | 20 => .notDirectory
  | 21 => .isDirectory
  | 22 => .zeroByte
  | 36 => .nameTooLong
  | 40 => .tooManyLinks
  | _ => .refused (systemError e)

/-! ## §2. Looking -/

/-- What stands in a directory, by name. -/
def listing (directory : Path) : IO (Except FileError (List (Name × IO.FS.FileType))) := do
  try
    let place ← IO.FS.realPath directory.display
    let found ← (← place.readDir).toList.mapM fun e => do
      return (Utf8.encode e.fileName, (← e.path.symlinkMetadata).type)
    return .ok (found.mergeSort fun a b => decide (a.1 ≤ b.1))
  catch e => return .error (.unlistable directory (systemError e))

/-- The entries of a directory and all below them, files without content.  In
directories that no search enters, nothing is looked for. -/
partial def entries (directory : Path) : ExceptT FileError IO (List (Name × Entry)) := do
  (← ExceptT.mk (listing directory)).mapM fun (name, kind) => do
    match kind with
    | .dir =>
      if Name.isSkipped name then return (name, .directory [])
      else return (name, .directory (← entries (directory.join name)))
    | .file => return (name, .file [])
    | _ => return (name, .link (directory.join name))

/-- Whether a path leads to a directory, links followed. -/
def isDirectory (path : Path) : IO Bool := do
  try (← IO.FS.realPath path.display).isDir catch _ => return false

/-- What stands at a path: a directory is listed, all else is read. -/
def look (path : Path) : IO (Except FileError Entry) := do
  if ← isDirectory path then
    return (← (entries path).run).map .directory
  try return .ok (.file (← IO.FS.readBinFile path.display).toList)
  catch e => return .error (causeOf e)

/-- What is known of some paths, as a lookup. -/
def lookupIn (known : List (Path × Except FileError Entry)) : Lookup := fun path =>
  (known.lookup path).getD (.error .notFound)

/-- What stands at the paths and at those that they stand for. -/
def lookAll (paths : List Path) : IO Lookup := do
  let arguments ← paths.mapM fun path => do return (path, ← look path)
  let files := paths.flatMap (Path.targets (lookupIn arguments))
  let found ← files.mapM fun path => do return (path, ← look path)
  return lookupIn (found ++ arguments)

end TemplateLint.Disk

open TemplateLint in
/-- Runs the program with its arguments. -/
def main (args : List String) : IO UInt32 := do
  let args := args.map Utf8.encode
  let look ← Disk.lookAll (Command.filesOf args)
  let outcome := Command.run look args
  IO.print outcome.stdout
  IO.eprint outcome.stderr
  return outcome.exitCode.toUInt32
