/-
  TemplateLint.Command — the command line.

  Arguments are read from left to right, and the first one that is wrong or
  asks for help or the version decides.  `Command.run` gives all that the
  program writes and its exit status.
-/
import TemplateLint.Report
import TemplateLint.Linter

namespace TemplateLint

namespace Command

/-! ## §1. What can be asked for -/

/-- What a run is told to do. -/
structure Options where
  files : List Path := []
  exclude : Option String := none
  format : Option Format := none
  verbose : Bool := false
  deriving DecidableEq, Repr

/-- What the arguments ask for. -/
inductive Request where
  | help
  | longHelp
  | version
  | lint (options : Options)
  deriving DecidableEq, Repr

/-- What can be wrong with the arguments. -/
inductive UsageError where
  /-- There is no such option, or the option takes no value. -/
  | unexpectedArgument
  /-- An option has no value. -/
  | missingValue
  /-- A value is none of those that the option takes. -/
  | invalidValue
  /-- An option is given twice. -/
  | repeatedOption
  deriving DecidableEq, Repr

/-- The wording of the error. -/
def UsageError.message : UsageError → String
  | unexpectedArgument => "unexpected argument found"
  | missingValue => "a value is required for an option but none was supplied"
  | invalidValue => "invalid value for an argument"
  | repeatedOption => "an option cannot be used multiple times"

/-! ## §2. Options -/

/-- An option that has a value. -/
inductive ValueOption where
  | exclude
  | format
  deriving DecidableEq, Repr

namespace Options

/-- Adds a file, whose path cannot be empty. -/
def addFile (o : Options) (path : List UInt8) : Except UsageError Options :=
  if path.isEmpty then .error .invalidValue else .ok { o with files := o.files ++ [⟨path⟩] }

/-- Sets the prefix of the paths that are not checked. -/
def setExclude (o : Options) (value : List UInt8) : Except UsageError Options :=
  match o.exclude, Utf8.decode? value with
  | some _, _ => .error .repeatedOption
  | none, none => .error .invalidValue
  | none, some text => .ok { o with exclude := some text }

/-- Sets the format of the report. -/
def setFormat (o : Options) (value : List UInt8) : Except UsageError Options :=
  match o.format, (Utf8.decode? value).bind Format.ofName? with
  | some _, _ => .error .repeatedOption
  | none, none => .error .invalidValue
  | none, some format => .ok { o with format := some format }

/-- Sets an option to a value. -/
def set (o : Options) : ValueOption → List UInt8 → Except UsageError Options
  | .exclude, value => o.setExclude value
  | .format, value => o.setFormat value

/-- Turns the log on. -/
def setVerbose (o : Options) : Except UsageError Options :=
  if o.verbose then .error .repeatedOption else .ok { o with verbose := true }

end Options

/-! ## §3. Arguments -/

/-- What the next argument can be. -/
inductive Mode where
  /-- An option or a file. -/
  | any
  /-- The value of an option. -/
  | value (option : ValueOption)
  /-- A file, whatever it looks like. -/
  | file
  deriving DecidableEq, Repr

/-- The byte `-`. -/
def hyphen : UInt8 := 0x2d

/-- Whether an argument looks like a file or a value and not like an option.
A hyphen alone does. -/
def isValue (arg : List UInt8) : Bool :=
  arg.head? != some hyphen || arg == [hyphen]

/-- A long option as it is written: its name up to the first `=`, and the
value behind that. -/
def splitOption (body : List UInt8) : List UInt8 × Option (List UInt8) :=
  let name := body.takeWhile (· != 0x3d)
  (name, if name.length < body.length then some (body.drop (name.length + 1)) else none)

/-- Reads an option with a long name, maybe with its value. -/
def readLong (o : Options) (name : Option String) (value : Option (List UInt8)) :
    Except UsageError (Request ⊕ (Options × Mode)) :=
  match name, value with
  | some "help", none => .ok (.inl .longHelp)
  | some "version", none => .ok (.inl .version)
  | some "verbose", none => do return .inr (← o.setVerbose, .any)
  | some "a11y-lint-exclude", none => .ok (.inr (o, .value .exclude))
  | some "a11y-lint-exclude", some value => do return .inr (← o.set .exclude value, .any)
  | some "format", none => .ok (.inr (o, .value .format))
  | some "format", some value => do return .inr (← o.set .format value, .any)
  | _, _ => .error .unexpectedArgument

/-- Reads a cluster of short flags. -/
def readFlags (o : Options) : List UInt8 → Except UsageError (Request ⊕ (Options × Mode))
  | [] => .ok (.inr (o, .any))
  | flag :: flags =>
    if flag = 0x68 then .ok (.inl .help)
    else if flag = 0x56 then .ok (.inl .version)
    else if flag = 0x76 then do readFlags (← o.setVerbose) flags
    else .error .unexpectedArgument

/-- Reads an argument that can be an option or a file. -/
def readArg (o : Options) (arg : List UInt8) :
    Except UsageError (Request ⊕ (Options × Mode)) :=
  if isValue arg then do return .inr (← o.addFile arg, .any)
  else
    match arg.drop 1 with
    | 0x2d :: [] => .ok (.inr (o, .file))
    | 0x2d :: body =>
      let (name, value) := splitOption body
      readLong o (Utf8.decode? name) value
    | flags => readFlags o flags

/-- Reads arguments after the options that were met before them. -/
def readArgs : Mode → Options → List (List UInt8) → Except UsageError Request
  | .value _, _, [] => .error .missingValue
  | _, o, [] => .ok (.lint o)
  | .file, o, arg :: args => do readArgs .file (← o.addFile arg) args
  | .value option, o, arg :: args =>
    if isValue arg then do readArgs .any (← o.set option arg) args else .error .missingValue
  | .any, o, arg :: args => do
    match ← readArg o arg with
    | .inl request => return request
    | .inr (o, mode) => readArgs mode o args

/-- What the arguments ask for. -/
def Request.ofArgs (args : List (List UInt8)) : Except UsageError Request :=
  readArgs .any {} args

/-- The paths that a call with the arguments looks at. -/
def filesOf (args : List (List UInt8)) : List Path :=
  match Request.ofArgs args with
  | .ok (.lint o) => o.files
  | _ => []

/-! ## §4. Help -/

/-- The version of the program. -/
def versionText : String :=
  Report.toolName ++ " " ++ Report.toolVersion ++ "\n"

/-- What the program is for, and how it is called. -/
def usageText : String :=
  "Accessibility lint for Chameleon page templates\n\n" ++
  "Usage: check-chameleon [OPTIONS] [FILES]...\n\n"

/-- The short help. -/
def helpText : String :=
  usageText ++
  "Arguments:\n" ++
  "  [FILES]...  Template files (or directories) to check\n\n" ++
  "Options:\n" ++
  "      --a11y-lint-exclude <PREFIX>  Skip the accessibility checks for files whose path " ++
    "starts with this prefix; they are still checked for well-formedness\n" ++
  "      --format <FORMAT>             Output format [default: text] " ++
    "[possible values: text, json, sarif]\n" ++
  "  -v, --verbose                     Enable verbose logging\n" ++
  "  -h, --help                        Print help (see more with '--help')\n" ++
  "  -V, --version                     Print version\n"

/-- The long help. -/
def longHelpText : String :=
  usageText ++
  "Arguments:\n" ++
  "  [FILES]...\n" ++
  "          Template files (or directories) to check\n\n" ++
  "Options:\n" ++
  "      --a11y-lint-exclude <PREFIX>\n" ++
  "          Skip the accessibility checks for files whose path starts with this prefix; they " ++
    "are still checked for well-formedness\n\n" ++
  "      --format <FORMAT>\n" ++
  "          Output format\n\n" ++
  "          Possible values:\n" ++
  "          - text:  One line per finding\n" ++
  "          - json:  Structured JSON\n" ++
  "          - sarif: SARIF for IDE/CI\n" ++
  "          \n" ++
  "          [default: text]\n\n" ++
  "  -v, --verbose\n" ++
  "          Enable verbose logging\n\n" ++
  "  -h, --help\n" ++
  "          Print help (see a summary with '-h')\n\n" ++
  "  -V, --version\n" ++
  "          Print version\n"

/-! ## §5. Running -/

/-- What the program does: its exit status and what it writes. -/
structure Outcome where
  exitCode : Nat
  stdout : String := ""
  stderr : String := ""
  deriving DecidableEq, Repr

/-- The causes of a failure, each on a line.  If there are several, they are
numbered. -/
def causesText : List String → String
  | [cause] => "    " ++ cause ++ "\n"
  | causes => String.join (causes.zipIdx.map fun (cause, n) =>
      "    " ++ Decimal.render n ++ ": " ++ cause ++ "\n")

/-- What is said about the failure of a run. -/
def failureText : Failure → String
  | .unreadable e => "Error: " ++ e.message ++ "\n\nCaused by:\n" ++ causesText e.cause.causes
  | .overclosed path => "Error: gave up on " ++ path.display ++ "\n"

/-- The exit status of a run that failed: one that was given up is told
apart from all others. -/
def failureStatus : Failure → Nat
  | .unreadable _ => 1
  | .overclosed _ => 101

/-- The lines of the log, each ended. -/
def logText (lines : List LogLine) : String :=
  String.join (lines.map (·.render ++ "\n"))

/-- Lints the files that the options name. -/
def lint (look : Lookup) (o : Options) : Outcome :=
  let linter : Linter := { exclude := o.exclude }
  let log := if o.verbose then logText (linter.log look o.files) else ""
  match linter.run look o.files with
  | .ok findings =>
    { exitCode := Finding.exitStatus findings
      stdout := ((Report.render (o.format.getD .text) findings).map (· ++ "\n")).getD ""
      stderr := log }
  | .error e => { exitCode := failureStatus e, stderr := log ++ failureText e }

/-- What the program does when called with the arguments. -/
def run (look : Lookup) (args : List (List UInt8)) : Outcome :=
  match Request.ofArgs args with
  | .error e => { exitCode := 2, stderr := "error: " ++ e.message ++ "\n" }
  | .ok .help => { exitCode := 0, stdout := helpText }
  | .ok .longHelp => { exitCode := 0, stdout := longHelpText }
  | .ok .version => { exitCode := 0, stdout := versionText }
  | .ok (.lint o) => lint look o

end Command

end TemplateLint
