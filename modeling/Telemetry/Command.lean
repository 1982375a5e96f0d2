import Telemetry.Version

/-!
# The command line

The program takes one argument, the file of the settings.  Two options ask for its
help and for its version; the first of them that is met is answered, and what follows
is not looked at.  After two dashes nothing is an option.
-/

namespace Telemetry

/-- Why a command line is refused. -/
inductive UsageError where
  /-- There is no argument. -/
  | missingFile
  /-- There is an option that is not known. -/
  | unknownOption (option : String)
  /-- There is a second argument. -/
  | secondFile (argument : String)
  deriving DecidableEq

/-- What a command line asks for. -/
inductive Command where
  /-- To run with the settings of a file. -/
  | run (path : String)
  /-- To show the help, in its long form or not. -/
  | help (long : Bool)
  /-- To show the version. -/
  | showVersion
  /-- Nothing that can be done. -/
  | refused (error : UsageError)
  deriving DecidableEq

namespace Command

/-- Takes one more argument. -/
def take (path : Option String) (argument : String) (rest : Option String → Command) : Command :=
  match path with
  | none => rest (some argument)
  | some _ => .refused (.secondFile argument)

/-- What is asked for in the end. -/
def ofPath : Option String → Command
  | some path => .run path
  | none => .refused .missingFile

/-- Reads arguments none of which is an option. -/
def readPlain (path : Option String) : List String → Command
  | [] => ofPath path
  | argument :: arguments => take path argument fun path => readPlain path arguments

/-- Reads arguments after the file that may have been met. -/
def readFrom (path : Option String) : List String → Command
  | [] => ofPath path
  | argument :: arguments =>
    match argument.toList with
    | ['-', '-'] => readPlain path arguments
    | '-' :: '-' :: _ =>
      if argument = "--help" then .help true
      else if argument = "--version" then .showVersion
      else .refused (.unknownOption argument)
    | '-' :: 'h' :: _ => .help false
    | '-' :: 'V' :: _ => .showVersion
    | '-' :: c :: _ => .refused (.unknownOption (String.ofList ['-', c]))
    | _ => take path argument fun path => readFrom path arguments

/-- Reads a command line. -/
def read (arguments : List String) : Command := readFrom none arguments

end Command

/-! ## Texts -/

/-- How the program is used. -/
def usage : String := "Usage: " ++ programName ++ " <CONFIG>\n"

/-- The line with the version. -/
def versionLine : String := programName ++ " " ++ version ++ "\n"

/-- The help in its short form. -/
def shortHelp : String :=
  usage ++ "\nArguments:\n  <CONFIG>  Agent configuration file\n\nOptions:\n"
    ++ "  -h, --help     Print help (see more with '--help')\n  -V, --version  Print version\n"

/-- The help in its long form. -/
def longHelp : String :=
  "Aggregates telemetry envelopes from co-located processes and serves them, together with "
    ++ "metrics scraped from local Prometheus endpoints, on a single metrics endpoint.\n\n"
    ++ usage ++ "\nArguments:\n  <CONFIG>\n          Agent configuration file\n\nOptions:\n"
    ++ "  -h, --help\n          Print help (see a summary with '-h')\n\n"
    ++ "  -V, --version\n          Print version\n"

/-- What is wrong with a command line, in words. -/
def UsageError.reason : UsageError → String
  | .missingFile => "the following required arguments were not provided:\n  <CONFIG>\n"
  | .unknownOption option =>
    "unexpected argument '" ++ option ++ "' found\n\n  tip: to pass '" ++ option
      ++ "' as a value, use '-- " ++ option ++ "'\n"
  | .secondFile argument => "unexpected argument '" ++ argument ++ "' found\n"

/-- The error in words. -/
def UsageError.message (e : UsageError) : String :=
  "error: " ++ e.reason ++ "\n" ++ usage ++ "\nFor more information, try '--help'.\n"

end Telemetry
