import Telemetry.Agent
import Telemetry.Command
import Telemetry.Intake.SocketPath
import Telemetry.Log
import Telemetry.Settings.Loading

/-!
# A run of the program

The program starts, takes envelopes in until it is told to stop, and stops.  When it
starts it sets up its scraper, places its socket, and opens its sites; the first of
these that fails is told in an error and ends the run.  When it stops it takes its
socket away.  What it does on the way is told in log lines.
-/

namespace Telemetry

/-- Why the program cannot start. -/
inductive StartError where
  /-- The scraper cannot be set up. -/
  | scraper (error : Scrape.SetupError)
  /-- The socket cannot be placed. -/
  | socket (error : BindError)
  /-- A site cannot be opened at an address. -/
  | site (address : SocketAddress)
  deriving DecidableEq

/-- The error in words. -/
def StartError.message : StartError → String
  | .scraper e => "failed to initialize scrape targets: " ++ e.message
  | .socket e => e.message
  | .site a =>
    "failed to listen on " ++ a.text ++ ": Cannot assign requested address (os error 99)"

/-- Whether an address is one of the local host. -/
def HostAddress.isLocal : HostAddress → Bool
  | .v4 bytes => bytes.head? = some 127 || bytes = [0, 0, 0, 0]
  | .v6 groups _ => groups.dropLast.all (· = 0) && groups.getLast?.any (· ≤ 1)

/-- What a run leaves behind. -/
structure Outcome where
  /-- The code the program ends with. -/
  code : Nat
  /-- The log lines. -/
  log : List LogLine := []
  /-- What is printed. -/
  printed : String := ""
  /-- What is printed as an error. -/
  complaint : String := ""
  /-- The files. -/
  files : FileTree

namespace Run

/-- A line for information. -/
def note (part : Part) (message : String) : LogLine := ⟨.info, part, message⟩

/-- A line for an error. -/
def failure (part : Part) (message : String) : LogLine := ⟨.error, part, message⟩

/-- Places the socket, if envelopes are taken in. -/
def openIngress (files : FileTree) (s : IngressSettings) :
    FileTree × Except StartError (List LogLine) :=
  if s.enabled then
    match files.bindSocket s.socketPath with
    | (files, .ok _) =>
      (files, .ok [note .ingress ("ingress listening on Some(" ++ quotedPath s.socketPath ++ ")")])
    | (files, .error e) => (files, .error (.socket e))
  else (files, .ok [])

/-- Opens a site.  A port of zero stands for one that is free. -/
def openSite (freePort : Nat) (a : SocketAddress) : Except StartError LogLine :=
  if a.host.isLocal then
    let a := if a.port = 0 then { a with port := freePort } else a
    .ok (note .exposition ("http server listening on " ++ a.text))
  else .error (.site a)

/-- Opens the sites. -/
def openSites (freePort : Nat) (s : Settings) : Except StartError (List LogLine) := do
  let metrics ← openSite freePort s.general.listen
  let debug ← if s.debug.enabled then List.singleton <$> openSite freePort s.debug.listen
    else pure []
  return metrics :: debug

/-- What the program says when it has started. -/
def greeting (s : Settings) : LogLine :=
  note .agent ("metrics agent " ++ version ++ " running on instance "
    ++ s.general.instanceId.getD "unknown")

/-- Starts the program. -/
def start (files : FileTree) (freePort : Nat) (s : Settings) :
    FileTree × Except StartError (Agent × List LogLine) :=
  match Agent.setUp files s with
  | .error e => (files, .error (.scraper e))
  | .ok a =>
    match openIngress files s.ingress with
    | (files, .error e) => (files, .error e)
    | (files, .ok ingress) =>
      match openSites freePort s with
      | .error e => (files, .error e)
      | .ok sites => (files, .ok (a, ingress ++ sites ++ [greeting s]))

/-- Takes lines in, as long as they are UTF-8, and consumes the envelope of each. -/
def serve (a : Agent) : List (List UInt8) → List WriteFailure
  | [] => []
  | bytes :: lines =>
    match Text.utf8? bytes with
    | none => []
    | some line =>
      let (a, failed) := (a.ingest line).consume 0
      failed.toList ++ serve a lines

/-- What the parts of the program say when it stops. -/
def farewell (s : Settings) : List LogLine :=
  [note .agent "shutting down", note .pipeline "stopping envelope consumer",
    note .collector "stopping metric expiration"]
    ++ (if s.ingress.enabled then [note .ingress "stopping ingress listener"] else [])
    ++ [note .agent "metrics agent stopped"]

/-- Takes the socket away. -/
def closeIngress (files : FileTree) (s : IngressSettings) : FileTree :=
  if s.enabled then (files.remove s.socketPath).toOption.getD files else files

/-- Runs with settings, and takes in what a connection carries. -/
def withSettings (files : FileTree) (freePort : Nat) (s : Settings) (input : List UInt8) :
    Outcome :=
  match start files freePort s with
  | (files, .error e) => { code := 1, log := [failure .agent e.message], files := files }
  | (files, .ok (a, started)) =>
    let input := if s.ingress.enabled then input else []
    let failures := (serve a (Intake.linesOf input)).map fun f => failure .pipeline f.message
    { code := 0
      log := (started ++ failures ++ farewell s).filter (·.isShownAt s.logLevel)
      files := closeIngress files s.ingress }

/-- Runs with a command line. -/
def withArguments (files : FileTree) (freePort : Nat) (arguments : List String)
    (input : List UInt8) : Outcome :=
  match Command.read arguments with
  | .showVersion => { code := 0, printed := versionLine, files := files }
  | .help long => { code := 0, printed := if long then longHelp else shortHelp, files := files }
  | .refused e => { code := 2, complaint := e.message, files := files }
  | .run path =>
    match Settings.load (files.read path) with
    | .ok s => withSettings files freePort s input
    | .error e =>
      let complaint := "error loading config file: " ++ path ++ "\n" ++ e.message ++ "\n"
      { code := 1, complaint := complaint, files := files }

end Run

end Telemetry
