import Telemetry.Run

/-!
# The program

Runs with the arguments it is given.  Envelopes are taken in from the standard input,
line by line, and the program stops at its end.
-/

namespace Telemetry.Program

/-- The places on the way to a place. -/
def waysTo (place : Place) : List Place := (List.range place.length).map place.take

/-- The tree with what is found at a path. -/
def look (files : FileTree) (path : String) : IO FileTree := do
  let place := Place.ofPath path
  let files := (waysTo place).foldl (fun t way => if way.isEmpty then t else t.put way .directory)
    files
  try
    let bytes ← IO.FS.readBinFile path
    return files.put place (.file bytes.toList)
  catch
    | .inappropriateType .. => return files.put place .directory
    | _ => return files

/-- The files that a command line asks for. -/
def filesFor (arguments : List String) : IO FileTree := do
  match Command.read arguments with
  | .run path =>
    let files ← look {} path
    match Settings.load (files.read path) with
    | .ok s => ([s.scrape.certPath, s.scrape.keyPath, s.scrape.caPath].filterMap id).foldlM look files
    | .error _ => return files
  | _ => return {}

/-- All bytes of a stream. -/
partial def readAll (stream : IO.FS.Stream) (read : List UInt8) : IO (List UInt8) := do
  let bytes ← stream.read 65536
  if bytes.isEmpty then return read else readAll stream (read ++ bytes.toList)

/-- A log line as it is printed. -/
def printedLine (l : LogLine) : String := l.level.name ++ " " ++ l.part.name ++ ": " ++ l.message

/-- Prints what a run leaves behind. -/
def report (outcome : Outcome) : IO UInt32 := do
  for l in outcome.log do IO.println (printedLine l)
  IO.print outcome.printed
  IO.eprint outcome.complaint
  return outcome.code.toUInt32

/-- Runs with some arguments. -/
def run (arguments : List String) : IO UInt32 := do
  let files ← filesFor arguments
  let outcome := Run.withArguments files 0 arguments []
  match Command.read arguments, outcome.code with
  | .run _, 0 => report (Run.withArguments files 0 arguments (← readAll (← IO.getStdin) []))
  | _, _ => report outcome

end Telemetry.Program

/-- Runs the program. -/
def main (arguments : List String) : IO UInt32 := Telemetry.Program.run arguments
