import Telemetry.Settings

/-!
# Log lines

A log line has a level, comes from a part of the agent, and says something.  A line is
written if its level is at least as severe as the one that is set.
-/

namespace Telemetry

/-- The parts of the agent that write log lines. -/
inductive Part where
  /-- What starts and stops the others. -/
  | agent
  /-- The store and its sweeps. -/
  | collector
  /-- The sites. -/
  | exposition
  /-- The intake of envelopes. -/
  | ingress
  /-- What consumes envelopes. -/
  | pipeline
  deriving DecidableEq

/-- The name of a part in log lines. -/
def Part.name : Part → String
  | .agent => "agent"
  | .collector => "collector"
  | .exposition => "exposition"
  | .ingress => "ingress"
  | .pipeline => "pipeline"

/-- A log line. -/
structure LogLine where
  /-- How severe it is. -/
  level : LogLevel
  /-- Where it comes from. -/
  part : Part
  /-- What it says. -/
  message : String
  deriving DecidableEq

/-- Whether a line is written when a level is set. -/
def LogLine.isShownAt (l : LogLine) (level : LogLevel) : Bool := l.level.rank ≤ level.rank

/-- The text of a character in a quoted path. -/
def quotedPathChar (c : Char) : List Char :=
  if c = '\t' then ['\\', 't']
  else if c = '\n' then ['\\', 'n']
  else if c = '\r' then ['\\', 'r']
  else if c = '\x00' then ['\\', '0']
  else if c = '\x22' ∨ c = '\x27' ∨ c = '\\' then ['\\', c]
  else if c < ' ' ∨ c = '\x7f' then
    ['\\', 'u', '\x7b'] ++ Nat.toDigits 16 c.toNat ++ ['\x7d']
  else [c]

/-- A path in quotes. -/
def quotedPath (path : String) : String :=
  String.ofList ('\x22' :: path.toList.flatMap quotedPathChar ++ ['\x22'])

end Telemetry
