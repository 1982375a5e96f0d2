import Telemetry.Envelope.Decoding
import Telemetry.Queue
import Telemetry.Registry
import Telemetry.Text.Blank
import Telemetry.Text.Utf8

/-!
# The intake of envelopes

Envelopes come in line by line.  A line without an envelope is passed over.  An
envelope without a source takes the one that its tag `origin` names, if it has that
tag.  Every envelope is counted and put into the queue, and so is every one that the
queue drops to make room.

A connection carries bytes.  Its lines end at line feeds, and what follows the last
line feed is a line too.  A line that is no UTF-8 breaks the connection off: the lines
before it have come in, and those after it do not.
-/

namespace Telemetry

/-- How a connection ends. -/
inductive ConnectionEnd where
  /-- All its lines have come in. -/
  | finished
  /-- A line is no UTF-8. -/
  | brokenOff
  deriving DecidableEq

namespace Intake

/-- The tag that names the source of an envelope without one. -/
def originTag : String := "origin"

/-- The source that an envelope without one takes from its tags. -/
def origin? (e : Envelope) : Option String :=
  if e.sourceId.isEmpty then e.tags.get? originTag else none

/-- Takes an envelope in. -/
def accept (q : Queue Envelope) (d : Diagnostics) (e : Envelope) : Queue Envelope × Diagnostics :=
  let (e, d) := match origin? e with
    | some source => ({ e with sourceId := source }, d.count .originMappings 1)
    | none => (e, d)
  let d := d.count .ingress 1
  (q.push e, if q.isFull then d.count .dropped 1 else d)

/-- The envelope of a line, if it holds one. -/
def envelope? (line : List Char) : Option Envelope :=
  let line := Text.trim line
  if line.isEmpty then none else Envelope.read? line

/-- Takes a line in. -/
def ingest (q : Queue Envelope) (d : Diagnostics) (line : List Char) :
    Queue Envelope × Diagnostics :=
  match envelope? line with
  | some e => accept q d e
  | none => (q, d)

/-- Takes in the lines of a connection, as long as they are UTF-8. -/
def ingestAll (q : Queue Envelope) (d : Diagnostics) :
    List (List UInt8) → (Queue Envelope × Diagnostics) × ConnectionEnd
  | [] => ((q, d), .finished)
  | bytes :: lines =>
    match Text.utf8? bytes with
    | none => ((q, d), .brokenOff)
    | some line =>
      let (q, d) := ingest q d line
      ingestAll q d lines

/-- The lines of some bytes. -/
def linesOf (bytes : List UInt8) : List (List UInt8) := Text.splitAt (· = '\n'.toUInt8) bytes

/-- Takes in what a connection carries. -/
def receive (q : Queue Envelope) (d : Diagnostics) (bytes : List UInt8) :
    (Queue Envelope × Diagnostics) × ConnectionEnd :=
  ingestAll q d (linesOf bytes)

end Intake

end Telemetry
