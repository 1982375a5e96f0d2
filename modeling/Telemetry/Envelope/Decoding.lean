import Telemetry.Envelope
import Telemetry.Json.Decoding
import Telemetry.Json.Reading

/-!
# Decoding envelopes

An envelope is one JSON value.  Its message is the one of `counter`, `gauge` and
`timer` that is written; if none is or several are, the envelope tells nothing.
-/

namespace Telemetry

open Json (record? required optional)

/-- A counter. -/
def CounterMessage.ofJson? (j : Json) : Option CounterMessage := do
  let fields ← record? ["name", "delta", "total"] j
  return ⟨← required fields "name" Json.text?, ← optional fields "delta" 0 Json.uint64?,
    ← optional fields "total" 0 Json.uint64?⟩

/-- What one gauge shows. -/
def GaugeReading.ofJson? (j : Json) : Option GaugeReading := do
  let fields ← record? ["value", "unit"] j
  return ⟨← required fields "value" Json.double?, ← optional fields "unit" "" Json.text?⟩

/-- What some gauges show. -/
def gaugeOfJson? (j : Json) : Option (Dict GaugeReading) := do
  let fields ← record? ["metrics"] j
  required fields "metrics" (Json.dict? GaugeReading.ofJson?)

/-- A timer. -/
def TimerMessage.ofJson? (j : Json) : Option TimerMessage := do
  let fields ← record? ["name", "start", "stop"] j
  return ⟨← required fields "name" Json.text?, ← required fields "start" Json.int64?,
    ← required fields "stop" Json.int64?⟩

/-- The one message that is written. -/
def Message.one? (counter : Option CounterMessage) (gauge : Option (Dict GaugeReading))
    (timer : Option TimerMessage) : Option Message :=
  match counter, gauge, timer with
  | some c, none, none => some (.counter c)
  | none, some g, none => some (.gauge g)
  | none, none, some t => some (.timer t)
  | _, _, _ => none

/-- An envelope from its value. -/
def Envelope.ofJson? (j : Json) : Option Envelope := do
  let fields ← record? ["source_id", "instance_id", "tags", "counter", "gauge", "timer"] j
  let sourceId ← optional fields "source_id" "" Json.text?
  let instanceId ← optional fields "instance_id" "" Json.text?
  let tags ← optional fields "tags" .empty (Json.dict? Json.text?)
  let counter ← optional fields "counter" none (Json.nullable? CounterMessage.ofJson?)
  let gauge ← optional fields "gauge" none (Json.nullable? gaugeOfJson?)
  let timer ← optional fields "timer" none (Json.nullable? TimerMessage.ofJson?)
  return ⟨sourceId, instanceId, tags, Message.one? counter gauge timer⟩

/-- The envelope that a text denotes. -/
def Envelope.read? (s : List Char) : Option Envelope := (Json.read? s).bind Envelope.ofJson?

end Telemetry
