import Telemetry.Family

/-!
# The tally

The agent counts six events of its own.  A count has 64 bits and starts over when
they are full.  Every event has a name and a help under which its count is
exposed.
-/

namespace Telemetry

/-- What the agent counts. -/
inductive Event where
  /-- An envelope has come in. -/
  | ingress
  /-- An envelope has been dropped for want of room. -/
  | dropped
  /-- An envelope has been written to the store. -/
  | envelopesWritten
  /-- A metric has been removed after its ttl. -/
  | expiredMetrics
  /-- A source has been removed after its ttl. -/
  | expiredSources
  /-- The origin tag has been used as the source of an envelope. -/
  | originMappings
  deriving DecidableEq

namespace Event

/-- All events. -/
def all : List Event :=
  [.ingress, .dropped, .envelopesWritten, .expiredMetrics, .expiredSources, .originMappings]

/-- The name of a count. -/
def name : Event → String
  | ingress => "ingress"
  | dropped => "dropped"
  | envelopesWritten => "envelopes_written"
  | expiredMetrics => "expired_metrics"
  | expiredSources => "expired_sources"
  | originMappings => "origin_mappings"

/-- What a count tells. -/
def help : Event → String
  | ingress => "Total number of envelopes ingressed by the agent"
  | dropped => "Total number of dropped envelopes"
  | envelopesWritten => "Total number of envelopes written to the envelope collector"
  | expiredMetrics => "Total number of collected metrics removed after exceeding the ttl"
  | expiredSources => "Total number of source ids removed after exceeding the ttl"
  | originMappings => "Total number of envelopes where the origin tag is used as the source_id"

/-- The labels of a count. -/
def labels : Event → Labels
  | dropped => Dict.ofList [("direction", "ingress")]
  | _ => .empty

end Event

/-- How often each event has happened. -/
structure Tally where
  /-- Envelopes that came in. -/
  ingress : UInt64 := 0
  /-- Envelopes dropped. -/
  dropped : UInt64 := 0
  /-- Envelopes written. -/
  envelopesWritten : UInt64 := 0
  /-- Metrics expired. -/
  expiredMetrics : UInt64 := 0
  /-- Sources expired. -/
  expiredSources : UInt64 := 0
  /-- Origin tags used as sources. -/
  originMappings : UInt64 := 0
  deriving DecidableEq

namespace Tally

/-- How often an event has happened. -/
def count (t : Tally) : Event → UInt64
  | .ingress => t.ingress
  | .dropped => t.dropped
  | .envelopesWritten => t.envelopesWritten
  | .expiredMetrics => t.expiredMetrics
  | .expiredSources => t.expiredSources
  | .originMappings => t.originMappings

/-- Counts an event a number of times. -/
def add (t : Tally) (event : Event) (n : UInt64) : Tally :=
  match event with
  | .ingress => { t with ingress := t.ingress + n }
  | .dropped => { t with dropped := t.dropped + n }
  | .envelopesWritten => { t with envelopesWritten := t.envelopesWritten + n }
  | .expiredMetrics => { t with expiredMetrics := t.expiredMetrics + n }
  | .expiredSources => { t with expiredSources := t.expiredSources + n }
  | .originMappings => { t with originMappings := t.originMappings + n }

theorem count_add (t : Tally) (event e : Event) (n : UInt64) :
    (t.add event n).count e = if e = event then t.count e + n else t.count e := by
  cases event <;> cases e <;> rfl

/-- The counts as families. -/
def families (t : Tally) : List Family :=
  Event.all.map fun e =>
    .singleton e.name (some e.help) ⟨e.labels, .counter (.ofNat (t.count e).toNat)⟩

end Tally

end Telemetry
