import Telemetry.Conversion
import Telemetry.Histogram

/-!
# The store

The store keeps the metrics of each source in a *shelf*.  A counter or a gauge
replaces what is kept under its identity, and a duration is observed by the
histogram kept there, which is new if there is none.  A metric and a shelf remember
when they were last written.

A *sweep* takes away what has not been written for the time to live: first whole
shelves, and then single metrics of the shelves that stay.  Times are nanoseconds,
and a time that lies ahead counts as now.
-/

namespace Telemetry

/-- What is kept of a metric. -/
inductive Stored where
  | counter (value : Double)
  | gauge (value : Double)
  | histogram (value : Histogram)
  deriving DecidableEq

/-- The value that is exposed. -/
def Stored.value : Stored → Value
  | .counter v => .counter v
  | .gauge v => .gauge v
  | .histogram h => .histogram h.distribution

/-- A metric and when it was last written. -/
structure StoredMetric where
  /-- The name. -/
  name : String
  /-- The labels. -/
  labels : Labels
  /-- What is kept. -/
  stored : Stored
  /-- When it was last written. -/
  updated : Nat
  deriving DecidableEq

/-- What an exposed metric of the store tells. -/
def StoredMetric.help : String := "Metrics Agent collected metric"

/-- The family of one metric of the store. -/
def StoredMetric.family (m : StoredMetric) : Family :=
  .singleton m.name (some help) ⟨m.labels, m.stored.value⟩

/-- The metrics of one source. -/
structure Shelf where
  /-- The metrics by identity. -/
  metrics : Table Identity StoredMetric
  /-- When one of them was last written. -/
  updated : Nat
  deriving DecidableEq

/-- Whether something written at a time is too old now. -/
def isStale (ttl now updated : Nat) : Bool := ttl ≤ now - updated

namespace Shelf

/-- What is kept after a reading, given what was kept before. -/
def absorb (before : Option StoredMetric) : Reading → Stored
  | .counter v => .counter v
  | .gauge v => .gauge v
  | .duration seconds =>
    match before with
    | some ⟨_, _, .histogram h, _⟩ => .histogram (h.observe seconds)
    | _ => .histogram ((Histogram.new Histogram.timerBounds).observe seconds)

/-- Writes a measurement. -/
def add (s : Shelf) (now : Nat) (m : Measurement) : Shelf :=
  let stored := absorb (s.metrics.get? m.identity) m.reading
  ⟨s.metrics.insert m.identity ⟨m.name, m.labels, stored, now⟩, now⟩

/-- The metrics that are not too old. -/
def sweep (s : Shelf) (ttl now : Nat) : Shelf :=
  { s with metrics := s.metrics.filter fun e => !isStale ttl now e.2.updated }

end Shelf

/-- The shelves by source. -/
structure Store where
  /-- The shelves. -/
  shelves : Dict Shelf
  deriving DecidableEq

namespace Store

/-- The store without shelves. -/
def empty : Store := ⟨.empty⟩

/-- Writes the measurements of a source.  Nothing is written if there are none. -/
def write (s : Store) (sourceId : String) (now : Nat) (ms : List Measurement) : Store :=
  if ms.isEmpty then s
  else
    let shelf := (s.shelves.get? sourceId).getD ⟨.empty, now⟩
    ⟨s.shelves.insert sourceId (ms.foldl (·.add now) shelf)⟩

/-- All metrics, by source and in order of insertion. -/
def metrics (s : Store) : List StoredMetric := s.shelves.values.flatMap (·.metrics.values)

/-- How many sources have a shelf. -/
def sourceCount (s : Store) : Nat := s.shelves.size

/-- How many metrics there are. -/
def metricCount (s : Store) : Nat := s.metrics.length

/-- What is left after a sweep. -/
def sweep (s : Store) (ttl now : Nat) : Store :=
  ⟨(s.shelves.filter fun _ shelf => !isStale ttl now shelf.updated).map (·.sweep ttl now)⟩

/-- The families of some metrics. -/
def familiesOf (metrics : List StoredMetric) : List Family :=
  Family.merge (metrics.map StoredMetric.family)

/-- What the store exposes. -/
def families (s : Store) : List Family := familiesOf s.metrics

end Store

end Telemetry
