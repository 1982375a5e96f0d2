import Telemetry.Identity
import Telemetry.Table
import Telemetry.Family.Merge
import Telemetry.Registry.Tally

/-!
# The registry

Counters whose labels are not known before they are needed are made when they are
first asked for.  A counter is found by its identity, so the order of its labels
does not matter.  It starts at zero, and keeps the help and the labels it was made
with.  Its value has 64 bits and starts over when they are full.
-/

namespace Telemetry

/-- A counter of the registry. -/
structure Counter where
  /-- The name. -/
  name : String
  /-- What the counter tells. -/
  help : String
  /-- The labels. -/
  labels : Labels
  /-- The value. -/
  value : UInt64
  deriving DecidableEq

/-- The family of one counter. -/
def Counter.family (c : Counter) : Family :=
  .singleton c.name (some c.help) ⟨c.labels, .counter (.ofNat c.value.toNat)⟩

/-- Counters by identity. -/
abbrev Registry := Table Identity Counter

namespace Registry

/-- The registry without counters. -/
def empty : Registry := Table.empty

/-- The counter of a name and labels, which starts at zero if there is none yet. -/
def counter (r : Registry) (name help : String) (labels : List (String × String)) : Counter :=
  (r.get? (.of name labels)).getD ⟨name, help, .ofList labels, 0⟩

/-- Adds to the counter of a name and labels, which is made if there is none yet. -/
def add (r : Registry) (name help : String) (labels : List (String × String)) (n : UInt64) :
    Registry :=
  let c := counter r name help labels
  r.insert (.of name labels) { c with value := c.value + n }

/-- Makes a counter, unless there is one for its name and labels. -/
def create (r : Registry) (name help : String) (labels : List (String × String)) : Registry :=
  add r name help labels 0

/-- The value of the counter of a name and labels, if there is one. -/
def value? (r : Registry) (name : String) (labels : List (String × String)) : Option UInt64 :=
  (r.get? (.of name labels)).map (·.value)

/-- The families of all counters and then of the tally, merged. -/
def families (r : Registry) (tally : Tally) : List Family :=
  Family.merge (r.values.map Counter.family ++ tally.families)

end Registry

/-- What the agent counts about itself. -/
structure Diagnostics where
  /-- The counters made when they are needed. -/
  registry : Registry := Registry.empty
  /-- The counters there always are. -/
  tally : Tally := {}

namespace Diagnostics

/-- Counts an event. -/
def count (d : Diagnostics) (event : Event) (n : UInt64) : Diagnostics :=
  { d with tally := d.tally.add event n }

/-- Everything that is counted, as families. -/
def families (d : Diagnostics) : List Family := Registry.families d.registry d.tally

end Diagnostics

end Telemetry
