import Std.Data.HashMap
import Telemetry.Envelope
import Telemetry.Identity

/-!
# The pipeline

Before an envelope is written, three things are done to it.  It is skipped if its
source is one that is scraped.  If a list of tags for timers is given, the other
tags of a timer are taken away.  A counter is given its *running total*: the total
it carries, or, if that is zero, the last total of the same source, instance, name
and tags with its delta added.

The table of running totals is emptied when a counter comes in while it holds more
than `RunningTotals.limit` entries.
-/

namespace Telemetry

/-- What a running total belongs to. -/
structure TotalKey where
  /-- The source. -/
  sourceId : String
  /-- The instance. -/
  instanceId : String
  /-- The name and the tags. -/
  identity : Identity
  deriving DecidableEq, Hashable

/-- The running totals. -/
structure RunningTotals where
  /-- The last total of each key. -/
  totals : Std.HashMap TotalKey UInt64 := {}

namespace RunningTotals

/-- How many entries the table may hold when a counter comes in. -/
def limit : Nat := 10000

/-- The key of a counter of an envelope. -/
def keyOf (e : Envelope) (c : CounterMessage) : TotalKey :=
  ⟨e.sourceId, e.instanceId, .of c.name e.tags.toList⟩

/-- The last total of a key, which is zero at first. -/
def last (t : RunningTotals) (key : TotalKey) : UInt64 := t.totals.getD key 0

/-- The table a counter comes to: empty if it has grown too large. -/
def makeRoom (t : RunningTotals) : RunningTotals := if limit < t.totals.size then ⟨{}⟩ else t

/-- The total after a counter. -/
def next (last : UInt64) (c : CounterMessage) : UInt64 :=
  if c.total = 0 then last + c.delta else c.total

/-- Gives an envelope its running total, if it is a counter. -/
def process (t : RunningTotals) (e : Envelope) : RunningTotals × Envelope :=
  match e.message with
  | some (.counter c) =>
    let t := t.makeRoom
    let key := keyOf e c
    let total := next (t.last key) c
    (⟨t.totals.insert key total⟩, { e with message := some (.counter { c with total := total }) })
  | _ => (t, e)

end RunningTotals

/-- What is done to envelopes. -/
structure Pipeline where
  /-- The sources to be skipped. -/
  scrapedSources : List String := []
  /-- The tags that timers keep, if not all. -/
  timerTags : Option (List String) := none
  /-- The running totals. -/
  totals : RunningTotals := {}

namespace Pipeline

/-- An envelope with the tags it keeps. -/
def trimTags (allowed : Option (List String)) (e : Envelope) : Envelope :=
  match allowed, e.message with
  | some allowed, some (.timer _) => { e with tags := e.tags.filter fun k _ => allowed.contains k }
  | _, _ => e

/-- What becomes of an envelope, unless it is skipped. -/
def process (p : Pipeline) (e : Envelope) : Pipeline × Option Envelope :=
  if p.scrapedSources.contains e.sourceId then (p, none)
  else
    let (totals, e) := p.totals.process (trimTags p.timerTags e)
    ({ p with totals := totals }, some e)

end Pipeline

end Telemetry
