import Telemetry.Store

/-!
# The collector

The collector converts envelopes and keeps their measurements in a store.  An
envelope that cannot be converted leaves the store as it is; the remarks made until
then are counted all the same.  An envelope that is converted is counted as written,
also if nothing came of it.
-/

namespace Telemetry

/-- The store with what it is run by. -/
structure Collector where
  /-- The default tags. -/
  defaults : Dict String := .empty
  /-- How long a metric lives without being written, in nanoseconds. -/
  ttl : Nat := 600 * 1000000000
  /-- The store. -/
  store : Store := .empty

namespace Collector

/-- Writes an envelope at a time. -/
def write (c : Collector) (d : Diagnostics) (e : Envelope) (now : Nat) :
    Collector × Diagnostics × Except ConversionError Unit :=
  let converted := convert c.defaults e
  let d := d.remark e.sourceId converted.remarks
  match converted.result with
  | .error error => (c, d, .error error)
  | .ok ms =>
    ({ c with store := c.store.write e.sourceId now ms }, d.count .envelopesWritten 1, .ok ())

/-- Takes away what is too old, and tells how many metrics that were. -/
def expire (c : Collector) (d : Diagnostics) (now : Nat) : Collector × Diagnostics × Nat :=
  let store := c.store.sweep c.ttl now
  let metrics := c.store.metricCount - store.metricCount
  let sources := c.store.sourceCount - store.sourceCount
  ({ c with store := store },
    (d.count .expiredMetrics metrics.toUInt64).count .expiredSources sources.toUInt64, metrics)

/-- What the collector exposes. -/
def families (c : Collector) : List Family := c.store.families

end Collector

end Telemetry
