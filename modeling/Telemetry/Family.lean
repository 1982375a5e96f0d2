import Telemetry.Dict
import Telemetry.Double

/-!
# Metric families

A *metric* is a set of labels with a value, and a *family* holds the metrics of
one name.  The value of a metric is one number (counter, gauge or untyped), the
cumulative buckets of a histogram, or the quantiles of a summary.  A family has a
kind of its own, which is the one it is exposed under.
-/

namespace Telemetry

/-- The kinds of metrics. -/
inductive Kind where
  | counter
  | gauge
  | histogram
  | summary
  | untyped
  deriving DecidableEq

/-- The word for a kind. -/
def Kind.word : Kind → String
  | .counter => "counter"
  | .gauge => "gauge"
  | .histogram => "histogram"
  | .summary => "summary"
  | .untyped => "untyped"

/-- How many observations are at most a bound. -/
structure Bucket where
  /-- The largest value counted. -/
  upperBound : Double
  /-- The number of observations up to it. -/
  cumulativeCount : Double
  deriving DecidableEq

/-- The state of a histogram: cumulative buckets, the number of observations and their sum. -/
structure Distribution where
  /-- The buckets, in order of exposition. -/
  buckets : List Bucket
  /-- The number of observations. -/
  count : Double
  /-- Their sum. -/
  sum : Double
  deriving DecidableEq

/-- The value below which a share of the observations lie. -/
structure Quantile where
  /-- The share. -/
  quantile : Double
  /-- The value. -/
  value : Double
  deriving DecidableEq

/-- The state of a summary: quantiles, the number of observations and their sum. -/
structure Digest where
  /-- The quantiles, in order of exposition. -/
  quantiles : List Quantile
  /-- The number of observations. -/
  count : Double
  /-- Their sum. -/
  sum : Double
  deriving DecidableEq

/-- The value of a metric. -/
inductive Value where
  | counter (value : Double)
  | gauge (value : Double)
  | untyped (value : Double)
  | histogram (value : Distribution)
  | summary (value : Digest)
  deriving DecidableEq

/-- The kind of a value. -/
def Value.kind : Value → Kind
  | .counter _ => .counter
  | .gauge _ => .gauge
  | .untyped _ => .untyped
  | .histogram _ => .histogram
  | .summary _ => .summary

/-- The number of a value that is one number. -/
def Value.scalar? : Value → Option Double
  | .counter v | .gauge v | .untyped v => some v
  | .histogram _ | .summary _ => none

/-- A value with the labels that identify it. -/
structure Metric where
  /-- The labels. -/
  labels : Labels
  /-- The value. -/
  value : Value
  deriving DecidableEq

/-- The metrics of one name. -/
structure Family where
  /-- The name. -/
  name : String
  /-- What the metrics tell, in words. -/
  help : Option String
  /-- The kind they are exposed under. -/
  kind : Kind
  /-- The metrics. -/
  metrics : List Metric
  deriving DecidableEq

/-- The family of one metric, which has the kind of its value. -/
def Family.singleton (name : String) (help : Option String) (metric : Metric) : Family :=
  ⟨name, help, metric.value.kind, [metric]⟩

end Telemetry
