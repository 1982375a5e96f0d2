import Telemetry.Family
import Telemetry.Double.Decimal

/-!
# The text exposition

A family is exposed as lines: its help if it has one, its kind, and then the
*samples* of its metrics.  A sample is a name, labels and one number.  A metric
that is one number has one sample.  A histogram has a sample for each bucket, with
the bound as the label `le`, a bucket for plus infinity if it has none, and then
its sum and its count.  A summary has a sample for each quantile, with the label
`quantile`, and then its sum and its count.

A backslash, a double quote and a line feed are written with a backslash in the
value of a label, so that the value ends at the first quote without one.  In a
help text only the backslash and the line feed are.
-/

namespace Telemetry

/-! ## Samples -/

/-- One number with the name and the labels it is exposed under, in order of exposition. -/
structure Sample where
  /-- The name. -/
  name : String
  /-- The labels. -/
  labels : List (String × String)
  /-- The number. -/
  value : Double
  deriving DecidableEq

/-- The two totals of a histogram or a summary. -/
inductive Total where
  | sum
  | count
  deriving DecidableEq

/-- What the name of a total ends in. -/
def Total.ending : Total → String
  | .sum => "_sum"
  | .count => "_count"

/-- What the name of a bucket ends in. -/
def Bucket.ending : String := "_bucket"

/-- The label of a bound. -/
def Bucket.label : String := "le"

/-- The label of a share. -/
def Quantile.label : String := "quantile"

/-- The text of a double as the value of a label. -/
def boundText (x : Double) : String := String.ofList x.text

/-- The samples of the buckets, closed by one for plus infinity. -/
def Distribution.bucketSamples (name : String) (labels : Labels) (d : Distribution) :
    List Sample :=
  let sample (bound count : Double) : Sample :=
    ⟨name ++ Bucket.ending, labels.toList ++ [(Bucket.label, boundText bound)], count⟩
  let given := d.buckets.map fun b => sample b.upperBound b.cumulativeCount
  let closed := d.buckets.getLast?.any (·.upperBound.isInfinite)
  if closed then given else given ++ [sample (.infinity false) d.count]

/-- The samples of a sum and a count. -/
def totalSamples (name : String) (labels : Labels) (sum count : Double) : List Sample :=
  [⟨name ++ Total.sum.ending, labels.toList, sum⟩,
    ⟨name ++ Total.count.ending, labels.toList, count⟩]

/-- The samples of a metric that is exposed under a name. -/
def Metric.samples (name : String) (metric : Metric) : List Sample :=
  match metric.value with
  | .counter v | .gauge v | .untyped v => [⟨name, metric.labels.toList, v⟩]
  | .histogram d =>
    d.bucketSamples name metric.labels ++ totalSamples name metric.labels d.sum d.count
  | .summary d =>
    (d.quantiles.map fun q =>
      ⟨name, metric.labels.toList ++ [(Quantile.label, boundText q.quantile)], q.value⟩)
      ++ totalSamples name metric.labels d.sum d.count

/-! ## Lines -/

/-- A line of an exposition. -/
inductive Line where
  /-- What a name tells, in words. -/
  | help (name text : String)
  /-- The kind of a name. -/
  | type (name : String) (kind : Kind)
  /-- A sample. -/
  | sample (sample : Sample)
  deriving DecidableEq

/-- The lines of a family. -/
def Family.lines (family : Family) : List Line :=
  (family.help.toList.map (.help family.name)) ++ [.type family.name family.kind]
    ++ (family.metrics.flatMap (·.samples family.name)).map .sample

/-- The value of a label between its quotes. -/
def escapeLabelValue (s : List Char) : List Char :=
  s.flatMap fun
    | '\\' => ['\\', '\\']
    | '"' => ['\\', '"']
    | '\n' => ['\\', 'n']
    | c => [c]

/-- A help text on its line. -/
def escapeHelp (s : List Char) : List Char :=
  s.flatMap fun
    | '\\' => ['\\', '\\']
    | '\n' => ['\\', 'n']
    | c => [c]

/-- A label with its value. -/
def labelText (label : String × String) : List Char :=
  label.1.toList ++ '=' :: '"' :: escapeLabelValue label.2.toList ++ ['"']

/-- Labels in braces, or nothing if there are none. -/
def labelsText (labels : List (String × String)) : List Char :=
  if labels.isEmpty then []
  else '{' :: List.intercalate [','] (labels.map labelText) ++ ['}']

/-- A sample on its line. -/
def Sample.text (s : Sample) : List Char :=
  s.name.toList ++ labelsText s.labels ++ ' ' :: s.value.text

/-- A line, without its end. -/
def Line.text : Line → List Char
  | .help name text => "# HELP ".toList ++ name.toList ++ ' ' :: escapeHelp text.toList
  | .type name kind => "# TYPE ".toList ++ name.toList ++ ' ' :: kind.word.toList
  | .sample s => s.text

/-- The exposition of some families. -/
def exposition (families : List Family) : List Char :=
  (families.flatMap Family.lines).flatMap fun line => line.text ++ ['\n']

end Telemetry
