import Mathlib.Data.List.Basic
import Telemetry.Exposition.Text

/-!
# Samples of metrics

A histogram is exposed as the one that is closed: it has a last bucket for plus
infinity, which holds every observation.  A bucket of a histogram and a quantile of
a summary are *points*, which are exposed under a name and with a label of their
kind.
-/

namespace Telemetry

namespace Distribution

/-- Whether the last bucket is the one for plus infinity. -/
def isClosed (d : Distribution) : Bool := d.buckets.getLast?.any (·.upperBound.isInfinite)

/-- The distribution with a last bucket for plus infinity. -/
def closed (d : Distribution) : Distribution :=
  if d.isClosed then d else { d with buckets := d.buckets ++ [⟨.infinity false, d.count⟩] }

/-- The buckets that are exposed are those of the closed distribution. -/
theorem bucketSamples_eq (d : Distribution) (name : String) (labels : Labels) :
    d.bucketSamples name labels =
      d.closed.buckets.map fun b =>
        ⟨name ++ Bucket.ending, labels.toList ++ [(Bucket.label, boundText b.upperBound)],
          b.cumulativeCount⟩ := by
  unfold bucketSamples closed
  change (if d.isClosed then _ else _) = _
  cases d.isClosed with
  | true => rfl
  | false =>
      simp only [Bool.false_eq_true, if_false, List.map_append]
      rfl

end Distribution

/-! ## Points and totals -/

namespace Value

/-- The buckets or the quantiles. -/
def points : Value → List (Double × Double)
  | histogram d => d.buckets.map fun b => (b.upperBound, b.cumulativeCount)
  | summary d => d.quantiles.map fun q => (q.quantile, q.value)
  | _ => []

/-- One of the totals. -/
def total? (total : Total) : Value → Option Double
  | histogram d => some (match total with | .sum => d.sum | .count => d.count)
  | summary d => some (match total with | .sum => d.sum | .count => d.count)
  | _ => none

end Value

/-- The name that the points of a kind are exposed under. -/
def Kind.pointName (kind : Kind) (name : String) : String :=
  if kind = .histogram then name ++ Bucket.ending else name

/-- The label that tells the points of a kind apart. -/
def Kind.pointLabel (kind : Kind) : String :=
  if kind = .summary then Quantile.label else Bucket.label

/-! ## Series -/

/-- What a sample is found under. -/
def Sample.series (s : Sample) : String × List (String × String) := (s.name, s.labels)

/-- What the sample of a line is found under. -/
def Line.series? : Line → Option (String × List (String × String))
  | sample s => some s.series
  | _ => none

/-- The series of an exposition, line by line. -/
def seriesOf (families : List Family) : List (String × List (String × String)) :=
  (families.flatMap (·.lines)).filterMap (·.series?)

theorem seriesOf_eq (families : List Family) :
    seriesOf families =
      families.flatMap fun f => f.metrics.flatMap fun m => (m.samples f.name).map (·.series) := by
  rw [seriesOf, List.filterMap_flatMap]
  refine List.flatMap_congr fun f _ => ?_
  have comments : (f.help.toList.map (Line.help f.name)).filterMap (·.series?) = [] := by
    cases f.help <;> rfl
  rw [Family.lines, List.filterMap_append, List.filterMap_append, comments, List.filterMap_map,
    List.nil_append]
  change List.filterMap (some ∘ Sample.series) _ = _
  rw [List.filterMap_eq_map, List.map_flatMap]

end Telemetry
