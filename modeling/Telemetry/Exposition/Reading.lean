import Telemetry.Exposition.Transcript

/-!
# Reading an exposition

An exposition is read into families in three steps.

* Each line that is neither blank nor a comment must be a sample line, or the
  whole exposition is refused with the number of the first line that is not.
* The samples become metrics.  Buckets whose name is not known as a histogram are
  *loose*; those of one name and one set of labels make a histogram as well.  A
  metric goes to the family of its name, unless that has another kind.
* The totals of histograms and summaries, which are families of their own so far,
  are moved into the metrics of the same labels.  A total without such a metric
  stays where it is, and so does everything that is not one number.

In which order groups, loose buckets and histograms are visited is left open by
the format.  `Exposition.readIn` takes the three orders as an argument, and
`Exposition.read` is the reading in order of appearance and of name.
-/

namespace Telemetry

open Text (trim)

namespace Exposition

/-- Why an exposition is refused. -/
inductive ReadError where
  /-- The line of this number is not a sample. -/
  | invalidLine (number : Nat)
  /-- There are sample lines, and none of them tells anything. -/
  | noSamples
  deriving DecidableEq

/-- The error in words. -/
def ReadError.message : ReadError → String
  | .invalidLine number => "invalid sample on line " ++ toString number
  | .noSamples => "exposition contains no parsable samples"

/-! ## The line check -/

/-- Whether a line must be a sample. -/
def mustBeSample (line : List Char) : Bool :=
  let line := trim line
  !line.isEmpty && line.head? != some '#'

/-- The number of the first line that must be a sample and is not, counting from one. -/
def firstInvalid? (lines : List (List Char)) : Option Nat :=
  (lines.findIdx? fun line => mustBeSample line && !isSampleLine (trim line)).map (· + 1)

/-! ## Families -/

/-- The buckets of one name and one set of labels that no kind was given for. -/
structure LooseBuckets where
  /-- The name without the ending. -/
  name : String
  /-- The labels without the bound. -/
  labels : Labels
  /-- Bound and number, in order of appearance. -/
  points : List (Double × Double)

/-- The orders in which a reading visits what the format leaves unordered. -/
structure VisitOrder where
  /-- The order of groups. -/
  groups : List Group → List Group
  /-- The order of loose buckets. -/
  loose : List LooseBuckets → List LooseBuckets
  /-- The order of the names of histograms and summaries. -/
  bases : List String → List String

/-- Points as buckets, by ascending bound. -/
def bucketsOf (points : List (Double × Double)) : List Bucket :=
  (points.map fun p => ⟨p.1, p.2⟩).mergeSort fun a b =>
    a.upperBound.position ≤ b.upperBound.position

/-- A histogram from its points.  Its count is that of the bucket for plus infinity, until a
total tells otherwise. -/
def histogramOf (points : List (Double × Double)) : Value :=
  let buckets := bucketsOf points
  let last := buckets.getLast?.filter (·.upperBound.isInfinite)
  .histogram ⟨buckets, (last.map (·.cumulativeCount)).getD .zero, .zero⟩

/-- A summary from its points. -/
def summaryOf (points : List (Double × Double)) : Value :=
  .summary ⟨points.map fun p => ⟨p.1, p.2⟩, .zero, .zero⟩

/-- The metric of a group. -/
def metricOf (g : Group) : Metric :=
  ⟨g.labels, if g.isSummary then summaryOf g.points else histogramOf g.points⟩

/-- Adds a metric to the family of its name, unless that has another kind. -/
def addMetric (helps : Dict String) (families : Dict Family) (name : String) (metric : Metric) :
    Dict Family :=
  match families.get? name with
  | none => families.insert name (.singleton name (helps.get? name) metric)
  | some f =>
    if f.kind = metric.value.kind then
      families.insert name { f with metrics := f.metrics ++ [metric] }
    else families

/-- The name, the labels and the point of a loose bucket. -/
def looseBucket? (name : String) (metric : Metric) :
    Option (String × Labels × (Double × Double)) :=
  match metric.value with
  | .untyped number =>
    if Bucket.ending.toList.isSuffixOf name.toList then
      match (metric.labels.get? Bucket.label).bind fun text => Double.read? text.toList with
      | some bound =>
        some (String.ofList (name.toList.take (name.length - Bucket.ending.length)),
          metric.labels.erase Bucket.label, (bound, number))
      | none => none
    else none
  | _ => none

/-- Adds a loose bucket to those of its name and labels. -/
def addLoose (name : String) (labels : Labels) (point : Double × Double) :
    List LooseBuckets → List LooseBuckets
  | [] => [⟨name, labels, [point]⟩]
  | l :: ls =>
    if l.name = name ∧ l.labels = labels then { l with points := l.points ++ [point] } :: ls
    else l :: addLoose name labels point ls

/-- The loose buckets among some samples. -/
def looseBuckets (samples : List (String × Metric)) : List LooseBuckets :=
  (samples.filterMap fun s => looseBucket? s.1 s.2).foldl
    (fun found l => addLoose l.1 l.2.1 l.2.2 found) []

/-- The metrics that are no loose buckets, with their names, in order: first the samples that
stand for themselves and then the groups. -/
def ownMetrics (order : VisitOrder) (t : Transcript) : List (String × Metric) :=
  (t.metrics.reverse.filter fun s => (looseBucket? s.1 s.2).isNone)
    ++ (order.groups t.groups).map fun g => (g.title, metricOf g)

/-- The families of a transcript, before totals are moved. -/
def gather (order : VisitOrder) (t : Transcript) : Dict Family :=
  let own := ownMetrics order t
  let loose := (order.loose (looseBuckets t.metrics.reverse)).map fun l =>
    (l.name, (⟨l.labels, histogramOf l.points⟩ : Metric))
  (own ++ loose).foldl (fun families m => addMetric t.helps families m.1 m.2) .empty

/-! ## Totals -/

/-- The value with a total set. -/
def setTotal (total : Total) (x : Double) : Value → Value
  | .histogram d =>
    .histogram (match total with | .sum => { d with sum := x } | .count => { d with count := x })
  | .summary d =>
    .summary (match total with | .sum => { d with sum := x } | .count => { d with count := x })
  | value => value

/-- Sets a total in the first metric with the given labels, if there is one. -/
def setTotalIn? (total : Total) (labels : Labels) (x : Double) :
    List Metric → Option (List Metric)
  | [] => none
  | m :: ms =>
    if m.labels = labels then some ({ m with value := setTotal total x m.value } :: ms)
    else (setTotalIn? total labels x ms).map (m :: ·)

/-- Moves totals into the metrics they belong to, and returns those metrics and what is left,
in order. -/
def moveTotals (total : Total) (into : List Metric) :
    List Metric → List Metric × List Metric
  | [] => (into, [])
  | t :: ts =>
    match t.value.scalar?.bind fun x => setTotalIn? total t.labels x into with
    | some moved => moveTotals total moved ts
    | none =>
      let (moved, left) := moveTotals total into ts
      (moved, t :: left)

/-- Moves the totals of one kind into the family of their base. -/
def foldTotal (base : String) (families : Dict Family) (total : Total) : Dict Family :=
  let name := base ++ total.ending
  match families.get? name with
  | none => families
  | some totals =>
    let rest := families.erase name
    match rest.get? base with
    | none => rest
    | some family =>
      let (moved, left) := moveTotals total family.metrics totals.metrics
      let rest := rest.insert base { family with metrics := moved }
      if left.isEmpty then rest else rest.insert name { totals with metrics := left }

/-- Whether metrics of a kind have totals. -/
def hasTotals : Kind → Bool
  | .histogram | .summary => true
  | _ => false

/-- The names of the families that totals may belong to. -/
def bases (families : Dict Family) : List String :=
  (families.values.filter (hasTotals ·.kind)).map (·.name)

/-- Moves the totals of some bases. -/
def foldTotals (families : Dict Family) (bases : List String) : Dict Family :=
  bases.foldl (fun families base => [Total.sum, .count].foldl (foldTotal base) families) families

/-! ## Reading -/

/-- The families of a transcript. -/
def familiesOf (order : VisitOrder) (t : Transcript) : List Family :=
  let families := gather order t
  (foldTotals families (order.bases (bases families))).values

/-- The families of an exposition, visited in given orders. -/
def readIn (order : VisitOrder) (body : List Char) : Except ReadError (List Family) :=
  let lines := Text.lines body
  match firstInvalid? lines with
  | some number => .error (.invalidLine number)
  | none =>
    let transcript := Transcript.ofLines lines
    if transcript.isEmpty && lines.any mustBeSample then .error .noSamples
    else .ok (familiesOf order transcript)

/-- The families of an exposition, by ascending name. -/
def read (body : List Char) : Except ReadError (List Family) := readIn ⟨id, id, id⟩ body

end Exposition

end Telemetry
