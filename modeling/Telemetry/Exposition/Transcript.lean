import Telemetry.Exposition.Entry
import Telemetry.Exposition.Text
import Telemetry.Exposition.SampleSyntax

/-!
# Transcripts

A *transcript* is what has been read of an exposition so far: the helps and the
kinds of names, the samples that stand for themselves, and the *groups*.  A group
gathers the points of one histogram or summary, that is the samples of one name
whose labels agree once the bound or the share is taken out.

The kind of a histogram is kept under the name of its buckets, with the name of
the histogram as an alias, so that only bucket samples are grouped.  A sample of a
grouped kind that has labels is dropped if its bound or share cannot be read, and
one without labels stands for itself.  A sample whose number cannot be read is
dropped.  A later help or kind of a name counts from its line on.
-/

namespace Telemetry

/-- The samples of one histogram or summary. -/
structure Group where
  /-- The name on the lines. -/
  name : String
  /-- The name of the metric. -/
  title : String
  /-- Whether the points are the quantiles of a summary. -/
  isSummary : Bool
  /-- The labels that the samples share. -/
  labels : Labels
  /-- Bound or share, and number, in order of appearance. -/
  points : List (Double × Double)

/-- What has been read of an exposition. -/
structure Transcript where
  /-- The help of a name. -/
  helps : Dict String
  /-- The kind of the samples of a name. -/
  kinds : Dict Kind
  /-- The name of the histogram that buckets belong to. -/
  titles : Dict String
  /-- The samples that stand for themselves, the latest first, with the metric they give. -/
  metrics : List (String × Metric)
  /-- The groups, in order of appearance. -/
  groups : List Group

namespace Transcript

/-- Nothing has been read. -/
def empty : Transcript := ⟨.empty, .empty, .empty, [], []⟩

/-- Whether nothing can be exposed. -/
def isEmpty (t : Transcript) : Bool := t.metrics.isEmpty && t.groups.isEmpty

/-- The kind of a name from here on. -/
def setKind (t : Transcript) (name : String) : Kind → Transcript
  | .histogram =>
    let bucketName := name ++ Bucket.ending
    { t with
      kinds := t.kinds.insert bucketName .histogram, titles := t.titles.insert bucketName name }
  | kind => { t with kinds := t.kinds.insert name kind }

/-- Adds a point to its group, which is the last one if it is new. -/
def addPoint (new : Group) (point : Double × Double) : List Group → List Group
  | [] => [{ new with points := [point] }]
  | g :: gs =>
    if g.name = new.name ∧ g.labels = new.labels then
      { g with points := g.points ++ [point] } :: gs
    else g :: addPoint new point gs

/-- Adds a sample to the group it belongs to, if its bound or share can be read. -/
def addGrouped (t : Transcript) (isSummary : Bool) (name : String) (labels : Labels)
    (number : Double) : Transcript :=
  let key := if isSummary then Quantile.label else Bucket.label
  match (labels.get? key).bind fun text => Double.read? text.toList with
  | none => t
  | some bound =>
    let title := if isSummary then name else (t.titles.get? name).getD name
    { t with
      groups := addPoint ⟨name, title, isSummary, labels.erase key, []⟩ (bound, number) t.groups }

/-- Adds a sample that stands for itself. -/
def addScalar (t : Transcript) (name : String) (labels : Labels) (value : Value) : Transcript :=
  { t with metrics := (name, ⟨labels, value⟩) :: t.metrics }

/-- Adds a sample by the kind of its name. -/
def addSample (t : Transcript) (name : String) (labels : Option (List Char)) (number : Double) :
    Transcript :=
  match t.kinds.get? name, labels with
  | some .histogram, some text => t.addGrouped false name (Entry.labels text) number
  | some .summary, some text => t.addGrouped true name (Entry.labels text) number
  | some .counter, text => t.addScalar name ((text.map Entry.labels).getD .empty) (.counter number)
  | some .gauge, text => t.addScalar name ((text.map Entry.labels).getD .empty) (.gauge number)
  | _, text => t.addScalar name ((text.map Entry.labels).getD .empty) (.untyped number)

/-- Takes an entry in. -/
def add (t : Transcript) : Entry → Transcript
  | .help name text => { t with helps := t.helps.insert name text }
  | .type name kind => t.setKind name kind
  | .sample name labels number =>
    match Double.read? number with
    | none => t
    | some x => t.addSample name labels x

/-- What the lines of an exposition tell. -/
def ofLines (lines : List (List Char)) : Transcript :=
  (lines.filterMap Entry.ofLine?).foldl add empty

end Transcript

end Telemetry
