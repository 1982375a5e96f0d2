import Telemetry.Envelope
import Telemetry.Identity
import Telemetry.Registry
import Telemetry.Text.Base64

/-!
# Conversion

An envelope is converted into *measurements*: one for a counter or a timer, and one
for each reading of a gauge.  Names are made valid by putting an underscore for each
character that may not stand in them, and the name of a timer is given the ending
`_seconds`.

The labels of a measurement are made from the tags of the envelope and the default
tags whose keys it does not have.  A tag whose key starts with two underscores or
whose value is empty is left out.  Then come the source, unless the envelope has a
tag of that name, the instance on the same condition and if it is known, the unit of
a gauge if it has one, and the name as it was before it was made valid.  A name or
label that is empty or starts with a digit is an error, and so are two labels of one
name.

What is left out or changed on the way is noted in *remarks*, also if the conversion
fails in the end.  The identity of a measurement is made of its name and all its
labels, save that the unit of a gauge does not count.

The tags and the readings of an envelope have no order.  `convertIn` visits them in
given orders, and `convert` by ascending key.
-/

namespace Telemetry

/-! ## Outcomes -/

/-- Why an envelope is refused. -/
inductive ConversionError where
  /-- A metric cannot have this name. -/
  | invalidName (name : String)
  /-- A metric has a label of a name that no label can have. -/
  | invalidLabel (name label : String)
  /-- Two labels have this name. -/
  | duplicateLabel (label : String)
  deriving DecidableEq

/-- A valid name in quotes. -/
def quoted (s : String) : String := "\"" ++ s ++ "\""

/-- The error in words. -/
def ConversionError.message : ConversionError → String
  | .invalidName name => "invalid metric name: " ++ quoted name
  | .invalidLabel name label => "metric " ++ name ++ ": invalid label name " ++ quoted label
  | .duplicateLabel label => "duplicate label name: " ++ label

/-- What is noted on the way. -/
inductive Remark where
  /-- A tag or a name was changed to make it valid. -/
  | modified
  /-- A tag was left out. -/
  | leftOut
  deriving DecidableEq

/-- The name a remark is counted under. -/
def Remark.name : Remark → String
  | .modified => "modified_tags"
  | .leftOut => "invalid_metric_label"

/-- The help of the count of a remark. -/
def Remark.help (r : Remark) : String :=
  "Total number of " ++ r.name ++ " for the originating source id from the envelope"

/-- The label that tells which source a remark is about. -/
def Remark.sourceLabel : String := "originating_source_id"

/-- A result or an error, with the remarks made until then. -/
structure Remarked (α : Type) where
  /-- The remarks, in order. -/
  remarks : List Remark
  /-- The result. -/
  result : Except ConversionError α

namespace Remarked

variable {α β : Type}

/-- What follows a result. -/
def bind (x : Remarked α) (f : α → Remarked β) : Remarked β :=
  match x.result with
  | .error e => ⟨x.remarks, .error e⟩
  | .ok a => ⟨x.remarks ++ (f a).remarks, (f a).result⟩

instance : Monad Remarked where
  pure a := ⟨[], .ok a⟩
  bind := bind

/-- Notes a remark, on a condition. -/
def noteIf (condition : Bool) (r : Remark) : Remarked Unit :=
  ⟨if condition then [r] else [], .ok ()⟩

/-- Stops with an error. -/
def fail (e : ConversionError) : Remarked α := ⟨[], .error e⟩

end Remarked

open Remarked (noteIf fail)

/-! ## Names and labels -/

/-- Puts an underscore for each character that is not allowed. -/
def sanitize (allowed : Char → Bool) (s : String) : String :=
  String.ofList (s.toList.map fun c => if allowed c then c else '_')

/-- A character of a tag that is kept. -/
def isTagChar (c : Char) : Bool := c.isAlphanum || c = '_'

/-- A character of a metric that is kept. -/
def isMetricChar (c : Char) : Bool := c.isAlphanum || c = '_' || c = ':'

/-- Whether a name is neither empty nor starts with a digit. -/
def isValidName (s : String) : Bool :=
  match s.toList with
  | [] => false
  | c :: _ => !c.isDigit

/-- Whether a key starts with two underscores. -/
def isReserved (key : String) : Bool := "__".toList.isPrefixOf key.toList

/-- Adds a label whose name is new. -/
def insertUnique (labels : Labels) (name value : String) : Remarked Labels :=
  if labels.contains name then fail (.duplicateLabel name) else pure (labels.insert name value)

/-- The label of the source. -/
def sourceLabel : String := "source_id"

/-- The label of the instance. -/
def instanceLabel : String := "instance_id"

/-- The label of the unit of a gauge. -/
def unitLabel : String := "unit"

/-- The label of the name as it was given. -/
def givenNameLabel : String := "loggregator_name"

/-- The tags of an envelope with the default tags it does not have. -/
def tagsWithDefaults (defaults : Dict String) (e : Envelope) : Dict String :=
  defaults.toList.foldl (fun tags d => tags.insertNew d.1 d.2) e.tags

/-- Adds the label of a tag, or leaves the tag out. -/
def addTag (labels : Labels) (tag : String × String) : Remarked Labels :=
  if isReserved tag.1 || tag.2.isEmpty then do
    noteIf true .leftOut
    return labels
  else do
    let name := sanitize isTagChar tag.1
    noteIf (name ≠ tag.1) .modified
    insertUnique labels name tag.2

/-- The labels of some tags. -/
def labelsOfTags (tags : List (String × String)) : Remarked Labels := tags.foldlM addTag .empty

/-- The labels that all measurements of an envelope have, from its tags in some order. -/
def commonLabels (e : Envelope) (tags : List (String × String)) : Remarked Labels := do
  let labels ← labelsOfTags tags
  let labels ←
    if e.tags.contains sourceLabel then pure labels
    else insertUnique labels sourceLabel e.sourceId
  if e.tags.contains instanceLabel || e.instanceId.isEmpty then pure labels
  else insertUnique labels instanceLabel e.instanceId

/-! ## Measurements -/

/-- What was measured. -/
inductive Reading where
  /-- What there is in all. -/
  | counter (value : Double)
  /-- What a gauge shows. -/
  | gauge (value : Double)
  /-- How many seconds an operation took. -/
  | duration (seconds : Double)
  deriving DecidableEq

/-- A reading with the metric it belongs to. -/
structure Measurement where
  /-- The identity of the metric. -/
  identity : Identity
  /-- Its name. -/
  name : String
  /-- Its labels. -/
  labels : Labels
  /-- The reading. -/
  reading : Reading
  deriving DecidableEq

/-- The labels that identify a metric with a reading. -/
def identifyingLabels (labels : Labels) : Reading → List (String × String)
  | .gauge _ => labels.toList.filter (·.1 ≠ unitLabel)
  | _ => labels.toList

/-- A name made valid, which is noted. -/
def sanitizeName (name : String) : Remarked String := do
  let valid := sanitize isMetricChar name
  noteIf (valid ≠ name) .modified
  return valid

/-- The measurement of a reading, from its name made valid and as it was given. -/
def measurement (name given : String) (labels : Labels) (reading : Reading) :
    Remarked Measurement :=
  if !isValidName name then fail (.invalidName name)
  else do
    let labels ← insertUnique labels givenNameLabel (Text.base64OfString given)
    match labels.keys.find? (!isValidName ·) with
    | some label => fail (.invalidLabel name label)
    | none => return ⟨.of name (identifyingLabels labels reading), name, labels, reading⟩

/-- The measurement of one reading of a gauge. -/
def gaugeMeasurement (labels : Labels) (reading : String × GaugeReading) :
    Remarked Measurement := do
  let name ← sanitizeName reading.1
  let labels ←
    if reading.2.unit.isEmpty then pure labels
    else insertUnique labels unitLabel reading.2.unit
  measurement name reading.1 labels (.gauge reading.2.value)

/-- What the name of a timer ends in. -/
def secondsEnding : String := "_seconds"

/-- The orders in which a conversion visits what has none. -/
structure ConversionOrder where
  /-- The order of the tags. -/
  tags : List (String × String) → List (String × String)
  /-- The order of the readings of a gauge. -/
  readings : List (String × GaugeReading) → List (String × GaugeReading)

/-- The measurements of an envelope, visited in given orders. -/
def convertIn (order : ConversionOrder) (defaults : Dict String) (e : Envelope) :
    Remarked (List Measurement) :=
  let labels := commonLabels e (order.tags (tagsWithDefaults defaults e).toList)
  match e.message with
  | none => pure []
  | some (.counter c) => do
    let name ← sanitizeName c.name
    let m ← measurement name c.name (← labels) (.counter (.ofNat c.total.toNat))
    return [m]
  | some (.gauge readings) => do
    let labels ← labels
    (order.readings readings.toList).mapM (gaugeMeasurement labels)
  | some (.timer t) => do
    let name ← sanitizeName (t.name ++ secondsEnding)
    let m ← measurement name t.name (← labels) (.duration t.seconds)
    return [m]

/-- The measurements of an envelope. -/
def convert (defaults : Dict String) (e : Envelope) : Remarked (List Measurement) :=
  convertIn ⟨id, id⟩ defaults e

/-- Counts remarks on a source. -/
def Diagnostics.remark (d : Diagnostics) (sourceId : String) (remarks : List Remark) :
    Diagnostics :=
  { d with
    registry := remarks.foldl
      (fun r remark => r.add remark.name remark.help [(Remark.sourceLabel, sourceId)] 1)
      d.registry }

end Telemetry
