import Telemetry.Proofs.Conversion.Remarks

/-!
# What is converted, exactly

An envelope tells some things, one for a counter or a timer and one for each reading of
a gauge (`Told`).  Each becomes a metric whose labels are known beforehand: those that
the envelope gives all its metrics (`Envelope.commonPairs`), one for the unit and one
for the given name.  An envelope is converted just in case no name stands twice among
these and all names are valid (`Envelope.Convertible`), and then it becomes the metrics
with these labels (`Envelope.measured`).  None of this depends on the order in which
tags and readings are visited, so neither does a conversion that succeeds
(`converted_exactly`).

Labels are added one after the other, and a name that is there already stops the
conversion.  `Makes` says of a computation which labels it adds in all, and that it
does so if their names differ.
-/

namespace Telemetry

open Remarked

/-! ## Things told -/

/-- A thing that an envelope tells. -/
structure Told where
  /-- The name it was given. -/
  given : String
  /-- The name of its metric, before it is made valid. -/
  named : String
  /-- What it is measured in, or nothing. -/
  unit : String
  /-- What was measured. -/
  reading : Reading

/-- One reading of a gauge. -/
def Told.ofReading (reading : String × GaugeReading) : Told :=
  ⟨reading.1, reading.1, reading.2.unit, .gauge reading.2.value⟩

/-- What a message tells, with the readings of a gauge in some order. -/
def Message.toldIn (order : List (String × GaugeReading) → List (String × GaugeReading)) :
    Message → List Told
  | .counter c => [⟨c.name, c.name, "", .counter (.ofNat c.total.toNat)⟩]
  | .gauge readings => (order readings.toList).map Told.ofReading
  | .timer t => [⟨t.name, t.name ++ secondsEnding, "", .duration t.seconds⟩]

/-- What an envelope tells. -/
def Envelope.told (e : Envelope) : List Told := (e.message.map (·.toldIn id)).getD []

/-! ## Labels -/

section Labels

variable (defaults : Dict String) (e : Envelope)

/-- The tags of an envelope and the default tags with other keys. -/
def Envelope.allTags : List (String × String) := e.tags.toList ++ (e.gaps defaults).toList

/-- Those of them that become labels. -/
def Envelope.keptTags : List (String × String) := (e.allTags defaults).filter fun tag => IsKept tag

/-- The labels of tags. -/
def tagPairs (tags : List (String × String)) : List (String × String) :=
  tags.map fun tag => (sanitize isTagChar tag.1, tag.2)

/-- The labels that an envelope gives all its metrics. -/
def Envelope.commonPairs : List (String × String) :=
  tagPairs (e.keptTags defaults) ++
    (if e.tags.contains sourceLabel then [] else [(sourceLabel, e.sourceId)]) ++
    (if e.tags.contains instanceLabel || e.instanceId.isEmpty then []
      else [(instanceLabel, e.instanceId)])

/-- The labels that a thing has besides. -/
def Told.pairs (t : Told) : List (String × String) :=
  (if t.unit.isEmpty then [] else [(unitLabel, t.unit)]) ++
    [(givenNameLabel, Text.base64OfString t.given)]

/-- All labels of a thing that an envelope tells. -/
def Envelope.pairs (t : Told) : List (String × String) := e.commonPairs defaults ++ t.pairs

/-- The metric that a thing becomes. -/
def Envelope.measured (t : Told) : Measurement :=
  let name := sanitize isMetricChar t.named
  let labels := Dict.ofList (e.pairs defaults t)
  ⟨.of name (identifyingLabels labels t.reading), name, labels, t.reading⟩

/-- Whether a thing can be a metric. -/
structure Envelope.Measurable (t : Told) : Prop where
  /-- No two of its labels have one name. -/
  distinct : ((e.pairs defaults t).map Prod.fst).Nodup
  /-- Its name is neither empty nor starts with a digit. -/
  name : isValidName (sanitize isMetricChar t.named) = true
  /-- No name of a label is empty or starts with a digit. -/
  labels : ∀ label ∈ e.pairs defaults t, isValidName label.1 = true

/-- Whether an envelope can be converted. -/
structure Envelope.Convertible : Prop where
  /-- No two of the common labels have one name. -/
  distinct : ((e.commonPairs defaults).map Prod.fst).Nodup
  /-- Everything that is told can be a metric. -/
  measurable : ∀ t ∈ e.told, e.Measurable defaults t

instance (t : Told) : Decidable (e.Measurable defaults t) :=
  decidable_of_iff
    (((e.pairs defaults t).map Prod.fst).Nodup ∧ isValidName (sanitize isMetricChar t.named) = true ∧
      ∀ label ∈ e.pairs defaults t, isValidName label.1 = true)
    ⟨fun ⟨distinct, name, labels⟩ => ⟨distinct, name, labels⟩,
      fun ⟨distinct, name, labels⟩ => ⟨distinct, name, labels⟩⟩

instance : Decidable (e.Convertible defaults) :=
  decidable_of_iff
    (((e.commonPairs defaults).map Prod.fst).Nodup ∧ ∀ t ∈ e.told, e.Measurable defaults t)
    ⟨fun ⟨distinct, measurable⟩ => ⟨distinct, measurable⟩,
      fun ⟨distinct, measurable⟩ => ⟨distinct, measurable⟩⟩

/-- How many remarks of each kind are made on an envelope that is converted. -/
def Envelope.remarkCount : Remark → Nat
  | .leftOut => (e.allTags defaults).length - (e.keptTags defaults).length
  | .modified =>
    (e.keptTags defaults).countP (fun tag => sanitize isTagChar tag.1 ≠ tag.1) +
      e.told.countP fun t => sanitize isMetricChar t.named ≠ t.named

end Labels

/-- Whether tags and readings are visited as a whole, each once. -/
structure ConversionOrder.Fair (order : ConversionOrder) : Prop where
  tags : ∀ tags, (order.tags tags).Perm tags
  readings : ∀ readings, (order.readings readings).Perm readings

/-- Everything may be visited as it comes. -/
theorem ConversionOrder.fair_id : (⟨id, id⟩ : ConversionOrder).Fair where
  tags _ := .refl _
  readings _ := .refl _

/-! ## Making labels -/

/-- A dictionary is made of its entries, in whatever order they come. -/
theorem Dict.ofList_of_perm {α : Type} {d : Dict α} {pairs : List (String × α)}
    (perm : d.toList.Perm pairs) : ofList pairs = d := by
  have distinct : (pairs.map Prod.fst).Nodup := (perm.map _).nodup_iff.mp d.keys_nodup
  exact ext_entries fun entry => ((toList_ofList_perm distinct).trans perm.symm).mem_iff

theorem Dict.mem_names_iff {α : Type} {d : Dict α} {pairs : List (String × α)}
    (perm : d.toList.Perm pairs) {key : String} :
    key ∈ pairs.map Prod.fst ↔ d.get? key ≠ none := by
  rw [← (perm.map Prod.fst).mem_iff, Option.ne_none_iff_exists']
  exact mem_keys_iff

/-- A new key comes to the entries. -/
theorem Dict.toList_insert_perm {α : Type} {d : Dict α} {key : String} (new : d.get? key = none)
    (value : α) : (d.insert key value).toList.Perm (d.toList ++ [(key, value)]) := by
  have absent : (key, value) ∉ d.toList := fun there => by
    rw [mem_toList_iff.mp there] at new
    cases new
  have distinct : (d.toList ++ [(key, value)]).Nodup :=
    (d.keys_nodup.of_map _).append (List.nodup_singleton _) (List.disjoint_singleton.mpr absent)
  refine (List.perm_ext_iff_of_nodup ((keys_nodup _).of_map _) distinct).mpr fun ⟨k, v⟩ => ?_
  show (k, v) ∈ (d.insert key value).toList ↔ _
  rw [List.mem_append, mem_toList_iff, mem_toList_iff, get?_insert, List.mem_singleton]
  by_cases same : k = key
  · simp [same, new, eq_comm]
  · simp [same]

/-- Whether a computation adds some labels in all, and does so if their names differ. -/
structure Makes (x : Remarked Labels) (pairs : List (String × String)) : Prop where
  /-- It does not fail if the names differ. -/
  exists_of_nodup : (pairs.map Prod.fst).Nodup → ∃ labels, x.result = .ok labels
  /-- These are the labels. -/
  perm : ∀ labels, x.result = .ok labels → labels.toList.Perm pairs

namespace Makes

variable {x : Remarked Labels} {pairs : List (String × String)}

theorem nodup (makes : Makes x pairs) {labels : Labels} (made : x.result = .ok labels) :
    (pairs.map Prod.fst).Nodup :=
  ((makes.perm labels made).map _).nodup_iff.mp labels.keys_nodup

theorem empty : Makes (pure .empty) [] :=
  ⟨fun _ => ⟨.empty, rfl⟩, fun _ made => result_pure_eq_ok_iff.mp made ▸ .nil⟩

/-- A label is added at the end. -/
theorem insertUnique (makes : Makes x pairs) (name value : String) :
    Makes (x >>= fun labels => Telemetry.insertUnique labels name value)
      (pairs ++ [(name, value)]) := by
  constructor
  · intro distinct
    rw [List.map_append, List.nodup_append] at distinct
    obtain ⟨before, -, apart⟩ := distinct
    obtain ⟨labels, made⟩ := makes.exists_of_nodup before
    have new : labels.get? name = none := by
      by_contra there
      exact apart name ((Dict.mem_names_iff (makes.perm labels made)).mpr there) name (by simp) rfl
    exact ⟨_, result_bind_eq_ok_iff.mpr ⟨labels, made, insertUnique_eq_ok_iff.mpr ⟨new, rfl⟩⟩⟩
  · intro more added
    obtain ⟨labels, made, added⟩ := result_bind_eq_ok_iff.mp added
    obtain ⟨new, rfl⟩ := insertUnique_eq_ok_iff.mp added
    exact (Dict.toList_insert_perm new value).trans ((makes.perm labels made).append_right _)

/-- A label is added unless there is a reason against it. -/
theorem insertUnless (makes : Makes x pairs) (has : Bool) (name value : String) :
    Makes (x >>= fun labels =>
        if has then pure labels else Telemetry.insertUnique labels name value)
      (pairs ++ if has then [] else [(name, value)]) := by
  cases has with
  | true => simpa using makes
  | false => exact makes.insertUnique name value

/-- A tag is added if it is kept. -/
theorem addTag (makes : Makes x pairs) (tag : String × String) :
    Makes (x >>= fun labels => Telemetry.addTag labels tag)
      (pairs ++ tagPairs ([tag].filter fun tag => IsKept tag)) := by
  by_cases kept : IsKept tag
  · have added := makes.insertUnique (sanitize isTagChar tag.1) tag.2
    have same : ∀ labels, (x >>= fun labels => Telemetry.addTag labels tag).result = .ok labels ↔
        (x >>= fun labels =>
          Telemetry.insertUnique labels (sanitize isTagChar tag.1) tag.2).result = .ok labels := by
      simp only [result_bind_eq_ok_iff, result_addTag_of_kept kept, implies_true]
    have one : tagPairs ([tag].filter fun tag => IsKept tag) =
        [(sanitize isTagChar tag.1, tag.2)] := by
      simp [tagPairs, kept]
    rw [one]
    exact ⟨by simpa only [same] using added.exists_of_nodup, by simpa only [same] using added.perm⟩
  · have same : ∀ labels, (x >>= fun labels => Telemetry.addTag labels tag).result = .ok labels ↔
        x.result = .ok labels := by
      simp [result_bind_eq_ok_iff, result_addTag_of_not_kept kept]
    have nothing : tagPairs ([tag].filter fun tag => IsKept tag) = [] := by simp [tagPairs, kept]
    rw [nothing, List.append_nil]
    exact ⟨by simpa only [same] using makes.exists_of_nodup, by simpa only [same] using makes.perm⟩

theorem foldlM_addTag (makes : Makes x pairs) (tags : List (String × String)) :
    Makes (x >>= fun labels => tags.foldlM Telemetry.addTag labels)
      (pairs ++ tagPairs (tags.filter fun tag => IsKept tag)) := by
  induction tags generalizing x pairs with
  | nil => simpa [tagPairs] using makes
  | cons tag tags ih =>
      have rest := ih (makes.addTag tag)
      have split : tagPairs ((tag :: tags).filter fun tag => IsKept tag) =
          tagPairs ([tag].filter fun tag => IsKept tag) ++
            tagPairs (tags.filter fun tag => IsKept tag) := by
        rw [tagPairs, tagPairs, tagPairs, ← List.map_append, ← List.filter_append,
          List.singleton_append]
      rw [split, ← List.append_assoc]
      simpa only [List.foldlM_cons, bind_assoc] using rest

/-- The order of labels makes no difference. -/
theorem of_perm (makes : Makes x pairs) {pairs' : List (String × String)}
    (perm : pairs.Perm pairs') : Makes x pairs' :=
  ⟨fun distinct => makes.exists_of_nodup ((perm.map _).nodup_iff.mpr distinct),
    fun labels made => (makes.perm labels made).trans perm⟩

end Makes

/-- The common labels, whatever the order of the tags. -/
theorem makes_commonLabels (defaults : Dict String) (e : Envelope) {tags : List (String × String)}
    (perm : tags.Perm (tagsWithDefaults defaults e).toList) :
    Makes (commonLabels e tags) (e.commonPairs defaults) := by
  have all : tags.Perm (e.allTags defaults) := perm.trans (tagsWithDefaults_perm defaults e)
  have kept : (tagPairs (tags.filter fun tag => IsKept tag)).Perm
      (tagPairs (e.keptTags defaults)) := (all.filter _).map _
  have made := ((Makes.empty.foldlM_addTag tags).insertUnless (e.tags.contains sourceLabel)
    sourceLabel e.sourceId).insertUnless (e.tags.contains instanceLabel || e.instanceId.isEmpty)
    instanceLabel e.instanceId
  simp only [pure_bind, bind_assoc, List.nil_append] at made
  rw [commonLabels_eq]
  exact made.of_perm ((kept.append_right _).append_right _)

/-- A label of a thing is found in its metric. -/
theorem Envelope.Measurable.get?_labels {defaults : Dict String} {e : Envelope} {t : Told}
    (can : e.Measurable defaults t) {name value : String} :
    (e.measured defaults t).labels.get? name = some value ↔ (name, value) ∈ e.pairs defaults t := by
  have perm : (e.measured defaults t).labels.toList.Perm (e.pairs defaults t) :=
    Dict.toList_ofList_perm can.distinct
  rw [← perm.mem_iff, Dict.mem_toList_iff]

/-! ## Measuring -/

/-- The measurement of a thing, from the common labels. -/
def measure (labels : Labels) (t : Told) : Remarked Measurement := do
  let name ← sanitizeName t.named
  let labels ← (if t.unit.isEmpty then pure labels
    else insertUnique labels unitLabel t.unit : Remarked Labels)
  measurement name t.given labels t.reading

/-- Labels are valid names if those they are made of are. -/
theorem find?_invalid_eq_none_iff_of_perm {labels : Labels} {pairs : List (String × String)}
    (perm : labels.toList.Perm pairs) :
    labels.keys.find? (!isValidName ·) = none ↔ ∀ label ∈ pairs, isValidName label.1 = true := by
  rw [find?_invalid_eq_none_iff]
  constructor
  · intro valid label there
    exact valid label.1 label.2 (Dict.mem_toList_iff.mp (perm.mem_iff.mpr there))
  · intro valid key value found
    exact valid (key, value) (perm.mem_iff.mp (Dict.mem_toList_iff.mpr found))

/-- What a thing becomes, and when. -/
theorem result_measure_eq_ok_iff {defaults : Dict String} {e : Envelope} {labels : Labels}
    (perm : labels.toList.Perm (e.commonPairs defaults)) (t : Told) (m : Measurement) :
    (measure labels t).result = .ok m ↔
      e.Measurable defaults t ∧ m = e.measured defaults t := by
  have base : Makes (pure labels) (e.commonPairs defaults) :=
    ⟨fun _ => ⟨labels, rfl⟩, fun _ made => result_pure_eq_ok_iff.mp made ▸ perm⟩
  have makes := (base.insertUnless t.unit.isEmpty unitLabel t.unit).insertUnique givenNameLabel
    (Text.base64OfString t.given)
  rw [pure_bind, List.append_assoc, ← Told.pairs, ← Envelope.pairs] at makes
  have steps : (measure labels t).result = .ok m ↔
      isValidName (sanitize isMetricChar t.named) = true ∧ ∃ more,
        (do
          let labels ← (if t.unit.isEmpty then pure labels
            else insertUnique labels unitLabel t.unit : Remarked Labels)
          insertUnique labels givenNameLabel (Text.base64OfString t.given)).result = .ok more ∧
        more.keys.find? (!isValidName ·) = none ∧
        m = ⟨.of (sanitize isMetricChar t.named) (identifyingLabels more t.reading),
          sanitize isMetricChar t.named, more, t.reading⟩ := by
    simp only [measure, sanitizeName, result_bind_eq_ok_iff, result_noteIf_bind,
      result_pure_eq_ok_iff, result_measurement_eq_ok_iff]
    constructor
    · rintro ⟨_, rfl, withUnit, unit, valid, more, added, names, rfl⟩
      exact ⟨valid, more, ⟨withUnit, unit, added⟩, names, rfl⟩
    · rintro ⟨valid, more, ⟨withUnit, unit, added⟩, names, rfl⟩
      exact ⟨_, rfl, withUnit, unit, valid, more, added, names, rfl⟩
  rw [steps]
  constructor
  · rintro ⟨valid, more, made, names, rfl⟩
    have pairs := makes.perm more made
    refine ⟨⟨makes.nodup made, valid, (find?_invalid_eq_none_iff_of_perm pairs).mp names⟩, ?_⟩
    rw [Envelope.measured, Dict.ofList_of_perm pairs]
  · rintro ⟨⟨distinct, valid, names⟩, rfl⟩
    obtain ⟨more, made⟩ := makes.exists_of_nodup distinct
    have pairs := makes.perm more made
    refine ⟨valid, more, made, (find?_invalid_eq_none_iff_of_perm pairs).mpr names, ?_⟩
    rw [Envelope.measured, Dict.ofList_of_perm pairs]

/-- All of some elements have a result, if each has one of its own on a condition. -/
theorem Remarked.result_mapM_eq_ok_iff {α β : Type} {f : α → Remarked β} {can : α → Prop}
    {g : α → β} (each : ∀ a b, (f a).result = .ok b ↔ can a ∧ b = g a) (as : List α)
    (bs : List β) : (as.mapM f).result = .ok bs ↔ (∀ a ∈ as, can a) ∧ bs = as.map g := by
  induction as generalizing bs with
  | nil =>
      rw [List.mapM_nil, result_pure_eq_ok_iff]
      simp [eq_comm]
  | cons a as ih =>
      simp only [List.mapM_cons, result_bind_eq_ok_iff, result_pure_eq_ok_iff, each, ih,
        List.forall_mem_cons, List.map_cons]
      constructor
      · rintro ⟨_, ⟨first, rfl⟩, _, ⟨others, rfl⟩, rfl⟩
        exact ⟨⟨first, others⟩, rfl⟩
      · rintro ⟨⟨first, others⟩, rfl⟩
        exact ⟨_, ⟨first, rfl⟩, _, ⟨others, rfl⟩, rfl⟩

/-! ## Converting -/

section Converting

variable {order : ConversionOrder} {defaults : Dict String} {e : Envelope} {message : Message}

/-- A single thing is measured after the common labels, and noted before them. -/
theorem result_single_eq_ok_iff {common : Remarked Labels} {t : Told} (unit : t.unit = "")
    {ms : List Measurement} :
    (do
      let name ← sanitizeName t.named
      let m ← measurement name t.given (← common) t.reading
      return [m]).result = .ok ms ↔
      ∃ labels, common.result = .ok labels ∧ ([t].mapM (measure labels)).result = .ok ms := by
  have none : t.unit.isEmpty = true := String.isEmpty_iff.mpr unit
  simp only [List.mapM_cons, List.mapM_nil, measure, none, if_true, sanitizeName,
    result_bind_eq_ok_iff, result_noteIf_bind, result_pure_eq_ok_iff]
  constructor
  · rintro ⟨_, rfl, labels, made, m, measured, rfl⟩
    exact ⟨labels, made, m, ⟨_, rfl, _, rfl, measured⟩, _, rfl, rfl⟩
  · rintro ⟨labels, made, m, ⟨_, rfl, _, rfl, measured⟩, _, rfl, rfl⟩
    exact ⟨_, rfl, labels, made, m, measured, rfl⟩

/-- The readings of a gauge are measured one by one. -/
theorem mapM_gaugeMeasurement (labels : Labels) (readings : List (String × GaugeReading)) :
    readings.mapM (gaugeMeasurement labels) =
      (readings.map Told.ofReading).mapM (measure labels) := by
  rw [List.mapM_map]
  refine congrArg (readings.mapM ·) (funext fun reading => ?_)
  exact gaugeMeasurement_eq labels reading

/-- A message is converted thing by thing, after the common labels. -/
theorem result_convertIn_eq_ok_iff (has : e.message = some message) {ms : List Measurement} :
    (convertIn order defaults e).result = .ok ms ↔ ∃ labels,
      (commonLabels e (order.tags (tagsWithDefaults defaults e).toList)).result = .ok labels ∧
        ((message.toldIn order.readings).mapM (measure labels)).result = .ok ms := by
  unfold convertIn
  rw [has]
  cases message with
  | counter c => exact result_single_eq_ok_iff (t := ⟨c.name, c.name, "", _⟩) rfl
  | gauge readings =>
      simp only [Message.toldIn, ← mapM_gaugeMeasurement]
      exact result_bind_eq_ok_iff
  | timer t => exact result_single_eq_ok_iff (t := ⟨t.name, t.name ++ secondsEnding, "", _⟩) rfl

theorem toldIn_perm (fair : order.Fair) (has : e.message = some message) :
    (message.toldIn order.readings).Perm e.told := by
  rw [Envelope.told, has, Option.map_some, Option.getD_some]
  cases message with
  | counter c => exact .refl _
  | gauge readings => exact (fair.readings _).map _
  | timer t => exact .refl _

/-- An envelope with a message becomes what it tells, if it can be converted. -/
theorem converts_iff (fair : order.Fair) (has : e.message = some message) (ms : List Measurement) :
    (convertIn order defaults e).result = .ok ms ↔
      e.Convertible defaults ∧ ms = (message.toldIn order.readings).map (e.measured defaults) := by
  have common := makes_commonLabels defaults e (fair.tags _)
  have told := toldIn_perm fair has
  rw [result_convertIn_eq_ok_iff has]
  constructor
  · rintro ⟨labels, made, measured⟩
    obtain ⟨can, rfl⟩ := (result_mapM_eq_ok_iff
      (result_measure_eq_ok_iff (common.perm labels made)) _ ms).mp measured
    exact ⟨⟨common.nodup made, fun t there => can t (told.mem_iff.mpr there)⟩, rfl⟩
  · rintro ⟨⟨distinct, can⟩, rfl⟩
    obtain ⟨labels, made⟩ := common.exists_of_nodup distinct
    refine ⟨labels, made, (result_mapM_eq_ok_iff
      (result_measure_eq_ok_iff (common.perm labels made)) _ _).mpr ⟨fun t there => ?_, rfl⟩⟩
    exact can t (told.mem_iff.mp there)

/-- What comes of a conversion is, in some order, what becomes of the things that are told.  Without
a message nothing is told, and nothing comes of it. -/
theorem measured_of_converted (fair : order.Fair) {ms : List Measurement}
    (made : (convertIn order defaults e).result = .ok ms) :
    ms.Perm (e.told.map (e.measured defaults)) ∧ ∀ t ∈ e.told, e.Measurable defaults t := by
  cases has : e.message with
  | none =>
      have nothing : e.told = [] := by rw [Envelope.told, has]; rfl
      rw [convertIn, has, result_pure_eq_ok_iff] at made
      rw [nothing, ← made]
      exact ⟨.nil, List.forall_mem_nil _⟩
  | some message =>
      obtain ⟨can, rfl⟩ := (converts_iff fair has ms).mp made
      exact ⟨(toldIn_perm fair has).map _, can.measurable⟩

/-! ## Noting -/

theorem notes_measure (labels : Labels) (t : Told) :
    Notes (measure labels t) (remarksOfName t.named) := by
  have noted := (notes_sanitizeName t.named).bind fun name =>
    (notes_insertUnless labels t.unit.isEmpty unitLabel t.unit).bind fun labels =>
      notes_measurement name t.given labels t.reading
  rw [List.append_nil, List.append_nil] at noted
  exact noted

/-- What is noted of an envelope with a message, in some order. -/
theorem exists_notes_convertIn (defaults : Dict String) (fair : order.Fair)
    (has : e.message = some message) :
    ∃ remarks, Notes (convertIn order defaults e) remarks ∧
      remarks.Perm ((e.allTags defaults).flatMap remarksOfTag ++
        e.told.flatMap fun t => remarksOfName t.named) := by
  have tags : (order.tags (tagsWithDefaults defaults e).toList).Perm (e.allTags defaults) :=
    (fair.tags _).trans (tagsWithDefaults_perm defaults e)
  have told := toldIn_perm fair has
  have common := notes_commonLabels e (order.tags (tagsWithDefaults defaults e).toList)
  -- The name of a single thing is noted before the tags.
  have single : ∀ (t : Told), Notes (do
      let name ← sanitizeName t.named
      let m ← measurement name t.given
        (← commonLabels e (order.tags (tagsWithDefaults defaults e).toList)) t.reading
      return [m]) (remarksOfName t.named ++
        (order.tags (tagsWithDefaults defaults e).toList).flatMap remarksOfTag) := by
    intro t
    have noted := (notes_sanitizeName t.named).bind fun name => common.bind fun labels =>
      (notes_measurement name t.given labels t.reading).bind fun m => Notes.pure [m]
    rw [List.append_nil, List.append_nil] at noted
    exact noted
  have alone : ∀ {t : Told}, e.told = [t] →
      (remarksOfName t.named ++
        (order.tags (tagsWithDefaults defaults e).toList).flatMap remarksOfTag).Perm
          ((e.allTags defaults).flatMap remarksOfTag ++
            e.told.flatMap fun t => remarksOfName t.named) := by
    intro t one
    rw [one, List.flatMap_singleton]
    exact List.perm_append_comm.trans ((tags.flatMap_right _).append_right _)
  unfold convertIn
  rw [has]
  cases message with
  | counter c => exact ⟨_, single ⟨c.name, c.name, "", _⟩, alone (by rw [Envelope.told, has]; rfl)⟩
  | gauge readings =>
      refine ⟨_, common.bind fun labels => ?_,
        (tags.flatMap_right _).append (told.flatMap_right _)⟩
      rw [mapM_gaugeMeasurement]
      exact .mapM (notes_measure labels) _
  | timer t =>
      exact ⟨_, single ⟨t.name, t.name ++ secondsEnding, "", _⟩,
        alone (by rw [Envelope.told, has]; rfl)⟩

end Converting

/-! ## Counting what is noted -/

theorem count_leftOut_tags (tags : List (String × String)) :
    (tags.flatMap remarksOfTag).count .leftOut + (tags.filter fun tag => IsKept tag).length =
      tags.length := by
  induction tags with
  | nil => rfl
  | cons tag tags ih =>
      rw [List.flatMap_cons, List.count_append, List.length_cons, ← ih]
      by_cases kept : IsKept tag
      · by_cases clean : sanitize isTagChar tag.1 = tag.1 <;>
          simp [remarksOfTag, kept, clean, Nat.add_assoc]
      · simp [remarksOfTag, kept]
        omega

theorem count_modified_tags (tags : List (String × String)) :
    (tags.flatMap remarksOfTag).count .modified =
      (tags.filter fun tag => IsKept tag).countP fun tag =>
        sanitize isTagChar tag.1 ≠ tag.1 := by
  induction tags with
  | nil => rfl
  | cons tag tags ih =>
      rw [List.flatMap_cons, List.count_append, ih]
      by_cases kept : IsKept tag
      · by_cases clean : sanitize isTagChar tag.1 = tag.1 <;>
          simp [remarksOfTag, kept, clean, Nat.add_comm]
      · simp [remarksOfTag, kept]

theorem count_names (told : List Told) (r : Remark) :
    (told.flatMap fun t => remarksOfName t.named).count r =
      match r with
      | .leftOut => 0
      | .modified => told.countP fun t => sanitize isMetricChar t.named ≠ t.named := by
  induction told with
  | nil => cases r <;> rfl
  | cons t told ih =>
      rw [List.flatMap_cons, List.count_append, ih]
      cases r <;> by_cases clean : sanitize isMetricChar t.named = t.named <;>
        simp [remarksOfName, clean, Nat.add_comm]

/-- As many remarks of each kind are told beforehand as there are tags and names for them. -/
theorem count_remarks (defaults : Dict String) (e : Envelope) (r : Remark) :
    ((e.allTags defaults).flatMap remarksOfTag ++
      e.told.flatMap fun t => remarksOfName t.named).count r = e.remarkCount defaults r := by
  rw [List.count_append, count_names]
  cases r with
  | leftOut =>
      have all := count_leftOut_tags (e.allTags defaults)
      simp only [Envelope.remarkCount, Envelope.keptTags]
      omega
  | modified => rw [count_modified_tags, Envelope.remarkCount, Envelope.keptTags]

/-- No more remarks are made than are told beforehand, and all of them are if an envelope with a
message is converted. -/
theorem count_remarks_convertIn {order : ConversionOrder} (fair : order.Fair)
    (defaults : Dict String) (e : Envelope) (r : Remark) :
    (convertIn order defaults e).remarks.count r ≤ e.remarkCount defaults r ∧
      (e.message ≠ none → ∀ ms, (convertIn order defaults e).result = .ok ms →
        (convertIn order defaults e).remarks.count r = e.remarkCount defaults r) := by
  cases has : e.message with
  | none =>
      have nothing : (convertIn order defaults e).remarks = [] := by
        rw [convertIn, has]
        rfl
      rw [nothing]
      exact ⟨Nat.zero_le _, fun absurdly => absurd rfl absurdly⟩
  | some message =>
      obtain ⟨remarks, notes, perm⟩ := exists_notes_convertIn defaults fair has
      rw [← count_remarks, ← perm.count_eq]
      exact ⟨notes.count_le r, fun _ ms made => by rw [notes.ends ms made]⟩

/-! ## The whole conversion -/

/-- What an envelope with a message becomes, whatever the order in which it is visited. -/
structure Envelope.ConvertedExactly (order : ConversionOrder) (defaults : Dict String)
    (e : Envelope) : Prop where
  /-- It is converted if no name of a label stands twice and all names are valid, and in no other
  case. -/
  converts : (∃ ms, (convertIn order defaults e).result = .ok ms) ↔ e.Convertible defaults
  /-- Then each thing it tells becomes a metric. -/
  measurements : ∀ ms, (convertIn order defaults e).result = .ok ms →
    ms.Perm (e.told.map (e.measured defaults))
  /-- These have the labels of the tags that are kept, and those that are derived, and no others. -/
  labels : ∀ ms, (convertIn order defaults e).result = .ok ms →
    ∀ t ∈ e.told, (e.measured defaults t).labels.toList.Perm (e.pairs defaults t)
  /-- Each tag that was left out and each name that was changed has been counted once. -/
  counted : ∀ ms, (convertIn order defaults e).result = .ok ms → ∀ d : Diagnostics,
    d.Gains (d.remark e.sourceId (convertIn order defaults e).remarks) e.sourceId
      (e.remarkCount defaults)

/-- The order in which tags and readings are visited makes no difference to what an envelope
becomes. -/
theorem converted_exactly {order : ConversionOrder} (fair : order.Fair) (defaults : Dict String)
    {e : Envelope} (told : e.message ≠ none) : e.ConvertedExactly order defaults := by
  obtain ⟨message, has⟩ := Option.ne_none_iff_exists'.mp told
  refine ⟨?_, fun ms made => (measured_of_converted fair made).1, fun ms made t there => ?_,
    fun ms made d => ?_⟩
  · simp only [converts_iff fair has, exists_and_left, exists_eq, and_true]
  · exact Dict.toList_ofList_perm ((measured_of_converted fair made).2 t there).distinct
  · have counts : (convertIn order defaults e).remarks.count = e.remarkCount defaults :=
      funext fun r => (count_remarks_convertIn fair defaults e r).2 told ms made
    exact counts ▸ d.gains_remark e.sourceId _

/-- A gauge with tags and readings of many kinds. -/
def manyTags : Envelope :=
  let tags : Dict String :=
    .ofList [("__quiet", "x"), ("instance_id", ""), ("job", "web"), ("not.valid", "a")]
  let readings : Dict GaugeReading :=
    .ofList [("cpu.load", ⟨.ofNat 1, "%"⟩), ("threads", ⟨.ofNat 8, ""⟩)]
  ⟨"svc", "0", tags, some (.gauge readings)⟩

/-- Everything is visited in the other order. -/
def turned : ConversionOrder := ⟨List.reverse, List.reverse⟩

/-- It is converted, and not any more with a default tag for the unit or for a tag that is
changed. -/
theorem converted_manyTags :
    turned.Fair ∧ manyTags.message ≠ none ∧ manyTags.ConvertedExactly turned sharedTags ∧
      manyTags.Convertible sharedTags ∧
      manyTags.told.map (fun t => (manyTags.measured sharedTags t).labels.toList) =
        [[("deployment", "cf"), ("job", "web"), ("loggregator_name", "Y3B1LmxvYWQ="),
            ("not_valid", "a"), ("source_id", "svc"), ("unit", "%")],
          [("deployment", "cf"), ("job", "web"), ("loggregator_name", "dGhyZWFkcw=="),
            ("not_valid", "a"), ("source_id", "svc")]] ∧
      [Remark.modified, .leftOut].map (manyTags.remarkCount sharedTags) = [2, 2] ∧
      ¬manyTags.Convertible (.ofList [("unit", "s")]) ∧
      ¬manyTags.Convertible (.ofList [("not_valid", "b")]) := by
  have fair : turned.Fair := ⟨List.reverse_perm, List.reverse_perm⟩
  have told : manyTags.message ≠ none := nofun
  refine ⟨fair, told, converted_exactly fair sharedTags told, ?_, ?_, ?_, ?_, ?_⟩
  all_goals decide +kernel

end Telemetry
