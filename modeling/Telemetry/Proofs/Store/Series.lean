import Telemetry.Proofs.Conversion
import Telemetry.Proofs.Exposition.Samples
import Telemetry.Proofs.Merging
import Telemetry.Proofs.Store.Found
import Telemetry.Proofs.Text.Base64

/-!
# Series

A *series* is a name with labels, and a scrape must not find one twice.  What a
store keeps is identified by its name and labels on each shelf, so a family has two
metrics with the same labels only if two sources keep one each (`Store.Shared`).
That takes an envelope with a tag for the source that is not the source it comes
from: such a tag stands in the place of the label that keeps sources apart.

Where no envelope does that, no two samples of the exposition are one series.
Within a family the labels or the bound tell two samples apart.  Samples of two
families may have one name, such as the count of a histogram and a counter that is
called the same, but not one given name as well.
-/

namespace Telemetry

/-! ## What is kept -/

/-- Whether a histogram is kept. -/
def Stored.isHistogram : Stored → Bool
  | .histogram _ => true
  | _ => false

/-- The identity of a metric that is kept. -/
def StoredMetric.identity (m : StoredMetric) : Identity :=
  .of m.name <|
    match m.stored with
    | .gauge _ => m.labels.toList.filter (·.1 ≠ unitLabel)
    | _ => m.labels.toList

/-- What holds of every metric that is kept under an identity. -/
structure StoredMetric.Sound (id : Identity) (m : StoredMetric) : Prop where
  /-- It is kept under its own identity. -/
  identity : id = m.identity
  /-- Its name is made of the one it was given, and a label tells that one. -/
  name : ∃ given, m.name = metricName m.stored.isHistogram given ∧
    m.labels.get? givenNameLabel = some (Text.base64OfString given)
  /-- A histogram has the bounds of timers. -/
  bounds : ∀ h, m.stored = .histogram h → h.buckets.map Prod.fst = Histogram.timerBounds

/-- A duration is kept as a histogram, whatever was there. -/
theorem Shelf.absorb_duration (before : Option StoredMetric) (seconds : Double) :
    ∃ h, absorb before (.duration seconds) = .histogram h := by
  unfold absorb
  dsimp only
  split
  · exact ⟨_, rfl⟩
  · exact ⟨_, rfl⟩

theorem Shelf.isHistogram_absorb (before : Option StoredMetric) (reading : Reading) :
    (absorb before reading).isHistogram = reading.isDuration := by
  cases reading with
  | counter v => rfl
  | gauge v => rfl
  | duration seconds =>
      obtain ⟨h, equal⟩ := absorb_duration before seconds
      rw [equal]
      rfl

theorem Histogram.bounds_observe (h : Histogram) (x : Double) :
    (h.observe x).buckets.map Prod.fst = h.buckets.map Prod.fst := by
  rw [observe, List.map_map]
  rfl

/-- Bounds that were those of timers before a reading are so after it. -/
theorem Shelf.bounds_absorb {before : Option StoredMetric} {reading : Reading} {h : Histogram}
    (sound : ∀ m, before = some m → ∀ h, m.stored = .histogram h →
      h.buckets.map Prod.fst = Histogram.timerBounds)
    (kept : absorb before reading = .histogram h) :
    h.buckets.map Prod.fst = Histogram.timerBounds := by
  cases reading with
  | counter v => cases kept
  | gauge v => cases kept
  | duration seconds =>
      unfold absorb at kept
      dsimp only at kept
      split at kept
      next _ _ h' _ =>
        cases kept
        rw [Histogram.bounds_observe]
        exact sound _ rfl h' rfl
      next =>
        cases kept
        rw [Histogram.bounds_observe, Histogram.new, List.map_map]
        exact List.map_id _

/-- What is kept of a measurement is sound, if all that is there is. -/
theorem Store.sound_kept {s : Store} (sound : s.Everywhere fun _ => StoredMetric.Sound)
    {m : Measurement} {labels : Labels} (fits : m.Fits labels) (sourceId : String) (now : Nat) :
    (s.kept sourceId now m).Sound m.identity := by
  refine ⟨?_, ?_, ?_⟩
  · rw [fits.identity, StoredMetric.identity, kept]
    cases m.reading with
    | counter v => rfl
    | gauge v => rfl
    | duration seconds =>
        obtain ⟨h, equal⟩ := Shelf.absorb_duration (s.find? sourceId m.identity) seconds
        rw [equal]
        rfl
  · obtain ⟨given, name, label⟩ := fits.name
    refine ⟨given, ?_, label⟩
    rw [kept, Shelf.isHistogram_absorb]
    exact name
  · intro h equal
    refine Shelf.bounds_absorb (fun before found => ?_) equal
    exact (sound _ _ _ found).bounds

/-- Everything that is kept after a run is sound. -/
theorem sound_run (defaults : Dict String) (ttl : Nat) (d : Diagnostics)
    (steps : List Collector.Step) :
    (Collector.run (.fresh defaults ttl, d) steps).1.store.Everywhere
      fun _ => StoredMetric.Sound := by
  refine everywhere_run (fun e now ms _ converted m there s sound => ?_) ttl d
  obtain ⟨labels, -, fits⟩ := of_mem_convertIn converted m there
  exact Store.sound_kept sound fits e.sourceId now

/-- A metric that lacks the label of its source comes from an envelope that told another one. -/
theorem source_run {defaults : Dict String} {steps : List Collector.Step} (ttl : Nat)
    (d : Diagnostics) :
    (Collector.run (.fresh defaults ttl, d) steps).1.store.Everywhere fun sourceId _ m =>
      m.labels.get? sourceLabel = some sourceId ∨
        ∃ e now, .write e now ∈ steps ∧ e.sourceId = sourceId ∧ ¬e.KeepsSource := by
  refine everywhere_run (fun e now ms written converted m there s _ => ?_) ttl d
  by_cases keeps : e.KeepsSource
  · exact .inl (source_of_mem_convert keeps converted m there)
  · exact .inr ⟨e, now, written, rfl, keeps⟩

/-! ## Families -/

/-- Whether a metric is exposed in a family. -/
def StoredMetric.BelongsTo (m : StoredMetric) (f : Family) : Prop :=
  m.name = f.name ∧ f.kind = m.stored.value.kind

instance (m : StoredMetric) (f : Family) : Decidable (m.BelongsTo f) :=
  inferInstanceAs (Decidable (_ ∧ _))

/-- Metrics of one family are told apart by their labels. -/
theorem StoredMetric.identity_congr {f : Family} {m m' : StoredMetric} (belongs : m.BelongsTo f)
    (belongs' : m'.BelongsTo f) (labels : m.labels = m'.labels) : m.identity = m'.identity := by
  have name : m.name = m'.name := belongs.1.trans belongs'.1.symm
  have kind : m.stored.value.kind = m'.stored.value.kind := belongs.2.symm.trans belongs'.2
  rw [identity, identity, name, labels]
  revert kind
  cases m.stored <;> cases m'.stored <;> intro kind
  all_goals first | rfl | cases kind

namespace Store

theorem metrics_of_mem_familiesOf {visited : List StoredMetric} {f : Family}
    (there : f ∈ familiesOf visited) :
    f.metrics = (visited.filter (·.BelongsTo f)).map fun m => ⟨m.labels, m.stored.value⟩ := by
  rw [Family.metrics_of_mem_merge there, List.filter_map, List.flatMap_map, List.map_eq_flatMap]
  rfl

/-- Where all metrics of a name are of one kind, the family of the name has all of them. -/
theorem exposes_iff {visited : List StoredMetric} {name : String}
    (alike : ∀ m ∈ visited, ∀ m' ∈ visited, m.name = name → m'.name = name →
      m.stored.value.kind = m'.stored.value.kind) (metric : Metric) :
    (∃ f ∈ familiesOf visited, f.name = name ∧ f.kind = metric.value.kind ∧ metric ∈ f.metrics) ↔
      ∃ m ∈ visited, m.name = name ∧ ⟨m.labels, m.stored.value⟩ = metric := by
  constructor
  · rintro ⟨f, there, named, -, metric⟩
    rw [metrics_of_mem_familiesOf there] at metric
    obtain ⟨m, found, rfl⟩ := List.mem_map.mp metric
    obtain ⟨among, belongs⟩ := List.mem_filter.mp found
    exact ⟨m, among, (of_decide_eq_true belongs).1.trans named, rfl⟩
  · rintro ⟨m, there, named, rfl⟩
    cases ofName : (visited.map StoredMetric.family).filter (·.name = name) with
    | nil =>
        have among : m.family ∈ (visited.map StoredMetric.family).filter (·.name = name) :=
          List.mem_filter.mpr ⟨List.mem_map_of_mem there, decide_eq_true named⟩
        rw [ofName] at among
        cases among
    | cons first others =>
        have firstNamed : first.name = name := Family.named_of_filter ofName
        have merged : first.absorbAll others ∈ familiesOf visited :=
          Family.mem_merge_iff.mpr ⟨first, others, by rw [← ofName, ← firstNamed]; rfl, rfl⟩
        -- The first family of the name is made of a metric, which is of the same kind.
        have among : first ∈ visited.map StoredMetric.family :=
          (List.mem_filter.mp (ofName ▸ List.mem_cons_self)).1
        obtain ⟨m', there', rfl⟩ := List.mem_map.mp among
        have kind : m'.stored.value.kind = m.stored.value.kind :=
          alike m' there' m there firstNamed named
        refine ⟨_, merged, firstNamed, kind, ?_⟩
        rw [metrics_of_mem_familiesOf merged]
        refine List.mem_map_of_mem (List.mem_filter.mpr ⟨there, decide_eq_true ⟨?_, kind⟩⟩)
        exact named.trans firstNamed.symm

/-- Whether two sources keep a metric with the same labels for one family. -/
def Shared (s : Store) (a b : String) (f : Family) : Prop :=
  a ≠ b ∧ ∃ id id' m m', s.find? a id = some m ∧ s.find? b id' = some m' ∧ m.BelongsTo f ∧
    m'.BelongsTo f ∧ m.labels = m'.labels

/-- Labels stand twice in a family only if two sources share them. -/
theorem labels_nodup_iff {s : Store} (sound : s.Everywhere fun _ => StoredMetric.Sound)
    {visited : List StoredMetric} (perm : visited.Perm s.metrics) {f : Family}
    (there : f ∈ familiesOf visited) :
    (f.metrics.map (·.labels)).Nodup ↔ ∀ a b, ¬s.Shared a b f := by
  let found := s.entries.filter (·.2.BelongsTo f)
  have labels : (f.metrics.map (·.labels)).Perm (found.map (·.2.labels)) := by
    rw [metrics_of_mem_familiesOf there, List.map_map]
    have visitedFound : (visited.filter (·.BelongsTo f)).Perm (found.map Prod.snd) := by
      have all := perm.filter (·.BelongsTo f)
      rw [metrics_eq, List.filter_map] at all
      exact all
    have mapped := visitedFound.map (·.labels)
    rw [List.map_map] at mapped
    exact mapped
  have nodup : found.Nodup := (s.entries_nodup.of_map _).filter _
  have mem_found : ∀ {a id m}, ((a, id), m) ∈ found ↔ s.find? a id = some m ∧ m.BelongsTo f := by
    intro a id m
    rw [List.mem_filter, mem_entries_iff, decide_eq_true_iff]
  rw [labels.nodup_iff, List.nodup_map_iff_inj_on nodup]
  constructor
  · rintro injective a b ⟨different, id, id', m, m', there, there', belongs, belongs', labels⟩
    have equal := injective _ (mem_found.mpr ⟨there, belongs⟩) _ (mem_found.mpr ⟨there', belongs'⟩)
      labels
    cases equal
    exact different rfl
  · rintro unshared ⟨⟨a, id⟩, m⟩ one ⟨⟨b, id'⟩, m'⟩ other labels
    obtain ⟨there, belongs⟩ := mem_found.mp one
    obtain ⟨there', belongs'⟩ := mem_found.mp other
    by_cases same : a = b
    · subst same
      -- On one shelf the labels and the family make the identity, which is the key.
      have id_eq : id = id' := by
        rw [(sound _ _ _ there).identity, (sound _ _ _ there').identity]
        exact StoredMetric.identity_congr belongs belongs' labels
      subst id_eq
      rw [there] at there'
      cases there'
      rfl
    · exact absurd ⟨same, id, id', m, m', there, there', belongs, belongs', labels⟩
        (unshared a b)

end Store

/-! ## Samples -/

namespace StoredMetric

/-- The series of a metric that is kept. -/
def series (m : StoredMetric) : List (String × List (String × String)) :=
  ((Metric.mk m.labels m.stored.value).samples m.name).map (·.series)

/-- The bounds that a timer exposes. -/
def exposedBounds : List Double := Histogram.timerBounds ++ [.infinity false]

theorem exposedBounds_texts_nodup : (exposedBounds.map boundText).Nodup := by
  decide +kernel

theorem bounds_closed {h : Histogram} (bounds : h.buckets.map Prod.fst = Histogram.timerBounds) :
    h.distribution.closed.buckets.map (·.upperBound) = exposedBounds := by
  have given : h.distribution.buckets.map (·.upperBound) = Histogram.timerBounds := by
    rw [Histogram.distribution, List.map_map]
    exact bounds
  have last : h.distribution.isClosed = false := by
    have finite : (Histogram.timerBounds.getLast?.any (·.isInfinite)) = false := by decide +kernel
    rw [← given, List.getLast?_map, Option.any_map] at finite
    exact finite
  rw [Distribution.closed, last]
  simp only [Bool.false_eq_true, if_false, List.map_append, given]
  rfl

theorem series_histogram {m : StoredMetric} {h : Histogram} (kept : m.stored = .histogram h)
    (bounds : h.buckets.map Prod.fst = Histogram.timerBounds) :
    m.series =
      (exposedBounds.map fun bound =>
        (m.name ++ Bucket.ending, m.labels.toList ++ [(Bucket.label, boundText bound)])) ++
      [(m.name ++ Total.sum.ending, m.labels.toList),
        (m.name ++ Total.count.ending, m.labels.toList)] := by
  rw [series, kept]
  simp only [Stored.value, Metric.samples, Distribution.bucketSamples_eq, ← bounds_closed bounds,
    List.map_append, List.map_map]
  rfl

theorem series_scalar {m : StoredMetric} (scalar : m.stored.isHistogram = false) :
    m.series = [(m.name, m.labels.toList)] := by
  rw [series]
  cases kept : m.stored with
  | counter v => rfl
  | gauge v => rfl
  | histogram h =>
      rw [kept] at scalar
      cases scalar

theorem bucketSeries_nodup (name : String) (labels : List (String × String)) {bounds : List Double}
    (texts : (bounds.map boundText).Nodup) :
    (bounds.map fun bound => (name, labels ++ [(Bucket.label, boundText bound)])).Nodup := by
  refine List.Nodup.of_map (fun x => (x.2.getLast?.map Prod.snd).getD "") ?_
  rw [List.map_map]
  have last : ((fun x : String × List (String × String) => (x.2.getLast?.map Prod.snd).getD "") ∘
      fun bound => (name, labels ++ [(Bucket.label, boundText bound)])) = boundText := by
    funext bound
    rw [Function.comp_apply, List.getLast?_concat]
    rfl
  rw [last]
  exact texts

theorem series_nodup {id : Identity} {m : StoredMetric} (sound : m.Sound id) : m.series.Nodup := by
  cases kept : m.stored with
  | counter v =>
      rw [series_scalar (by rw [kept]; rfl)]
      exact List.nodup_singleton _
  | gauge v =>
      rw [series_scalar (by rw [kept]; rfl)]
      exact List.nodup_singleton _
  | histogram h =>
      have endings : ∀ {a b : String}, m.name ++ a = m.name ++ b → a = b := by
        intro a b equal
        exact String.append_right_inj _ |>.mp equal
      rw [series_histogram kept (sound.bounds h kept)]
      refine List.Nodup.append ?_ ?_ ?_
      · exact bucketSeries_nodup _ _ exposedBounds_texts_nodup
      · refine List.nodup_cons.mpr ⟨fun there => ?_, List.nodup_singleton _⟩
        have equal := endings (congrArg Prod.fst (List.mem_singleton.mp there))
        revert equal
        decide
      · intro x bucket total
        obtain ⟨bound, -, rfl⟩ := List.mem_map.mp bucket
        rcases List.mem_cons.mp total with equal | total
        · have equal := endings (congrArg Prod.fst equal)
          revert equal
          decide
        · have equal := endings (congrArg Prod.fst (List.mem_singleton.mp total))
          revert equal
          decide

/-- What the series of a metric have after its name and its labels. -/
def Ends (m : StoredMetric) (ending : String) (bound : List (String × String)) : Prop :=
  if m.stored.isHistogram then
    (ending = Bucket.ending ∧ ∃ text, bound = [(Bucket.label, text)]) ∨
      ((ending = Total.sum.ending ∨ ending = Total.count.ending) ∧ bound = [])
  else ending = "" ∧ bound = []

theorem ends_of_mem_series {id : Identity} {m : StoredMetric} (sound : m.Sound id)
    {x : String × List (String × String)} (there : x ∈ m.series) :
    ∃ ending bound, x = (m.name ++ ending, m.labels.toList ++ bound) ∧ m.Ends ending bound := by
  cases kept : m.stored.isHistogram with
  | false =>
      rw [series_scalar kept, List.mem_singleton] at there
      refine ⟨"", [], ?_, ?_⟩
      · rw [there, String.append_empty, List.append_nil]
      · simp [Ends, kept]
  | true =>
      obtain ⟨h, stored⟩ : ∃ h, m.stored = .histogram h := by
        cases stored : m.stored with
        | histogram h => exact ⟨h, rfl⟩
        | _ =>
            rw [stored] at kept
            cases kept
      rw [series_histogram stored (sound.bounds h stored), List.mem_append, List.mem_map] at there
      simp only [Ends, kept, if_true]
      rcases there with ⟨bound, -, rfl⟩ | total
      · exact ⟨_, _, rfl, .inl ⟨rfl, _, rfl⟩⟩
      · rcases List.mem_cons.mp total with rfl | total
        · exact ⟨_, [], by rw [List.append_nil], .inr ⟨.inl rfl, rfl⟩⟩
        · cases List.mem_singleton.mp total
          exact ⟨_, [], by rw [List.append_nil], .inr ⟨.inr rfl, rfl⟩⟩

/-- The ending tells how many labels a series has after those of its metric. -/
theorem length_of_ends {m m' : StoredMetric} {ending : String}
    {bound bound' : List (String × String)} (ends : m.Ends ending bound)
    (ends' : m'.Ends ending bound') : bound.length = bound'.length := by
  have total : Total.sum.ending ≠ Bucket.ending ∧ Total.count.ending ≠ Bucket.ending ∧
      "" ≠ Bucket.ending := by decide
  have of_ends : ∀ {m : StoredMetric} {bound : List (String × String)}, m.Ends ending bound →
      bound.length = if ending = Bucket.ending then 1 else 0 := by
    intro m bound ends
    unfold Ends at ends
    split at ends
    · rcases ends with ⟨rfl, text, rfl⟩ | ⟨rfl | rfl, rfl⟩
      · rfl
      · rw [if_neg total.1]; rfl
      · rw [if_neg total.2.1]; rfl
    · rw [ends.1, ends.2, if_neg total.2.2]
      rfl
  rw [of_ends ends, of_ends ends']

/-- The name of a timer is longer than the one it was given, and so is a name with an ending. -/
theorem isHistogram_eq {m : StoredMetric} {given ending : String} {bound : List (String × String)}
    (ends : m.Ends ending bound) (name : m.name = metricName m.stored.isHistogram given) :
    m.stored.isHistogram = decide (given.length < (m.name ++ ending).length) := by
  have length : (m.name ++ ending).length =
      given.length + (if m.stored.isHistogram then 8 else 0) + ending.length := by
    rw [String.length_append, name, length_metricName]
  cases histogram : m.stored.isHistogram with
  | false =>
      rw [Ends, histogram, if_neg Bool.false_ne_true] at ends
      rw [length, histogram, ends.1]
      simp
  | true =>
      rw [length, histogram]
      simp
      omega

/-- The given name is told by every series. -/
theorem lookup_given {m : StoredMetric} {given : String} (bound : List (String × String))
    (label : m.labels.get? givenNameLabel = some given) :
    (m.labels.toList ++ bound).lookup givenNameLabel = some given := by
  rw [List.lookup_append]
  change (m.labels.get? givenNameLabel).or _ = _
  rw [label]
  rfl

/-- A series tells the name and the labels of its metric. -/
theorem eq_of_mem_series {id id' : Identity} {m m' : StoredMetric} (sound : m.Sound id)
    (sound' : m'.Sound id') {x : String × List (String × String)} (there : x ∈ m.series)
    (there' : x ∈ m'.series) : m.name = m'.name ∧ m.labels = m'.labels := by
  obtain ⟨ending, bound, rfl, ends⟩ := ends_of_mem_series sound there
  obtain ⟨ending', bound', equal, ends'⟩ := ends_of_mem_series sound' there'
  obtain ⟨names, labels⟩ := Prod.mk.inj equal
  obtain ⟨given, name, label⟩ := sound.name
  obtain ⟨given', name', label'⟩ := sound'.name
  have same : given = given' := by
    have told := lookup_given bound label
    rw [labels, lookup_given bound' label'] at told
    exact (Text.base64OfString_injective (Option.some.inj told)).symm
  subst same
  have kind : m.stored.isHistogram = m'.stored.isHistogram := by
    rw [isHistogram_eq ends name, isHistogram_eq ends' name', names]
  have sameName : m.name = m'.name := by rw [name, name', kind]
  refine ⟨sameName, ?_⟩
  rw [sameName] at names
  cases (String.append_right_inj _).mp names
  exact Dict.entries_injective (List.append_inj' labels (length_of_ends ends ends')).1

end StoredMetric

/-- The series of an exposition are found once, if the labels in each family are. -/
theorem seriesOf_nodup {s : Store} (sound : s.Everywhere fun _ => StoredMetric.Sound)
    {visited : List StoredMetric} (perm : visited.Perm s.metrics)
    (distinct : ∀ f ∈ Store.familiesOf visited, (f.metrics.map (·.labels)).Nodup) :
    (seriesOf (Store.familiesOf visited)).Nodup := by
  have kept : ∀ m ∈ visited, ∃ id, m.Sound id := by
    intro m there
    have stored := perm.mem_iff.mp there
    rw [Store.metrics_eq] at stored
    obtain ⟨⟨⟨a, id⟩, _⟩, entry, rfl⟩ := List.mem_map.mp stored
    exact ⟨id, sound _ _ _ (Store.mem_entries_iff.mp entry)⟩
  have exposed : ∀ f ∈ Store.familiesOf visited, ∀ m ∈ f.metrics, ∃ (k : StoredMetric) (id : _),
      k.Sound id ∧ k.name = f.name ∧ k.labels = m.labels ∧
        (m.samples f.name).map (·.series) = k.series := by
    intro f there m metric
    rw [Store.metrics_of_mem_familiesOf there] at metric
    obtain ⟨k, found, rfl⟩ := List.mem_map.mp metric
    obtain ⟨among, belongs⟩ := List.mem_filter.mp found
    have belongs : k.BelongsTo f := of_decide_eq_true belongs
    obtain ⟨id, soundMetric⟩ := kept k among
    exact ⟨k, id, soundMetric, belongs.1, rfl, by rw [← belongs.1]; rfl⟩
  rw [seriesOf_eq, List.nodup_flatMap]
  constructor
  · intro f there
    rw [List.nodup_flatMap]
    constructor
    · intro m metric
      obtain ⟨k, id, soundMetric, -, -, series⟩ := exposed f there m metric
      rw [series]
      exact StoredMetric.series_nodup soundMetric
    · refine (List.pairwise_map.mp (distinct f there)).imp_of_mem
        fun {m m'} metric metric' different x one other => ?_
      obtain ⟨k, id, soundMetric, -, labels, series⟩ := exposed f there m metric
      obtain ⟨k', id', soundMetric', -, labels', series'⟩ := exposed f there m' metric'
      have one : x ∈ (m.samples f.name).map (·.series) := one
      have other : x ∈ (m'.samples f.name).map (·.series) := other
      rw [series] at one
      rw [series'] at other
      obtain ⟨-, same⟩ := StoredMetric.eq_of_mem_series soundMetric soundMetric' one other
      exact different (labels.symm.trans (same.trans labels'))
  · refine (List.pairwise_map.mp (Family.names_merge_nodup _)).imp_of_mem
      fun {f f'} there there' different x one other => ?_
    obtain ⟨m, metric, one⟩ := List.mem_flatMap.mp one
    obtain ⟨m', metric', other⟩ := List.mem_flatMap.mp other
    obtain ⟨k, id, soundMetric, name, -, series⟩ := exposed f there m metric
    obtain ⟨k', id', soundMetric', name', -, series'⟩ := exposed f' there' m' metric'
    rw [series] at one
    rw [series'] at other
    obtain ⟨same, -⟩ := StoredMetric.eq_of_mem_series soundMetric soundMetric' one other
    exact different (name.symm.trans (same.trans name'))

/-! ## Runs -/

/-- After every run, whatever order the metrics are visited in, labels stand twice in a family
exactly if two sources share them, and one of these has then told another source in a tag.  If no
envelope does that, no family has the same labels twice, and no series is exposed twice. -/
theorem series_found_once (defaults : Dict String) (ttl : Nat) (d : Diagnostics)
    (steps : List Collector.Step) (visited : List StoredMetric)
    (perm : visited.Perm (Collector.run (.fresh defaults ttl, d) steps).1.store.metrics) :
    let store := (Collector.run (.fresh defaults ttl, d) steps).1.store
    let families := Store.familiesOf visited
    (∀ f ∈ families,
      ((f.metrics.map (·.labels)).Nodup ↔ ∀ a b, ¬store.Shared a b f) ∧
        ∀ a b, store.Shared a b f →
          ∃ e now, .write e now ∈ steps ∧ (e.sourceId = a ∨ e.sourceId = b) ∧ ¬e.KeepsSource) ∧
      ((∀ e now, .write e now ∈ steps → e.KeepsSource) →
        (∀ f ∈ families, (f.metrics.map (·.labels)).Nodup) ∧ (seriesOf families).Nodup) := by
  intro store families
  have sound : store.Everywhere fun _ => StoredMetric.Sound := sound_run defaults ttl d steps
  have told : ∀ f a b, store.Shared a b f →
      ∃ e now, .write e now ∈ steps ∧ (e.sourceId = a ∨ e.sourceId = b) ∧ ¬e.KeepsSource := by
    rintro f a b ⟨different, id, id', m, m', there, there', -, -, labels⟩
    rcases source_run ttl d a id m there with source | ⟨e, now, written, from_, other⟩
    · rcases source_run ttl d b id' m' there' with source' | ⟨e, now, written, from_, other⟩
      · rw [labels, source'] at source
        exact absurd (Option.some.inj source).symm different
      · exact ⟨e, now, written, .inr from_, other⟩
    · exact ⟨e, now, written, .inl from_, other⟩
  refine ⟨fun f there => ⟨Store.labels_nodup_iff sound perm there, told f⟩, fun keeps => ?_⟩
  have distinct : ∀ f ∈ families, (f.metrics.map (·.labels)).Nodup := by
    intro f there
    refine (Store.labels_nodup_iff sound perm there).mpr fun a b shared => ?_
    obtain ⟨e, now, written, -, other⟩ := told f a b shared
    exact other (keeps e now written)
  exact ⟨distinct, seriesOf_nodup sound perm distinct⟩

/-- One counter of each of two sources, where the first may tell the second in a tag. -/
def counterOfTwo (tags : Dict String) : List Collector.Step :=
  let envelope (sourceId : String) (tags : Dict String) : Envelope :=
    ⟨sourceId, "", tags, some (.counter ⟨"requests", 0, 1⟩)⟩
  [.write (envelope "api" tags) 0, .write (envelope "web" .empty) 0]

/-- The two counters have labels of their own. -/
theorem series_counterOfTwo :
    let store := (Collector.run (.fresh .empty 600, {}) (counterOfTwo .empty)).1.store
    (∀ e now, .write e now ∈ counterOfTwo .empty → e.KeepsSource) ∧
      store.metrics.length = 2 ∧ (seriesOf (Store.familiesOf store.metrics)).Nodup := by
  intro store
  have keeps : ∀ e now, .write e now ∈ counterOfTwo .empty → e.KeepsSource := by
    intro e now there
    simp only [counterOfTwo, List.mem_cons, Collector.Step.write.injEq, List.not_mem_nil,
      or_false] at there
    rcases there with ⟨rfl, -⟩ | ⟨rfl, -⟩
    · decide
    · decide
  refine ⟨keeps, by decide +kernel, ?_⟩
  exact ((series_found_once .empty 600 {} (counterOfTwo .empty) store.metrics (.refl _)).2 keeps).2

/-- A source that tells another one in a tag may expose the series of that one. -/
theorem counterOfTwo_shared :
    ∃ f ∈ (Collector.run (.fresh .empty 600, {})
        (counterOfTwo (.ofList [(sourceLabel, "web")]))).1.families,
      ¬(f.metrics.map (·.labels)).Nodup := by
  decide +kernel

end Telemetry
