import Mathlib.Data.List.Induction
import Telemetry.Proofs.Conversion
import Telemetry.Proofs.Histogram
import Telemetry.Proofs.Store.Found
import Telemetry.Proofs.Text.Base64

/-!
# What a store tells of its history

What a store keeps under a source and an identity is made of the measurements that
were written there since it was last absent, and of nothing else
(`find?_run_eq_some`): a write takes them in one after the other, and a sweep leaves
the metric as it is or takes it away.

A counter and a gauge tell the last of these measurements.  A histogram has counted
all of them, since a duration never shares an identity with anything else
(`Measurement.Fits.isDuration_eq`): the identity tells the name that was given, and
that of a timer has been made longer.
-/

namespace Telemetry

/-! ## What identifies a measurement -/

/-- The given name is a label that identifies, whatever the reading. -/
theorem mem_identifyingLabels {labels : Labels} {reading : Reading} {given : String}
    (found : labels.get? givenNameLabel = some given) :
    (givenNameLabel, given) ∈ identifyingLabels labels reading := by
  have there : (givenNameLabel, given) ∈ labels.toList := Dict.get?_eq_some_iff.mp found
  cases reading with
  | gauge value =>
      have apart : givenNameLabel ≠ unitLabel := by decide
      exact List.mem_filter.mpr ⟨there, decide_eq_true apart⟩
  | counter value => exact there
  | duration seconds => exact there

theorem mem_of_mem_identifyingLabels {labels : Labels} {reading : Reading} {label : String × String}
    (there : label ∈ identifyingLabels labels reading) : label ∈ labels.toList := by
  cases reading with
  | gauge value => exact (List.mem_filter.mp there).1
  | counter value => exact there
  | duration seconds => exact there

/-- Measurements of one identity were given one name, and are durations both or neither. -/
theorem Measurement.Fits.isDuration_eq {m m' : Measurement} {labels labels' : Labels}
    (fits : m.Fits labels) (fits' : m'.Fits labels') (same : m.identity = m'.identity) :
    m.reading.isDuration = m'.reading.isDuration := by
  obtain ⟨given, name, label⟩ := fits.name
  obtain ⟨given', name', label'⟩ := fits'.name
  rw [fits.identity, fits'.identity] at same
  obtain ⟨names, perm⟩ := Identity.of_of_eq same
  have told : m'.labels.get? givenNameLabel = some (Text.base64OfString given) :=
    Dict.get?_eq_some_iff.mpr
      (mem_of_mem_identifyingLabels (perm.mem_iff.mp (mem_identifyingLabels label)))
  have givens : given' = given :=
    Text.base64OfString_injective (Option.some.inj (label'.symm.trans told))
  subst givens
  rw [name, name'] at names
  exact metricName_left_inj names

/-! ## Writing -/

/-- The measurements of an envelope, none if it is refused. -/
def measurements (defaults : Dict String) (e : Envelope) : List Measurement :=
  match (convert defaults e).result with
  | .ok ms => ms
  | .error _ => []

theorem mem_measurements_iff {defaults : Dict String} {e : Envelope} {m : Measurement} :
    m ∈ measurements defaults e ↔ ∃ ms, (convert defaults e).result = .ok ms ∧ m ∈ ms := by
  unfold measurements
  split
  next ms converted => simp [converted]
  next refused => simp [refused]

theorem fits_of_mem_measurements {defaults : Dict String} {e : Envelope} {m : Measurement}
    (there : m ∈ measurements defaults e) : ∃ labels, m.Fits labels := by
  obtain ⟨ms, converted, there⟩ := mem_measurements_iff.mp there
  obtain ⟨labels, -, fits⟩ := of_mem_convertIn converted m there
  exact ⟨labels, fits⟩

/-- The metric that is kept of a measurement that is written at a time, over what was there. -/
def StoredMetric.after (before : Option StoredMetric) (written : Measurement × Nat) :
    StoredMetric :=
  ⟨written.1.name, written.1.labels, Shelf.absorb before written.1.reading, written.2⟩

/-- What is kept after some measurements, over what was there. -/
def StoredMetric.afterAll (before : Option StoredMetric) (written : List (Measurement × Nat)) :
    Option StoredMetric :=
  written.foldl (fun kept w => some (after kept w)) before

theorem StoredMetric.afterAll_append_singleton (before : Option StoredMetric)
    (written : List (Measurement × Nat)) (w : Measurement × Nat) :
    afterAll before (written ++ [w]) = some (after (afterAll before written) w) := by
  rw [afterAll, List.foldl_append, List.foldl_cons, List.foldl_nil, afterAll]

theorem Store.find?_write (s : Store) (sourceId : String) (now : Nat) (ms : List Measurement)
    (source : String) (id : Identity) :
    (s.write sourceId now ms).find? source id =
      if sourceId = source then
        StoredMetric.afterAll (s.find? source id) ((ms.filter (·.identity = id)).map (·, now))
      else s.find? source id := by
  rw [write_eq_foldl_put]
  induction ms generalizing s with
  | nil => simp [StoredMetric.afterAll]
  | cons m ms ih =>
      rw [List.foldl_cons, ih, find?_put]
      by_cases here : sourceId = source
      · subst here
        by_cases same : m.identity = id
        · subst same
          simp [StoredMetric.afterAll, StoredMetric.after, kept]
        · have other : id ≠ m.identity := fun equal => same equal.symm
          simp [same, other]
      · have elsewhere : source ≠ sourceId := fun equal => here equal.symm
        simp [here, elsewhere]

namespace Collector

/-- What a step writes under a source and an identity, with its time. -/
def Step.writes (defaults : Dict String) (sourceId : String) (id : Identity) :
    Step → List (Measurement × Nat)
  | .write e now =>
      if e.sourceId = sourceId then
        ((measurements defaults e).filter (·.identity = id)).map (·, now)
      else []
  | .expire _ => []

/-- What a run writes under a source and an identity, with the times. -/
def writes (defaults : Dict String) (sourceId : String) (id : Identity) (steps : List Step) :
    List (Measurement × Nat) :=
  steps.flatMap (·.writes defaults sourceId id)

theorem find?_step_write (state : Collector × Diagnostics) (e : Envelope) (now : Nat)
    (sourceId : String) (id : Identity) :
    (step state (.write e now)).1.store.find? sourceId id =
      StoredMetric.afterAll (state.1.store.find? sourceId id)
        (Step.writes state.1.defaults sourceId id (.write e now)) := by
  simp only [step, write_eq, Step.writes, measurements]
  cases (convert state.1.defaults e).result with
  | error _ => simp [StoredMetric.afterAll]
  | ok ms =>
      rw [Store.find?_write]
      split <;> rfl

/-- A metric that is there after a sweep was there before. -/
theorem find?_step_expire {state : Collector × Diagnostics} {now : Nat} {sourceId : String}
    {id : Identity} {kept : StoredMetric}
    (found : (step state (.expire now)).1.store.find? sourceId id = some kept) :
    state.1.store.find? sourceId id = some kept :=
  Store.find?_of_sweep found

/-- A part of a run since which a metric is there: it was absent before, and is found after each
step of the part. -/
structure PresentSince (find? : List Step → Option StoredMetric) (before since : List Step) :
    Prop where
  /-- It was absent. -/
  absent : find? before = none
  /-- It has been there from then on. -/
  present : ∀ part, part <+: since → part ≠ [] → (find? (before ++ part)).isSome

/-- What is found after a run has been made of what was written since it was absent. -/
theorem find?_run_eq_some {defaults : Dict String} {ttl : Nat} {d : Diagnostics}
    {sourceId : String} {id : Identity} {steps : List Step} {kept : StoredMetric}
    (found : (run (fresh defaults ttl, d) steps).1.store.find? sourceId id = some kept) :
    ∃ before since, steps = before ++ since ∧
      PresentSince (fun steps => (run (fresh defaults ttl, d) steps).1.store.find? sourceId id)
        before since ∧
      StoredMetric.afterAll none (writes defaults sourceId id since) = some kept := by
  induction steps using List.reverseRecOn generalizing kept with
  | nil => cases found
  | append_singleton steps s ih =>
      have last := found
      rw [run_append_singleton] at last
      have sameDefaults := (run_defaults (fresh defaults ttl, d) steps).1
      cases earlier : (run (fresh defaults ttl, d) steps).1.store.find? sourceId id with
      | none =>
          -- It has come with this step, which is a write.
          cases s with
          | write e now =>
              rw [find?_step_write, earlier, sameDefaults] at last
              refine ⟨steps, [.write e now], rfl, ⟨earlier, ?_⟩, ?_⟩
              · intro part prefixed nonempty
                have whole : part = [.write e now] := by
                  rcases List.prefix_cons_iff.mp prefixed with empty | ⟨rest, rfl, nil⟩
                  · exact absurd empty nonempty
                  · rw [List.prefix_nil.mp nil]
                rw [whole, found]
                rfl
              · rw [writes, List.flatMap_singleton]
                exact last
          | expire now =>
              rw [find?_step_expire last] at earlier
              cases earlier
      | some before =>
          obtain ⟨front, since, rfl, presence, made⟩ := ih earlier
          refine ⟨front, since ++ [s], by rw [List.append_assoc], ⟨presence.absent, ?_⟩, ?_⟩
          · intro part prefixed nonempty
            rcases List.prefix_concat_iff.mp prefixed with whole | shorter
            · subst whole
              rw [← List.append_assoc, found]
              rfl
            · exact presence.present part shorter nonempty
          · have appended : writes defaults sourceId id (since ++ [s]) =
                writes defaults sourceId id since ++ s.writes defaults sourceId id := by
              simp only [writes, List.flatMap_append, List.flatMap_singleton]
            rw [appended, StoredMetric.afterAll, List.foldl_append]
            rw [StoredMetric.afterAll] at made
            rw [made]
            cases s with
            | write e now =>
                rw [find?_step_write, earlier, sameDefaults] at last
                exact last
            | expire now =>
                rw [find?_step_expire last] at earlier
                exact earlier.symm

end Collector

/-! ## What is kept of what was written -/

/-- The seconds of a reading that is a duration. -/
def Reading.seconds? : Reading → Option Double
  | .duration seconds => some seconds
  | _ => none

/-- The durations among some measurements, in order. -/
def durations (written : List (Measurement × Nat)) : List Double :=
  written.filterMap (·.1.reading.seconds?)

/-- A duration is observed by the histogram that is there. -/
theorem Shelf.absorb_of_histogram {before : StoredMetric} {h : Histogram}
    (stored : before.stored = .histogram h) (seconds : Double) :
    absorb (some before) (.duration seconds) = .histogram (h.observe seconds) := by
  obtain ⟨name, labels, _, updated⟩ := before
  cases stored
  rfl

/-- What is kept of durations is a histogram that has counted them. -/
theorem StoredMetric.counts_afterAll {written : List (Measurement × Nat)} {kept : StoredMetric}
    (h : afterAll none written = some kept) (all : ∀ w ∈ written, w.1.reading.isDuration = true) :
    ∃ histogram, kept.stored = .histogram histogram ∧
      histogram.Counts Histogram.timerBounds (durations written) := by
  induction written using List.reverseRecOn generalizing kept with
  | nil => cases h
  | append_singleton written w ih =>
      rw [afterAll_append_singleton] at h
      cases h
      have duration := all w (List.mem_append_right _ (List.mem_singleton_self w))
      cases reading : w.1.reading with
      | counter value =>
          rw [reading] at duration
          cases duration
      | gauge value =>
          rw [reading] at duration
          cases duration
      | duration seconds =>
          have more : durations (written ++ [w]) = durations written ++ [seconds] := by
            simp [durations, Reading.seconds?, reading]
          rw [more]
          simp only [after, reading]
          cases earlier : afterAll none written with
          | none =>
              -- This is the first one, so it is counted by a new histogram.
              have first : written = [] := by
                cases written using List.reverseRecOn with
                | nil => rfl
                | append_singleton _ _ =>
                    rw [afterAll_append_singleton] at earlier
                    cases earlier
              subst first
              exact ⟨_, rfl, (Histogram.counts_new _).observe seconds⟩
          | some before =>
              obtain ⟨histogram, stored, counts⟩ :=
                ih earlier fun w there => all w (List.mem_append_left _ there)
              exact ⟨_, Shelf.absorb_of_histogram stored seconds, counts.observe seconds⟩

/-- What is kept of measurements of which all are durations or none is. -/
theorem StoredMetric.afterAll_eq_some {written : List (Measurement × Nat)} {kept : StoredMetric}
    (h : afterAll none written = some kept)
    (alike : ∀ w ∈ written, ∀ w' ∈ written, w.1.reading.isDuration = w'.1.reading.isDuration) :
    ∃ last, written.getLast? = some last ∧ kept.name = last.1.name ∧
      kept.labels = last.1.labels ∧ kept.updated = last.2 ∧
      match last.1.reading with
      | .counter value => kept.stored = .counter value
      | .gauge value => kept.stored = .gauge value
      | .duration _ => ∃ histogram, kept.stored = .histogram histogram ∧
          histogram.Counts Histogram.timerBounds (durations written) := by
  cases written using List.reverseRecOn with
  | nil => cases h
  | append_singleton written w =>
      have made := h
      rw [afterAll_append_singleton] at h
      cases h
      refine ⟨w, List.getLast?_concat, rfl, rfl, rfl, ?_⟩
      cases reading : w.1.reading with
      | counter value => simp only [after, reading, Shelf.absorb]
      | gauge value => simp only [after, reading, Shelf.absorb]
      | duration seconds =>
          refine counts_afterAll made fun w' there => ?_
          rw [alike w' there w (List.mem_append_right _ (List.mem_singleton_self w)), reading]
          rfl

/-! ## Runs -/

namespace Collector

/-- What is written under a source and an identity comes of the envelopes that are written. -/
theorem exists_write_of_mem_writes {defaults : Dict String} {sourceId : String} {id : Identity}
    {steps : List Step} {w : Measurement × Nat} (there : w ∈ writes defaults sourceId id steps) :
    ∃ e, .write e w.2 ∈ steps ∧ e.sourceId = sourceId ∧ w.1 ∈ measurements defaults e ∧
      w.1.identity = id := by
  obtain ⟨s, taken, there⟩ := List.mem_flatMap.mp there
  cases s with
  | expire now => cases there
  | write e now =>
      simp only [Step.writes] at there
      split at there
      next source =>
        obtain ⟨m, made, rfl⟩ := List.mem_map.mp there
        obtain ⟨made, same⟩ := List.mem_filter.mp made
        exact ⟨e, taken, source, made, of_decide_eq_true same⟩
      next => cases there

theorem fits_of_mem_writes {defaults : Dict String} {sourceId : String} {id : Identity}
    {steps : List Step} {w : Measurement × Nat} (there : w ∈ writes defaults sourceId id steps) :
    w.1.identity = id ∧ ∃ labels, w.1.Fits labels := by
  obtain ⟨e, -, -, made, same⟩ := exists_write_of_mem_writes there
  exact ⟨same, fits_of_mem_measurements made⟩

/-- What is written under one identity are durations only, or no durations. -/
theorem writes_alike {defaults : Dict String} {sourceId : String} {id : Identity}
    {steps : List Step} {w w' : Measurement × Nat} (there : w ∈ writes defaults sourceId id steps)
    (there' : w' ∈ writes defaults sourceId id steps) :
    w.1.reading.isDuration = w'.1.reading.isDuration := by
  obtain ⟨same, labels, fits⟩ := fits_of_mem_writes there
  obtain ⟨same', labels', fits'⟩ := fits_of_mem_writes there'
  exact fits.isDuration_eq fits' (same.trans same'.symm)

/-- After every run, whatever the times: a source and an identity to which a duration was ever
written has only been written durations.  If a metric is found there it has the name and the labels
of the last measurement written, and its value, if that is a counter or a gauge.  If it is a
duration, the metric is a histogram that has counted the durations written since the metric was
last absent, in order. -/
theorem store_tells_history (defaults : Dict String) (ttl : Nat) (d : Diagnostics)
    (steps : List Step) (sourceId : String) (id : Identity) :
    let find? := fun steps => (run (fresh defaults ttl, d) steps).1.store.find? sourceId id
    let writes := writes defaults sourceId id
    ((∃ w ∈ writes steps, w.1.reading.isDuration) →
      ∀ w ∈ writes steps, w.1.reading.isDuration) ∧
    ∀ kept, find? steps = some kept →
      ∃ last, (writes steps).getLast? = some last ∧ kept.name = last.1.name ∧
        kept.labels = last.1.labels ∧ kept.updated = last.2 ∧
        match last.1.reading with
        | .counter value => kept.stored = .counter value
        | .gauge value => kept.stored = .gauge value
        | .duration _ => ∃ before since histogram, steps = before ++ since ∧
            PresentSince find? before since ∧ kept.stored = .histogram histogram ∧
            histogram.Counts Histogram.timerBounds (durations (writes since)) := by
  intro find? writes
  constructor
  · rintro ⟨w, there, duration⟩ w' there'
    exact (writes_alike there' there).trans duration
  · intro kept found
    obtain ⟨before, since, rfl, present, made⟩ := find?_run_eq_some found
    obtain ⟨last, isLast, name, labels, updated, stored⟩ :=
      StoredMetric.afterAll_eq_some made fun w there w' there' => writes_alike there there'
    have ofAll : (writes (before ++ since)).getLast? = some last := by
      have split : writes (before ++ since) = writes before ++ writes since :=
        List.flatMap_append
      rw [split, List.getLast?_append, show (writes since).getLast? = some last from isLast]
      rfl
    refine ⟨last, ofAll, name, labels, updated, ?_⟩
    cases reading : last.1.reading with
    | counter value =>
        rw [reading] at stored
        exact stored
    | gauge value =>
        rw [reading] at stored
        exact stored
    | duration seconds =>
        rw [reading] at stored
        obtain ⟨histogram, stored, counts⟩ := stored
        exact ⟨before, since, histogram, rfl, present, stored, counts⟩

/-- How many durations are counted. -/
def counted : Stored → Nat
  | .histogram value => value.count
  | _ => 0

/-- A timer that expires and comes back twice. -/
def timerComesBack : List Step :=
  let envelope (stop : Int64) : Envelope := ⟨"svc", "", .empty, some (.timer ⟨"http", 0, stop⟩)⟩
  [.write (envelope 1000000) 0, .expire 600, .write (envelope 1000000000) 700,
    .write (envelope 2000000) 800]

/-- The histogram has not counted the duration from before. -/
theorem store_tells_timerComesBack :
    let id := Identity.of "http_seconds" [("loggregator_name", "aHR0cA=="), ("source_id", "svc")]
    ∃ kept histogram,
      (run (fresh .empty 600, {}) timerComesBack).1.store.find? "svc" id = some kept ∧
        kept.stored = .histogram histogram ∧ histogram.count = 2 ∧
        ∃ since, histogram.Counts Histogram.timerBounds
          (durations (writes .empty "svc" id since)) := by
  intro id
  have there : ((run (fresh .empty 600, {}) timerComesBack).1.store.find? "svc" id).isSome := by
    decide +kernel
  obtain ⟨kept, found⟩ := Option.isSome_iff_exists.mp there
  obtain ⟨last, isLast, -, -, -, stored⟩ :=
    (store_tells_history .empty 600 {} timerComesBack "svc" id).2 kept found
  have lastReading : (writes .empty "svc" id timerComesBack).getLast?.map (·.1.reading.isDuration) =
      some true := by
    decide +kernel
  rw [isLast] at lastReading
  cases reading : last.1.reading with
  | counter value => simp [reading, Reading.isDuration] at lastReading
  | gauge value => simp [reading, Reading.isDuration] at lastReading
  | duration seconds =>
      rw [reading] at stored
      obtain ⟨before, since, histogram, -, -, isHistogram, counts⟩ := stored
      refine ⟨kept, histogram, found, isHistogram, ?_, since, counts⟩
      have two : ((run (fresh .empty 600, {}) timerComesBack).1.store.find? "svc" id).map
          (counted ·.stored) = some 2 := by
        decide +kernel
      rw [found, Option.map_some, isHistogram] at two
      exact Option.some.inj two

end Collector

end Telemetry
