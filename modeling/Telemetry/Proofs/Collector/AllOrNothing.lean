import Telemetry.Proofs.Conversion.Exact
import Telemetry.Proofs.Store.History

/-!
# All or nothing

A write converts the whole envelope before it touches the store.  So an envelope that is
refused leaves the collector as it is, whichever of its readings is to blame, and only the
remarks on it have been counted (`Collector.Refuses`).  One that is written is stored as a
whole, and everything else is left alone (`Collector.Writes`).  There is nothing in between
(`Collector.all_or_nothing`).

That no thing an envelope tells overwrites another one is due to the given names.  The name
that was given is among the labels that identify a metric, and no two things of an envelope
were given the same (`Envelope.eq_of_identity_eq`).
-/

namespace Telemetry

/-! ## Identities of things told -/

/-- No two things of an envelope were given one name. -/
theorem Envelope.nodup_given (e : Envelope) : (e.told.map (·.given)).Nodup := by
  rw [told]
  cases e.message with
  | none => exact List.nodup_nil
  | some message =>
      cases message with
      | counter c => exact List.nodup_singleton _
      | gauge readings =>
          have keys : (readings.toList.map Told.ofReading).map (·.given) =
              readings.entries.map (·.1) := List.map_map
          exact keys ▸ readings.keys_nodup
      | timer t => exact List.nodup_singleton _

theorem Envelope.mem_pairs_given (defaults : Dict String) (e : Envelope) (t : Told) :
    (givenNameLabel, Text.base64OfString t.given) ∈ e.pairs defaults t :=
  List.mem_append_right _ (List.mem_append_right _ (List.mem_singleton_self _))

/-- Different things of an envelope become metrics of different identities. -/
theorem Envelope.eq_of_identity_eq {defaults : Dict String} {e : Envelope}
    (can : ∀ t ∈ e.told, e.Measurable defaults t) {t t' : Told} (there : t ∈ e.told)
    (there' : t' ∈ e.told)
    (same : (e.measured defaults t).identity = (e.measured defaults t').identity) : t = t' := by
  have label := (can t there).get?_labels.mpr (mem_pairs_given defaults e t)
  have label' := (can t' there').get?_labels.mpr (mem_pairs_given defaults e t')
  obtain ⟨-, perm⟩ := Identity.of_of_eq same
  have told : (e.measured defaults t').labels.get? givenNameLabel =
      some (Text.base64OfString t.given) :=
    Dict.get?_eq_some_iff.mpr
      (mem_of_mem_identifyingLabels (perm.mem_iff.mp (mem_identifyingLabels label)))
  have given : t.given = t'.given :=
    Text.base64OfString_injective (Option.some.inj (told.symm.trans label'))
  exact List.inj_on_of_nodup_map e.nodup_given there there' given

/-! ## What a write does to a store -/

namespace Store

variable (s : Store) (sourceId : String) (now : Nat) (ms : List Measurement)

/-- A measurement that shares its identity with no other one is taken in as it is. -/
theorem find?_write_of_mem {ms : List Measurement} {m : Measurement} (nodup : ms.Nodup)
    (alone : ∀ m' ∈ ms, m'.identity = m.identity → m' = m) (there : m ∈ ms) :
    (s.write sourceId now ms).find? sourceId m.identity =
      some (.after (s.find? sourceId m.identity) (m, now)) := by
  have only : ms.filter (·.identity = m.identity) = [m] := by
    have same : ms.filter (·.identity = m.identity) = ms.filter (· = m) :=
      List.filter_congr fun m' among =>
        decide_eq_decide.mpr ⟨alone m' among, fun equal => equal ▸ rfl⟩
    rw [same, List.filter_eq, List.count_eq_one_of_mem nodup there, List.replicate_one]
  rw [find?_write, if_pos rfl, only]
  rfl

/-- Nothing is written where no measurement belongs. -/
theorem find?_write_of_not_mem {ms : List Measurement} {source : String} {id : Identity}
    (elsewhere : source = sourceId → ∀ m ∈ ms, m.identity ≠ id) :
    (s.write sourceId now ms).find? source id = s.find? source id := by
  rw [find?_write]
  split
  next here =>
    have nothing : ms.filter (·.identity = id) = [] :=
      List.filter_eq_nil_iff.mpr fun m among equal =>
        elsewhere here.symm m among (of_decide_eq_true equal)
    rw [nothing]
    rfl
  next => rfl

theorem get?_shelves_write_of_ne {source : String} (other : source ≠ sourceId) :
    (s.write sourceId now ms).shelves.get? source = s.shelves.get? source := by
  unfold write
  split
  · rfl
  · rw [Dict.get?_insert, if_neg other]

theorem updated_foldl_add (shelf : Shelf) (nonempty : ms ≠ []) :
    (ms.foldl (·.add now) shelf).updated = now := by
  induction ms generalizing shelf with
  | nil => exact absurd rfl nonempty
  | cons m ms ih =>
      rw [List.foldl_cons]
      cases ms with
      | nil => rfl
      | cons => exact ih _ (List.cons_ne_nil _ _)

/-- A shelf remembers when it was written. -/
theorem exists_shelf_write (nonempty : ms ≠ []) :
    ∃ shelf, (s.write sourceId now ms).shelves.get? sourceId = some shelf ∧
      shelf.updated = now := by
  refine ⟨_, ?_, updated_foldl_add now ms ((s.shelves.get? sourceId).getD ⟨.empty, now⟩) nonempty⟩
  rw [write, if_neg (by simpa using nonempty), Dict.get?_insert, if_pos rfl]

end Store

/-! ## Writes that are refused, and those that are not -/

/-- Whether diagnostics have gained remarks on a source, and no more than a number of each kind. -/
def Diagnostics.GainsAtMost (d d' : Diagnostics) (sourceId : String) (most : Remark → Nat) : Prop :=
  ∃ n, (∀ r, n r ≤ most r) ∧ d.Gains d' sourceId n

/-- Whatever comes of a conversion, no more is remarked than there are tags and names for. -/
theorem Diagnostics.gainsAtMost_remark {order : ConversionOrder} (fair : order.Fair)
    (d : Diagnostics) (defaults : Dict String) (e : Envelope) :
    d.GainsAtMost (d.remark e.sourceId (convertIn order defaults e).remarks) e.sourceId
      (e.remarkCount defaults) :=
  ⟨_, fun r => (count_remarks_convertIn fair defaults e r).1, d.gains_remark e.sourceId _⟩

namespace Collector

/-- Writes an envelope at a time, and visits its tags and its readings in given orders. -/
def writeIn (order : ConversionOrder) (c : Collector) (d : Diagnostics) (e : Envelope)
    (now : Nat) : Collector × Diagnostics × Except ConversionError Unit :=
  let converted := convertIn order c.defaults e
  let d := d.remark e.sourceId converted.remarks
  match converted.result with
  | .error error => (c, d, .error error)
  | .ok ms =>
    ({ c with store := c.store.write e.sourceId now ms }, d.count .envelopesWritten 1, .ok ())

theorem write_eq_writeIn (c : Collector) (d : Diagnostics) (e : Envelope) (now : Nat) :
    c.write d e now = c.writeIn ⟨id, id⟩ d e now := rfl

/-- Whether nothing has come of a write but remarks. -/
structure Refuses (c : Collector) (d : Diagnostics) (e : Envelope) (c' : Collector)
    (d' : Diagnostics) : Prop where
  /-- The collector is as before. -/
  unchanged : c' = c
  /-- No event is counted, and of the registry only the remarks on the source of the envelope. -/
  remarked : d.GainsAtMost d' e.sourceId (e.remarkCount c.defaults)
  /-- Whatever happens later, it is stored, swept and counted as if there had been no write. -/
  later : ∀ steps, (run (c', d') steps).1 = (run (c, d) steps).1 ∧
    (run (c', d') steps).2.tally = (run (c, d) steps).2.tally

/-- Whether an envelope is written as a whole at a time, and nothing else is. -/
structure Writes (c : Collector) (d : Diagnostics) (e : Envelope) (now : Nat) (c' : Collector)
    (d' : Diagnostics) : Prop where
  /-- One more envelope is counted as written.  Besides there are only remarks. -/
  counted : (d.count .envelopesWritten 1).GainsAtMost d' e.sourceId (e.remarkCount c.defaults)
  /-- The default tags and the time to live are as before. -/
  settings : c'.defaults = c.defaults ∧ c'.ttl = c.ttl
  /-- Everything that is told is stored under the source and has the time. -/
  stored : ∀ t ∈ e.told, c'.store.find? e.sourceId (e.measured c.defaults t).identity =
    some (.after (c.store.find? e.sourceId (e.measured c.defaults t).identity)
      (e.measured c.defaults t, now))
  /-- Under all other identities there is what was there before. -/
  kept : ∀ source id,
    (source = e.sourceId → ∀ t ∈ e.told, (e.measured c.defaults t).identity ≠ id) →
      c'.store.find? source id = c.store.find? source id
  /-- The shelves of other sources are as before. -/
  others : ∀ source, source ≠ e.sourceId →
    c'.store.shelves.get? source = c.store.shelves.get? source
  /-- The shelf of the source has the time. -/
  shelf : e.told ≠ [] →
    ∃ shelf, c'.store.shelves.get? e.sourceId = some shelf ∧ shelf.updated = now
  /-- If nothing is told, nothing is stored. -/
  idle : e.told = [] → c'.store = c.store

/-! ## Later steps -/

/-- A step is taken, and the tally kept, without regard to the registry. -/
theorem step_congr {state state' : Collector × Diagnostics} (collector : state.1 = state'.1)
    (tally : state.2.tally = state'.2.tally) (s : Step) :
    (step state s).1 = (step state' s).1 ∧
      (step state s).2.tally = (step state' s).2.tally := by
  obtain ⟨c, d⟩ := state
  obtain ⟨c', d'⟩ := state'
  obtain rfl : c = c' := collector
  cases s with
  | write e now =>
      simp only [step, write]
      cases (convert c.defaults e).result with
      | error error => exact ⟨rfl, tally⟩
      | ok ms => exact ⟨rfl, congrArg (·.add .envelopesWritten 1) tally⟩
  | expire now =>
      have same : d.tally = d'.tally := tally
      exact ⟨rfl, by simp only [step, expire, Diagnostics.count, same]⟩

theorem run_congr {state state' : Collector × Diagnostics} (collector : state.1 = state'.1)
    (tally : state.2.tally = state'.2.tally) (steps : List Step) :
    (run state steps).1 = (run state' steps).1 ∧
      (run state steps).2.tally = (run state' steps).2.tally := by
  induction steps generalizing state state' with
  | nil => exact ⟨collector, tally⟩
  | cons s steps ih =>
      obtain ⟨collector, tally⟩ := step_congr collector tally s
      exact ih collector tally

/-! ## Writing -/

variable {order : ConversionOrder}

/-- A converted envelope is written as a whole. -/
theorem writes_of_converted (fair : order.Fair) (c : Collector) (d : Diagnostics) {e : Envelope}
    (now : Nat) {ms : List Measurement}
    (made : (convertIn order c.defaults e).result = .ok ms) :
    c.Writes d e now { c with store := c.store.write e.sourceId now ms }
      ((d.remark e.sourceId (convertIn order c.defaults e).remarks).count .envelopesWritten 1) := by
  obtain ⟨perm, can⟩ := measured_of_converted fair made
  have member : ∀ m, m ∈ ms ↔ ∃ t ∈ e.told, e.measured c.defaults t = m := fun m => by
    rw [perm.mem_iff, List.mem_map]
  have nodup : ms.Nodup := by
    refine perm.nodup_iff.mpr (List.Nodup.map_on ?_ (e.nodup_given.of_map _))
    exact fun t there t' there' equal =>
      Envelope.eq_of_identity_eq can there there' (congrArg (·.identity) equal)
  have nil : ms = [] ↔ e.told = [] := by
    rw [← List.map_eq_nil_iff (f := e.measured c.defaults)]
    exact ⟨fun empty => (empty ▸ perm).nil_eq.symm, fun empty => (empty ▸ perm).eq_nil⟩
  refine ⟨?_, ⟨rfl, rfl⟩, fun t there => ?_, fun source id elsewhere => ?_, ?_, ?_, ?_⟩
  · exact (d.count .envelopesWritten 1).gainsAtMost_remark fair c.defaults e
  · refine Store.find?_write_of_mem _ _ _ nodup (fun m among same => ?_)
      ((member _).mpr ⟨t, there, rfl⟩)
    obtain ⟨t', there', rfl⟩ := (member m).mp among
    rw [Envelope.eq_of_identity_eq can there' there same]
  · refine Store.find?_write_of_not_mem _ _ _ fun here m among => ?_
    obtain ⟨t, there, rfl⟩ := (member m).mp among
    exact elsewhere here t there
  · exact fun source other => Store.get?_shelves_write_of_ne _ _ _ _ other
  · exact fun told => Store.exists_shelf_write _ _ _ _ fun empty => told (nil.mp empty)
  · intro empty
    rw [nil.mpr empty]
    rfl

/-- An envelope is refused, and nothing has come of it but remarks, or it is written as a whole. -/
theorem all_or_nothing (fair : order.Fair) (c : Collector) (d : Diagnostics) (e : Envelope)
    (now : Nat) :
    match c.writeIn order d e now with
    | (c', d', .error _) => c.Refuses d e c' d'
    | (c', d', .ok ()) => c.Writes d e now c' d' := by
  simp only [writeIn]
  cases made : (convertIn order c.defaults e).result with
  | error error => exact ⟨rfl, d.gainsAtMost_remark fair c.defaults e, run_congr rfl rfl⟩
  | ok ms => exact writes_of_converted fair c d now made

/-- A gauge that has good readings before and after one that is called what no metric can be. -/
def oneBadReading : Envelope :=
  let readings : Dict GaugeReading :=
    .ofList [("threads", ⟨.ofNat 2, ""⟩), ("1", ⟨.ofNat 3, ""⟩), ("cpu.load", ⟨.ofNat 4, "%"⟩)]
  { manyTags with message := some (.gauge readings) }

/-- A gauge is written over an earlier one, and one with a bad reading is refused after its good
readings have been converted. -/
theorem all_or_nothing_oneBadReading :
    turned.Fair ∧
      let c := (run (fresh sharedTags 600, {}) [.write manyTags 5]).1
      (∃ c' d', c.writeIn turned {} manyTags 7 = (c', d', .ok ()) ∧
        c.Writes {} manyTags 7 c' d' ∧ c'.store.metrics.map (·.updated) = [7, 7]) ∧
      ∃ c' d', c.writeIn turned {} oneBadReading 7 = (c', d', .error (.invalidName "1")) ∧
        c.Refuses {} oneBadReading c' d' ∧ c'.store.metrics.map (·.updated) = [5, 5] ∧
          d'.registry.values.map (fun counter => (counter.name, counter.value)) =
            [("modified_tags", 2), ("invalid_metric_label", 2)] := by
  have fair : turned.Fair := ⟨List.reverse_perm, List.reverse_perm⟩
  refine ⟨fair, ?_⟩
  intro c
  refine ⟨⟨_, _, rfl, all_or_nothing fair c {} manyTags 7, ?_⟩,
    ⟨_, _, rfl, all_or_nothing fair c {} oneBadReading 7, ?_, ?_⟩⟩
  all_goals decide +kernel

end Collector

end Telemetry
