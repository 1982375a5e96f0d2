import Mathlib.Data.List.Infix
import Telemetry.Proofs.Conversion.Exact
import Telemetry.Proofs.Store.History
import Telemetry.Proofs.Timer

/-!
# What histograms tell of timers

A histogram of the store is made of the timers that were written since it was last absent
(`exists_counts`), and its durations are their seconds (`durations_writes`).  If no timer
stops before it starts, and the time of each fits in 64 bits, then no duration is negative.
So the sum does not decrease with a write, a sweep leaves it as it is or takes it away with
its metric (`sum_le_of_step`), and it does not decrease as long as the metric stays
(`sum_le_of_present`).  Each bucket then counts the timers that take no longer than its
bound, in truth and not only as rounded (`countsTimers_of_counts`).

A timer whose time does not fit breaks both.
-/

namespace Telemetry

/-! ## Timers that are written -/

/-- The timer of an envelope. -/
def Envelope.timer? (e : Envelope) : Option TimerMessage :=
  match e.message with
  | some (.timer t) => some t
  | _ => none

/-- A timer is all that its envelope tells. -/
theorem told_of_timer? {e : Envelope} {t : TimerMessage} (has : e.timer? = some t) :
    e.told = [⟨t.name, t.name ++ secondsEnding, "", .duration t.seconds⟩] := by
  unfold Envelope.timer? at has
  split at has
  next message =>
    cases has
    rw [Envelope.told, message]
    rfl
  next => cases has

/-- An envelope without a timer tells no durations. -/
theorem seconds?_of_mem_told {e : Envelope} (none_ : e.timer? = none) {x : Told}
    (there : x ∈ e.told) : x.reading.seconds? = none := by
  rw [Envelope.told] at there
  rw [Envelope.timer?] at none_
  cases has : e.message with
  | none =>
      rw [has] at there
      cases there
  | some message =>
      rw [has] at there none_
      cases message with
      | counter c =>
          cases List.mem_singleton.mp there
          rfl
      | gauge readings =>
          obtain ⟨reading, -, rfl⟩ := List.mem_map.mp there
          rfl
      | timer t => cases none_

/-- An envelope that is written becomes what it tells, or nothing. -/
theorem measurements_eq (defaults : Dict String) (e : Envelope) :
    measurements defaults e = [] ∨ measurements defaults e = e.told.map (e.measured defaults) := by
  unfold measurements
  split
  next ms converted =>
    have perm := (measured_of_converted ConversionOrder.fair_id converted).1
    cases has : e.message with
    | none =>
        rw [Envelope.told, has] at perm
        exact .inl (List.perm_nil.mp perm)
    | some message =>
        rw [Envelope.told, has]
        exact .inr ((converts_iff ConversionOrder.fair_id has ms).mp converted).2
  next => exact .inl rfl

/-- The durations among the measurements of an envelope of which something holds. -/
theorem durations_measurements (defaults : Dict String) (e : Envelope) (now : Nat)
    (p : Measurement → Bool) :
    durations (((measurements defaults e).filter p).map (·, now)) =
      if (measurements defaults e).any p then e.timer?.toList.map (·.seconds) else [] := by
  rcases measurements_eq defaults e with nothing | all
  · rw [nothing]
    rfl
  · rw [all]
    cases has : e.timer? with
    | none =>
        rw [Option.toList_none, List.map_nil, ite_self]
        refine List.filterMap_eq_nil_iff.mpr fun w there => ?_
        obtain ⟨m, kept, rfl⟩ := List.mem_map.mp there
        obtain ⟨x, among, rfl⟩ := List.mem_map.mp (List.mem_filter.mp kept).1
        exact seconds?_of_mem_told has among
    | some t =>
        rw [told_of_timer? has, List.map_singleton, List.filter_singleton, List.any_cons,
          List.any_nil, Bool.or_false]
        cases p (e.measured defaults _) <;> rfl

/-! ## Sums -/

namespace Histogram

/-- A sum does not decrease by what is not negative. -/
theorem sum_le_observeAll {h : Histogram} (nonneg : h.sum.Nonneg) {xs : List Double}
    (all : ∀ x ∈ xs, x.Nonneg) :
    (h.observeAll xs).sum.Nonneg ∧ h.sum ≤ (h.observeAll xs).sum := by
  induction xs generalizing h with
  | nil => exact ⟨nonneg, nonneg.le_refl⟩
  | cons x xs ih =>
      obtain ⟨first, others⟩ := List.forall_mem_cons.mp all
      obtain ⟨more, le⟩ := Double.le_add nonneg first
      obtain ⟨last, le'⟩ := ih (h := h.observe x) more others
      exact ⟨last, Double.le_trans le le'⟩

/-- Whether a histogram has counted timers, each in the buckets whose bounds its time does not
exceed. -/
structure CountsTimers (h : Histogram) (timers : List TimerMessage) : Prop where
  /-- The number of timers. -/
  count : h.count = timers.length
  /-- Under each bound stands the number of those that take no longer. -/
  buckets : h.buckets = timerBounds.map fun bound =>
    (bound, timers.countP fun t => isWithin t.elapsed.toNat bound)

theorem Counts.nonneg {h : Histogram} {bounds xs : List Double} (counts : h.Counts bounds xs)
    (all : ∀ x ∈ xs, x.Nonneg) : h.sum.Nonneg := by
  have sum := (observeAll_new bounds xs).sum
  rw [counts.sum, ← sum]
  exact (sum_le_observeAll Double.nonneg_zero all).1

end Histogram

/-- A histogram that is there observes the durations that are written over it. -/
theorem StoredMetric.stored_afterAll {before : StoredMetric} {h : Histogram}
    (stored : before.stored = .histogram h) {written : List (Measurement × Nat)}
    (all : ∀ w ∈ written, w.1.reading.isDuration = true) :
    ∃ kept, afterAll (some before) written = some kept ∧
      kept.stored = .histogram (h.observeAll (durations written)) := by
  induction written generalizing before h with
  | nil => exact ⟨before, rfl, stored⟩
  | cons w written ih =>
      obtain ⟨first, others⟩ := List.forall_mem_cons.mp all
      cases reading : w.1.reading with
      | counter value =>
          rw [reading] at first
          cases first
      | gauge value =>
          rw [reading] at first
          cases first
      | duration seconds =>
          have observed : (after (some before) w).stored = .histogram (h.observe seconds) := by
            rw [after, reading]
            exact Shelf.absorb_of_histogram stored seconds
          obtain ⟨kept, made, isStored⟩ := ih observed others
          refine ⟨kept, made, ?_⟩
          have more : durations (w :: written) = seconds :: durations written := by
            rw [durations, List.filterMap_cons, reading]
            rfl
          rw [isStored, more]
          rfl

/-! ## Runs -/

namespace Collector

/-- The timers that a step writes under a source and an identity. -/
def Step.timers (defaults : Dict String) (sourceId : String) (id : Identity) :
    Step → List TimerMessage
  | .write e _ =>
      if e.sourceId = sourceId ∧ (measurements defaults e).any (·.identity = id) then
        e.timer?.toList
      else []
  | .expire _ => []

/-- The timers that a run writes under a source and an identity. -/
def timers (defaults : Dict String) (sourceId : String) (id : Identity) (steps : List Step) :
    List TimerMessage :=
  steps.flatMap (·.timers defaults sourceId id)

/-- Whether a step writes no timer but an orderly one. -/
def Step.IsOrderly : Step → Prop
  | .write e _ => ∀ t ∈ e.timer?, t.IsOrderly
  | .expire _ => True

instance : DecidablePred Step.IsOrderly
  | .write e _ => inferInstanceAs (Decidable (∀ t ∈ e.timer?, t.IsOrderly))
  | .expire _ => isTrue trivial

variable {defaults : Dict String} {sourceId : String} {id : Identity}

/-- The durations that a run writes are the seconds of its timers. -/
theorem durations_writes (steps : List Step) :
    durations (writes defaults sourceId id steps) =
      (timers defaults sourceId id steps).map (·.seconds) := by
  induction steps with
  | nil => rfl
  | cons s steps ih =>
      have first : durations (s.writes defaults sourceId id) =
          (s.timers defaults sourceId id).map (·.seconds) := by
        cases s with
        | expire now => rfl
        | write e now =>
            rw [Step.writes, Step.timers]
            by_cases source : e.sourceId = sourceId
            · rw [if_pos source, durations_measurements]
              by_cases same : (measurements defaults e).any (·.identity = id) = true
              · rw [if_pos same, if_pos ⟨source, same⟩]
              · rw [if_neg same, if_neg fun both => same both.2]
                rfl
            · rw [if_neg source, if_neg fun both => source both.1]
              rfl
      rw [durations] at first ih ⊢
      rw [writes, timers, List.flatMap_cons, List.flatMap_cons, List.filterMap_append,
        List.map_append, first]
      rw [writes, timers] at ih
      rw [ih]

theorem isOrderly_of_mem_timers {steps : List Step} (orderly : ∀ s ∈ steps, s.IsOrderly)
    {t : TimerMessage} (there : t ∈ timers defaults sourceId id steps) : t.IsOrderly := by
  obtain ⟨s, taken, there⟩ := List.mem_flatMap.mp there
  cases s with
  | expire now => cases there
  | write e now =>
      rw [Step.timers] at there
      split at there
      next => exact orderly _ taken t (Option.mem_toList.mp there)
      next => cases there

/-- Orderly timers have durations that are not negative. -/
theorem nonneg_of_mem_durations {steps : List Step} (orderly : ∀ s ∈ steps, s.IsOrderly)
    {x : Double} (there : x ∈ durations (writes defaults sourceId id steps)) : x.Nonneg := by
  rw [durations_writes] at there
  obtain ⟨t, among, rfl⟩ := List.mem_map.mp there
  rw [(isOrderly_of_mem_timers orderly among).seconds_eq]
  exact nonneg_secondsOf _

section Histograms

variable {ttl : Nat} {d : Diagnostics}

/-- A histogram that is found has counted the durations that were written since it was last absent,
of which there is one. -/
theorem exists_counts {steps : List Step} {kept : StoredMetric} {h : Histogram}
    (found : (run (fresh defaults ttl, d) steps).1.store.find? sourceId id = some kept)
    (stored : kept.stored = .histogram h) :
    ∃ before since, steps = before ++ since ∧
      PresentSince (fun steps => (run (fresh defaults ttl, d) steps).1.store.find? sourceId id)
        before since ∧
      (∃ w ∈ writes defaults sourceId id since, w.1.reading.isDuration = true) ∧
      h.Counts Histogram.timerBounds (durations (writes defaults sourceId id since)) := by
  obtain ⟨before, since, rfl, present, made⟩ := find?_run_eq_some found
  obtain ⟨last, isLast, -, -, -, kind⟩ :=
    StoredMetric.afterAll_eq_some made fun w there w' there' => writes_alike there there'
  cases reading : last.1.reading with
  | counter value =>
      rw [reading, stored] at kind
      cases kind
  | gauge value =>
      rw [reading, stored] at kind
      cases kind
  | duration seconds =>
      rw [reading] at kind
      obtain ⟨histogram, same, counts⟩ := kind
      rw [stored] at same
      cases same
      exact ⟨before, since, rfl, present,
        ⟨last, List.mem_of_getLast? isLast, by rw [reading]; rfl⟩, counts⟩

/-- A step that leaves a histogram there does not decrease its sum. -/
theorem sum_le_of_step {steps : List Step} {before after : StoredMetric} {h : Histogram} {s : Step}
    (found : (run (fresh defaults ttl, d) steps).1.store.find? sourceId id = some before)
    (stored : before.stored = .histogram h) (nonneg : h.sum.Nonneg) (orderly : s.IsOrderly)
    (written : ∀ w ∈ s.writes defaults sourceId id, w.1.reading.isDuration = true)
    (stays : (run (fresh defaults ttl, d) (steps ++ [s])).1.store.find? sourceId id = some after) :
    ∃ h', after.stored = .histogram h' ∧ h'.sum.Nonneg ∧ h.sum ≤ h'.sum := by
  rw [run_append_singleton] at stays
  cases s with
  | expire now =>
      rw [find?_step_expire stays, Option.some.injEq] at found
      cases found
      exact ⟨h, stored, nonneg, nonneg.le_refl⟩
  | write e now =>
      rw [find?_step_write, found, (run_defaults (fresh defaults ttl, d) steps).1] at stays
      obtain ⟨kept, made, observed⟩ := StoredMetric.stored_afterAll stored written
      cases Option.some.inj (stays.symm.trans made)
      refine ⟨_, observed, Histogram.sum_le_observeAll nonneg fun x there => ?_⟩
      refine @nonneg_of_mem_durations defaults sourceId id [.write e now]
        (List.forall_mem_singleton.mpr orderly) x ?_
      rwa [writes, List.flatMap_singleton]

/-- While a histogram stays, its sum does not decrease. -/
theorem sum_le_of_present {steps : List Step} {kept : StoredMetric} {h : Histogram}
    (found : (run (fresh defaults ttl, d) steps).1.store.find? sourceId id = some kept)
    (stored : kept.stored = .histogram h) (nonneg : h.sum.Nonneg) {later : List Step}
    (orderly : ∀ s ∈ later, s.IsOrderly)
    (written : ∀ w ∈ writes defaults sourceId id later, w.1.reading.isDuration = true)
    (present : ∀ part, part <+: later →
      ((run (fresh defaults ttl, d) (steps ++ part)).1.store.find? sourceId id).isSome) :
    ∃ kept' h', (run (fresh defaults ttl, d) (steps ++ later)).1.store.find? sourceId id =
        some kept' ∧ kept'.stored = .histogram h' ∧ h'.sum.Nonneg ∧ h.sum ≤ h'.sum := by
  induction later using List.reverseRecOn with
  | nil => exact ⟨kept, h, by rwa [List.append_nil], stored, nonneg, nonneg.le_refl⟩
  | append_singleton later s ih =>
      rw [writes, List.flatMap_append, List.forall_mem_append, List.flatMap_singleton] at written
      rw [List.forall_mem_append, List.forall_mem_singleton] at orderly
      obtain ⟨before, h', foundBefore, storedBefore, nonnegBefore, le⟩ := ih orderly.1 written.1
        fun part prefixed => present part (prefixed.trans (List.prefix_append _ _))
      obtain ⟨after, stays⟩ := Option.isSome_iff_exists.mp (present _ (List.prefix_refl _))
      rw [← List.append_assoc] at stays ⊢
      obtain ⟨h'', storedAfter, nonnegAfter, more⟩ :=
        sum_le_of_step foundBefore storedBefore nonnegBefore orderly.2 written.2 stays
      exact ⟨after, h'', stays, storedAfter, nonnegAfter, Double.le_trans le more⟩

/-- Where a histogram is found, nothing but durations is ever written. -/
theorem isDuration_of_found {steps : List Step} {kept : StoredMetric} {h : Histogram}
    (found : (run (fresh defaults ttl, d) steps).1.store.find? sourceId id = some kept)
    (stored : kept.stored = .histogram h) (later : List Step) :
    ∀ w ∈ writes defaults sourceId id later, w.1.reading.isDuration = true := by
  obtain ⟨before, since, rfl, -, ⟨w, there, duration⟩, -⟩ := exists_counts found stored
  have among : ∀ w' ∈ writes defaults sourceId id (since ++ later),
      w'.1.reading.isDuration = w.1.reading.isDuration := by
    refine fun w' there' => writes_alike there' ?_
    rw [writes, List.flatMap_append]
    exact List.mem_append_left _ there
  rw [writes, List.flatMap_append, List.forall_mem_append] at among
  exact fun w' there' => (among.2 w' there').trans duration

theorem countsTimers_of_counts {steps : List Step} (orderly : ∀ s ∈ steps, s.IsOrderly)
    {h : Histogram}
    (counts : h.Counts Histogram.timerBounds (durations (writes defaults sourceId id steps))) :
    h.CountsTimers (timers defaults sourceId id steps) where
  count := by rw [counts.count, durations_writes, List.length_map]
  buckets := by
    rw [counts.buckets, durations_writes]
    refine List.map_congr_left fun bound isBound => ?_
    rw [← List.countP_eq_length_filter, List.countP_map]
    refine congrArg _ (List.countP_congr fun t there => ?_)
    rw [Function.comp_apply, decide_eq_true_eq, (isOrderly_of_mem_timers orderly there).seconds_eq,
      secondsOf_le_iff isBound]

end Histograms

/-- A step that writes a timer. -/
def timed (start stop : Int64) (now : Nat) : Step :=
  .write ⟨"svc", "", .empty, some (.timer ⟨"http", start, stop⟩)⟩ now

/-- Where the timers of such steps are kept, if there are no default tags. -/
def timedId : Identity :=
  .of "http_seconds" [("loggregator_name", "aHR0cA=="), ("source_id", "svc")]

end Collector

end Telemetry
