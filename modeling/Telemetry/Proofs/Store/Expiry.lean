import Mathlib.Data.List.Induction
import Telemetry.Proofs.Store.Flat

/-!
# Expiry

A run of the collector and a run of the flat store are compared step by step.  The
flat store is written with what an envelope converts to, and a sweep takes away
the metrics that were last written too long ago, one by one.

`expiry_refines_flat` says that after every run the store agrees with the flat
store, and that the next sweep tells and counts what the flat store loses.  Since
the beginning of a run is a run, this holds after each step.  The times must not
decrease: with a clock that goes back, a shelf could be older than its metrics.
-/

namespace Telemetry

/-! ## Runs of the flat store -/

namespace FlatStore

/-- A flat store after a step of the collector. -/
def step (defaults : Dict String) (ttl : Nat) (f : FlatStore) : Collector.Step → FlatStore
  | .write envelope now =>
      match (convert defaults envelope).result with
      | .error _ => f
      | .ok ms => f.write envelope.sourceId now ms
  | .expire now => f.expire ttl now

/-- The flat store after a run of the collector. -/
def run (defaults : Dict String) (ttl : Nat) (steps : List Collector.Step) : FlatStore :=
  steps.foldl (step defaults ttl) Table.empty

theorem run_append_singleton (defaults : Dict String) (ttl : Nat) (steps : List Collector.Step)
    (s : Collector.Step) :
    run defaults ttl (steps ++ [s]) = step defaults ttl (run defaults ttl steps) s := by
  simp only [run, List.foldl_append, List.foldl_cons, List.foldl_nil]

theorem WrittenBy.step {f : FlatStore} {defaults : Dict String} {ttl : Nat}
    {s : Collector.Step} (h : f.WrittenBy s.time) : (f.step defaults ttl s).WrittenBy s.time := by
  cases s with
  | write e now =>
      simp only [FlatStore.step]
      cases (convert defaults e).result with
      | error _ => exact h
      | ok ms => exact WrittenBy.write h e.sourceId ms
  | expire now => exact h.expire ttl now

end FlatStore

/-! ## A step keeps the agreement -/

theorem Agrees.step {state : Collector × Diagnostics} {f : FlatStore} {s : Collector.Step}
    (h : Agrees state.1.store f) (past : f.WrittenBy s.time) :
    Agrees (Collector.step state s).1.store (f.step state.1.defaults state.1.ttl s) := by
  cases s with
  | write e now =>
      simp only [Collector.step, Collector.write_eq, FlatStore.step]
      cases (convert state.1.defaults e).result with
      | error _ => exact h
      | ok ms => exact h.write past e.sourceId ms
  | expire now => exact h.sweep state.1.ttl now

/-- After a run the store agrees with the flat store, in which nothing is younger than the run. -/
theorem agrees_run (defaults : Dict String) (ttl : Nat) (d : Diagnostics)
    {steps : List Collector.Step} (ordered : Collector.Nondecreasing steps) :
    Agrees (Collector.run (.fresh defaults ttl, d) steps).1.store (.run defaults ttl steps) ∧
      ∀ now, (∀ s ∈ steps, s.time ≤ now) → (FlatStore.run defaults ttl steps).WrittenBy now := by
  induction steps using List.reverseRecOn with
  | nil => exact ⟨Agrees.empty, fun _ _ _ _ found => nomatch found⟩
  | append_singleton steps s ih =>
      obtain ⟨before, -, last⟩ := List.pairwise_append.mp ordered
      have upTo : ∀ t ∈ steps, t.time ≤ s.time := fun t there =>
        last t there s (List.mem_singleton_self s)
      obtain ⟨agrees, written⟩ := ih before
      have past := written s.time upTo
      rw [Collector.run_append_singleton, FlatStore.run_append_singleton]
      obtain ⟨sameDefaults, sameTtl⟩ := Collector.run_defaults (.fresh defaults ttl, d) steps
      constructor
      · have stepped := agrees.step past
        rwa [sameDefaults, sameTtl] at stepped
      · intro now bound
        have inTime : s.time ≤ now := bound s (List.mem_append_right _ (List.mem_singleton_self s))
        exact past.step.mono inTime

/-! ## What a sweep tells -/

namespace Agrees

variable {s : Store} {f : FlatStore}

/-- A store has as many metrics as the flat store. -/
theorem metricCount_eq (h : Agrees s f) : s.metricCount = f.size := by
  have perm : s.entries.Perm f.entries := by
    refine (List.perm_ext_iff_of_nodup (s.entries_nodup.of_map _)
      (f.nodup.of_map _)).mpr ?_
    rintro ⟨⟨sourceId, id⟩, m⟩
    rw [Store.mem_entries_iff, h.find?, Table.get?_eq_some_iff]
  have count : s.metricCount = s.entries.length := by
    rw [Store.metricCount, Store.metrics_eq, List.length_map]
  rw [count, perm.length_eq, Table.size]

/-- A store has as many shelves as the flat store has sources. -/
theorem sourceCount_eq (h : Agrees s f) : s.sourceCount = f.sources.card := by
  have sources : (s.shelves.entries.map Prod.fst).toFinset = f.sources := by
    ext sourceId
    rw [FlatStore.mem_sources_iff, ← h.shelf, Dict.contains_iff, List.mem_toFinset, List.mem_map]
    constructor
    · rintro ⟨⟨_, shelf⟩, there, rfl⟩
      exact ⟨shelf, Dict.get?_eq_some_iff.mpr there⟩
    · rintro ⟨shelf, found⟩
      exact ⟨_, Dict.get?_eq_some_iff.mp found, rfl⟩
  rw [← sources, List.toFinset_card_of_nodup s.shelves.keys_nodup, List.length_map]
  rfl

/-- A sweep tells how many metrics the flat store loses, and counts them and the sources that
lose their last one. -/
theorem expire_eq {c : Collector} (h : Agrees c.store f) (d : Diagnostics) (now : Nat) :
    (c.expire d now).2 =
      ((d.count .expiredMetrics (f.stale c.ttl now).length.toUInt64).count .expiredSources
        (f.lostSources c.ttl now).card.toUInt64, (f.stale c.ttl now).length) := by
  have after := h.sweep c.ttl now
  have metrics : c.store.metricCount - (c.store.sweep c.ttl now).metricCount
      = (f.stale c.ttl now).length := by
    rw [h.metricCount_eq, after.metricCount_eq, ← f.size_expire c.ttl now, Nat.add_sub_cancel_left]
  have sources : c.store.sourceCount - (c.store.sweep c.ttl now).sourceCount
      = (f.lostSources c.ttl now).card := by
    rw [h.sourceCount_eq, after.sourceCount_eq, f.card_lostSources]
  simp only [Collector.expire, metrics, sources]

end Agrees

/-! ## Runs -/

/-- After every run the store agrees with the flat store, and a sweep that follows tells and
counts what the flat store loses. -/
theorem expiry_refines_flat (defaults : Dict String) (ttl : Nat) (d : Diagnostics)
    (steps : List Collector.Step) (ordered : Collector.Nondecreasing steps) :
    let state := Collector.run (.fresh defaults ttl, d) steps
    let flat := FlatStore.run defaults ttl steps
    Agrees state.1.store flat ∧
      ∀ now,
        (state.1.expire state.2 now).2 =
          ((state.2.count .expiredMetrics (flat.stale ttl now).length.toUInt64).count
            .expiredSources (flat.lostSources ttl now).card.toUInt64,
            (flat.stale ttl now).length) := by
  intro state flat
  have agrees : Agrees state.1.store flat := (agrees_run defaults ttl d ordered).1
  have sameTtl : state.1.ttl = ttl := (Collector.run_defaults (.fresh defaults ttl, d) steps).2
  refine ⟨agrees, fun now => ?_⟩
  have told := agrees.expire_eq state.2 now
  rwa [sameTtl] at told

/-- Two counters of one source, written at the start and after half of the time to live. -/
def staleAndFresh : List Collector.Step :=
  let envelope (name : String) : Envelope := ⟨"svc", "", .empty, some (.counter ⟨name, 0, 1⟩)⟩
  [.write (envelope "stale") 0, .write (envelope "fresh") 300]

/-- A sweep takes the older one of the two and leaves their source. -/
theorem expire_staleAndFresh :
    Collector.Nondecreasing staleAndFresh ∧
      let state := Collector.run (.fresh .empty 600, {}) staleAndFresh
      Agrees state.1.store (.run .empty 600 staleAndFresh) ∧
        (state.1.expire state.2 600).2 = (state.2.count .expiredMetrics 1, 1) := by
  have ordered : Collector.Nondecreasing staleAndFresh := by decide
  obtain ⟨agrees, told⟩ := expiry_refines_flat .empty 600 {} staleAndFresh ordered
  refine ⟨ordered, agrees, (told 600).trans ?_⟩
  have metrics : ((FlatStore.run .empty 600 staleAndFresh).stale 600 600).length = 1 := by
    decide +kernel
  have sources : ((FlatStore.run .empty 600 staleAndFresh).lostSources 600 600).card = 0 := by
    decide +kernel
  rw [metrics, sources]
  simp [Diagnostics.count, Tally.add]

end Telemetry
