import Telemetry.Proofs.Merging.Laws
import Telemetry.Proofs.Store.Series

/-!
# What is collected

A collector is asked for its families between its steps.  Each time it visits what it
keeps in some order, makes a family of each metric, and merges these.  A name is
exposed under one kind, so what comes out of it depends on the kinds that the sources
keep under the name.

* Where they agree, the family of the name has every metric of the name.
* Where they do not, the metric that is visited first decides.  The family has every
  metric of that kind, and those of other kinds are left out.

`Store.ShownBy` says this of a store and some families.  It is all that the order can
change, whatever order is taken (`shownBy_familiesOf`).  Asking changes nothing, so the
store that is shown is the one that was written and swept (`after_eq_run`).
-/

namespace Telemetry

/-! ## What is shown -/

/-- The metric that is exposed. -/
def StoredMetric.metric (m : StoredMetric) : Metric := ⟨m.labels, m.stored.value⟩

/-- Whether some families show what a store keeps. -/
structure Store.ShownBy (s : Store) (families : List Family) : Prop where
  /-- Families come by ascending name. -/
  ascending : (families.map (·.name)).Pairwise (· < ·)
  /-- The names are those of the metrics. -/
  names : ∀ name, name ∈ families.map (·.name) ↔ ∃ e ∈ s.entries, e.2.name = name
  /-- All families have the same help. -/
  help : ∀ f ∈ families, f.help = some StoredMetric.help
  /-- The kind of a family is one of those that are kept under its name. -/
  kind : ∀ f ∈ families, ∃ e ∈ s.entries, e.2.BelongsTo f
  /-- A family has the metrics of its name and its kind, each of them once. -/
  metrics : ∀ f ∈ families,
    f.metrics.Perm ((s.entries.filter (·.2.BelongsTo f)).map (·.2.metric))
  /-- Metrics of a name that have one kind are all there. -/
  whole : ∀ f ∈ families, ∀ kind,
    (∀ e ∈ s.entries, e.2.name = f.name → e.2.stored.value.kind = kind) →
      f.kind = kind ∧ f.metrics.Perm ((s.entries.filter (·.2.name = f.name)).map (·.2.metric))

namespace Store

section Visits

variable {s : Store} {visited : List StoredMetric} (perm : visited.Perm s.metrics)
include perm

theorem exists_entry_iff {p : StoredMetric → Prop} :
    (∃ e ∈ s.entries, p e.2) ↔ ∃ m ∈ visited, p m := by
  simp only [perm.mem_iff, metrics_eq, List.mem_map]
  constructor
  · rintro ⟨e, there, own⟩
    exact ⟨e.2, ⟨e, there, rfl⟩, own⟩
  · rintro ⟨_, ⟨e, there, rfl⟩, own⟩
    exact ⟨e, there, own⟩

/-- What is visited of some metrics is what is kept of them. -/
theorem visited_filter_perm (p : StoredMetric → Bool) :
    ((visited.filter p).map (·.metric)).Perm
      ((s.entries.filter (p ·.2)).map (·.2.metric)) := by
  have kept := (perm.filter p).map (·.metric)
  rw [metrics_eq, List.filter_map, List.map_map] at kept
  exact kept

omit perm in
/-- A family that is shown has its help and its kind of a metric that is visited. -/
theorem exists_first {f : Family} (there : f ∈ familiesOf visited) :
    f.help = some StoredMetric.help ∧ ∃ m ∈ visited, m.BelongsTo f := by
  obtain ⟨first, others, ofName, same⟩ := Family.mem_merge_iff.mp there
  have among : first ∈ visited.map StoredMetric.family :=
    (List.mem_filter.mp (ofName ▸ List.mem_cons_self)).1
  obtain ⟨m, member, rfl⟩ := List.mem_map.mp among
  refine ⟨?_, m, member, Family.named_of_filter ofName, ?_⟩
  · rw [same]
    rfl
  · rw [same]
    rfl

/-- In whatever order a store is visited, its families show it. -/
theorem shownBy_familiesOf : s.ShownBy (familiesOf visited) where
  ascending := Family.names_merge_ascending _
  names name := by
    rw [exists_entry_iff perm (p := (·.name = name)), familiesOf, Family.mem_names_merge_iff,
      List.map_map, List.mem_map]
    rfl
  help f there := (exists_first there).1
  kind f there := (exists_entry_iff perm).mpr (exists_first there).2
  metrics f there := by
    rw [metrics_of_mem_familiesOf there]
    exact visited_filter_perm perm fun m => m.BelongsTo f
  whole f there kind alike := by
    obtain ⟨e, member, named, own⟩ := (exists_entry_iff perm).mpr (exists_first there).2
    have same : f.kind = kind := own.trans (alike e member named)
    refine ⟨same, ?_⟩
    have all : s.entries.filter (·.2.BelongsTo f) = s.entries.filter (·.2.name = f.name) := by
      refine List.filter_congr fun e' member' => decide_eq_decide.mpr ⟨And.left, fun named' => ?_⟩
      exact ⟨named', same.trans (alike e' member' named').symm⟩
    rw [← all, metrics_of_mem_familiesOf there]
    exact visited_filter_perm perm fun m => m.BelongsTo f

end Visits

end Store

/-! ## Asking a collector -/

namespace Collector

/-- What happens to a collector that is also asked for its families. -/
inductive Event where
  /-- It is written, or what is too old is taken away. -/
  | step (s : Step)
  /-- It is asked, and visits its metrics in some order. -/
  | collect (visit : List StoredMetric → List StoredMetric)

/-- The step of an event that is one. -/
def Event.step? : Event → Option Step
  | step s => some s
  | collect _ => none

/-- A collector and its diagnostics after an event, and the families it was asked for. -/
def respond (state : Collector × Diagnostics) :
    Event → (Collector × Diagnostics) × Option (List Family)
  | .step s => (step state s, none)
  | .collect visit => (state, some (Store.familiesOf (visit state.1.store.metrics)))

/-- A collector that visits its metrics as they stand gives its own families. -/
theorem respond_collect_id (state : Collector × Diagnostics) :
    respond state (.collect id) = (state, some state.1.families) :=
  rfl

/-- A collector and its diagnostics after some events. -/
def after (state : Collector × Diagnostics) (events : List Event) : Collector × Diagnostics :=
  events.foldl (fun state e => (respond state e).1) state

/-- Asking leaves everything as it was, so events come to a run of their steps. -/
theorem after_eq_run (state : Collector × Diagnostics) (events : List Event) :
    after state events = run state (events.filterMap Event.step?) := by
  induction events generalizing state with
  | nil => rfl
  | cons e events ih =>
      cases e with
      | step s => exact ih (step state s)
      | collect visit => exact ih state

/-- Whenever a collector is asked, and in whatever order it visits its metrics, it stays as the
writes and sweeps so far have made it, and the families show its store. -/
theorem collects_store (defaults : Dict String) (ttl : Nat) (d : Diagnostics)
    (events : List Event) (visit : List StoredMetric → List StoredMetric)
    (perm : ∀ metrics, (visit metrics).Perm metrics) :
    let state := after (.fresh defaults ttl, d) events
    ∃ families, respond state (.collect visit) = (state, some families) ∧
      state = run (.fresh defaults ttl, d) (events.filterMap Event.step?) ∧
        state.1.store.ShownBy families := by
  intro state
  exact ⟨_, rfl, after_eq_run _ events, Store.shownBy_familiesOf (perm _)⟩

/-- Two sources count requests, and a third has a gauge of that name.  The collector is asked
before and after the third comes. -/
def clashingNames : List Event :=
  let total (n : Nat) : Option Message := some (.counter ⟨"requests", 0, n.toUInt64⟩)
  let reading : Dict GaugeReading := .ofList [("requests", ⟨.ofNat 7, ""⟩)]
  [.step (.write ⟨"api", "", .empty, total 1⟩ 0), .step (.write ⟨"db", "", .empty, total 2⟩ 0),
    .collect id, .step (.write ⟨"web", "", .empty, some (.gauge reading)⟩ 1),
    .step (.write ⟨"db", "", .empty, total 3⟩ 2)]

/-- The two counters are shown, or the gauge is, by what is visited first. -/
theorem collects_clashingNames :
    let state := after (.fresh .empty 600, {}) clashingNames
    let scalars (visit : List StoredMetric → List StoredMetric) :=
      (Store.familiesOf (visit state.1.store.metrics)).map fun f =>
        (f.name, f.kind, f.metrics.map (·.value.scalar?))
    scalars id = [("requests", .counter, [some (.ofNat 1), some (.ofNat 3)])] ∧
      scalars List.reverse = [("requests", .gauge, [some (.ofNat 7)])] ∧
        ∃ families, respond state (.collect List.reverse) = (state, some families) ∧
          state = run (.fresh .empty 600, {}) (clashingNames.filterMap Event.step?) ∧
            state.1.store.ShownBy families := by
  intro state scalars
  refine ⟨by decide +kernel, by decide +kernel, ?_⟩
  exact collects_store .empty 600 {} clashingNames List.reverse List.reverse_perm

end Collector

end Telemetry
