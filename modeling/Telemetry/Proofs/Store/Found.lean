import Mathlib.Data.List.Nodup
import Telemetry.Proofs.Collector.Run
import Telemetry.Proofs.Lookup

/-!
# What is found in a store

A store is known by the metric that is found for a source and an identity
(`Store.find?`), or by the list of all of them with their keys (`Store.entries`).
Measurements that are written together might as well be written one by one
(`write_eq_foldl_put`), so a write is understood by what one measurement does
(`find?_put`), and a sweep takes metrics away and changes none (`find?_of_sweep`).

`everywhere_run` is what follows for runs: what holds of every metric when it is
written holds of every metric at any time.
-/

namespace Telemetry

theorem Dict.insert_insert {α : Type} (d : Dict α) (key : String) (before after : α) :
    (d.insert key before).insert key after = d.insert key after := by
  apply Dict.ext_get?
  intro k
  simp only [Dict.get?_insert]
  split <;> rfl

namespace Store

/-! ## Views -/

/-- The metric that a store keeps for a source and an identity. -/
def find? (s : Store) (sourceId : String) (id : Identity) : Option StoredMetric :=
  (s.shelves.get? sourceId).bind (·.metrics.get? id)

/-- All metrics of a store with their sources and identities. -/
def entries (s : Store) : List ((String × Identity) × StoredMetric) :=
  s.shelves.entries.flatMap fun shelf =>
    shelf.2.metrics.entries.map fun e => ((shelf.1, e.1), e.2)

theorem mem_entries_iff {s : Store} {sourceId : String} {id : Identity} {m : StoredMetric} :
    ((sourceId, id), m) ∈ s.entries ↔ s.find? sourceId id = some m := by
  simp only [entries, List.mem_flatMap, List.mem_map, find?, Option.bind_eq_some_iff]
  constructor
  · rintro ⟨⟨source, shelf⟩, found, ⟨_, _⟩, there, equal⟩
    cases equal
    exact ⟨shelf, Dict.get?_eq_some_iff.mpr found, Table.get?_eq_some_iff.mpr there⟩
  · rintro ⟨shelf, found, there⟩
    exact ⟨(sourceId, shelf), Dict.get?_eq_some_iff.mp found, (id, m),
      Table.get?_eq_some_iff.mp there, rfl⟩

theorem entries_nodup (s : Store) : (s.entries.map Prod.fst).Nodup := by
  rw [entries, List.map_flatMap, List.nodup_flatMap]
  constructor
  · rintro ⟨source, shelf⟩ -
    have keys : ((shelf.metrics.entries.map fun e => ((source, e.1), e.2)).map Prod.fst)
        = (shelf.metrics.entries.map Prod.fst).map (Prod.mk source) := by
      rw [List.map_map, List.map_map]
      rfl
    rw [keys]
    exact shelf.metrics.nodup.map fun _ _ equal => congrArg Prod.snd equal
  · have distinct := List.pairwise_map.mp s.shelves.keys_nodup
    refine distinct.imp fun {a b} different => ?_
    intro key left right
    simp only [List.mem_map] at left right
    obtain ⟨_, ⟨e, -, rfl⟩, rfl⟩ := left
    obtain ⟨_, ⟨e', -, rfl⟩, equal⟩ := right
    exact different (congrArg Prod.fst equal).symm

/-- The metrics of a store are those of its entries. -/
theorem metrics_eq (s : Store) : s.metrics = s.entries.map Prod.snd := by
  rw [metrics, entries, Dict.values, List.map_flatMap, List.flatMap_map]
  simp only [Table.values, List.map_map, Function.comp_def]

/-! ## One measurement at a time -/

/-- Writes a measurement to the shelf of a source, which is new if there is none. -/
def put (sourceId : String) (now : Nat) (s : Store) (m : Measurement) : Store :=
  ⟨s.shelves.insert sourceId (((s.shelves.get? sourceId).getD ⟨.empty, now⟩).add now m)⟩

/-- Measurements that are written together might as well be written one by one. -/
theorem write_eq_foldl_put (s : Store) (sourceId : String) (now : Nat) (ms : List Measurement) :
    s.write sourceId now ms = ms.foldl (put sourceId now) s := by
  have rest : ∀ (ms : List Measurement) (shelf : Shelf),
      (⟨s.shelves.insert sourceId (ms.foldl (·.add now) shelf)⟩ : Store)
        = ms.foldl (put sourceId now) ⟨s.shelves.insert sourceId shelf⟩ := by
    intro ms
    induction ms with
    | nil => intro shelf; rfl
    | cons m ms ih =>
        intro shelf
        rw [List.foldl_cons, List.foldl_cons, ih]
        simp only [put, Dict.get?_insert, if_pos, Option.getD_some, Dict.insert_insert]
  cases ms with
  | nil => rfl
  | cons m ms => exact rest ms _

/-- What is kept of a measurement. -/
def kept (s : Store) (sourceId : String) (now : Nat) (m : Measurement) : StoredMetric :=
  ⟨m.name, m.labels, Shelf.absorb (s.find? sourceId m.identity) m.reading, now⟩

theorem find?_put (s : Store) (sourceId : String) (now : Nat) (m : Measurement) (source : String)
    (id : Identity) :
    (put sourceId now s m).find? source id =
      if source = sourceId ∧ id = m.identity then some (s.kept sourceId now m)
      else s.find? source id := by
  have shelf : ∀ id, ((s.shelves.get? sourceId).getD ⟨.empty, now⟩).metrics.get? id
      = s.find? sourceId id := by
    intro id
    rw [find?]
    cases s.shelves.get? sourceId <;> rfl
  rw [find?, put, Dict.get?_insert]
  by_cases here : source = sourceId
  · subst here
    rw [if_pos rfl, Option.bind_some, Shelf.add, Table.get?_insert, shelf, shelf, kept]
    simp only [true_and]
  · rw [if_neg here, if_neg fun both => here both.1, find?]

/-! ## Sweeps -/

theorem get?_shelves_sweep {s : Store} {ttl now : Nat} {sourceId : String} {shelf : Shelf} :
    (s.sweep ttl now).shelves.get? sourceId = some shelf ↔
      ∃ before, s.shelves.get? sourceId = some before ∧ now - before.updated < ttl ∧
        shelf = before.sweep ttl now := by
  simp only [sweep, Dict.get?_map, Dict.get?_filter, isStale, Option.map_eq_some_iff,
    Option.filter_eq_some_iff, Bool.not_eq_true', decide_eq_false_iff_not, Nat.not_le]
  constructor
  · rintro ⟨before, ⟨found, live⟩, rfl⟩
    exact ⟨before, found, live, rfl⟩
  · rintro ⟨before, found, live, rfl⟩
    exact ⟨before, ⟨found, live⟩, rfl⟩

theorem get?_metrics_sweep {shelf : Shelf} {ttl now : Nat} {id : Identity} {m : StoredMetric} :
    (shelf.sweep ttl now).metrics.get? id = some m ↔
      shelf.metrics.get? id = some m ∧ now - m.updated < ttl := by
  simp [Shelf.sweep, isStale, Option.filter_eq_some_iff]

/-- A metric is found after a sweep if it is young enough and on a shelf that is. -/
theorem find?_sweep_eq_some_iff {s : Store} {ttl now : Nat} {sourceId : String} {id : Identity}
    {m : StoredMetric} :
    (s.sweep ttl now).find? sourceId id = some m ↔
      ∃ shelf, s.shelves.get? sourceId = some shelf ∧ now - shelf.updated < ttl ∧
        shelf.metrics.get? id = some m ∧ now - m.updated < ttl := by
  simp only [find?, Option.bind_eq_some_iff, get?_shelves_sweep]
  constructor
  · rintro ⟨_, ⟨shelf, found, live, rfl⟩, there⟩
    exact ⟨shelf, found, live, get?_metrics_sweep.mp there⟩
  · rintro ⟨shelf, found, live, there⟩
    exact ⟨_, ⟨shelf, found, live, rfl⟩, get?_metrics_sweep.mpr there⟩

theorem find?_of_sweep {s : Store} {ttl now : Nat} {sourceId : String} {id : Identity}
    {m : StoredMetric} (found : (s.sweep ttl now).find? sourceId id = some m) :
    s.find? sourceId id = some m := by
  obtain ⟨shelf, there, -, metric, -⟩ := find?_sweep_eq_some_iff.mp found
  rw [find?, there]
  exact metric

/-! ## What holds of every metric -/

/-- Whether something holds of every metric of a store, its source and its identity. -/
def Everywhere (P : String → Identity → StoredMetric → Prop) (s : Store) : Prop :=
  ∀ sourceId id m, s.find? sourceId id = some m → P sourceId id m

variable {P : String → Identity → StoredMetric → Prop}

theorem Everywhere.sweep {s : Store} (h : s.Everywhere P) (ttl now : Nat) :
    (s.sweep ttl now).Everywhere P :=
  fun sourceId id m found => h sourceId id m (find?_of_sweep found)

theorem Everywhere.write {s : Store} (h : s.Everywhere P) {sourceId : String} {now : Nat}
    {ms : List Measurement}
    (written : ∀ m ∈ ms, ∀ s : Store, s.Everywhere P →
      P sourceId m.identity (s.kept sourceId now m)) :
    (s.write sourceId now ms).Everywhere P := by
  rw [write_eq_foldl_put]
  induction ms generalizing s with
  | nil => exact h
  | cons m ms ih =>
      apply ih
      · intro source id found there
        rw [find?_put] at there
        split at there
        next here =>
          obtain ⟨rfl, rfl⟩ := here
          cases there
          exact written m List.mem_cons_self s h
        next => exact h source id found there
      · exact fun m' there => written m' (List.mem_cons_of_mem _ there)

end Store

/-- What holds of every metric when it is written holds of every metric after a run. -/
theorem everywhere_run {P : String → Identity → StoredMetric → Prop} {defaults : Dict String}
    {steps : List Collector.Step}
    (written : ∀ e now ms, .write e now ∈ steps → (convert defaults e).result = .ok ms →
      ∀ m ∈ ms, ∀ s : Store, s.Everywhere P → P e.sourceId m.identity (s.kept e.sourceId now m))
    (ttl : Nat) (d : Diagnostics) :
    (Collector.run (.fresh defaults ttl, d) steps).1.store.Everywhere P := by
  suffices h : ∀ (steps' : List Collector.Step) (state : Collector × Diagnostics),
      (∀ s ∈ steps', s ∈ steps) → state.1.defaults = defaults → state.1.store.Everywhere P →
      (Collector.run state steps').1.store.Everywhere P from
    h steps _ (fun _ there => there) rfl (fun _ _ _ found => nomatch found)
  intro steps' state
  induction steps' generalizing state with
  | nil => exact fun _ _ before => before
  | cons s steps' ih =>
      intro among same before
      refine ih (Collector.step state s) (fun s' there => among s' (List.mem_cons_of_mem _ there))
        ((Collector.step_defaults state s).1.trans same) ?_
      have here := among s List.mem_cons_self
      cases s with
      | write e now =>
          simp only [Collector.step, Collector.write_eq, same]
          cases converted : (convert defaults e).result with
          | error _ => exact before
          | ok ms => exact before.write (written e now ms here converted)
      | expire now => exact before.sweep state.1.ttl now

end Telemetry
