import Mathlib.Data.Finset.Card
import Mathlib.Order.Bounds.Basic
import Telemetry.Proofs.Store.Found

/-!
# The flat store

A *flat store* keeps a metric for each source and identity and nothing else.  Its
sweep looks at the metrics alone: a metric goes if it was last written too long
ago.  A store *agrees* with a flat store if the same metrics are found in both,
if there is a shelf for exactly the sources that have a metric, and if a shelf
was last written when the latest of its metrics was (`Agrees`).

Both a write and a sweep keep the agreement (`Agrees.write`, `Agrees.sweep`).  A
write needs that no metric was written later than now, and a sweep needs nothing:
a shelf is too old exactly if all its metrics are.
-/

namespace Telemetry

/-! ## Metrics by source and identity -/

/-- A metric for each source and identity. -/
abbrev FlatStore := Table (String × Identity) StoredMetric

namespace FlatStore

/-- Writes a measurement of a source. -/
def put (sourceId : String) (now : Nat) (f : FlatStore) (m : Measurement) : FlatStore :=
  f.insert (sourceId, m.identity)
    ⟨m.name, m.labels, Shelf.absorb (f.get? (sourceId, m.identity)) m.reading, now⟩

/-- Writes the measurements of a source. -/
def write (f : FlatStore) (sourceId : String) (now : Nat) (ms : List Measurement) : FlatStore :=
  ms.foldl (put sourceId now) f

/-- The entries that were last written too long ago. -/
def stale (f : FlatStore) (ttl now : Nat) : List ((String × Identity) × StoredMetric) :=
  f.entries.filter fun e => ttl ≤ now - e.2.updated

/-- What is left without the entries that were last written too long ago. -/
def expire (f : FlatStore) (ttl now : Nat) : FlatStore :=
  f.filter fun e => !decide (ttl ≤ now - e.2.updated)

/-- The sources that have a metric. -/
def sources (f : FlatStore) : Finset String := (f.entries.map (·.1.1)).toFinset

/-- The sources that lose their last metric in a sweep. -/
def lostSources (f : FlatStore) (ttl now : Nat) : Finset String :=
  f.sources \ (f.expire ttl now).sources

theorem mem_sources_iff {f : FlatStore} {sourceId : String} :
    sourceId ∈ f.sources ↔ ∃ id m, f.get? (sourceId, id) = some m := by
  simp only [sources, List.mem_toFinset, List.mem_map, Table.get?_eq_some_iff]
  constructor
  · rintro ⟨⟨⟨_, id⟩, m⟩, there, rfl⟩
    exact ⟨id, m, there⟩
  · rintro ⟨id, m, there⟩
    exact ⟨_, there, rfl⟩

theorem get?_expire_eq_some_iff {f : FlatStore} {ttl now : Nat} {key : String × Identity}
    {m : StoredMetric} :
    (f.expire ttl now).get? key = some m ↔ f.get? key = some m ∧ now - m.updated < ttl := by
  simp [expire, Option.filter_eq_some_iff]

/-- A sweep keeps the entries that are not too old, and no others. -/
theorem size_expire (f : FlatStore) (ttl now : Nat) :
    (f.expire ttl now).size + (f.stale ttl now).length = f.size := by
  have split := List.length_eq_length_filter_add (l := f.entries)
    fun e => decide (ttl ≤ now - e.2.updated)
  simp only [Table.size, expire, Table.filter, stale]
  omega

theorem sources_expire_subset (f : FlatStore) (ttl now : Nat) :
    (f.expire ttl now).sources ⊆ f.sources := by
  intro sourceId there
  obtain ⟨id, m, found⟩ := mem_sources_iff.mp there
  exact mem_sources_iff.mpr ⟨id, m, (get?_expire_eq_some_iff.mp found).1⟩

theorem card_lostSources (f : FlatStore) (ttl now : Nat) :
    (f.lostSources ttl now).card = f.sources.card - (f.expire ttl now).sources.card :=
  Finset.card_sdiff_of_subset (sources_expire_subset f ttl now)

/-- Nothing in a flat store was written later than a time. -/
def WrittenBy (f : FlatStore) (now : Nat) : Prop :=
  ∀ key m, f.get? key = some m → m.updated ≤ now

theorem WrittenBy.mono {f : FlatStore} {now later : Nat} (h : f.WrittenBy now)
    (le : now ≤ later) : f.WrittenBy later :=
  fun key m found => (h key m found).trans le

theorem WrittenBy.put {f : FlatStore} {now : Nat} (h : f.WrittenBy now) (sourceId : String)
    (m : Measurement) : (FlatStore.put sourceId now f m).WrittenBy now := by
  intro key kept found
  rw [FlatStore.put, Table.get?_insert] at found
  split at found
  · cases found
    exact le_rfl
  · exact h key kept found

theorem WrittenBy.write {f : FlatStore} {now : Nat} (h : f.WrittenBy now) (sourceId : String)
    (ms : List Measurement) : (f.write sourceId now ms).WrittenBy now := by
  induction ms generalizing f with
  | nil => exact h
  | cons m ms ih => exact ih (h.put sourceId m)

theorem WrittenBy.expire {f : FlatStore} {now : Nat} (h : f.WrittenBy now) (ttl time : Nat) :
    (f.expire ttl time).WrittenBy now :=
  fun key m found => h key m (get?_expire_eq_some_iff.mp found).1

end FlatStore

/-! ## Agreement -/

/-- A store holds what a flat store holds, and its shelves tell the truth about it. -/
structure Agrees (s : Store) (f : FlatStore) : Prop where
  /-- The same metrics are found. -/
  find? : ∀ sourceId id, s.find? sourceId id = f.get? (sourceId, id)
  /-- There is a shelf for each source that has a metric, and for no other. -/
  shelf : ∀ sourceId,
    s.shelves.contains sourceId = true ↔ ∃ id m, f.get? (sourceId, id) = some m
  /-- A shelf was last written when the latest of its metrics was. -/
  updated : ∀ sourceId shelf, s.shelves.get? sourceId = some shelf →
    IsGreatest {time | ∃ id m, f.get? (sourceId, id) = some m ∧ m.updated = time} shelf.updated

namespace Agrees

variable {s : Store} {f : FlatStore}

/-- It is enough that the same metrics are found and that no shelf claims a wrong time, since a
latest metric is a metric. -/
theorem of_updated (find? : ∀ sourceId id, s.find? sourceId id = f.get? (sourceId, id))
    (updated : ∀ sourceId shelf, s.shelves.get? sourceId = some shelf →
      IsGreatest {time | ∃ id m, f.get? (sourceId, id) = some m ∧ m.updated = time}
        shelf.updated) : Agrees s f := by
  refine ⟨find?, fun sourceId => ?_, updated⟩
  rw [Dict.contains_iff]
  constructor
  · rintro ⟨shelf, found⟩
    obtain ⟨⟨id, m, there, -⟩, -⟩ := updated sourceId shelf found
    exact ⟨id, m, there⟩
  · rintro ⟨id, m, there⟩
    rw [← find?, Store.find?, Option.bind_eq_some_iff] at there
    obtain ⟨shelf, found, -⟩ := there
    exact ⟨shelf, found⟩

theorem empty : Agrees Store.empty Table.empty :=
  of_updated (fun _ _ => rfl) (fun _ _ found => nomatch found)

theorem put (h : Agrees s f) {now : Nat} (past : f.WrittenBy now) (sourceId : String)
    (m : Measurement) : Agrees (Store.put sourceId now s m) (FlatStore.put sourceId now f m) := by
  apply of_updated
  · intro source id
    rw [Store.find?_put, FlatStore.put, Table.get?_insert, Store.kept, h.find?, h.find?]
    simp only [Prod.mk.injEq]
  · intro source shelf found
    rw [Store.put, Dict.get?_insert] at found
    split at found
    next here =>
      subst here
      cases found
      have latest : (FlatStore.put source now f m).get? (source, m.identity) = some
          ⟨m.name, m.labels, Shelf.absorb (f.get? (source, m.identity)) m.reading, now⟩ := by
        rw [FlatStore.put, Table.get?_insert, if_pos rfl]
      refine ⟨⟨m.identity, _, latest, rfl⟩, ?_⟩
      rintro time ⟨id, kept, there, rfl⟩
      exact past.put source m _ _ there
    next elsewhere =>
      have same :
          ∀ id, (FlatStore.put sourceId now f m).get? (source, id) = f.get? (source, id) := by
        intro id
        rw [FlatStore.put, Table.get?_insert, if_neg]
        exact fun equal => elsewhere (congrArg Prod.fst equal)
      simp only [same]
      exact h.updated source shelf found

/-- A write keeps the agreement. -/
theorem write (h : Agrees s f) {now : Nat} (past : f.WrittenBy now) (sourceId : String)
    (ms : List Measurement) : Agrees (s.write sourceId now ms) (f.write sourceId now ms) := by
  rw [Store.write_eq_foldl_put, FlatStore.write]
  induction ms generalizing s f with
  | nil => exact h
  | cons m ms ih => exact ih (h.put past sourceId m) (past.put sourceId m)

/-- A sweep keeps the agreement: the shelf goes with the last of its metrics. -/
theorem sweep (h : Agrees s f) (ttl now : Nat) : Agrees (s.sweep ttl now) (f.expire ttl now) := by
  apply of_updated
  · intro sourceId id
    ext m
    rw [FlatStore.get?_expire_eq_some_iff, Store.find?_sweep_eq_some_iff, ← h.find?, Store.find?,
      Option.bind_eq_some_iff]
    constructor
    · rintro ⟨shelf, found, -, there, live⟩
      exact ⟨⟨shelf, found, there⟩, live⟩
    · rintro ⟨⟨shelf, found, there⟩, live⟩
      have known : f.get? (sourceId, id) = some m := by
        rw [← h.find?, Store.find?, found]
        exact there
      -- The shelf is at least as young as this metric, so it stays.
      have younger : m.updated ≤ shelf.updated :=
        (h.updated sourceId shelf found).2 ⟨id, m, known, rfl⟩
      exact ⟨shelf, found, by omega, there, live⟩
  · intro sourceId shelf swept
    obtain ⟨before, found, live, rfl⟩ := Store.get?_shelves_sweep.mp swept
    obtain ⟨⟨id, m, there, latest⟩, bound⟩ := h.updated sourceId before found
    change IsGreatest _ before.updated
    refine ⟨⟨id, m, ?_, latest⟩, ?_⟩
    · exact FlatStore.get?_expire_eq_some_iff.mpr ⟨there, latest ▸ live⟩
    · rintro time ⟨id, m, there, rfl⟩
      exact bound ⟨id, m, (FlatStore.get?_expire_eq_some_iff.mp there).1, rfl⟩

end Agrees

end Telemetry
