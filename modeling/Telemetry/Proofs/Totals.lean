import Mathlib.Algebra.GroupWithZero.Nat
import Mathlib.Data.List.Dedup
import Mathlib.Data.List.Perm.Subperm
import Telemetry.Proofs.Pipeline

/-!
# Running totals

An *increment* is a counter that tells only what was added.  As long as no more keys
have come up than the table of running totals may hold, the table is never emptied,
and the total of a key is the sum of all increments of that key (`Sums`).  An
increment comes out with this total, and the total of any other key stays as it is
(`Sums.process`).
-/

namespace Telemetry

/-- Two sets of labels give a name the same identity only if they are the same. -/
theorem Identity.of_toList_eq_iff {name name' : String} {labels labels' : Dict String} :
    Identity.of name labels.toList = .of name' labels'.toList ↔
      name = name' ∧ labels = labels' := by
  constructor
  · intro same
    obtain ⟨names, perm⟩ := Identity.of_of_eq same
    exact ⟨names, Dict.ext_entries fun _ => perm.mem_iff⟩
  · rintro ⟨rfl, rfl⟩
    rfl

/-! ## Increments -/

/-- A counter that tells only what was added. -/
structure Increment where
  /-- The source. -/
  sourceId : String
  /-- Which instance of the source. -/
  instanceId : String
  /-- The tags. -/
  tags : Dict String
  /-- The name. -/
  name : String
  /-- What was added. -/
  delta : UInt64
  deriving DecidableEq

namespace Increment

/-- The envelope with an increment and a total, which is zero when it comes in. -/
def envelope (i : Increment) (total : UInt64) : Envelope :=
  ⟨i.sourceId, i.instanceId, i.tags, some (.counter ⟨i.name, i.delta, total⟩)⟩

/-- Increments are the envelopes with a counter that has no total. -/
theorem exists_envelope_eq_iff {e : Envelope} :
    (∃ i : Increment, i.envelope 0 = e) ↔ ∃ c, e.message = some (.counter c) ∧ c.total = 0 := by
  constructor
  · rintro ⟨i, rfl⟩
    exact ⟨_, rfl, rfl⟩
  · obtain ⟨sourceId, instanceId, tags, message⟩ := e
    rintro ⟨⟨name, delta, total⟩, rfl, rfl⟩
    exact ⟨⟨sourceId, instanceId, tags, name, delta⟩, rfl⟩

/-- What the running total of an increment belongs to. -/
def key (i : Increment) : TotalKey := ⟨i.sourceId, i.instanceId, .of i.name i.tags.toList⟩

theorem key_eq_iff {i j : Increment} :
    i.key = j.key ↔
      i.sourceId = j.sourceId ∧ i.instanceId = j.instanceId ∧ i.name = j.name ∧ i.tags = j.tags := by
  simp only [key, TotalKey.mk.injEq, Identity.of_toList_eq_iff]

/-- What some increments add up to, modulo 64 bits. -/
def total (increments : List Increment) : Nat :=
  (increments.map (·.delta.toNat)).sum % 2 ^ 64

theorem total_append_singleton (increments : List Increment) (i : Increment) :
    total (increments ++ [i]) = (total increments + i.delta.toNat) % 2 ^ 64 := by
  simp only [total, List.map_append, List.sum_append, List.map_singleton, List.sum_singleton,
    Nat.mod_add_mod]

end Increment

/-! ## The table -/

namespace RunningTotals

/-- The table without totals. -/
theorem last_empty (key : TotalKey) : (⟨{}⟩ : RunningTotals).last key = 0 :=
  Std.HashMap.getD_empty

theorem last_insert (t : RunningTotals) (key : TotalKey) (total : UInt64) (k : TotalKey) :
    (⟨t.totals.insert key total⟩ : RunningTotals).last k = if k = key then total else t.last k := by
  rw [last, Std.HashMap.getD_insert]
  by_cases same : k = key
  · simp [same]
  · have other : key ≠ k := fun equal => same equal.symm
    simp [same, other, last]

/-- A counter comes out with the total that follows the last one, and the table holds it. -/
theorem process_of_counter (t : RunningTotals) {e : Envelope} {c : CounterMessage}
    (counter : e.message = some (.counter c)) :
    t.process e =
      (⟨t.makeRoom.totals.insert (keyOf e c) (next (t.makeRoom.last (keyOf e c)) c)⟩,
        { e with
          message :=
            some (.counter { c with total := next (t.makeRoom.last (keyOf e c)) c }) }) := by
  simp only [process, counter]

/-- Nothing is done to any other envelope. -/
theorem process_of_not_counter (t : RunningTotals) {e : Envelope}
    (other : ∀ c, e.message ≠ some (.counter c)) : t.process e = (t, e) := by
  unfold process
  split
  next c counter => exact absurd counter (other c)
  next => rfl

/-- A table that has not grown too large gives an increment the last total with its delta added. -/
theorem process_envelope {t : RunningTotals} (room : t.totals.size ≤ limit) (i : Increment) :
    t.process (i.envelope 0) =
      (⟨t.totals.insert i.key (t.last i.key + i.delta)⟩,
        i.envelope (t.last i.key + i.delta)) := by
  have kept : t.makeRoom = t := by rw [makeRoom, if_neg (Nat.not_lt.mpr room)]
  simp only [process, Increment.envelope, kept, next, keyOf, if_true]
  rfl

/-- The table holds what the increments seen so far add up to, for each key, and no other keys. -/
structure Sums (t : RunningTotals) (seen : List Increment) : Prop where
  /-- The total of a key is that of the increments of that key. -/
  last : ∀ key, (t.last key).toNat = Increment.total (seen.filter (·.key = key))
  /-- The keys have been seen. -/
  known : ∀ key ∈ t.totals, key ∈ seen.map (·.key)

namespace Sums

theorem empty : Sums ⟨{}⟩ [] where
  last key := by rw [last_empty]; rfl
  known key there := absurd there Std.HashMap.not_mem_empty

/-- There are no more totals than different keys. -/
theorem size_le {t : RunningTotals} {seen : List Increment} (sums : Sums t seen) :
    t.totals.size ≤ (seen.map (·.key)).dedup.length := by
  have distinct : t.totals.keys.Nodup := by
    refine Std.HashMap.distinct_keys.imp fun {k k'} different same => ?_
    rw [beq_eq_false_iff_ne] at different
    exact different same
  have among : t.totals.keys ⊆ (seen.map (·.key)).dedup := fun key there =>
    List.mem_dedup.mpr (sums.known key (Std.HashMap.mem_keys.mp there))
  rw [← Std.HashMap.length_keys]
  exact (List.subperm_of_subset distinct among).length_le

/-- One more increment comes out with the total of its key, and the table goes on to hold the
sums. -/
theorem process {t : RunningTotals} {seen : List Increment} (sums : Sums t seen)
    (few : (seen.map (·.key)).dedup.length ≤ limit) (i : Increment) :
    ∃ after total, t.process (i.envelope 0) = (after, i.envelope total) ∧
      total.toNat = Increment.total ((seen ++ [i]).filter (·.key = i.key)) ∧
        Sums after (seen ++ [i]) := by
  have sum : (t.last i.key + i.delta).toNat =
      Increment.total ((seen ++ [i]).filter (·.key = i.key)) := by
    rw [List.filter_append, List.filter_singleton, decide_eq_true rfl, cond_true,
      Increment.total_append_singleton, UInt64.toNat_add, sums.last]
  refine ⟨_, _, process_envelope (Nat.le_trans sums.size_le few) i, sum, ?_, ?_⟩
  · intro key
    rw [last_insert]
    by_cases same : key = i.key
    · rw [if_pos same, same, sum]
    · have other : i.key ≠ key := fun equal => same equal.symm
      rw [if_neg same, sums.last, List.filter_append]
      simp [other]
  · intro key there
    rw [List.map_append, List.mem_append]
    rcases Std.HashMap.mem_insert.mp there with same | there
    · exact .inr (by simp [(beq_iff_eq.mp same).symm])
    · exact .inl (sums.known key there)

end Sums

end RunningTotals

/-- A counter of requests. -/
def requestsOf (delta total : UInt64) : Envelope :=
  ⟨"svc", "", .empty, some (.counter ⟨"requests", delta, total⟩)⟩

/-- An increment that is not skipped is given its total, and nothing else is done to it. -/
theorem Pipeline.process_envelope {p : Pipeline} {i : Increment}
    (passes : p.scrapedSources.contains i.sourceId = false) :
    p.process (i.envelope 0) =
      ({ p with totals := (p.totals.process (i.envelope 0)).1 },
        some (p.totals.process (i.envelope 0)).2) := by
  have passes : (i.envelope 0).sourceId ∉ p.scrapedSources := by
    rwa [← List.contains_iff_mem, Bool.not_eq_true]
  exact process_of_counter passes rfl

end Telemetry
