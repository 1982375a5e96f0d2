import Mathlib.Data.List.Induction
import Telemetry.Proofs.Agent.Run
import Telemetry.Proofs.Conversion.Labels
import Telemetry.Proofs.Store.Series
import Telemetry.Proofs.Totals

/-!
# What the agent makes of increments

Increments go through two maps.  The pipeline adds them up under their source, their
instance, their name and their tags as they were given, and the store keeps the last
counter under its source, its name and its labels.  The first tells more than the
second: increments with one key have one series (`Increment.series?_congr`), but a
series may have several keys.

So the counter that is exposed for a series is the total of the last key that was
written there, which is the sum of the increments of this key (`Increment.shown?`).
It is the sum of all increments of the series if their tags are plain, since then
their labels tell the key (`Increment.key_eq_of_series?`).
-/

namespace Telemetry

open Remarked

/-! ## The series of an increment -/

namespace Increment

/-- The name and the labels of the metric that an increment becomes, if it can be converted. -/
def series? (defaults : Dict String) (i : Increment) : Option (String × Labels) :=
  match (convert defaults (i.envelope 0)).result with
  | .ok [m] => some (m.name, m.labels)
  | _ => none

/-- The measurement of a total with a name and labels. -/
def measured (name : String) (labels : Labels) (total : UInt64) : Measurement :=
  ⟨.of name labels.toList, name, labels, .counter (.ofNat total.toNat)⟩

/-- What is measured of an increment does not depend on its total otherwise. -/
theorem convert_envelope {defaults : Dict String} {i : Increment} {total : UInt64}
    {ms : List Measurement} (h : (convert defaults (i.envelope total)).result = .ok ms) :
    ∃ name labels, ms = [measured name labels total] ∧
      ∀ total', (convert defaults (i.envelope total')).result =
        .ok [measured name labels total'] := by
  obtain ⟨labels, m, common, measurement, rfl⟩ := (result_convert_counter_eq_ok_iff rfl).mp h
  obtain ⟨valid, more, added, named, rfl⟩ := result_measurement_eq_ok_iff.mp measurement
  refine ⟨_, more, rfl, fun total' => ?_⟩
  rw [result_convert_counter_eq_ok_iff rfl]
  exact ⟨labels, _, common, result_measurement_eq_ok_iff.mpr ⟨valid, more, added, named, rfl⟩, rfl⟩

theorem convert_of_series?_eq_some {defaults : Dict String} {i : Increment} {name : String}
    {labels : Labels} (h : i.series? defaults = some (name, labels)) (total : UInt64) :
    (convert defaults (i.envelope total)).result = .ok [measured name labels total] := by
  unfold series? at h
  split at h
  next m converted =>
    obtain ⟨name', labels', one, all⟩ := convert_envelope converted
    cases one
    cases h
    exact all total
  next => cases h

theorem series?_of_convert {defaults : Dict String} {i : Increment} {total : UInt64}
    {ms : List Measurement} (h : (convert defaults (i.envelope total)).result = .ok ms) :
    ∃ name labels, i.series? defaults = some (name, labels) ∧
      ms = [measured name labels total] := by
  obtain ⟨name, labels, one, all⟩ := convert_envelope h
  refine ⟨name, labels, ?_, one⟩
  rw [series?, all 0]
  rfl

/-- Increments of one key have one series. -/
theorem series?_congr {i j : Increment} (same : i.key = j.key) (defaults : Dict String) :
    i.series? defaults = j.series? defaults := by
  obtain ⟨sourceId, instanceId, tags, name, delta⟩ := i
  obtain ⟨sourceId', instanceId', tags', name', delta'⟩ := j
  obtain ⟨rfl, rfl, rfl, rfl⟩ := key_eq_iff.mp same
  rfl

/-- Plain increments of one source and one series have one key. -/
theorem key_eq_of_series? {defaults : Dict String} {i j : Increment}
    (plain : (i.envelope 0).IsPlain defaults) (plain' : (j.envelope 0).IsPlain defaults)
    (source : i.sourceId = j.sourceId) {name : String} {labels : Labels}
    (h : i.series? defaults = some (name, labels)) (h' : j.series? defaults = some (name, labels)) :
    i.key = j.key := by
  obtain ⟨instances, tags, names⟩ := plain.eq_of_labels plain' rfl rfl
    (convert_of_series?_eq_some h 0) (convert_of_series?_eq_some h' 0) rfl
  exact key_eq_iff.mpr ⟨source, instances, names, tags⟩

/-- What is shown of the increments of a series: the total of those that have the key of the last
one. -/
def shown? (series : List Increment) : Option Nat :=
  series.getLast?.map fun last => total (series.filter (·.key = last.key))

theorem shown?_append_singleton (series : List Increment) (i : Increment) :
    shown? (series ++ [i]) = some (total ((series ++ [i]).filter (·.key = i.key))) := by
  rw [shown?, List.getLast?_concat, Option.map_some]

/-- All increments of a series are shown if they have one key. -/
theorem shown?_of_alike {series : List Increment} (written : series ≠ [])
    (alike : ∀ i ∈ series, ∀ j ∈ series, i.key = j.key) :
    shown? series = some (total series) := by
  have last := List.getLast?_eq_some_getLast written
  have whole : series.filter (·.key = (series.getLast written).key) = series :=
    List.filter_eq_self.mpr fun i there =>
      decide_eq_true (alike i there _ (List.getLast_mem written))
  rw [shown?, last, Option.map_some, whole]

end Increment

namespace Agent

open Increment (total measured shown?)

/-! ## Handling increments -/

/-- An agent after it has handled some increments, each at a time. -/
def handleAll (a : Agent) (increments : List (Increment × Nat)) : Agent :=
  increments.foldl (fun a i => (a.handle (i.1.envelope 0) i.2).1) a

theorem handleAll_append_singleton (a : Agent) (increments : List (Increment × Nat))
    (i : Increment × Nat) :
    a.handleAll (increments ++ [i]) =
      ((a.handleAll increments).handle (i.1.envelope 0) i.2).1 := by
  simp only [handleAll, List.foldl_append, List.foldl_cons, List.foldl_nil]

/-- The increments that are not skipped. -/
def processed (a : Agent) (increments : List (Increment × Nat)) : List Increment :=
  (increments.map Prod.fst).filter fun i => !a.skips (i.envelope 0)

/-- The increments of a source that are written to a series. -/
def series (a : Agent) (increments : List (Increment × Nat)) (sourceId name : String)
    (labels : Labels) : List Increment :=
  (a.processed increments).filter fun i =>
    i.sourceId = sourceId ∧ i.series? a.collector.defaults = some (name, labels)

theorem processed_append_singleton (a : Agent) (increments : List (Increment × Nat))
    (i : Increment × Nat) :
    a.processed (increments ++ [i]) =
      if a.skips (i.1.envelope 0) then a.processed increments
      else a.processed increments ++ [i.1] := by
  rw [processed, List.map_append, List.filter_append, ← processed]
  cases skips : a.skips (i.1.envelope 0) <;> simp [skips]

theorem series_append_singleton {a : Agent} {increments : List (Increment × Nat)}
    {i : Increment × Nat} (passes : a.skips (i.1.envelope 0) = false) (sourceId name : String)
    (labels : Labels) :
    a.series (increments ++ [i]) sourceId name labels =
      if i.1.sourceId = sourceId ∧ i.1.series? a.collector.defaults = some (name, labels) then
        a.series increments sourceId name labels ++ [i.1]
      else a.series increments sourceId name labels := by
  rw [series, processed_append_singleton, passes, if_neg Bool.false_ne_true, List.filter_append,
    ← series, List.filter_singleton]
  by_cases here : i.1.sourceId = sourceId ∧
      i.1.series? a.collector.defaults = some (name, labels)
  · rw [if_pos here, decide_eq_true here, cond_true]
  · rw [if_neg here, decide_eq_false here, cond_false, List.append_nil]

/-- The increments of a key are those of its series that have the key. -/
theorem filter_key_series {a : Agent} {increments : List (Increment × Nat)} {i : Increment}
    {name : String} {labels : Labels}
    (h : i.series? a.collector.defaults = some (name, labels)) :
    (a.series increments i.sourceId name labels).filter (·.key = i.key) =
      (a.processed increments).filter (·.key = i.key) := by
  rw [series, List.filter_filter]
  refine List.filter_congr fun j _ => ?_
  by_cases same : j.key = i.key
  · have source := (Increment.key_eq_iff.mp same).1
    have congr := Increment.series?_congr same a.collector.defaults
    simp [same, source, congr, h]
  · simp [same]

/-- Whether a store keeps, of some increments, the totals that were written last. -/
structure Tells (a : Agent) (increments : List (Increment × Nat)) (s : Store) : Prop where
  /-- A metric is that of a series, and has the total of the last key that was written there. -/
  told : ∀ sourceId id m, s.find? sourceId id = some m →
    id = .of m.name m.labels.toList ∧
      ∃ n, shown? (a.series increments sourceId m.name m.labels) = some n ∧
        m.stored = .counter (.ofNat n)
  /-- A series that was written to has a metric. -/
  found : ∀ sourceId name labels, a.series increments sourceId name labels ≠ [] →
    ∃ m, s.find? sourceId (.of name labels.toList) = some m ∧ m.name = name ∧ m.labels = labels

namespace Tells

variable {a : Agent} {increments : List (Increment × Nat)} {s : Store} {i : Increment × Nat}

theorem empty (a : Agent) : a.Tells [] .empty where
  told _ _ _ found := nomatch found
  found _ _ _ written := absurd rfl written

/-- Nothing has to be written where no series has grown. -/
theorem unwritten (tells : a.Tells increments s)
    (same : ∀ sourceId name labels, a.series (increments ++ [i]) sourceId name labels =
      a.series increments sourceId name labels) :
    a.Tells (increments ++ [i]) s where
  told sourceId id m there := by
    rw [same]
    exact tells.told sourceId id m there
  found sourceId name labels written := by
    rw [same] at written
    exact tells.found sourceId name labels written

/-- An increment that is written with the total of its key. -/
theorem written (tells : a.Tells increments s) (passes : a.skips (i.1.envelope 0) = false)
    {name : String} {labels : Labels}
    (series : i.1.series? a.collector.defaults = some (name, labels)) {sum : UInt64}
    (isSum : sum.toNat = total ((a.processed (increments ++ [i])).filter (·.key = i.1.key))) :
    a.Tells (increments ++ [i]) (s.write i.1.sourceId i.2 [measured name labels sum]) := by
  have find? : ∀ sourceId id,
      (s.write i.1.sourceId i.2 [measured name labels sum]).find? sourceId id =
        if sourceId = i.1.sourceId ∧ id = .of name labels.toList then
          some ⟨name, labels, .counter (.ofNat sum.toNat), i.2⟩
        else s.find? sourceId id := by
    intro sourceId id
    rw [Store.write_eq_foldl_put, List.foldl_cons, List.foldl_nil, Store.find?_put]
    rfl
  have here : a.series (increments ++ [i]) i.1.sourceId name labels =
      a.series increments i.1.sourceId name labels ++ [i.1] := by
    rw [series_append_singleton passes, if_pos ⟨rfl, series⟩]
  have elsewhere : ∀ sourceId name' labels',
      ¬(sourceId = i.1.sourceId ∧
        Identity.of name' labels'.toList = .of name labels.toList) →
      a.series (increments ++ [i]) sourceId name' labels' =
        a.series increments sourceId name' labels' := by
    intro sourceId name' labels' other
    rw [series_append_singleton passes, if_neg]
    rintro ⟨source, same⟩
    rw [series] at same
    cases same
    exact other ⟨source.symm, rfl⟩
  constructor
  · intro sourceId id m there
    rw [find?] at there
    split at there
    next same =>
      obtain ⟨rfl, rfl⟩ := same
      cases there
      refine ⟨rfl, sum.toNat, ?_, rfl⟩
      have all : (a.series (increments ++ [i]) i.1.sourceId name labels).filter
          (·.key = i.1.key) = _ := filter_key_series series
      rw [here] at all
      rw [here, Increment.shown?_append_singleton, all, isSum]
    next other =>
      obtain ⟨identity, told⟩ := tells.told sourceId id m there
      rw [identity] at other
      rw [elsewhere sourceId m.name m.labels other]
      exact ⟨identity, told⟩
  · intro sourceId name' labels' nonempty
    rw [find?]
    split
    next same =>
      obtain ⟨rfl, rfl⟩ := Identity.of_toList_eq_iff.mp same.2
      exact ⟨_, rfl, rfl, rfl⟩
    next other =>
      rw [elsewhere sourceId name' labels' other] at nonempty
      exact tells.found sourceId name' labels' nonempty

end Tells

/-! ## Runs -/

/-- What an agent is after it has handled some increments. -/
structure Handled (a : Agent) (increments : List (Increment × Nat)) (after : Agent) : Prop where
  /-- It skips the same. -/
  skips : after.skips = a.skips
  /-- It has the same default tags. -/
  defaults : after.collector.defaults = a.collector.defaults
  /-- It has added up what it has not skipped. -/
  sums : RunningTotals.Sums after.pipeline.totals (a.processed increments)
  /-- Its store keeps the totals that were written last. -/
  tells : a.Tells increments after.collector.store

/-- One more increment, as long as the table has room for all keys. -/
theorem Handled.handle {a after : Agent} {increments : List (Increment × Nat)}
    (handled : a.Handled increments after)
    (few : ((a.processed increments).map (·.key)).dedup.length ≤ RunningTotals.limit)
    (i : Increment × Nat) :
    a.Handled (increments ++ [i]) (after.handle (i.1.envelope 0) i.2).1 := by
  rcases handle_cases after (i.1.envelope 0) i.2 with
    ⟨skips, -, same⟩ | ⟨totals, e', passes, processed, -, outcome⟩
  · rw [handled.skips] at skips
    have processed : a.processed (increments ++ [i]) = a.processed increments := by
      rw [processed_append_singleton, if_pos skips]
    rw [same]
    refine ⟨handled.skips, handled.defaults, processed ▸ handled.sums, ?_⟩
    exact handled.tells.unwritten fun _ _ _ => by rw [series, processed, ← series]
  · have through := Pipeline.process_envelope (p := after.pipeline) (i := i.1) passes
    obtain ⟨totals', sum, given, isSum, sums⟩ := handled.sums.process few i.1
    rw [given, processed] at through
    cases through
    rw [handled.skips] at passes
    have more : a.processed (increments ++ [i]) = a.processed increments ++ [i.1] := by
      rw [processed_append_singleton, passes]
      rfl
    rw [← more] at isSum sums
    rcases outcome with ⟨ms, converted, same⟩ | ⟨error, failed, same⟩
    · rw [handled.defaults] at converted
      obtain ⟨name, labels, series, rfl⟩ := Increment.series?_of_convert converted
      rw [same]
      exact ⟨handled.skips, handled.defaults, sums, handled.tells.written passes series isSum⟩
    · rw [same]
      refine ⟨handled.skips, handled.defaults, sums, handled.tells.unwritten ?_⟩
      intro sourceId name labels
      rw [series_append_singleton passes, if_neg]
      rintro ⟨-, series⟩
      have converted := Increment.convert_of_series?_eq_some series sum
      rw [← handled.defaults, failed] at converted
      cases converted

theorem handled_handleAll {a : Agent} (totals : a.pipeline.totals = {})
    (empty : a.collector.store = .empty) (increments : List (Increment × Nat))
    (few : ((a.processed increments).map (·.key)).dedup.length ≤ RunningTotals.limit) :
    a.Handled increments (a.handleAll increments) := by
  induction increments using List.reverseRecOn with
  | nil =>
      refine ⟨rfl, rfl, ?_, ?_⟩
      · exact totals ▸ RunningTotals.Sums.empty
      · exact empty ▸ Tells.empty a
  | append_singleton increments i ih =>
      -- There have been no more keys before.
      have fewer : ((a.processed increments).map (·.key)).dedup.length ≤ RunningTotals.limit := by
        have before : (a.processed increments).Sublist (a.processed (increments ++ [i])) := by
          rw [processed_append_singleton]
          split
          · exact .refl _
          · exact List.sublist_append_left _ _
        have among : ((a.processed increments).map (·.key)).dedup ⊆
            ((a.processed (increments ++ [i])).map (·.key)).dedup := fun key there =>
          List.mem_dedup.mpr ((before.map _).subset (List.mem_dedup.mp there))
        exact Nat.le_trans ((List.nodup_dedup _).subperm among).length_le few
      rw [handleAll_append_singleton]
      exact (ih fewer).handle fewer i

section Exposed

variable {a : Agent} (totals : a.pipeline.totals = {}) (empty : a.collector.store = .empty)
  (increments : List (Increment × Nat))
  (few : ((a.processed increments).map (·.key)).dedup.length ≤ RunningTotals.limit)
  {visited : List StoredMetric}
  (perm : visited.Perm (a.handleAll increments).collector.store.metrics)

include totals empty few perm

/-- What is exposed is what is shown of the series. -/
theorem exposes_iff_shown? (name : String) (labels : Labels) (value : Value) :
    (∃ f ∈ Store.familiesOf visited, f.name = name ∧ f.kind = value.kind ∧
        ⟨labels, value⟩ ∈ f.metrics) ↔
      ∃ sourceId n, shown? (a.series increments sourceId name labels) = some n ∧
        value = .counter (.ofNat n) := by
  have tells := (handled_handleAll totals empty increments few).tells
  generalize (a.handleAll increments).collector.store = s at perm tells
  have visitedIff : ∀ m, m ∈ visited ↔ ∃ sourceId id, s.find? sourceId id = some m := by
    intro m
    rw [perm.mem_iff, Store.metrics_eq, List.mem_map]
    simp only [Prod.exists, Store.mem_entries_iff, exists_eq_right]
  have counter : ∀ m ∈ visited, m.stored.value.kind = .counter := by
    intro m there
    obtain ⟨sourceId, id, found⟩ := (visitedIff m).mp there
    obtain ⟨-, n, -, stored⟩ := tells.told sourceId id m found
    rw [stored]
    rfl
  refine (Store.exposes_iff (fun m there m' there' _ _ => ?_) ⟨labels, value⟩).trans ?_
  · rw [counter m there, counter m' there']
  · constructor
    · rintro ⟨m, there, rfl, same⟩
      cases same
      obtain ⟨sourceId, id, found⟩ := (visitedIff m).mp there
      obtain ⟨-, n, shown, stored⟩ := tells.told sourceId id m found
      exact ⟨sourceId, n, shown, by rw [stored]; rfl⟩
    · rintro ⟨sourceId, n, shown, rfl⟩
      have written : a.series increments sourceId name labels ≠ [] := by
        rintro nil
        rw [nil] at shown
        cases shown
      obtain ⟨m, found, rfl, rfl⟩ := tells.found sourceId name labels written
      obtain ⟨-, n', shown', stored⟩ := tells.told sourceId _ m found
      rw [shown] at shown'
      cases shown'
      exact ⟨m, (visitedIff m).mpr ⟨sourceId, _, found⟩, rfl, by rw [stored]; rfl⟩

end Exposed

/-- The labels of a counter of requests, with the label of a method. -/
def requestLabels (method : List (String × String)) : Labels :=
  .ofList (method ++ [("loggregator_name", "cmVxdWVzdHM="), ("source_id", "svc")])

/-- Two increments of one counter, and between them one with another tag. -/
def requests : List (Increment × Nat) :=
  let increment (method : String) (delta : UInt64) : Increment :=
    ⟨"svc", "", .ofList [("method", method)], "requests", delta⟩
  [(increment "get" 2, 0), (increment "put" 7, 1), (increment "get" 3, 2)]

/-- Two increments that differ in a tag that is left out. -/
def emptyTag : List (Increment × Nat) :=
  [(⟨"svc", "", .empty, "requests", 2⟩, 0),
    (⟨"svc", "", .ofList [("method", "")], "requests", 3⟩, 1)]

end Agent

end Telemetry
