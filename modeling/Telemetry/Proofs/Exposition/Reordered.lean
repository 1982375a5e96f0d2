import Mathlib.Data.List.Perm.Basic
import Telemetry.Proofs.Exposition.Gathered

/-!
# Moving totals among metrics in another order

When families are gathered in different ways, their metrics may come out in different
orders.  Moving totals then keeps families alike if two things are sure: only histograms
and summaries are in another order, and setting totals in them keeps them alike
(`Reorders`).  For whether a sample is a total depends on the labels of metrics only
(`belongs_perm`), and samples are in the same order on both sides.

So if families are alike name by name (`AgreeEverywhere`), they still are when all totals
have been moved, in whatever orders that is done (`AgreeEverywhere.foldTotals`).  What it
means to be alike is left to a relation.
-/

namespace Telemetry.Exposition

/-! ## Metrics in another order -/

theorem belongs_perm {ms ms' : List Metric} (perm : ms.Perm ms') : belongs ms = belongs ms' := by
  funext t
  rw [belongs, belongs, perm.any_eq]

/-- Totals are set in the metrics in front, and those that are left in what comes after. -/
theorem settle_append (total : Total) (own rest ts : List Metric) :
    settle total ts (own ++ rest) =
      settle total ts own ++ settle total (ts.filter (·.labels ∉ own.map (·.labels))) rest := by
  induction own generalizing ts with
  | nil => simp [settle]
  | cons m own ih =>
      rw [List.cons_append, settle, ih, settle, List.filter_filter, List.cons_append]
      congr 3
      refine List.filter_congr fun t _ => ?_
      simp [Bool.and_comm]

/-! ## Families that are alike -/

/-- Whether nothing differs in related families but the order of histograms and of summaries, and
setting totals in both leaves them related. -/
structure Reorders (R : Family → Family → Prop) : Prop where
  /-- A family is related to itself. -/
  refl : ∀ f, R f f
  /-- It does not matter which family comes first. -/
  symm : ∀ {f f'}, R f f' → R f' f
  /-- The families have the same name. -/
  name : ∀ {f f'}, R f f' → f'.name = f.name
  /-- They tell the same in words. -/
  help : ∀ {f f'}, R f f' → f'.help = f.help
  /-- They have the same kind. -/
  kind : ∀ {f f'}, R f f' → f'.kind = f.kind
  /-- They have the same metrics. -/
  perm : ∀ {f f'}, R f f' → f.metrics.Perm f'.metrics
  /-- Metrics without totals are in the same order. -/
  scalar : ∀ {f f'}, R f f' → hasTotals f.kind = false →
    (∀ m ∈ f.metrics, m.value.kind = f.kind) → f'.metrics = f.metrics
  /-- The same totals may be set in both. -/
  settle : ∀ {f f'}, R f f' → ∀ total ts,
    R { f with metrics := settle total ts f.metrics } { f' with metrics := settle total ts f'.metrics }

/-- Whether two maps hold related families under each name. -/
def AgreeEverywhere (R : Family → Family → Prop) (families families' : Dict Family) : Prop :=
  ∀ name, Option.Rel R (families.get? name) (families'.get? name)

namespace AgreeEverywhere

variable {R : Family → Family → Prop} {families families' : Dict Family}

theorem exists_of_get? (agree : AgreeEverywhere R families families') {name : String}
    {f : Family} (found : families.get? name = some f) :
    ∃ f', families'.get? name = some f' ∧ R f f' := by
  have related := agree name
  rw [found] at related
  generalize families'.get? name = found' at related ⊢
  cases related with
  | some same => exact ⟨_, rfl, same⟩

theorem get?_eq_none (agree : AgreeEverywhere R families families') {name : String}
    (absent : families.get? name = none) : families'.get? name = none := by
  have related := agree name
  rw [absent] at related
  generalize families'.get? name = found' at related ⊢
  cases related with
  | none => rfl

variable (reorders : Reorders R)
include reorders

theorem symm (agree : AgreeEverywhere R families families') :
    AgreeEverywhere R families' families := by
  intro name
  have related := agree name
  generalize families.get? name = found, families'.get? name = found' at related ⊢
  cases related with
  | none => exact .none
  | some same => exact .some (reorders.symm same)

/-- The samples under a name are the same as far as they can be totals. -/
theorem settle_samplesOf (agree : AgreeEverywhere R families families')
    (sound : Homogeneous families) (sound' : Homogeneous families') (total : Total) (name : String)
    (ms : List Metric) :
    settle total (samplesOf families' name) ms = settle total (samplesOf families name) ms := by
  rw [samplesOf, samplesOf]
  cases found : families.get? name with
  | none => rw [agree.get?_eq_none found]
  | some f =>
      obtain ⟨f', found', same⟩ := agree.exists_of_get? found
      rw [found', Option.map_some, Option.map_some, Option.getD_some, Option.getD_some]
      cases composite : hasTotals f.kind with
      | true =>
          have composite' : hasTotals f'.kind = true := reorders.kind same ▸ composite
          rw [settle_of_not_belongs total (not_belongs_of_hasTotals sound found composite rfl ms),
            settle_of_not_belongs total (not_belongs_of_hasTotals sound' found' composite' rfl ms)]
      | false => rw [reorders.scalar same composite (sound.kinds found)]

theorem isTotal_of_isTotal (agree : AgreeEverywhere R families families')
    (sound : Homogeneous families) (sound' : Homogeneous families') {name : String} {t : Metric}
    (moves : isTotal families name t = true) : isTotal families' name t = true := by
  obtain ⟨base, total, f, named, found, composite, own⟩ := (isTotal_iff sound).mp moves
  obtain ⟨f', found', same⟩ := agree.exists_of_get? found
  exact (isTotal_iff sound').mpr ⟨base, total, f', named, found', reorders.kind same ▸ composite,
    belongs_perm (reorders.perm same) ▸ own⟩

/-- Which samples are totals does not depend on the order. -/
theorem isTotal_eq (agree : AgreeEverywhere R families families')
    (sound : Homogeneous families) (sound' : Homogeneous families') (name : String) :
    isTotal families' name = isTotal families name := by
  funext t
  exact Bool.eq_iff_iff.mpr ⟨(agree.symm reorders).isTotal_of_isTotal reorders sound' sound,
    agree.isTotal_of_isTotal reorders sound sound'⟩

/-- Histograms and summaries are still related when their totals have been set. -/
theorem settleAll (agree : AgreeEverywhere R families families')
    (sound : Homogeneous families) (sound' : Homogeneous families') (totals : List Total)
    {f f' : Family} (same : R f f') :
    R { f with metrics := settleAll families f.name totals f.metrics }
      { f' with metrics := settleAll families' f'.name totals f'.metrics } := by
  induction totals generalizing f f' with
  | nil => exact same
  | cons total totals ih =>
      have samples : settle total (samplesOf families' (f'.name ++ total.ending)) f'.metrics =
          settle total (samplesOf families (f.name ++ total.ending)) f'.metrics := by
        rw [reorders.name same, agree.settle_samplesOf reorders sound sound']
      rw [Exposition.settleAll, Exposition.settleAll, List.foldl_cons, List.foldl_cons, samples]
      exact ih (reorders.settle same total _)

/-- What becomes of a family when all totals are moved does not depend on the order. -/
theorem settled (agree : AgreeEverywhere R families families')
    (sound : Homogeneous families) (sound' : Homogeneous families') {name : String} {f f' : Family}
    (found : families.get? name = some f) (same : R f f') :
    Option.Rel R (settled families f) (settled families' f') := by
  rw [Exposition.settled, Exposition.settled]
  cases composite : hasTotals f.kind with
  | true =>
      have composite' : hasTotals f'.kind = true := reorders.kind same ▸ composite
      rw [if_pos rfl, if_pos composite']
      exact .some (agree.settleAll reorders sound sound' _ same)
  | false =>
      have equal : f' = f := by
        rw [Family.mk.injEq]
        exact ⟨reorders.name same, reorders.help same, reorders.kind same,
          reorders.scalar same composite (sound.kinds found)⟩
      rw [equal, composite, if_neg Bool.false_ne_true, if_neg Bool.false_ne_true,
        agree.isTotal_eq reorders sound sound']
      cases without (isTotal families f.name) f with
      | none => exact .none
      | some left => exact .some (reorders.refl left)

/-- Families that agree before totals are moved agree after that, in whatever order the histograms
and summaries are visited. -/
theorem foldTotals (agree : AgreeEverywhere R families families')
    (sound : Homogeneous families) (sound' : Homogeneous families') {visited visited' : List String}
    (perm : visited.Perm (bases families)) (perm' : visited'.Perm (bases families')) :
    AgreeEverywhere R (foldTotals families visited) (foldTotals families' visited') := by
  intro name
  rw [get?_foldTotals sound perm, get?_foldTotals sound' perm']
  cases found : families.get? name with
  | none =>
      rw [agree.get?_eq_none found]
      exact .none
  | some f =>
      obtain ⟨f', found', same⟩ := agree.exists_of_get? found
      rw [found', Option.bind_some, Option.bind_some]
      exact agree.settled reorders sound sound' found same

end AgreeEverywhere

/-- Families that are gathered alike are settled alike, one by one. -/
theorem forall₂_familiesOf_of_gather {R : Family → Family → Prop} (reorders : Reorders R)
    {order order' : VisitOrder} {t : Transcript}
    (agree : AgreeEverywhere R (gather order t) (gather order' t))
    (perm : ∀ names, (order.bases names).Perm names)
    (perm' : ∀ names, (order'.bases names).Perm names) :
    List.Forall₂ R (familiesOf order t) (familiesOf order' t) := by
  rw [familiesOf, familiesOf]
  exact Dict.forall₂_values (agree.foldTotals reorders (homogeneous_gather _ t)
    (homogeneous_gather _ t) (perm _) (perm' _))

end Telemetry.Exposition
