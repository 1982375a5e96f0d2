import Mathlib.Data.List.Induction
import Telemetry.Proofs.Exposition.Gathered

/-!
# What moving all totals does, exactly

When the totals of all histograms and summaries are moved, each family becomes one thing
and no other, whatever families there are and in whatever order the bases are visited.
`MovedExactly` says what, name by name.

* A histogram or a summary takes, for each label set, the last number that stands under
  the name of a total with these labels.  The first of its metrics with the labels has it.
* The family of a total keeps what has the labels of no metric of its base, and is gone if
  that is nothing.  If it is a histogram or a summary itself, it is no total of its base.
* Everything else is as before.

This leaves nothing open, so the families after the move are the only ones of which it
holds (`moved_exactly_iff`).

The proof starts from what becomes of a family (`get?_foldTotals`), where totals are taken
off a list while the metrics are gone through.  Here each metric is found by its place
instead (`getElem?_settle`): an earlier metric of the same labels has taken the totals
exactly if its labels stand in front.
-/

namespace Telemetry

/-- A value with the totals there are for it. -/
def Value.withTotals (sum count : Option Double) : Value → Value
  | .histogram d => .histogram { d with sum := sum.getD d.sum, count := count.getD d.count }
  | .summary d => .summary { d with sum := sum.getD d.sum, count := count.getD d.count }
  | value => value

namespace Exposition

/-! ## What is moved -/

/-- The last number that stands under a name with some labels. -/
def lastNumber (families : Dict Family) (name : String) (labels : Labels) : Option Double :=
  (((samplesOf families name).filter (·.labels = labels)).filterMap (·.value.scalar?)).getLast?

/-- The metrics of a base with their totals.  Of metrics with the same labels the first has
them. -/
def withTotals (families : Dict Family) (base : String) (ms : List Metric) : List Metric :=
  ms.mapIdx fun i m =>
    if m.labels ∈ (ms.take i).map (·.labels) then m
    else
      { m with
        value := m.value.withTotals (lastNumber families (base ++ Total.sum.ending) m.labels)
          (lastNumber families (base ++ Total.count.ending) m.labels) }

/-- Whether families are what others become when all of their totals are moved. -/
structure MovedExactly (families moved : Dict Family) : Prop where
  /-- A histogram or a summary has its totals, and is otherwise as before. -/
  bases : ∀ {base f}, families.get? base = some f → hasTotals f.kind = true →
    moved.get? base = some { f with metrics := withTotals families base f.metrics }
  /-- A family of totals keeps, in order, what has the labels of no metric of its base, and keeps
  its help and its kind.  If nothing is left, it is gone. -/
  totals : ∀ {base f t} {total : Total}, families.get? base = some f → hasTotals f.kind = true →
    families.get? (base ++ total.ending) = some t → hasTotals t.kind = false →
    let left := t.metrics.filter (·.labels ∉ f.metrics.map (·.labels))
    moved.get? (base ++ total.ending) = if left = [] then none else some { t with metrics := left }
  /-- A histogram or a summary is no total of a base, whatever its name: no number is taken from it,
  and no metric of it goes away. -/
  composite : ∀ {base f t} {total : Total}, families.get? base = some f →
    hasTotals f.kind = true → families.get? (base ++ total.ending) = some t →
    hasTotals t.kind = true →
    (∀ labels, lastNumber families (base ++ total.ending) labels = none) ∧
      ∃ t', moved.get? (base ++ total.ending) = some t' ∧
        t'.metrics.map shape = t.metrics.map shape
  /-- Any other family is as before. -/
  others : ∀ {name f}, families.get? name = some f → hasTotals f.kind = false →
    (∀ base g (total : Total), families.get? base = some g → hasTotals g.kind = true →
      name ≠ base ++ total.ending) →
    moved.get? name = some f
  /-- No family is new. -/
  absent : ∀ {name}, families.get? name = none → moved.get? name = none

/-! ## The totals of a metric -/

theorem lastTotal_eq (labels : Labels) (ts : List Metric) :
    lastTotal labels ts =
      ((ts.filter (·.labels = labels)).filterMap (·.value.scalar?)).getLast? := by
  induction ts using List.reverseRecOn with
  | nil => rfl
  | append_singleton ts t ih =>
      rw [lastTotal_append, ih, List.filter_append, List.filterMap_append, List.getLast?_append]
      by_cases same : t.labels = labels
      · cases scalar : t.value.scalar? <;> simp [lastTotal, same, scalar]
      · simp [lastTotal, same]

theorem lastTotal_samplesOf (families : Dict Family) (name : String) (labels : Labels) :
    lastTotal labels (samplesOf families name) = lastNumber families name labels :=
  lastTotal_eq labels _

theorem lastTotal_filter_self (labels : Labels) (ts : List Metric) :
    lastTotal labels (ts.filter (·.labels ≠ labels)) = none := by
  rw [lastTotal_of_not_mem]
  simp

/-- Both totals are set, one after the other. -/
theorem withTotal_eq_withTotals (sum count : Option Double) (m : Metric) :
    withTotal .count count (withTotal .sum sum m) =
      { m with value := m.value.withTotals sum count } := by
  obtain ⟨labels, value⟩ := m
  cases sum <;> cases count <;> cases value <;> rfl

/-- The metric at a place has its total, unless one in front of it has taken that. -/
theorem getElem?_settle (total : Total) (ts ms : List Metric) (i : Nat) :
    (settle total ts ms)[i]? = ms[i]?.map fun m =>
      if m.labels ∈ (ms.take i).map (·.labels) then m
      else withTotal total (lastTotal m.labels ts) m := by
  induction ms generalizing ts i with
  | nil => rfl
  | cons first ms ih =>
      cases i with
      | zero => simp [settle]
      | succ i =>
          rw [settle, List.getElem?_cons_succ, List.getElem?_cons_succ, ih]
          congr 1
          funext m
          rw [List.take_succ_cons, List.map_cons]
          by_cases same : m.labels = first.labels
          · -- The first metric has taken all there is for these labels.
            rw [if_pos (List.mem_cons.mpr (.inl same)), same, lastTotal_filter_self, withTotal,
              ite_self]
          · simp only [List.mem_cons, same, false_or, lastTotal_filter same]

theorem labels_settle (total : Total) (ts ms : List Metric) :
    (settle total ts ms).map (·.labels) = ms.map (·.labels) := by
  have labels : ∀ ms : List Metric, ms.map (·.labels) = (ms.map shape).map Prod.fst := by
    intro ms
    rw [List.map_map]
    rfl
  rw [labels, labels, shape_settle]

/-- A base has its totals when both kinds have been moved. -/
theorem settleAll_eq_withTotals (families : Dict Family) (base : String) (ms : List Metric) :
    settleAll families base [.sum, .count] ms = withTotals families base ms := by
  apply List.ext_getElem?
  intro i
  rw [settleAll, List.foldl_cons, List.foldl_cons, List.foldl_nil, getElem?_settle,
    getElem?_settle, Option.map_map, withTotals, List.getElem?_mapIdx, List.map_take, labels_settle,
    ← List.map_take]
  congr 1
  funext m
  by_cases before : m.labels ∈ (ms.take i).map (·.labels)
  · simp only [Function.comp_apply, if_pos before]
  · simp only [Function.comp_apply, if_neg before, labels_withTotal, lastTotal_samplesOf,
      withTotal_eq_withTotals]

/-! ## Families -/

section Families

variable {families : Dict Family}

/-- What is left of a family of totals. -/
theorem without_isTotal (sound : Homogeneous families) {base : String} {f t : Family}
    {total : Total} (found : families.get? base = some f) (composite : hasTotals f.kind = true)
    (there : families.get? (base ++ total.ending) = some t) (scalar : hasTotals t.kind = false) :
    without (isTotal families (base ++ total.ending)) t =
      let left := t.metrics.filter (·.labels ∉ f.metrics.map (·.labels))
      if left = [] then none else some { t with metrics := left } := by
  have left : t.metrics.filter (!isTotal families (base ++ total.ending) ·) =
      t.metrics.filter (·.labels ∉ f.metrics.map (·.labels)) := by
    refine List.filter_congr fun m among => ?_
    have number : m.value.scalar?.isSome = true := by
      rw [← sound.kinds there m among, hasTotals_kind] at scalar
      simpa [Option.isNone_iff_eq_none, Option.isSome_iff_ne_none] using scalar
    have moves : isTotal families (base ++ total.ending) m = true ↔
        m.labels ∈ f.metrics.map (·.labels) := by
      rw [isTotal_iff sound]
      constructor
      · rintro ⟨base', total', f', named, found', -, own⟩
        obtain ⟨rfl, rfl⟩ := Total.append_ending_inj named
        rw [found, Option.some_inj] at found'
        subst found'
        simpa [belongs, number] using own
      · intro labelled
        exact ⟨base, total, f, rfl, found, composite, by simpa [belongs, number] using labelled⟩
    rw [Bool.eq_iff_iff, Bool.not_eq_true', decide_eq_true_eq, ← moves, Bool.not_eq_true]
  simp only [without, left, List.isEmpty_iff]

theorem movedExactly_foldTotals (sound : Homogeneous families) {visited : List String}
    (perm : visited.Perm (bases families)) :
    MovedExactly families (foldTotals families visited) := by
  have base : ∀ {base f}, families.get? base = some f → hasTotals f.kind = true →
      (foldTotals families visited).get? base =
        some { f with metrics := settleAll families base [.sum, .count] f.metrics } := by
    intro base f found composite
    rw [get?_foldTotals sound perm, found, Option.bind_some, settled, if_pos composite,
      sound.named found]
  have other : ∀ {name f}, families.get? name = some f → hasTotals f.kind = false →
      (foldTotals families visited).get? name = without (isTotal families name) f := by
    intro name f found scalar
    rw [get?_foldTotals sound perm, found, Option.bind_some, settled, if_neg (by simp [scalar]),
      sound.named found]
  constructor
  case bases =>
    intro b f found composite
    rw [base found composite, settleAll_eq_withTotals]
  case totals =>
    intro b f t total found composite there scalar
    rw [other there scalar, without_isTotal sound found composite there scalar]
  case composite =>
    intro b f t total _ _ there composite
    refine ⟨fun labels => ?_, _, base there composite, shape_settleAll ..⟩
    rw [lastNumber, samplesOf, there, List.getLast?_eq_none_iff, List.filterMap_eq_nil_iff]
    intro m among
    rw [← sound.kinds there m (List.mem_filter.mp among).1, hasTotals_kind] at composite
    exact Option.isNone_iff_eq_none.mp composite
  case others =>
    intro name f found scalar apart
    rw [other found scalar]
    refine without_of_none (sound.nonempty found) fun m _ => ?_
    rw [← Bool.not_eq_true, isTotal_iff sound]
    rintro ⟨b, total, g, named, there, composite, -⟩
    exact apart b g total there composite named
  case absent =>
    intro name absent
    rw [get?_foldTotals sound perm, absent]
    rfl

/-- What becomes of the families is told for each name, and in one way. -/
theorem MovedExactly.unique {moved moved' : Dict Family} (told : MovedExactly families moved)
    (told' : MovedExactly families moved') : moved = moved' := by
  apply Dict.ext_get?
  intro name
  cases found : families.get? name with
  | none => rw [told.absent found, told'.absent found]
  | some f =>
      cases kind : hasTotals f.kind with
      | true => rw [told.bases found kind, told'.bases found kind]
      | false =>
          by_cases based : ∃ base g, ∃ total : Total, families.get? base = some g ∧
              hasTotals g.kind = true ∧ name = base ++ total.ending
          · obtain ⟨base, g, total, there, composite, rfl⟩ := based
            rw [told.totals there composite found kind, told'.totals there composite found kind]
          · have apart : ∀ base g (total : Total), families.get? base = some g →
                hasTotals g.kind = true → name ≠ base ++ total.ending :=
              fun base g total there composite named =>
                based ⟨base, g, total, there, composite, named⟩
            rw [told.others found kind apart, told'.others found kind apart]

end Families

/-- Moving all totals, in whatever order the bases are visited, makes of families just what they
are to become. -/
theorem moved_exactly_iff {families : Dict Family} (sound : Homogeneous families)
    {visited : List String} (perm : visited.Perm (bases families)) (moved : Dict Family) :
    MovedExactly families moved ↔ foldTotals families visited = moved := by
  have told := movedExactly_foldTotals sound perm
  constructor
  · exact told.unique
  · rintro rfl
    exact told

/-- Buckets with and without a declaration, a sum that is given twice and one of other labels, and
buckets of a name like that of a count. -/
def namedLikeCount : String :=
  "x_bucket\x7ble=\"1\"\x7d 2\n# TYPE x histogram\nx_bucket\x7ble=\"1\"\x7d 5\n" ++
    "x_sum 3\nx_sum\x7bjob=\"a\"\x7d 9\nx_sum 4\nx_count_bucket\x7ble=\"1\"\x7d 1\nx_count_sum 8\n"

/-- The last sum is moved to the first histogram, and the histogram that is named like its count
stays and has a sum of its own. -/
theorem moved_namedLikeCount :
    let families := gather ⟨id, id, id⟩ (Transcript.ofLines (Text.lines namedLikeCount.toList))
    let visited := (bases families).reverse
    Homogeneous families ∧ visited.Perm (bases families) ∧
      MovedExactly families (foldTotals families visited) ∧
      families.values.map (fun f => (f.name, f.kind, f.metrics.length)) =
        [("x", .histogram, 2), ("x_count", .histogram, 1), ("x_count_sum", .untyped, 1),
          ("x_sum", .untyped, 3)] ∧
      (foldTotals families visited).values.map
          (fun f => (f.name, f.metrics.map fun m => (m.value.total? .sum, m.value.scalar?))) =
        [("x", [(some (.ofNat 4), none), (some .zero, none)]),
          ("x_count", [(some (.ofNat 8), none)]), ("x_sum", [(none, some (.ofNat 9))])] := by
  intro families visited
  have sound : Homogeneous families := homogeneous_gather _ _
  have perm : visited.Perm (bases families) := List.reverse_perm _
  refine ⟨sound, perm, (moved_exactly_iff sound perm _).mpr rfl, ?_⟩
  decide +kernel

end Exposition

end Telemetry
