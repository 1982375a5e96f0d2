import Mathlib.Data.List.Induction
import Telemetry.Exposition.Reading
import Telemetry.Proofs.Exposition.Samples
import Telemetry.Proofs.Lookup

/-!
# Moved totals

Totals are moved family by family, and a family that takes totals may itself stand
under the name of a total.  What comes out does not depend on the order, since
moving totals changes neither the labels nor the kinds of metrics, and a name is
the total of one base at most (`Total.append_ending_inj`).

So what becomes of a family can be said at once (`settled`).  A histogram or a
summary has each total that was given last for the labels of a metric set in the
first metric of these labels.  Any other family keeps what belongs to no metric, and
is gone if that is nothing.
-/

namespace Telemetry

/-! ## Names -/

theorem Total.length_ending (total : Total) : 0 < total.ending.length := by
  cases total <;> decide

theorem Total.append_ending_ne (base : String) (total : Total) : base ++ total.ending ≠ base := by
  intro equal
  have length := congrArg String.length equal
  have positive := length_ending total
  rw [String.length_append] at length
  omega

/-- A name is the total of one base at most. -/
theorem Total.append_ending_inj {base base' : String} {total total' : Total}
    (equal : base ++ total.ending = base' ++ total'.ending) : base = base' ∧ total = total' := by
  have texts := congrArg String.toList equal
  rw [String.toList_append, String.toList_append] at texts
  have lasts := congrArg List.getLast? texts
  have sum : Total.sum.ending.toList = ['_', 's', 'u', 'm'] := by decide
  have count : Total.count.ending.toList = ['_', 'c', 'o', 'u', 'n', 't'] := by decide
  cases total <;> cases total'
  case sum.count => simp [sum, count] at lasts
  case count.sum => simp [sum, count] at lasts
  all_goals exact ⟨String.toList_inj.mp (List.append_cancel_right texts), rfl⟩

namespace Exposition

/-! ## Metrics -/

/-- The number of the last total with some labels. -/
def lastTotal (labels : Labels) : List Metric → Option Double
  | [] => none
  | t :: ts => lastTotal labels ts <|> if t.labels = labels then t.value.scalar? else none

/-- A metric with a total set if there is one. -/
def withTotal (total : Total) : Option Double → Metric → Metric
  | none, m => m
  | some x, m => { m with value := setTotal total x m.value }

/-- Metrics with their totals set.  Of metrics with the same labels the first has them all. -/
def settle (total : Total) : List Metric → List Metric → List Metric
  | _, [] => []
  | ts, m :: ms =>
    withTotal total (lastTotal m.labels ts) m :: settle total (ts.filter (·.labels ≠ m.labels)) ms

/-- Whether a sample is a total of one of some metrics. -/
def belongs (into : List Metric) (t : Metric) : Bool :=
  t.value.scalar?.isSome && into.any (·.labels = t.labels)

/-- What moving totals leaves alone in a metric. -/
def shape (m : Metric) : Labels × Kind := (m.labels, m.value.kind)

@[simp] theorem hasTotals_kind (v : Value) : hasTotals v.kind = v.scalar?.isNone := by
  cases v <;> rfl

@[simp] theorem setTotal_setTotal (total : Total) (x y : Double) (v : Value) :
    setTotal total x (setTotal total y v) = setTotal total x v := by
  cases total <;> cases v <;> rfl

@[simp] theorem kind_setTotal (total : Total) (x : Double) (v : Value) :
    (setTotal total x v).kind = v.kind := by
  cases v <;> rfl

@[simp] theorem shape_withTotal (total : Total) (x : Option Double) (m : Metric) :
    shape (withTotal total x m) = shape m := by
  cases x with
  | none => rfl
  | some x => simp [withTotal, shape]

@[simp] theorem labels_withTotal (total : Total) (x : Option Double) (m : Metric) :
    (withTotal total x m).labels = m.labels :=
  congrArg Prod.fst (shape_withTotal total x m)

theorem withTotal_withTotal (total : Total) (x : Option Double) (y : Double) (m : Metric) :
    withTotal total x (withTotal total (some y) m) = withTotal total (x <|> some y) m := by
  cases x with
  | none => rfl
  | some x => simp [withTotal]

theorem shape_settle (total : Total) (ms ts : List Metric) :
    (settle total ts ms).map shape = ms.map shape := by
  induction ms generalizing ts with
  | nil => rfl
  | cons m ms ih => simp [settle, ih]

theorem settle_nil (total : Total) (ms : List Metric) : settle total [] ms = ms := by
  induction ms with
  | nil => rfl
  | cons m ms ih => simp [settle, lastTotal, withTotal, ih]

/-- What cannot be set does not count. -/
theorem settle_cons_of_not_belongs {t : Metric} {ms : List Metric} (total : Total)
    (ts : List Metric) (stays : belongs ms t = false) :
    settle total (t :: ts) ms = settle total ts ms := by
  induction ms generalizing ts with
  | nil => rfl
  | cons m ms ih =>
      have later : belongs ms t = false := by
        simp only [belongs, List.any_cons, Bool.and_or_distrib_left, Bool.or_eq_false_iff] at stays
        exact stays.2
      have skipped : lastTotal m.labels (t :: ts) = lastTotal m.labels ts := by
        by_cases same : t.labels = m.labels
        · cases scalar : t.value.scalar? with
          | none => simp [lastTotal, scalar]
          | some x => simp [belongs, scalar, same] at stays
        · simp [lastTotal, same]
      rw [settle, settle, skipped]
      by_cases same : t.labels = m.labels
      · simp [same]
      · simp [same, ih _ later]

/-- A total that has been set counts unless a later one is set over it. -/
theorem settle_of_setTotalIn? {total : Total} {t : Metric} {x : Double}
    (scalar : t.value.scalar? = some x) {ms moved : List Metric} (ts : List Metric)
    (set : setTotalIn? total t.labels x ms = some moved) :
    settle total ts moved = settle total (t :: ts) ms := by
  induction ms generalizing moved ts with
  | nil => cases set
  | cons m ms ih =>
      rw [setTotalIn?] at set
      split at set
      next same =>
        cases set
        change settle total ts (withTotal total (some x) m :: ms) = _
        simp [settle, lastTotal, same, scalar, withTotal_withTotal]
      next different =>
        obtain ⟨rest, found, rfl⟩ := Option.map_eq_some_iff.mp set
        have other : t.labels ≠ m.labels := fun equal => different equal.symm
        simp [settle, lastTotal, other, ih _ found]

theorem setTotalIn?_eq_none_iff {total : Total} {labels : Labels} {x : Double}
    {ms : List Metric} :
    setTotalIn? total labels x ms = none ↔ ms.any (·.labels = labels) = false := by
  induction ms with
  | nil => simp [setTotalIn?]
  | cons m ms ih =>
      by_cases same : m.labels = labels
      · simp [setTotalIn?, same]
      · simpa [setTotalIn?, same] using ih

theorem shape_setTotalIn? {total : Total} {labels : Labels} {x : Double} {ms moved : List Metric}
    (set : setTotalIn? total labels x ms = some moved) : moved.map shape = ms.map shape := by
  induction ms generalizing moved with
  | nil => cases set
  | cons m ms ih =>
      rw [setTotalIn?] at set
      split at set
      · cases set
        simp [shape]
      · obtain ⟨rest, found, rfl⟩ := Option.map_eq_some_iff.mp set
        simp [ih found]

/-- Of metrics that are alike, each has one with its labels and its kind among the others. -/
theorem exists_of_shape {ms ms' : List Metric} (same : ms.map shape = ms'.map shape) {m : Metric}
    (there : m ∈ ms) : ∃ m' ∈ ms', m'.labels = m.labels ∧ m'.value.kind = m.value.kind := by
  have member : shape m ∈ ms'.map shape := same ▸ List.mem_map_of_mem there
  obtain ⟨m', among, equal⟩ := List.mem_map.mp member
  exact ⟨m', among, congrArg Prod.fst equal, congrArg Prod.snd equal⟩

/-- What belongs to metrics depends on their labels only. -/
theorem belongs_congr {ms ms' : List Metric} (same : ms.map shape = ms'.map shape) (t : Metric) :
    belongs ms t = belongs ms' t := by
  have any : ∀ ms : List Metric, ms.any (·.labels = t.labels)
      = (ms.map shape).any (·.1 = t.labels) := fun ms => by
    rw [List.any_map]
    rfl
  rw [belongs, belongs, any, any, same]

/-- Moving totals sets them where they belong, and leaves the others. -/
theorem moveTotals_eq (total : Total) (into ts : List Metric) :
    moveTotals total into ts = (settle total ts into, ts.filter (!belongs into ·)) := by
  induction ts generalizing into with
  | nil => rw [moveTotals, settle_nil, List.filter_nil]
  | cons t ts ih =>
      rw [moveTotals]
      cases set : t.value.scalar?.bind fun x => setTotalIn? total t.labels x into with
      | some moved =>
          obtain ⟨x, scalar, set⟩ := Option.bind_eq_some_iff.mp set
          have here : belongs into t = true := by
            cases labelled : into.any (·.labels = t.labels) with
            | false => simp [setTotalIn?_eq_none_iff.mpr labelled] at set
            | true => simp [belongs, scalar, labelled]
          have others : ts.filter (!belongs moved ·) = ts.filter (!belongs into ·) :=
            List.filter_congr fun u _ => by rw [belongs_congr (shape_setTotalIn? set)]
          simp [ih, here, others, settle_of_setTotalIn? scalar ts set]
      | none =>
          have stays : belongs into t = false := by
            cases scalar : t.value.scalar? with
            | none => simp [belongs, scalar]
            | some x =>
                rw [scalar, Option.bind_some, setTotalIn?_eq_none_iff] at set
                simp [belongs, set]
          simp [ih, stays, settle_cons_of_not_belongs total ts stays]

/-! ## What becomes of a metric -/

theorem points_setTotal (total : Total) (x : Double) (v : Value) :
    (setTotal total x v).points = v.points := by
  cases total <;> cases v <;> rfl

theorem total?_setTotal {total : Total} {v : Value} (composite : hasTotals v.kind = true)
    (x : Double) : (setTotal total x v).total? total = some x := by
  cases v with
  | histogram d => cases total <;> rfl
  | summary d => cases total <;> rfl
  | _ => cases composite

theorem total?_setTotal_of_ne {total other : Total} (different : other ≠ total) (x : Double)
    (v : Value) : (setTotal total x v).total? other = v.total? other := by
  cases total <;> cases other
  case sum.sum => exact absurd rfl different
  case count.count => exact absurd rfl different
  all_goals cases v <;> rfl

/-- Whether two metrics differ in some totals at most. -/
structure SameBut (total : Total → Prop) (m m' : Metric) : Prop where
  labels : m'.labels = m.labels
  kind : m'.value.kind = m.value.kind
  points : m'.value.points = m.value.points
  totals : ∀ other, ¬ total other → m'.value.total? other = m.value.total? other

theorem sameBut_withTotal (total : Total) (x : Option Double) (m : Metric) :
    SameBut (· = total) m (withTotal total x m) := by
  cases x with
  | none => exact ⟨rfl, rfl, rfl, fun _ _ => rfl⟩
  | some x =>
      exact ⟨rfl, kind_setTotal total x m.value, points_setTotal total x m.value,
        fun other different => total?_setTotal_of_ne different x m.value⟩

theorem mem_settle {total : Total} {ms : List Metric} (ts : List Metric) {m : Metric}
    (there : m ∈ ms) : ∃ m' ∈ settle total ts ms, SameBut (· = total) m m' := by
  induction ms generalizing ts with
  | nil => cases there
  | cons first ms ih =>
      rcases List.mem_cons.mp there with rfl | there
      · exact ⟨_, List.mem_cons_self, sameBut_withTotal total _ m⟩
      · obtain ⟨m', among, same⟩ := ih (ts.filter (·.labels ≠ first.labels)) there
        exact ⟨m', List.mem_cons_of_mem _ among, same⟩

theorem lastTotal_append (labels : Labels) (ts us : List Metric) :
    lastTotal labels (ts ++ us) = (lastTotal labels us <|> lastTotal labels ts) := by
  induction ts with
  | nil => simp [lastTotal]
  | cons t ts ih =>
      rw [List.cons_append, lastTotal, ih, lastTotal]
      cases lastTotal labels us <;> simp

theorem mem_of_lastTotal {labels : Labels} {ts : List Metric} {x : Double}
    (last : lastTotal labels ts = some x) :
    ∃ t ∈ ts, t.labels = labels ∧ t.value.scalar? = some x := by
  induction ts with
  | nil => cases last
  | cons t ts ih =>
      rw [lastTotal] at last
      cases later : lastTotal labels ts with
      | some y =>
          rw [later] at last
          cases last
          obtain ⟨u, there, own⟩ := ih later
          exact ⟨u, List.mem_cons_of_mem t there, own⟩
      | none =>
          by_cases same : t.labels = labels
          · simp only [later, same, if_true] at last
            exact ⟨t, List.mem_cons_self, same, last⟩
          · simp [later, same] at last

theorem lastTotal_filter {labels other : Labels} (different : other ≠ labels) (ts : List Metric) :
    lastTotal other (ts.filter (·.labels ≠ labels)) = lastTotal other ts := by
  induction ts with
  | nil => rfl
  | cons t ts ih =>
      by_cases same : t.labels = labels
      · simpa [same, lastTotal, different.symm] using ih
      · simp only [ne_eq, same, not_false_eq_true, decide_true, List.filter_cons_of_pos, lastTotal]
        rw [← ih]

/-- The last total with some labels is set in a metric of these labels. -/
theorem exists_settle {total : Total} {labels : Labels} {ms ts : List Metric} {x : Double}
    (composite : ∀ m ∈ ms, hasTotals m.value.kind = true) (labelled : ∃ m ∈ ms, m.labels = labels)
    (last : lastTotal labels ts = some x) :
    ∃ m ∈ settle total ts ms, m.labels = labels ∧ m.value.total? total = some x := by
  induction ms generalizing ts with
  | nil =>
      obtain ⟨m, there, -⟩ := labelled
      cases there
  | cons first ms ih =>
      by_cases same : first.labels = labels
      · refine ⟨_, List.mem_cons_self, by simpa using same, ?_⟩
        rw [same, last]
        exact total?_setTotal (composite first List.mem_cons_self) x
      · have later : ∃ m ∈ ms, m.labels = labels := by
          obtain ⟨m, there, own⟩ := labelled
          rcases List.mem_cons.mp there with rfl | there
          · exact absurd own same
          · exact ⟨m, there, own⟩
        have last' : lastTotal labels (ts.filter (·.labels ≠ first.labels)) = some x := by
          rw [lastTotal_filter (Ne.symm same)]
          exact last
        obtain ⟨m, there, own⟩ := ih (fun m there => composite m (List.mem_cons_of_mem first there))
          later last'
        exact ⟨m, List.mem_cons_of_mem _ there, own⟩

/-! ## Metrics with different labels -/

theorem lastTotal_of_not_mem {labels : Labels} {ts : List Metric}
    (absent : labels ∉ ts.map (·.labels)) : lastTotal labels ts = none := by
  induction ts with
  | nil => rfl
  | cons t ts ih =>
      rw [List.map_cons, List.mem_cons, not_or] at absent
      simp [lastTotal, ih absent.2, Ne.symm absent.1]

theorem settle_of_nodup {ms : List Metric} (distinct : (ms.map (·.labels)).Nodup) (total : Total)
    (ts : List Metric) :
    settle total ts ms = ms.map fun m => withTotal total (lastTotal m.labels ts) m := by
  induction ms generalizing ts with
  | nil => rfl
  | cons m ms ih =>
      obtain ⟨new, distinct⟩ := List.nodup_cons.mp distinct
      rw [settle, ih distinct, List.map_cons]
      congr 1
      refine List.map_congr_left fun m' there => ?_
      have different : m'.labels ≠ m.labels := fun equal =>
        new (List.mem_map.mpr ⟨m', there, equal⟩)
      rw [lastTotal_filter different]

/-- Of totals with different labels each counts. -/
theorem lastTotal_of_nodup {ts : List Metric} (distinct : (ts.map (·.labels)).Nodup) {t : Metric}
    (there : t ∈ ts) : lastTotal t.labels ts = t.value.scalar? := by
  induction ts with
  | nil => cases there
  | cons t' ts ih =>
      obtain ⟨new, distinct⟩ := List.nodup_cons.mp distinct
      rcases List.mem_cons.mp there with rfl | there
      · simp [lastTotal, lastTotal_of_not_mem new]
      · have other : t'.labels ≠ t.labels := fun equal =>
          new (List.mem_map.mpr ⟨t, there, equal.symm⟩)
        simp [lastTotal, ih distinct there, other]

/-! ## Families -/

/-- Whether families stand under their names and hold metrics of their kind. -/
structure Homogeneous (families : Dict Family) : Prop where
  named : ∀ {name f}, families.get? name = some f → f.name = name
  nonempty : ∀ {name f}, families.get? name = some f → f.metrics ≠ []
  kinds : ∀ {name f}, families.get? name = some f → ∀ m ∈ f.metrics, m.value.kind = f.kind

/-- The samples under a name. -/
def samplesOf (families : Dict Family) (name : String) : List Metric :=
  ((families.get? name).map (·.metrics)).getD []

/-- A family without some of its metrics, if any are left. -/
def without (gone : Metric → Bool) (f : Family) : Option Family :=
  let left := f.metrics.filter (!gone ·)
  if left.isEmpty then none else some { f with metrics := left }

theorem without_of_none {gone : Metric → Bool} {f : Family} (nonempty : f.metrics ≠ [])
    (stays : ∀ m ∈ f.metrics, gone m = false) : without gone f = some f := by
  have all : f.metrics.filter (!gone ·) = f.metrics :=
    List.filter_eq_self.mpr fun m there => by simp [stays m there]
  simp [without, all, nonempty]

/-- What moving one kind of totals to a base does to the families. -/
theorem get?_foldTotal {families : Dict Family} {base : String} {f : Family}
    (found : families.get? base = some f) (total : Total) (name : String) :
    (foldTotal base families total).get? name =
      if name = base then
        some { f with
          metrics := settle total (samplesOf families (base ++ total.ending)) f.metrics }
      else if name = base ++ total.ending then
        (families.get? name).bind (without (belongs f.metrics))
      else families.get? name := by
  have apart : base ≠ base ++ total.ending := (Total.append_ending_ne base total).symm
  rw [foldTotal, samplesOf]
  cases totals : families.get? (base ++ total.ending) with
  | none =>
      simp only [Option.map_none, Option.getD_none, settle_nil]
      split
      next same => rw [same, found]
      next =>
        split
        next same => rw [same, totals]; rfl
        next => rfl
  | some t =>
      have rest : (families.erase (base ++ total.ending)).get? base = some f := by
        simp [apart, found]
      simp only [rest, moveTotals_eq, Option.map_some, Option.getD_some]
      by_cases same : name = base
      · subst same
        split <;> simp [apart]
      · by_cases other : name = base ++ total.ending
        · subst other
          simp only [same, if_false, if_true, totals, Option.bind_some, without]
          split <;> simp [same]
        · split <;> simp [same, other]

/-! ## Moving all totals -/

/-- A histogram or a summary after some totals have been moved to it, one after the other. -/
def settleAll (families : Dict Family) (name : String) (totals : List Total) (ms : List Metric) :
    List Metric :=
  totals.foldl (fun ms total => settle total (samplesOf families (name ++ total.ending)) ms) ms

theorem shape_settleAll (families : Dict Family) (name : String) (totals : List Total)
    (ms : List Metric) : (settleAll families name totals ms).map shape = ms.map shape := by
  induction totals generalizing ms with
  | nil => rfl
  | cons total totals ih => exact (ih _).trans (shape_settle _ _ _)

theorem mem_settleAll (families : Dict Family) (name : String) (totals : List Total)
    {ms : List Metric} {m : Metric} (there : m ∈ ms) :
    ∃ m' ∈ settleAll families name totals ms, SameBut (· ∈ totals) m m' := by
  induction totals generalizing ms m with
  | nil => exact ⟨m, there, rfl, rfl, rfl, fun _ _ => rfl⟩
  | cons total totals ih =>
      obtain ⟨m', among, same⟩ := mem_settle (samplesOf families (name ++ total.ending)) there
      obtain ⟨m'', among', same'⟩ := ih among
      refine ⟨m'', among', same'.labels.trans same.labels, same'.kind.trans same.kind,
        same'.points.trans same.points, fun other absent => ?_⟩
      rw [List.mem_cons, not_or] at absent
      exact (same'.totals other absent.2).trans (same.totals other absent.1)

/-- Each of the totals that are moved is set in a metric of its labels. -/
theorem exists_settleAll {families : Dict Family} {name : String} {totals : List Total}
    (distinct : totals.Nodup) {total : Total} (moved : total ∈ totals) {labels : Labels}
    {ms : List Metric} {x : Double} (composite : ∀ m ∈ ms, hasTotals m.value.kind = true)
    (labelled : ∃ m ∈ ms, m.labels = labels)
    (last : lastTotal labels (samplesOf families (name ++ total.ending)) = some x) :
    ∃ m ∈ settleAll families name totals ms, m.labels = labels ∧ m.value.total? total = some x := by
  induction totals generalizing ms with
  | nil => cases moved
  | cons first totals ih =>
      obtain ⟨new, distinct⟩ := List.nodup_cons.mp distinct
      rcases List.mem_cons.mp moved with rfl | later
      · obtain ⟨m, there, own, set⟩ := exists_settle composite labelled last
        obtain ⟨m', there', same⟩ := mem_settleAll families name totals there
        exact ⟨m', there', same.labels.trans own, (same.totals total new).trans set⟩
      · have shapes := shape_settle first ms (samplesOf families (name ++ first.ending))
        refine ih distinct later (fun m there => ?_) ?_
        · obtain ⟨m', among, -, kind⟩ := exists_of_shape shapes there
          exact kind ▸ composite m' among
        · obtain ⟨m, there, own⟩ := labelled
          obtain ⟨m', among, same⟩ := mem_settle (samplesOf families (name ++ first.ending)) there
          exact ⟨m', among, same.labels.trans own⟩

/-- Whether a sample under a name is one of some totals of a base. -/
def isMoved (families : Dict Family) (moves : List (String × Total)) (name : String) (t : Metric) :
    Bool :=
  moves.any fun move => name = move.1 ++ move.2.ending &&
    (families.get? move.1).any fun f => belongs f.metrics t

/-- What becomes of a family when some totals are moved to some bases. -/
def settledBy (families : Dict Family) (moves : List (String × Total)) (f : Family) :
    Option Family :=
  if hasTotals f.kind then
    some { f with
      metrics := settleAll families f.name ((moves.filter (·.1 = f.name)).map Prod.snd) f.metrics }
  else without (isMoved families moves f.name) f

/-- No samples of histograms and summaries are totals. -/
theorem not_belongs_of_hasTotals {families : Dict Family} (sound : Homogeneous families)
    {name : String} {f : Family} (found : families.get? name = some f)
    (composite : hasTotals f.kind = true) {ms : List Metric}
    (same : ms.map shape = f.metrics.map shape)
    (into : List Metric) : ∀ m ∈ ms, belongs into m = false := by
  intro m there
  obtain ⟨m', among, -, kind'⟩ := exists_of_shape same there
  have kind : m.value.kind = f.kind := kind'.symm.trans (sound.kinds found m' among)
  rw [← kind, hasTotals_kind, Option.isNone_iff_eq_none] at composite
  simp [belongs, composite]

theorem settle_of_not_belongs (total : Total) {ts : List Metric} :
    ∀ {ms : List Metric}, (∀ t ∈ ts, belongs ms t = false) → settle total ts ms = ms := by
  intro ms stays
  induction ts with
  | nil => exact settle_nil total ms
  | cons t ts ih =>
      rw [settle_cons_of_not_belongs total ts (stays t List.mem_cons_self)]
      exact ih fun u there => stays u (List.mem_cons_of_mem t there)

/-- Whether families are those that come of others by moving some totals. -/
def SettledBy (families : Dict Family) (moves : List (String × Total)) (settled : Dict Family) :
    Prop :=
  ∀ name, settled.get? name = (families.get? name).bind (settledBy families moves)

section Step

variable {families settled : Dict Family} {moves : List (String × Total)} {base : String}
  {total : Total}

theorem isMoved_of_not_mem (new : (base, total) ∉ moves) (t : Metric) :
    isMoved families moves (base ++ total.ending) t = false := by
  rw [isMoved, List.any_eq_false]
  intro move there moved
  rw [Bool.and_eq_true, decide_eq_true_eq] at moved
  obtain ⟨rfl, rfl⟩ := Total.append_ending_inj moved.1
  exact new there

theorem isMoved_append (new : (base, total) ∉ moves) {f : Family}
    (found : families.get? base = some f) :
    isMoved families (moves ++ [(base, total)]) (base ++ total.ending) = belongs f.metrics := by
  funext t
  have before : isMoved families moves (base ++ total.ending) t = false := isMoved_of_not_mem new t
  rw [isMoved] at before
  rw [isMoved, List.any_append, before]
  simp [found]

/-- Totals of a name stay until they are moved. -/
theorem settledBy_of_not_mem (sound : Homogeneous families) (new : (base, total) ∉ moves)
    {t : Family} (found : families.get? (base ++ total.ending) = some t)
    (scalar : hasTotals t.kind = false) :
    settledBy families moves t = some t := by
  rw [settledBy, if_neg (by simp [scalar])]
  rw [sound.named found]
  exact without_of_none (sound.nonempty found) fun m _ => isMoved_of_not_mem new m

theorem settledBy_append_of_composite {f : Family} (composite : hasTotals f.kind = true)
    (other : f.name ≠ base) :
    settledBy families (moves ++ [(base, total)]) f = settledBy families moves f := by
  simp [settledBy, composite, other.symm]

theorem settledBy_append_of_scalar {f : Family} (scalar : hasTotals f.kind = false)
    (other : f.name ≠ base ++ total.ending) :
    settledBy families (moves ++ [(base, total)]) f = settledBy families moves f := by
  have same :
      isMoved families (moves ++ [(base, total)]) f.name = isMoved families moves f.name := by
    funext t
    simp [isMoved, other]
  simp [settledBy, scalar, same]

/-- The totals that a move is about have not been touched by other moves. -/
theorem settle_samplesOf (sound : Homogeneous families) (so : SettledBy families moves settled)
    (new : (base, total) ∉ moves) (ms : List Metric) :
    settle total (samplesOf settled (base ++ total.ending)) ms =
      settle total (samplesOf families (base ++ total.ending)) ms := by
  rw [samplesOf, samplesOf, so]
  cases found : families.get? (base ++ total.ending) with
  | none => rfl
  | some t =>
      cases composite : hasTotals t.kind with
      | false => rw [Option.bind_some, settledBy_of_not_mem sound new found composite]
      | true =>
          have before := not_belongs_of_hasTotals sound found composite rfl ms
          have after := not_belongs_of_hasTotals sound found composite
            (shape_settleAll families t.name ((moves.filter (·.1 = t.name)).map Prod.snd)
              t.metrics) ms
          simp only [Option.bind_some, settledBy, composite, if_true, Option.map_some,
            Option.getD_some]
          rw [settle_of_not_belongs total before, settle_of_not_belongs total after]

/-- One more move. -/
theorem SettledBy.foldTotal (sound : Homogeneous families) (so : SettledBy families moves settled)
    (new : (base, total) ∉ moves) {f : Family} (found : families.get? base = some f)
    (composite : hasTotals f.kind = true) :
    SettledBy families (moves ++ [(base, total)]) (foldTotal base settled total) := by
  intro name
  have named := sound.named found
  have there : settled.get? base = some { f with
      metrics := settleAll families base ((moves.filter (·.1 = base)).map Prod.snd)
        f.metrics } := by
    rw [so, found, Option.bind_some, settledBy, if_pos composite, named]
  rw [get?_foldTotal there]
  split
  next same =>
    subst same
    rw [found, Option.bind_some, settledBy, if_pos composite, named, settle_samplesOf sound so new,
      List.filter_append, List.map_append, settleAll, settleAll, List.foldl_append]
    simp
  next other =>
    rw [so]
    cases among : families.get? name with
    | none => split <;> rfl
    | some t =>
        have own := sound.named among
        rw [Option.bind_some, Option.bind_some]
        split
        next same =>
          subst same
          -- The family of the totals.  If it takes totals itself, none of its metrics is one number,
          -- and it keeps them all.
          cases kind : hasTotals t.kind with
          | false =>
              have moved : belongs
                    (settleAll families base ((moves.filter (·.1 = base)).map Prod.snd) f.metrics) =
                  belongs f.metrics :=
                funext (belongs_congr (shape_settleAll ..))
              rw [settledBy_of_not_mem sound new among kind, Option.bind_some, settledBy,
                if_neg (by simp [kind]), own, isMoved_append new found, moved]
          | true =>
              rw [settledBy_append_of_composite kind (own ▸ other), settledBy, if_pos kind,
                Option.bind_some]
              refine without_of_none ?_ ?_
              · intro empty
                have none_ := congrArg (List.map shape) empty
                rw [shape_settleAll, List.map_nil, List.map_eq_nil_iff] at none_
                exact sound.nonempty among none_
              · exact not_belongs_of_hasTotals sound among kind (shape_settleAll ..) _
        next different =>
          cases kind : hasTotals t.kind with
          | false => rw [settledBy_append_of_scalar kind (own ▸ different)]
          | true => rw [settledBy_append_of_composite kind (own ▸ other)]

end Step

/-- Any moves of different totals, one after the other. -/
theorem settledBy_foldl {families : Dict Family} (sound : Homogeneous families)
    {moves : List (String × Total)} (distinct : moves.Nodup)
    (composite : ∀ move ∈ moves, ∃ f, families.get? move.1 = some f ∧ hasTotals f.kind = true) :
    SettledBy families moves
      (moves.foldl (fun settled move => foldTotal move.1 settled move.2) families) := by
  induction moves using List.reverseRecOn with
  | nil =>
      intro name
      cases found : families.get? name with
      | none => simp [found]
      | some f =>
          cases kind : hasTotals f.kind with
          | true => simp [found, settledBy, kind, settleAll]
          | false =>
              have stays : without (isMoved families [] f.name) f = some f :=
                without_of_none (sound.nonempty found) fun _ _ => rfl
              simp [found, settledBy, kind, stays]
  | append_singleton moves move ih =>
      rw [List.nodup_append] at distinct
      obtain ⟨earlier, -, apart⟩ := distinct
      obtain ⟨f, found, kind⟩ := composite move (by simp)
      have so := ih earlier fun move' there => composite move' (by simp [there])
      have new : (move.1, move.2) ∉ moves := fun there =>
        apart _ there move List.mem_cons_self rfl
      rw [List.foldl_append]
      exact so.foldTotal sound new found kind

/-- The moves of all totals of some bases. -/
def movesOf (bases : List String) : List (String × Total) :=
  bases.flatMap fun base => [(base, .sum), (base, .count)]

theorem foldTotals_eq (families : Dict Family) (bases : List String) :
    foldTotals families bases =
      (movesOf bases).foldl (fun settled move => foldTotal move.1 settled move.2) families := by
  rw [foldTotals, movesOf, List.foldl_flatMap]
  rfl

theorem mem_movesOf_iff {bases : List String} {move : String × Total} :
    move ∈ movesOf bases ↔ move.1 ∈ bases := by
  obtain ⟨base, total⟩ := move
  cases total <;> simp [movesOf]

theorem movesOf_nodup {bases : List String} (distinct : bases.Nodup) : (movesOf bases).Nodup := by
  induction bases with
  | nil => exact List.nodup_nil
  | cons base bases ih =>
      obtain ⟨new, distinct⟩ := List.nodup_cons.mp distinct
      have apart : ∀ total, (base, total) ∉ movesOf bases := fun total there =>
        new (mem_movesOf_iff.mp there)
      have later := ih distinct
      rw [movesOf] at later apart
      simp [movesOf, apart, later]

/-- The moves to one of some bases. -/
theorem filter_movesOf {bases : List String} (distinct : bases.Nodup) {base : String}
    (there : base ∈ bases) :
    ((movesOf bases).filter (·.1 = base)).map Prod.snd = [.sum, .count] := by
  have none_ : ∀ {bases : List String}, base ∉ bases →
      (movesOf bases).filter (·.1 = base) = [] := by
    intro bases absent
    rw [List.filter_eq_nil_iff]
    rintro move member equal
    rw [decide_eq_true_eq] at equal
    exact absent (equal ▸ mem_movesOf_iff.mp member)
  induction bases with
  | nil => cases there
  | cons other bases ih =>
      obtain ⟨new, distinct⟩ := List.nodup_cons.mp distinct
      have cons : movesOf (other :: bases) =
          [(other, .sum), (other, .count)] ++ movesOf bases := List.flatMap_cons
      rw [cons, List.filter_append]
      rcases List.mem_cons.mp there with rfl | there
      · simp [none_ new]
      · have different : other ≠ base := fun equal => new (equal ▸ there)
        simp [different, ih distinct there]

section Bases

variable {families : Dict Family}

theorem mem_bases_iff (sound : Homogeneous families) {base : String} :
    base ∈ bases families ↔ ∃ f, families.get? base = some f ∧ hasTotals f.kind = true := by
  simp only [bases, List.mem_map, List.mem_filter, Dict.mem_values_iff]
  constructor
  · rintro ⟨f, ⟨⟨name, found⟩, composite⟩, rfl⟩
    exact ⟨f, sound.named found ▸ found, composite⟩
  · rintro ⟨f, found, composite⟩
    exact ⟨f, ⟨⟨base, found⟩, composite⟩, sound.named found⟩

theorem bases_nodup (sound : Homogeneous families) : (bases families).Nodup := by
  have names : families.values.map (·.name) = families.entries.map Prod.fst := by
    rw [Dict.values, List.map_map]
    refine List.map_congr_left fun e there => ?_
    exact sound.named (Dict.get?_eq_some_iff.mpr there)
  have all : (families.values.map (·.name)).Nodup := names ▸ families.keys_nodup
  exact (List.filter_sublist.map _).nodup all

/-- Whether a sample under a name is a total of a metric of some base. -/
def isTotal (families : Dict Family) (name : String) (t : Metric) : Bool :=
  isMoved families (movesOf (bases families)) name t

theorem isTotal_iff (sound : Homogeneous families) {name : String} {t : Metric} :
    isTotal families name t = true ↔ ∃ base, ∃ total : Total, ∃ f, name = base ++ total.ending ∧
      families.get? base = some f ∧ hasTotals f.kind = true ∧ belongs f.metrics t = true := by
  simp only [isTotal, isMoved, List.any_eq_true, Bool.and_eq_true, decide_eq_true_eq,
    Option.any_eq_true_iff_get, mem_movesOf_iff, mem_bases_iff sound]
  constructor
  · rintro ⟨⟨base, total⟩, ⟨f, found, composite⟩, named, there, own⟩
    simp only [found, Option.get_some] at own
    exact ⟨base, total, f, named, found, composite, own⟩
  · rintro ⟨base, total, f, named, found, composite, own⟩
    exact ⟨(base, total), ⟨f, found, composite⟩, named, by simp [found], by simpa [found] using own⟩

/-- What becomes of a family when all totals are moved. -/
def settled (families : Dict Family) (f : Family) : Option Family :=
  if hasTotals f.kind then
    some { f with metrics := settleAll families f.name [.sum, .count] f.metrics }
  else without (isTotal families f.name) f

/-- In whatever order bases are visited, each family is settled. -/
theorem get?_foldTotals (sound : Homogeneous families) {visited : List String}
    (perm : visited.Perm (bases families)) (name : String) :
    (foldTotals families visited).get? name = (families.get? name).bind (settled families) := by
  have distinct : visited.Nodup := perm.nodup_iff.mpr (bases_nodup sound)
  have composite : ∀ move ∈ movesOf visited,
      ∃ f, families.get? move.1 = some f ∧ hasTotals f.kind = true := fun move there =>
    (mem_bases_iff sound).mp (perm.mem_iff.mp (mem_movesOf_iff.mp there))
  rw [foldTotals_eq, settledBy_foldl sound (movesOf_nodup distinct) composite]
  cases found : families.get? name with
  | none => rfl
  | some f =>
      rw [Option.bind_some, Option.bind_some, settledBy, settled]
      cases kind : hasTotals f.kind with
      | true =>
          have there : f.name ∈ visited :=
            perm.mem_iff.mpr ((mem_bases_iff sound).mpr ⟨f, sound.named found ▸ found, kind⟩)
          rw [if_pos rfl, if_pos rfl, filter_movesOf distinct there]
      | false =>
          have same :
              isMoved families (movesOf visited) = isMoved families (movesOf (bases families)) := by
            funext name t
            exact (perm.flatMap_right _).any_eq
          simp only [same]
          rfl

end Bases

end Exposition

end Telemetry
