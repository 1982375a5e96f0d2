import Telemetry.Proofs.Exposition.Totals
import Telemetry.Proofs.Exposition.Transcript

/-!
# Gathered families

Metrics come into families under their names, one after the other.  So a family is
made of the metrics of its name alone (`get?_gather`): it has the kind of the first
of them, and all that are of this kind.  Once totals are moved, the families that
are left are those that were gathered, each of them settled
(`mem_familiesOf_iff`), by ascending name.
-/

namespace Telemetry

namespace Exposition

/-! ## Orders -/

/-- Whether an order visits everything once. -/
structure VisitOrder.Fair (order : VisitOrder) : Prop where
  groups : ∀ gs, (order.groups gs).Perm gs
  loose : ∀ ls, (order.loose ls).Perm ls
  bases : ∀ names, (order.bases names).Perm names

/-! ## Gathering -/

/-- The metrics of a name, in order. -/
def metricsUnder (name : String) (found : List (String × Metric)) : List Metric :=
  (found.filter (·.1 = name)).map Prod.snd

theorem metricsUnder_append (name : String) (found found' : List (String × Metric)) :
    metricsUnder name (found ++ found') = metricsUnder name found ++ metricsUnder name found' := by
  simp [metricsUnder]

theorem metricsUnder_of_ne {name : String} {found : List (String × Metric)}
    (other : ∀ p ∈ found, p.1 ≠ name) : metricsUnder name found = [] := by
  simpa [metricsUnder] using other

theorem metricsUnder_of_eq {name : String} {found : List (String × Metric)}
    (own : ∀ p ∈ found, p.1 = name) : metricsUnder name found = found.map Prod.snd := by
  rw [metricsUnder, List.filter_eq_self.mpr]
  simpa using own

@[simp] theorem metricsUnder_cons_self (name : String) (m : Metric)
    (found : List (String × Metric)) :
    metricsUnder name ((name, m) :: found) = m :: metricsUnder name found := by
  simp [metricsUnder]

theorem mem_metricsUnder_iff {name : String} {found : List (String × Metric)} {m : Metric} :
    m ∈ metricsUnder name found ↔ (name, m) ∈ found := by
  simp [metricsUnder]

/-- The family that the metrics of a name make. -/
def familyOf (help : Option String) (name : String) : List Metric → Option Family
  | [] => none
  | m :: ms => some ⟨name, help, m.value.kind, m :: ms.filter (·.value.kind = m.value.kind)⟩

theorem familyOf_append (help : Option String) (name : String) (ms : List Metric) (m : Metric) :
    familyOf help name (ms ++ [m]) =
      match familyOf help name ms with
      | none => some (.singleton name help m)
      | some f =>
        some (if f.kind = m.value.kind then { f with metrics := f.metrics ++ [m] } else f) := by
  cases ms with
  | nil => rfl
  | cons first ms =>
      by_cases same : m.value.kind = first.value.kind
      · simp [familyOf, same]
      · simp [familyOf, same, Ne.symm same]

/-- Metrics of one kind make a family of all of them. -/
theorem familyOf_of_kind (help : Option String) (name : String) {ms : List Metric} {kind : Kind}
    (nonempty : ms ≠ []) (kinds : ∀ m ∈ ms, m.value.kind = kind) :
    familyOf help name ms = some ⟨name, help, kind, ms⟩ := by
  cases ms with
  | nil => exact absurd rfl nonempty
  | cons m ms =>
      obtain rfl := kinds m List.mem_cons_self
      have all : ms.filter (·.value.kind = m.value.kind) = ms := by
        rw [List.filter_eq_self]
        exact fun m' there => by simpa using kinds m' (List.mem_cons_of_mem m there)
      rw [familyOf, all]

theorem get?_addMetric (helps : Dict String) (families : Dict Family) (name : String)
    (metric : Metric) (key : String) :
    (addMetric helps families name metric).get? key =
      if key = name then
        match families.get? name with
        | none => some (.singleton name (helps.get? name) metric)
        | some f =>
          some (if f.kind = metric.value.kind then { f with metrics := f.metrics ++ [metric] }
            else f)
      else families.get? key := by
  rw [addMetric]
  cases found : families.get? name with
  | none => simp
  | some f =>
      by_cases same : f.kind = metric.value.kind
      · simp [same]
      · by_cases equal : key = name
        · simp [same, equal, found]
        · simp [same, equal]

theorem get?_foldl_addMetric (helps : Dict String) (found : List (String × Metric))
    (name : String) :
    (found.foldl (fun families m => addMetric helps families m.1 m.2) .empty).get? name =
      familyOf (helps.get? name) name (metricsUnder name found) := by
  induction found using List.reverseRecOn with
  | nil => rfl
  | append_singleton found m ih =>
      rw [List.foldl_append, List.foldl_cons, List.foldl_nil, get?_addMetric]
      by_cases same : name = m.1
      · subst same
        rw [if_pos rfl, ih, metricsUnder_append, metricsUnder_cons_self]
        exact (familyOf_append _ _ _ _).symm
      · have other : m.1 ≠ name := fun equal => same equal.symm
        rw [if_neg same, ih]
        simp [metricsUnder, other]

/-- The metrics that are gathered, with their names, in order. -/
def gathered (order : VisitOrder) (t : Transcript) : List (String × Metric) :=
  ownMetrics order t ++ (order.loose (looseBuckets t.metrics.reverse)).map fun l =>
    (l.name, ⟨l.labels, histogramOf l.points⟩)

/-- What is gathered under a name is made of the metrics of that name. -/
theorem get?_gather (order : VisitOrder) (t : Transcript) (name : String) :
    (gather order t).get? name =
      familyOf (t.helps.get? name) name (metricsUnder name (gathered order t)) :=
  get?_foldl_addMetric t.helps (gathered order t) name

theorem homogeneous_gather (order : VisitOrder) (t : Transcript) :
    Homogeneous (gather order t) := by
  have inversion : ∀ {name f}, (gather order t).get? name = some f →
      f.name = name ∧ f.metrics ≠ [] ∧ ∀ m ∈ f.metrics, m.value.kind = f.kind := by
    intro name f found
    rw [get?_gather] at found
    cases metrics : metricsUnder name (gathered order t) with
    | nil =>
        rw [metrics] at found
        cases found
    | cons m ms =>
        rw [metrics] at found
        cases found
        simp
  exact ⟨fun found => (inversion found).1, fun found => (inversion found).2.1,
    fun found => (inversion found).2.2⟩

/-- A family has all metrics of its name and its kind, in order. -/
theorem metrics_of_gather {order : VisitOrder} {t : Transcript} {name : String} {f : Family}
    (found : (gather order t).get? name = some f) :
    f.metrics = (metricsUnder name (gathered order t)).filter (·.value.kind = f.kind) := by
  rw [get?_gather] at found
  cases metrics : metricsUnder name (gathered order t) with
  | nil =>
      rw [metrics] at found
      cases found
  | cons m ms =>
      rw [metrics] at found
      cases found
      simp

/-- A metric that is gathered is in the family of its name, or this has another kind. -/
theorem mem_of_gathered {order : VisitOrder} {t : Transcript} {name : String} {m : Metric}
    (there : (name, m) ∈ gathered order t) :
    ∃ f, (gather order t).get? name = some f ∧ (f.kind = m.value.kind → m ∈ f.metrics) := by
  have under : m ∈ metricsUnder name (gathered order t) := mem_metricsUnder_iff.mpr there
  cases found : (gather order t).get? name with
  | none =>
      rw [get?_gather] at found
      cases metrics : metricsUnder name (gathered order t) with
      | nil =>
          rw [metrics] at under
          cases under
      | cons first ms =>
          rw [metrics] at found
          cases found
  | some f =>
      refine ⟨f, rfl, fun same => ?_⟩
      rw [metrics_of_gather found, List.mem_filter]
      exact ⟨under, decide_eq_true same.symm⟩

/-! ## Points -/

theorem mem_points_histogramOf {points : List (Double × Double)} {p : Double × Double}
    (there : p ∈ points) : p ∈ (histogramOf points).points := by
  simp only [histogramOf, Value.points, List.mem_map, bucketsOf, List.mem_mergeSort]
  exact ⟨⟨p.1, p.2⟩, ⟨p, there, rfl⟩, rfl⟩

/-- The metric of a group has its kind and its points. -/
theorem metricOf_eq (g : Group) :
    (metricOf g).labels = g.labels ∧ (metricOf g).value.kind = g.kind ∧
      ∀ p ∈ g.points, p ∈ (metricOf g).value.points := by
  rw [metricOf, Group.kind]
  cases g.isSummary with
  | false => exact ⟨rfl, rfl, fun p there => mem_points_histogramOf there⟩
  | true =>
      refine ⟨rfl, rfl, fun p there => ?_⟩
      simp only [if_true, summaryOf, Value.points, List.map_map, List.mem_map]
      exact ⟨p, there, rfl⟩

theorem mem_gathered_of_group {order : VisitOrder} (fair : order.Fair) {t : Transcript} {g : Group}
    (there : g ∈ t.groups) : (g.title, metricOf g) ∈ gathered order t := by
  refine List.mem_append_left _ (List.mem_append_right _ (List.mem_map.mpr ⟨g, ?_, rfl⟩))
  exact (fair.groups _).mem_iff.mpr there

theorem mem_gathered_of_loose {order : VisitOrder} (fair : order.Fair) {t : Transcript}
    {l : LooseBuckets} (there : l ∈ looseBuckets t.metrics.reverse) :
    (l.name, ⟨l.labels, histogramOf l.points⟩) ∈ gathered order t := by
  refine List.mem_append_right _ (List.mem_map.mpr ⟨l, ?_, rfl⟩)
  exact (fair.loose _).mem_iff.mpr there

/-- A loose bucket comes to those of its name and its labels, and all others stay. -/
theorem mem_addLoose {name : String} {labels : Labels} {point : Double × Double}
    {ls : List LooseBuckets} :
    (∃ l ∈ addLoose name labels point ls, l.name = name ∧ l.labels = labels ∧ point ∈ l.points) ∧
      ∀ l ∈ ls, ∃ l' ∈ addLoose name labels point ls,
        l'.name = l.name ∧ l'.labels = l.labels ∧ l.points ⊆ l'.points := by
  induction ls with
  | nil => simp [addLoose]
  | cons first ls ih =>
      obtain ⟨here, old⟩ := ih
      rw [addLoose]
      split
      next same =>
        refine ⟨⟨_, List.mem_cons_self, same.1, same.2, by simp⟩, fun l there => ?_⟩
        rcases List.mem_cons.mp there with rfl | there
        · exact ⟨_, List.mem_cons_self, rfl, rfl, List.subset_append_left _ _⟩
        · exact ⟨l, List.mem_cons_of_mem _ there, rfl, rfl, List.Subset.refl _⟩
      next different =>
        refine ⟨?_, fun l there => ?_⟩
        · obtain ⟨l, among, own⟩ := here
          exact ⟨l, List.mem_cons_of_mem first among, own⟩
        · rcases List.mem_cons.mp there with rfl | there
          · exact ⟨l, List.mem_cons_self, rfl, rfl, List.Subset.refl _⟩
          · obtain ⟨l', among, own⟩ := old l there
            exact ⟨l', List.mem_cons_of_mem first among, own⟩

/-- Each loose bucket is found among those of its name and its labels. -/
theorem mem_looseBuckets {samples : List (String × Metric)} {s : String × Metric}
    (there : s ∈ samples) {name : String} {labels : Labels} {point : Double × Double}
    (loose : looseBucket? s.1 s.2 = some (name, labels, point)) :
    ∃ l ∈ looseBuckets samples, l.name = name ∧ l.labels = labels ∧ point ∈ l.points := by
  have member : (name, labels, point) ∈ samples.filterMap fun s => looseBucket? s.1 s.2 :=
    List.mem_filterMap.mpr ⟨s, there, loose⟩
  rw [looseBuckets]
  generalize samples.filterMap (fun s => looseBucket? s.1 s.2) = found at member
  induction found using List.reverseRecOn with
  | nil => cases member
  | append_singleton found last ih =>
      rw [List.foldl_append, List.foldl_cons, List.foldl_nil]
      rcases List.mem_append.mp member with earlier | here
      · obtain ⟨l, among, same, same', point⟩ := ih earlier
        obtain ⟨l', among', own, own', points⟩ := mem_addLoose.2 l among
        exact ⟨l', among', own.trans same, own'.trans same', points point⟩
      · cases List.mem_singleton.mp here
        exact mem_addLoose.1

/-- What is known of a loose bucket. -/
theorem of_looseBucket? {name base : String} {m : Metric} {labels : Labels}
    {point : Double × Double} (loose : looseBucket? name m = some (base, labels, point)) :
    name = base ++ Bucket.ending ∧ m.value = .untyped point.2 ∧
      labels = m.labels.erase Bucket.label ∧
        (m.labels.get? Bucket.label).bind (fun text => Double.read? text.toList) =
          some point.1 := by
  rw [looseBucket?] at loose
  split at loose
  next number value =>
    split at loose
    next ends =>
      split at loose
      next bound given =>
        cases loose
        refine ⟨?_, value, rfl, given⟩
        obtain ⟨front, equal⟩ := List.isSuffixOf_iff_suffix.mp ends
        have length : name.length - Bucket.ending.length = front.length := by
          rw [← String.length_toList, ← String.length_toList, ← equal, List.length_append]
          omega
        rw [length, ← equal, List.take_left, ← String.toList_inj, String.toList_append,
          String.toList_ofList, equal]
      next => cases loose
    next => cases loose
  next => cases loose

/-! ## Families -/

theorem name_of_settled {families : Dict Family} {f g : Family}
    (becomes : settled families f = some g) : g.name = f.name := by
  rw [settled, without] at becomes
  split at becomes
  · cases becomes
    rfl
  · split at becomes
    · cases becomes
    · cases becomes
      rfl

section Reading

variable {order : VisitOrder} (fair : order.Fair) (t : Transcript)
include fair

theorem get?_familiesOf (name : String) :
    (foldTotals (gather order t) (order.bases (bases (gather order t)))).get? name =
      ((gather order t).get? name).bind (settled (gather order t)) :=
  get?_foldTotals (homogeneous_gather order t) (fair.bases _) name

/-- The families of a transcript are those that are gathered, settled. -/
theorem mem_familiesOf_iff {g : Family} :
    g ∈ familiesOf order t ↔ ∃ name f, (gather order t).get? name = some f ∧
      settled (gather order t) f = some g := by
  rw [familiesOf, Dict.mem_values_iff]
  simp only [get?_familiesOf fair, Option.bind_eq_some_iff]

/-- Families come out by ascending name. -/
theorem names_familiesOf : ((familiesOf order t).map (·.name)).Pairwise (· < ·) := by
  have names : (familiesOf order t).map (·.name) =
      (foldTotals (gather order t)
        (order.bases (bases (gather order t)))).entries.map Prod.fst := by
    rw [familiesOf, Dict.values, List.map_map]
    refine List.map_congr_left fun e there => ?_
    have found := Dict.get?_eq_some_iff.mpr there
    rw [get?_familiesOf fair] at found
    obtain ⟨f, gathered, becomes⟩ := Option.bind_eq_some_iff.mp found
    exact (name_of_settled becomes).trans ((homogeneous_gather order t).named gathered)
  rw [names, List.pairwise_map]
  exact Dict.ascending _

end Reading

end Exposition

end Telemetry
