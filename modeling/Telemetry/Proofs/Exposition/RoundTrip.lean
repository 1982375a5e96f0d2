import Mathlib.Data.List.Forall2
import Telemetry.Proofs.Exposition.Gathered
import Telemetry.Proofs.Exposition.Transcribed

/-!
# Reading what was written

Clean families are read back from what is written of them.  Under the name of a
family stand its own samples, or the metrics of its own groups, since no other
family writes there.  Under the name of a total stand the totals of one family,
each of which belongs to one of its metrics.  So once totals are moved all of them
are gone, and the metrics of histograms and summaries are whole again.

Metrics of a histogram or a summary come back in the order in which groups are
visited, which is left open.
-/

namespace Telemetry

namespace Exposition

/-! ## Groups -/

theorem position_le_top {x : Double} (number : ∀ negative, x ≠ .nan negative) :
    x.position ≤ (Double.infinity false).position := by
  cases x with
  | nan negative => exact absurd rfl (number negative)
  | number negative rank =>
      have bound := rank.isLt
      cases negative with
      | true => simp [Double.position, Double.infinity]; omega
      | false => simp [Double.position, Double.infinity]; omega

theorem reread_of_number {x : Double} (number : ∀ negative, x ≠ .nan negative) : x.reread = x := by
  cases x with
  | nan negative => exact absurd rfl (number negative)
  | number => rfl

/-- The buckets of a clean histogram are in their order once it is closed. -/
theorem pairwise_closed {d : Distribution} (clean : (Value.histogram d).Clean) :
    (d.closed.buckets.Pairwise fun a b => a.upperBound.position ≤ b.upperBound.position) ∧
      ∀ b ∈ d.closed.buckets, ∀ negative, b.upperBound ≠ .nan negative := by
  obtain ⟨ascending, numbers⟩ := clean
  rw [Distribution.closed]
  split
  · exact ⟨ascending, numbers⟩
  · constructor
    · refine List.pairwise_append.mpr
        ⟨ascending, List.pairwise_singleton _ _, fun a there b last => ?_⟩
      rw [List.mem_singleton.mp last]
      exact position_le_top (numbers a there)
    · intro b there
      rcases List.mem_append.mp there with there | there
      · exact numbers b there
      · rw [List.mem_singleton.mp there]
        exact fun _ => Double.noConfusion

theorem bucketsOf_points {d : Distribution} (clean : (Value.histogram d).Clean) :
    bucketsOf (Value.histogram d).reread.points =
      d.closed.buckets.map fun b => ⟨b.upperBound.reread, b.cumulativeCount.reread⟩ := by
  obtain ⟨ascending, numbers⟩ := pairwise_closed clean
  have buckets : (Value.histogram d).reread.points.map (fun p => (⟨p.1, p.2⟩ : Bucket)) =
      d.closed.buckets.map fun b => ⟨b.upperBound.reread, b.cumulativeCount.reread⟩ := by
    simp [Value.reread, Value.closed, Value.mapNumbers, Value.points]
  rw [bucketsOf, buckets]
  refine List.mergeSort_of_pairwise (List.pairwise_map.mpr (ascending.imp_of_mem ?_))
  intro a b here there before
  simpa [reread_of_number (numbers a here), reread_of_number (numbers b there)] using before

/-- A metric is whole again once it has its totals. -/
theorem withTotals_metricOf {m : Metric} (clean : m.Clean)
    (composite : hasTotals m.value.kind = true) (name : String) :
    withTotal .count (m.reread.value.total? .count)
        (withTotal .sum (m.reread.value.total? .sum) (metricOf (m.reread.group name))) =
      m.reread := by
  obtain ⟨labels, value⟩ := m
  have value_ := clean.value
  cases value with
  | histogram d =>
      have buckets := bucketsOf_points value_
      simp only [metricOf, Metric.group, Metric.reread, histogramOf, buckets]
      rfl
  | summary d =>
      have points : (Value.summary d).reread.points.map (fun p => (⟨p.1, p.2⟩ : Quantile)) =
          d.quantiles.map fun q => ⟨q.quantile.reread, q.value.reread⟩ := by
        simp [Value.reread, Value.closed, Value.mapNumbers, Value.points]
      simp only [metricOf, Metric.group, Metric.reread, summaryOf, points]
      rfl
  | _ => cases composite

/-! ## What stands under a name -/

/-- What stands under a name that one family only writes under. -/
theorem metricsUnder_flatMap {families : List Family} (names : (families.map (·.name)).Nodup)
    {f : Family} (there : f ∈ families) {name : String} {found : Family → List (String × Metric)}
    (other : ∀ g ∈ families, g.name ≠ f.name → ∀ p ∈ found g, p.1 ≠ name) :
    metricsUnder name (families.flatMap found) = metricsUnder name (found f) := by
  induction families with
  | nil => cases there
  | cons g families ih =>
      obtain ⟨new, names⟩ := List.nodup_cons.mp names
      rw [List.flatMap_cons, metricsUnder_append]
      rcases List.mem_cons.mp there with rfl | there
      · have rest : metricsUnder name (families.flatMap found) = [] := by
          refine metricsUnder_of_ne fun p member => ?_
          obtain ⟨g, later, member⟩ := List.mem_flatMap.mp member
          refine other g (List.mem_cons_of_mem _ later) (fun equal => ?_) p member
          exact new (List.mem_map.mpr ⟨g, later, equal⟩)
        rw [rest, List.append_nil]
      · have first : metricsUnder name (found g) = [] := by
          refine metricsUnder_of_ne (other g List.mem_cons_self fun equal => ?_)
          exact new (List.mem_map.mpr ⟨f, there, equal.symm⟩)
        rw [first, List.nil_append,
          ih names there fun g' later => other g' (List.mem_cons_of_mem _ later)]

/-- The names that the samples of a clean family have. -/
theorem name_of_mem_scalars {f : Family} (clean : f.Clean) {p : String × Metric}
    (there : p ∈ f.reread.scalars) :
    (hasTotals f.kind = false ∧ p.1 = f.name) ∨
      (hasTotals f.kind = true ∧ ∃ total : Total, p.1 = f.name ++ total.ending) := by
  obtain ⟨m, member, there⟩ := List.mem_flatMap.mp there
  have kind : m.value.kind = f.kind := clean.kind_of_mem member
  rw [Metric.scalars, kind] at there
  split at there
  next composite =>
    obtain ⟨total, -, there⟩ := List.mem_filterMap.mp there
    obtain ⟨x, -, rfl⟩ := Option.map_eq_some_iff.mp there
    exact .inr ⟨composite, total, rfl⟩
  next scalar =>
    rw [List.mem_singleton.mp there]
    exact .inl ⟨by simpa using scalar, rfl⟩

theorem scalars_ne_nil {f : Family} (clean : f.Clean) : f.reread.scalars ≠ [] := by
  intro empty
  obtain ⟨m, more, metrics⟩ := List.exists_cons_of_ne_nil clean.nonempty
  have there : m.reread ∈ f.reread.metrics :=
    List.mem_map_of_mem (metrics ▸ List.mem_cons_self)
  have none_ := List.flatMap_eq_nil_iff.mp empty m.reread there
  rw [Metric.scalars] at none_
  split at none_
  next composite =>
    obtain ⟨sum, given⟩ := Value.total?_of_composite composite .sum
    simp [Metric.totals, given] at none_
  next => cases none_

/-- The totals of one kind that a histogram or a summary has. -/
def totalMetrics (total : Total) (f : Family) : List Metric :=
  f.metrics.filterMap fun m => (m.value.total? total).map fun x => ⟨m.labels, .untyped x⟩

theorem labels_totalMetrics {f : Family} (clean : f.Clean) (composite : hasTotals f.kind = true)
    (total : Total) :
    (totalMetrics total f.reread).map (·.labels) = f.reread.metrics.map (·.labels) := by
  have each : ∀ m ∈ f.reread.metrics, ((m.value.total? total).map fun x =>
      (⟨m.labels, .untyped x⟩ : Metric)).map (·.labels) = some m.labels := by
    intro m there
    obtain ⟨x, given⟩ := Value.total?_of_composite (clean.kind_of_mem there ▸ composite) total
    simp [given]
  rw [totalMetrics, List.map_filterMap]
  exact List.filterMap_eq_map_iff_forall_eq_some.mpr each

/-- A metric finds its own totals. -/
theorem lastTotal_totalMetrics {f : Family} (clean : f.Clean) (composite : hasTotals f.kind = true)
    {total : Total} {m : Metric} (there : m ∈ f.reread.metrics) :
    lastTotal m.labels (totalMetrics total f.reread) = m.value.total? total := by
  obtain ⟨x, given⟩ := Value.total?_of_composite (clean.kind_of_mem there ▸ composite) total
  have among : (⟨m.labels, .untyped x⟩ : Metric) ∈ totalMetrics total f.reread :=
    List.mem_filterMap.mpr ⟨m, there, by simp [given]⟩
  have distinct : ((totalMetrics total f.reread).map (·.labels)).Nodup := by
    rw [labels_totalMetrics clean composite]
    exact clean.nodup_labels composite
  exact (lastTotal_of_nodup distinct among).trans given.symm

section Names

variable {families : List Family} (clean : Clean families) {f : Family} (there : f ∈ families)
include clean there

/-- Under the name of a family stand its own samples. -/
theorem metricsUnder_name :
    metricsUnder f.name (families.flatMap (·.reread.scalars)) =
      if hasTotals f.kind then [] else f.reread.metrics := by
  have own := clean.each f there
  rw [metricsUnder_flatMap clean.names there]
  · cases composite : hasTotals f.kind with
    | true =>
        refine metricsUnder_of_ne fun p member equal => ?_
        rcases name_of_mem_scalars own member with ⟨scalar, -⟩ | ⟨-, total, name⟩
        · rw [composite] at scalar
          cases scalar
        · exact Total.append_ending_ne f.name total (name.symm.trans equal)
    | false =>
        have scalars : f.reread.scalars = f.reread.metrics.map fun m => (f.name, m) := by
          rw [Family.scalars, List.map_eq_flatMap]
          refine List.flatMap_congr fun m member => ?_
          have kind : m.value.kind = f.kind := own.kind_of_mem member
          rw [Metric.scalars, kind, composite]
          rfl
        rw [scalars, metricsUnder_of_eq (by simp), List.map_map]
        simp
  · intro g member different p among equal
    rcases name_of_mem_scalars (clean.each g member) among with ⟨-, name⟩ | ⟨composite, total, name⟩
    · exact different (name.symm.trans equal)
    · exact (clean.apart g member composite f there).2 total (equal.symm.trans name)

/-- Under the name of a total stand the totals of one family. -/
theorem metricsUnder_total (composite : hasTotals f.kind = true) (total : Total) :
    metricsUnder (f.name ++ total.ending) (families.flatMap (·.reread.scalars)) =
      totalMetrics total f.reread := by
  have own := clean.each f there
  rw [metricsUnder_flatMap clean.names there]
  · rw [Family.scalars, metricsUnder, List.filter_flatMap, List.map_flatMap, totalMetrics,
      List.filterMap_eq_flatMap_toList]
    refine List.flatMap_congr fun m member => ?_
    have kind : m.value.kind = f.kind := own.kind_of_mem member
    have apart : ∀ other : Total, other ≠ total → f.name ++ other.ending ≠ f.name ++ total.ending :=
      fun other different equal => different (Total.append_ending_inj equal).2
    have composite' : hasTotals m.value.kind = true := kind ▸ composite
    obtain ⟨sum, given⟩ := Value.total?_of_composite composite' .sum
    obtain ⟨count, given'⟩ := Value.total?_of_composite composite' .count
    rw [Metric.scalars, kind, composite]
    cases total with
    | sum => simp [Metric.totals, Family.reread, given, given', apart .count (by decide)]
    | count => simp [Metric.totals, Family.reread, given, given', apart .sum (by decide)]
  · intro g member different p among equal
    rcases name_of_mem_scalars (clean.each g member) among with ⟨-, name⟩ | ⟨-, total', name⟩
    · exact (clean.apart f there composite g member).2 total (name.symm.trans equal)
    · exact different (Total.append_ending_inj (name.symm.trans equal)).1

/-- Under the name of a family stand the metrics of its groups. -/
theorem metricsUnder_groups {gs : List Group}
    (perm : gs.Perm (families.flatMap (·.reread.groups))) :
    (metricsUnder f.name (gs.map fun g => (g.title, metricOf g))).Perm
      (f.reread.groups.map metricOf) := by
  have own : metricsUnder f.name
      ((families.flatMap (·.reread.groups)).map fun g => (g.title, metricOf g)) =
        f.reread.groups.map metricOf := by
    rw [List.map_flatMap, metricsUnder_flatMap clean.names there, metricsUnder_of_eq, List.map_map]
    · rfl
    · intro p member
      obtain ⟨g, among, rfl⟩ := List.mem_map.mp member
      exact (Transcript.name_of_mem_groups (clean.each f there) among).2.2
    · intro g member different p under equal
      obtain ⟨g', among, rfl⟩ := List.mem_map.mp under
      have title := (Transcript.name_of_mem_groups (clean.each g member) among).2.2
      exact different (title.symm.trans equal)
  rw [← own]
  exact ((perm.map _).filter _).map _

/-- No group stands under the name of a total. -/
theorem metricsUnder_groups_total (composite : hasTotals f.kind = true) (total : Total)
    {gs : List Group} (perm : gs.Perm (families.flatMap (·.reread.groups))) :
    metricsUnder (f.name ++ total.ending) (gs.map fun g => (g.title, metricOf g)) = [] := by
  refine metricsUnder_of_ne fun p member equal => ?_
  obtain ⟨g', among, rfl⟩ := List.mem_map.mp member
  obtain ⟨g, member, among⟩ := List.mem_flatMap.mp (perm.mem_iff.mp among)
  have title := (Transcript.name_of_mem_groups (clean.each g member) among).2.2
  exact (clean.apart f there composite g member).2 total (title.symm.trans equal)

end Names

/-! ## Gathering what was written -/

/-- What is read of what is written of some families. -/
def transcriptOf (families : List Family) : Transcript :=
  Transcript.ofLines (Text.lines (exposition families))

theorem find?_name {families : List Family} (names : (families.map (·.name)).Nodup) {f : Family}
    (there : f ∈ families) : families.find? (·.name = f.name) = some f := by
  induction families with
  | nil => cases there
  | cons g families ih =>
      obtain ⟨new, names⟩ := List.nodup_cons.mp names
      rcases List.mem_cons.mp there with rfl | there
      · simp
      · have other : g.name ≠ f.name := fun equal => new (List.mem_map.mpr ⟨f, there, equal.symm⟩)
        simp [other, ih names there]

theorem looseBucket?_of_noBound {m : Metric} (absent : m.labels.get? Bucket.label = none)
    (name : String) : looseBucket? name m = none := by
  rw [looseBucket?]
  split
  · split
    · simp [absent]
    · rfl
  · rfl

theorem noBound_of_mem_scalars {f : Family} (clean : f.Clean) {p : String × Metric}
    (there : p ∈ f.reread.scalars) : p.2.labels.get? Bucket.label = none := by
  obtain ⟨m, member, there⟩ := List.mem_flatMap.mp there
  obtain ⟨m', member', rfl⟩ := List.mem_map.mp member
  have absent := (clean.metrics m' member').noBound
  rw [Metric.scalars] at there
  split at there
  · obtain ⟨total, -, there⟩ := List.mem_filterMap.mp there
    obtain ⟨x, -, rfl⟩ := Option.map_eq_some_iff.mp there
    exact absent
  · rw [List.mem_singleton.mp there]
    exact absent

/-- The metrics of the groups, one for each metric. -/
theorem map_metricOf_groups {f : Family} (clean : f.Clean) (composite : hasTotals f.kind = true) :
    f.reread.groups.map metricOf = f.reread.metrics.map fun m => metricOf (m.group f.name) := by
  have groups : f.reread.groups = f.reread.metrics.map fun m => m.group f.name := by
    rw [Family.groups, List.map_eq_flatMap]
    refine List.flatMap_congr fun m member => ?_
    rw [Metric.groups, clean.kind_of_mem member, composite]
    rfl
  rw [groups, List.map_map]
  rfl

theorem kind_metricOf {m : Metric} (composite : hasTotals m.value.kind = true) (name : String) :
    (metricOf (m.group name)).value.kind = m.value.kind := by
  obtain ⟨labels, value⟩ := m
  cases value with
  | histogram d => rfl
  | summary d => rfl
  | _ => cases composite

section Gather

variable {families : List Family} (clean : Clean families)
include clean

theorem transcriptOf_eq :
    (transcriptOf families).metrics.reverse = families.flatMap (·.reread.scalars) ∧
      (transcriptOf families).groups = families.flatMap (·.reread.groups) ∧
        ∀ f ∈ families, (transcriptOf families).helps.get? f.name = f.help := by
  have ready : ∀ f ∈ families, Transcript.empty.Ready f := fun f _ => ⟨fun _ _ => rfl, nofun⟩
  obtain ⟨metrics, groups, helps⟩ := Transcript.foldl_add_families clean ready
  rw [transcriptOf, ofLines_exposition clean.plain]
  refine ⟨?_, ?_, fun f there => ?_⟩
  · rw [metrics]
    simp [Transcript.empty]
  · rw [groups]
    simp [Transcript.empty]
  · rw [helps, find?_name clean.names there]
    simp [Transcript.empty]

variable {order : VisitOrder} (fair : order.Fair)
include fair

theorem gathered_written :
    ∃ gs : List Group, gs.Perm (families.flatMap (·.reread.groups)) ∧
      gathered order (transcriptOf families) =
        families.flatMap (·.reread.scalars) ++ gs.map fun g => (g.title, metricOf g) := by
  obtain ⟨metrics, groups, -⟩ := transcriptOf_eq clean
  have none_ : ∀ p ∈ families.flatMap (·.reread.scalars), looseBucket? p.1 p.2 = none := by
    intro p there
    obtain ⟨f, member, there⟩ := List.mem_flatMap.mp there
    exact looseBucket?_of_noBound (noBound_of_mem_scalars (clean.each f member) there) p.1
  have loose : looseBuckets (families.flatMap (·.reread.scalars)) = [] := by
    rw [looseBuckets, List.filterMap_eq_nil_iff.mpr none_]
    rfl
  have own : (families.flatMap (·.reread.scalars)).filter (fun s => (looseBucket? s.1 s.2).isNone) =
      families.flatMap (·.reread.scalars) :=
    List.filter_eq_self.mpr fun p there => by simp [none_ p there]
  refine ⟨order.groups (families.flatMap (·.reread.groups)), fair.groups _, ?_⟩
  rw [gathered, ownMetrics, metrics, groups, loose, (fair.loose []).eq_nil, own]
  simp

variable {f : Family} (there : f ∈ families)
include there

theorem get?_gather_scalar (scalar : hasTotals f.kind = false) :
    (gather order (transcriptOf families)).get? f.name = some f.reread := by
  have own := clean.each f there
  obtain ⟨gs, perm, all⟩ := gathered_written clean fair
  have none_ : f.reread.groups = [] := by
    rw [List.eq_nil_iff_forall_not_mem]
    intro g member
    have composite := (Transcript.name_of_mem_groups own member).1
    rw [scalar] at composite
    cases composite
  have groups := metricsUnder_groups clean there perm
  rw [none_, List.map_nil, List.perm_nil] at groups
  rw [get?_gather, all, metricsUnder_append, metricsUnder_name clean there, scalar, groups,
    (transcriptOf_eq clean).2.2 f there]
  simp only [Bool.false_eq_true, if_false, List.append_nil]
  exact familyOf_of_kind _ _ (by simpa [Family.reread] using own.nonempty) fun m => own.kind_of_mem

theorem get?_gather_composite (composite : hasTotals f.kind = true) :
    ∃ ms : List Metric, ms.Perm (f.reread.groups.map metricOf) ∧
      (gather order (transcriptOf families)).get? f.name = some { f with metrics := ms } := by
  have own := clean.each f there
  obtain ⟨gs, perm, all⟩ := gathered_written clean fair
  have groups := metricsUnder_groups clean there perm
  refine ⟨_, groups, ?_⟩
  rw [get?_gather, all, metricsUnder_append, metricsUnder_name clean there, composite,
    (transcriptOf_eq clean).2.2 f there]
  simp only [if_true, List.nil_append]
  rw [map_metricOf_groups own composite] at groups
  refine familyOf_of_kind _ _ (fun empty => ?_) fun m member => ?_
  · rw [empty, List.nil_perm, List.map_eq_nil_iff] at groups
    exact own.nonempty (List.map_eq_nil_iff.mp groups)
  · obtain ⟨m', among, rfl⟩ := List.mem_map.mp (groups.mem_iff.mp member)
    have kind := own.kind_of_mem among
    rw [kind_metricOf (kind ▸ composite), kind]

/-- Under the name of a total its family is gathered, and no metric of a group. -/
theorem get?_gather_total (composite : hasTotals f.kind = true) (total : Total) :
    ∃ help, (gather order (transcriptOf families)).get? (f.name ++ total.ending) =
      some ⟨f.name ++ total.ending, help, .untyped, totalMetrics total f.reread⟩ := by
  have own := clean.each f there
  obtain ⟨gs, perm, all⟩ := gathered_written clean fair
  rw [get?_gather, all, metricsUnder_append, metricsUnder_total clean there composite,
    metricsUnder_groups_total clean there composite total perm, List.append_nil]
  refine ⟨_, familyOf_of_kind _ _ (fun empty => ?_) fun m member => ?_⟩
  · have labels := labels_totalMetrics own composite total
    rw [empty, List.map_nil, eq_comm, List.map_eq_nil_iff, Family.reread,
      List.map_eq_nil_iff] at labels
    exact own.nonempty labels
  · obtain ⟨m', -, given⟩ := List.mem_filterMap.mp member
    obtain ⟨x, -, rfl⟩ := Option.map_eq_some_iff.mp given
    rfl

theorem samplesOf_total (composite : hasTotals f.kind = true) (total : Total) :
    samplesOf (gather order (transcriptOf families)) (f.name ++ total.ending) =
      totalMetrics total f.reread := by
  obtain ⟨help, found⟩ := get?_gather_total clean fair there composite total
  rw [samplesOf, found]
  rfl

omit there in
/-- Nothing is gathered under other names. -/
theorem name_of_gather {name : String} {g : Family}
    (found : (gather order (transcriptOf families)).get? name = some g) :
    ∃ f ∈ families, name = f.name ∨
      (hasTotals f.kind = true ∧ ∃ total : Total, name = f.name ++ total.ending) := by
  obtain ⟨gs, perm, all⟩ := gathered_written clean fair
  rw [get?_gather] at found
  obtain ⟨p, member, rfl⟩ : ∃ p ∈ gathered order (transcriptOf families), p.1 = name := by
    by_contra absent
    rw [metricsUnder_of_ne fun p member equal => absent ⟨p, member, equal⟩] at found
    cases found
  rw [all, List.mem_append, List.mem_flatMap, List.mem_map] at member
  rcases member with ⟨f, there, among⟩ | ⟨g', among, rfl⟩
  · rcases name_of_mem_scalars (clean.each f there) among with ⟨-, name⟩ | ⟨composite, name⟩
    · exact ⟨f, there, .inl name⟩
    · exact ⟨f, there, .inr ⟨composite, name⟩⟩
  · obtain ⟨f, there, among⟩ := List.mem_flatMap.mp (perm.mem_iff.mp among)
    exact ⟨f, there, .inl (Transcript.name_of_mem_groups (clean.each f there) among).2.2⟩

/-! ## Settling what was gathered -/

/-- The metrics of histograms and summaries have their totals again. -/
theorem settled_composite (composite : hasTotals f.kind = true) {ms : List Metric}
    (perm : ms.Perm (f.reread.groups.map metricOf)) :
    ∃ whole : List Metric, whole.Perm f.reread.metrics ∧
      settled (gather order (transcriptOf families)) { f with metrics := ms } =
        some { f with metrics := whole } := by
  have own := clean.each f there
  have distinct := own.nodup_labels composite
  rw [map_metricOf_groups own composite] at perm
  have labels : (ms.map (·.labels)).Nodup := by
    have same := perm.map (·.labels)
    rw [List.map_map] at same
    exact same.nodup_iff.mpr distinct
  have whole : (f.reread.metrics.map fun m => metricOf (m.group f.name)).map (fun m =>
      withTotal .count (lastTotal m.labels (totalMetrics .count f.reread))
        (withTotal .sum (lastTotal m.labels (totalMetrics .sum f.reread)) m)) =
      f.reread.metrics := by
    rw [List.map_map]
    refine (List.map_congr_left fun m member => ?_).trans (List.map_id _)
    obtain ⟨m', original, rfl⟩ := List.mem_map.mp member
    change withTotal .count (lastTotal m'.reread.labels _)
      (withTotal .sum (lastTotal m'.reread.labels _) _) = m'.reread
    rw [lastTotal_totalMetrics own composite member, lastTotal_totalMetrics own composite member]
    exact withTotals_metricOf (own.metrics m' original)
      ((own.kinds m' original).symm ▸ composite) f.name
  refine ⟨_, (perm.map _).trans (List.Perm.of_eq whole), ?_⟩
  have labels' : ((ms.map fun m => withTotal .sum
      (lastTotal m.labels (totalMetrics .sum f.reread)) m).map (·.labels)).Nodup := by
    rw [List.map_map]
    simpa [Function.comp_def] using labels
  rw [settled, if_pos composite]
  simp only [settleAll, List.foldl_cons, List.foldl_nil, samplesOf_total clean fair there composite]
  rw [settle_of_nodup labels, settle_of_nodup labels', List.map_map]
  simp [Function.comp_def]

omit there in
/-- What has totals comes of a histogram or a summary. -/
theorem composite_of_gather {name : String} {g : Family}
    (found : (gather order (transcriptOf families)).get? name = some g)
    (composite : hasTotals g.kind = true) :
    ∃ f ∈ families, name = f.name ∧ hasTotals f.kind = true := by
  obtain ⟨f, there, rfl | ⟨kind, total, rfl⟩⟩ := name_of_gather clean fair found
  · cases kind : hasTotals f.kind with
    | true => exact ⟨f, there, rfl, kind⟩
    | false =>
        rw [get?_gather_scalar clean fair there kind] at found
        cases found
        exact absurd (kind.symm.trans composite) Bool.false_ne_true
  · obtain ⟨help, untyped⟩ := get?_gather_total clean fair there kind total
    rw [untyped] at found
    cases found
    cases composite

/-- No sample of another family is taken for a total. -/
theorem settled_scalar (scalar : hasTotals f.kind = false) :
    settled (gather order (transcriptOf families)) f.reread = some f.reread := by
  have own := clean.each f there
  rw [settled, if_neg (by simpa [Family.reread] using scalar)]
  refine without_of_none (by simpa [Family.reread] using own.nonempty) fun m _ => ?_
  rw [Bool.eq_false_iff, ne_eq, isTotal_iff (homogeneous_gather _ _)]
  rintro ⟨base, total, g, name, found, composite, -⟩
  obtain ⟨f', there', rfl, kind⟩ := composite_of_gather clean fair found composite
  exact (clean.apart f' there' kind f there).2 total name

/-- All totals belong to metrics. -/
theorem settled_total (composite : hasTotals f.kind = true) (total : Total) {g : Family}
    (found : (gather order (transcriptOf families)).get? (f.name ++ total.ending) = some g) :
    settled (gather order (transcriptOf families)) g = none := by
  have own := clean.each f there
  obtain ⟨help, gathered⟩ := get?_gather_total clean fair there composite total
  obtain ⟨ms, perm, base⟩ := get?_gather_composite clean fair there composite
  rw [gathered] at found
  cases found
  rw [settled, if_neg (by simp [hasTotals]), without]
  have all : (totalMetrics total f.reread).filter (fun t =>
      !isTotal (gather order (transcriptOf families)) (f.name ++ total.ending) t) = [] := by
    rw [List.filter_eq_nil_iff]
    intro t member
    rw [Bool.not_eq_true', Bool.not_eq_false, isTotal_iff (homogeneous_gather _ _)]
    refine ⟨f.name, total, _, rfl, base, composite, ?_⟩
    obtain ⟨m, metric, given⟩ := List.mem_filterMap.mp member
    obtain ⟨x, -, rfl⟩ := Option.map_eq_some_iff.mp given
    have among : metricOf (m.group f.name) ∈ ms := by
      rw [perm.mem_iff, map_metricOf_groups own composite]
      exact List.mem_map.mpr ⟨m, metric, rfl⟩
    rw [belongs, Bool.and_eq_true, List.any_eq_true]
    exact ⟨rfl, _, among, decide_eq_true rfl⟩
  simp only [all]
  rfl

end Gather

/-! ## Families read back -/

/-- Whether two families are the same, save for the order of histograms or summaries. -/
structure Same (f g : Family) : Prop where
  name : f.name = g.name
  help : f.help = g.help
  kind : f.kind = g.kind
  metrics : f.metrics.Perm g.metrics
  order : hasTotals g.kind = false → f.metrics = g.metrics

/-- Families by ascending name. -/
def byName (families : List Family) : List Family :=
  families.mergeSort fun f g => decide (f.name ≤ g.name)

/-- Families with ascending names are the same one by one if each is the same as some other. -/
theorem forall₂_same {families families' : List Family}
    (ascending : families.Pairwise fun f g => f.name < g.name)
    (ascending' : families'.Pairwise fun f g => f.name < g.name)
    (left : ∀ f ∈ families, ∃ g ∈ families', Same f g)
    (right : ∀ g ∈ families', ∃ f ∈ families, Same f g) :
    List.Forall₂ Same families families' := by
  induction families generalizing families' with
  | nil =>
      cases families' with
      | nil => exact .nil
      | cons g families' =>
          obtain ⟨f, there, -⟩ := right g List.mem_cons_self
          cases there
  | cons f families ih =>
      obtain ⟨first, ascending⟩ := List.pairwise_cons.mp ascending
      cases families' with
      | nil =>
          obtain ⟨g, there, -⟩ := left f List.mem_cons_self
          cases there
      | cons g families' =>
          obtain ⟨first', ascending'⟩ := List.pairwise_cons.mp ascending'
          -- The first of both are the same, since neither can be one of the later ones.
          have same : Same f g := by
            obtain ⟨g', there, same⟩ := left f List.mem_cons_self
            rcases List.mem_cons.mp there with rfl | there
            · exact same
            · obtain ⟨f', there', same'⟩ := right g List.mem_cons_self
              rcases List.mem_cons.mp there' with rfl | there'
              · exact same'
              · have above := first f' there'
                have below := first' g' there
                rw [same.name, same'.name] at above
                exact absurd (String.lt_trans above below) (String.lt_irrefl _)
          refine .cons same (ih ascending ascending' (fun f' there => ?_) fun g' there => ?_)
          · obtain ⟨g', member, same'⟩ := left f' (List.mem_cons_of_mem f there)
            rcases List.mem_cons.mp member with rfl | member
            · have above := first f' there
              rw [same'.name, ← same.name] at above
              exact absurd above (String.lt_irrefl _)
            · exact ⟨g', member, same'⟩
          · obtain ⟨f', member, same'⟩ := right g' (List.mem_cons_of_mem g there)
            rcases List.mem_cons.mp member with rfl | member
            · have above := first' g' there
              rw [← same'.name, same.name] at above
              exact absurd above (String.lt_irrefl _)
            · exact ⟨f', member, same'⟩

theorem byName_of_ascending {families : List Family}
    (ascending : families.Pairwise fun f g => f.name < g.name) : byName families = families := by
  refine List.mergeSort_of_pairwise (ascending.imp fun before => ?_)
  exact decide_eq_true
    (String.not_lt.mp fun after => String.lt_irrefl _ (String.lt_trans before after))

theorem ascending_byName {families : List Family} (names : (families.map (·.name)).Nodup) :
    (byName families).Pairwise fun f g => f.name < g.name := by
  have sorted : (byName families).Pairwise fun f g => decide (f.name ≤ g.name) = true := by
    refine List.pairwise_mergeSort (fun f g h before after => ?_) (fun f g => ?_) families
    · simp only [decide_eq_true_eq] at *
      exact String.le_trans before after
    · simpa using String.le_total f.name g.name
  have perm : (byName families).Perm families := List.mergeSort_perm _ _
  have distinct : (byName families).Pairwise fun f g => f.name ≠ g.name :=
    List.pairwise_map.mp ((perm.map Family.name).nodup_iff.mpr names)
  refine (sorted.and distinct).imp fun both => ?_
  exact Std.lt_of_le_of_ne (of_decide_eq_true both.1) both.2

section Read

variable {families : List Family} (clean : Clean families) {order : VisitOrder} (fair : order.Fair)
include clean fair

/-- Each family is read back. -/
theorem read_of_written {f : Family} (there : f ∈ families) :
    ∃ g ∈ familiesOf order (transcriptOf families), Same g f.reread := by
  cases composite : hasTotals f.kind with
  | false =>
      refine ⟨f.reread, (mem_familiesOf_iff fair _).mpr ?_, rfl, rfl, rfl, .refl _, fun _ => rfl⟩
      exact ⟨f.name, f.reread, get?_gather_scalar clean fair there composite,
        settled_scalar clean fair there composite⟩
  | true =>
      obtain ⟨ms, perm, found⟩ := get?_gather_composite clean fair there composite
      obtain ⟨whole, perm', becomes⟩ := settled_composite clean fair there composite perm
      refine ⟨_, (mem_familiesOf_iff fair _).mpr ⟨f.name, _, found, becomes⟩, rfl, rfl, rfl, perm',
        ?_⟩
      intro scalar
      exact absurd (composite.symm.trans scalar) nofun

/-- Nothing else is read. -/
theorem written_of_read {g : Family} (there : g ∈ familiesOf order (transcriptOf families)) :
    ∃ f ∈ families, Same g f.reread := by
  obtain ⟨name, h, found, becomes⟩ := (mem_familiesOf_iff fair _).mp there
  obtain ⟨f, member, rfl | ⟨composite, total, rfl⟩⟩ := name_of_gather clean fair found
  · obtain ⟨g', there', same⟩ := read_of_written clean fair member
    have own : g.name = f.name :=
      (name_of_settled becomes).trans ((homogeneous_gather _ _).named found)
    have names : ((familiesOf order (transcriptOf families)).map (·.name)).Nodup :=
      (names_familiesOf fair _).imp String.ne_of_lt
    rw [List.inj_on_of_nodup_map names there there' (own.trans same.name.symm)]
    exact ⟨f, member, same⟩
  · rw [settled_total clean fair member composite total found] at becomes
    cases becomes

omit fair in
/-- What is written of clean families is an exposition. -/
theorem readIn_exposition :
    readIn order (exposition families) = .ok (familiesOf order (transcriptOf families)) := by
  have valid := firstInvalid?_exposition fun line there => (clean.plain line there).named
  have told : ((transcriptOf families).isEmpty &&
      (Text.lines (exposition families)).any mustBeSample) = false := by
    cases families with
    | nil => rfl
    | cons f families =>
        have some_ : (transcriptOf (f :: families)).metrics.reverse ≠ [] := by
          rw [(transcriptOf_eq clean).1, List.flatMap_cons]
          exact fun empty => scalars_ne_nil (clean.each f List.mem_cons_self)
            (List.append_eq_nil_iff.mp empty).1
        rw [Transcript.isEmpty, List.isEmpty_eq_false_iff.mpr (by simpa using some_)]
        rfl
  rw [readIn]
  dsimp only
  rw [valid]
  dsimp only
  rw [← transcriptOf, told]
  rfl

/-- Clean families are read back from what is written of them, by ascending name.  Histograms have
the bucket for plus infinity then, and what is not a number has lost its sign. -/
theorem read_exposition :
    ∃ found, readIn order (exposition families) = .ok found ∧
      List.Forall₂ Same (byName found) (byName (families.map Family.reread)) := by
  refine ⟨_, readIn_exposition clean, ?_⟩
  have ascending := List.pairwise_map.mp (names_familiesOf fair (transcriptOf families))
  have names : ((families.map Family.reread).map (·.name)).Nodup := by
    rw [List.map_map]
    exact clean.names
  have perm : (byName (families.map Family.reread)).Perm (families.map Family.reread) :=
    List.mergeSort_perm _ _
  rw [byName_of_ascending ascending]
  refine forall₂_same ascending (ascending_byName names) (fun g there => ?_) fun g there => ?_
  · obtain ⟨f, member, same⟩ := written_of_read clean fair there
    exact ⟨_, perm.mem_iff.mpr (List.mem_map_of_mem member), same⟩
  · obtain ⟨f, member, rfl⟩ := List.mem_map.mp (perm.mem_iff.mp there)
    exact read_of_written clean fair member

end Read

/-- A gauge, a histogram and a summary. -/
def threeFamilies : List Family :=
  [⟨"up", none, .gauge, [⟨.ofList [("job", "api server")], .gauge (.ofNat 1)⟩]⟩,
    ⟨"latency", some "Time taken.", .histogram,
      [⟨.empty, .histogram ⟨[⟨.ofNat 1, .ofNat 2⟩], .ofNat 3, .ofNat 5⟩⟩]⟩,
    ⟨"size", none, .summary, [⟨.empty, .summary ⟨[⟨.ofNat 1, .ofNat 7⟩], .ofNat 3, .nan true⟩⟩]⟩]

theorem read_threeFamilies :
    Clean threeFamilies ∧ (⟨List.reverse, id, List.reverse⟩ : VisitOrder).Fair ∧
      ∃ found, readIn ⟨List.reverse, id, List.reverse⟩ (exposition threeFamilies) = .ok found ∧
        List.Forall₂ Same (byName found) (byName (threeFamilies.map Family.reread)) := by
  have fair : (⟨List.reverse, id, List.reverse⟩ : VisitOrder).Fair :=
    ⟨List.reverse_perm, List.Perm.refl, List.reverse_perm⟩
  have clean : Clean threeFamilies := by decide +kernel
  exact ⟨clean, fair, read_exposition clean fair⟩

end Exposition

end Telemetry
