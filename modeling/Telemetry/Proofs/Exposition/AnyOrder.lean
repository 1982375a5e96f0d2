import Telemetry.Proofs.Exposition.Reordered

/-!
# Reading in any order

A reader keeps families, loose buckets and the names of histograms and summaries in
maps, and visits each of these in whatever order it comes in.  Two readings of one
exposition agree all the same (`agree_in_any_order`): both refuse it for the same
reason, or both give the same families.  Nothing but the order of the families may
differ, and in a family the order of the histograms that were made of loose buckets.

This is followed step by step.

* No two of the loose buckets have both the same name and the same labels
  (`looseBuckets_nodup`).  So the histograms that are made of them for one name have
  different labels, and they come last in their family, if that is a histogram at all.
* A total goes to the first metric of its labels.  That is a metric in front of the
  histograms of loose buckets, or it is the only one among these, so it is the same in
  either order (`SameButLoose.settle`).
* So the metrics are only put in another order, which is kept when totals are moved
  (`reorders_agreeOn`).
-/

namespace Telemetry

namespace Exposition

/-! ## Loose buckets -/

/-- What loose buckets are kept under. -/
def LooseBuckets.key (l : LooseBuckets) : String × Labels := (l.name, l.labels)

theorem keys_addLoose (name : String) (labels : Labels) (point : Double × Double)
    (ls : List LooseBuckets) :
    (addLoose name labels point ls).map (·.key) =
      if (name, labels) ∈ ls.map (·.key) then ls.map (·.key)
      else ls.map (·.key) ++ [(name, labels)] := by
  induction ls with
  | nil => rfl
  | cons l ls ih =>
      rw [addLoose]
      split
      next same =>
        have own : (name, labels) = l.key := Prod.ext same.1.symm same.2.symm
        rw [if_pos (by simp [own])]
        rfl
      next different =>
        have other : (name, labels) ≠ l.key := fun own =>
          different ⟨(congrArg Prod.fst own).symm, (congrArg Prod.snd own).symm⟩
        simp only [List.map_cons, ih, List.mem_cons, other, false_or]
        split <;> rfl

/-- No two of the loose buckets have the same name and the same labels. -/
theorem looseBuckets_nodup (samples : List (String × Metric)) :
    ((looseBuckets samples).map (·.key)).Nodup := by
  rw [looseBuckets]
  generalize samples.filterMap (fun s => looseBucket? s.1 s.2) = found
  induction found using List.reverseRecOn with
  | nil => exact List.nodup_nil
  | append_singleton found last ih =>
      rw [List.foldl_append, List.foldl_cons, List.foldl_nil, keys_addLoose]
      split
      · exact ih
      next new => exact ih.append (List.nodup_singleton _) (by simpa using new)

/-- The histogram of some loose buckets. -/
def LooseBuckets.metric (l : LooseBuckets) : Metric := ⟨l.labels, histogramOf l.points⟩

/-- The histograms of the loose buckets of a name. -/
def looseMetrics (name : String) (loose : List LooseBuckets) : List Metric :=
  (loose.filter (·.name = name)).map (·.metric)

theorem looseMetrics_perm (name : String) {loose loose' : List LooseBuckets}
    (perm : loose.Perm loose') : (looseMetrics name loose).Perm (looseMetrics name loose') :=
  (perm.filter _).map _

theorem kind_of_mem_looseMetrics {name : String} {loose : List LooseBuckets} {m : Metric}
    (there : m ∈ looseMetrics name loose) : m.value.kind = .histogram := by
  obtain ⟨l, -, rfl⟩ := List.mem_map.mp there
  rfl

theorem labels_looseMetrics_nodup (name : String) {loose : List LooseBuckets}
    (distinct : (loose.map (·.key)).Nodup) :
    ((looseMetrics name loose).map (·.labels)).Nodup := by
  have keys : ((looseMetrics name loose).map (·.labels)).map (Prod.mk name) =
      (loose.filter (·.name = name)).map (·.key) := by
    rw [looseMetrics, List.map_map, List.map_map]
    refine List.map_congr_left fun l there => ?_
    rw [LooseBuckets.key, of_decide_eq_true (List.mem_filter.mp there).2]
    rfl
  exact List.Nodup.of_map _ (keys ▸ (List.filter_sublist.map _).nodup distinct)

/-- The histograms of loose buckets come after the other metrics of their name. -/
theorem metricsUnder_gathered (order : VisitOrder) (t : Transcript) (name : String) :
    metricsUnder name (gathered order t) =
      metricsUnder name (ownMetrics order t) ++
        looseMetrics name (order.loose (looseBuckets t.metrics.reverse)) := by
  rw [gathered, metricsUnder_append, metricsUnder, metricsUnder, looseMetrics, List.filter_map,
    List.map_map]
  rfl

/-! ## The same but for the order of loose buckets -/

/-- Whether a metric is the histogram of some loose buckets of a name, whatever its totals. -/
def IsLoose (loose : List LooseBuckets) (name : String) (m : Metric) : Prop :=
  ∃ l ∈ loose, l.name = name ∧ SameBut (fun _ => True) l.metric m

/-- Whether the metrics of a name are the same, in the same order but for those that come last:
these are histograms of loose buckets, and differ in their labels. -/
def SameButLoose (loose : List LooseBuckets) (name : String) (ms ms' : List Metric) : Prop :=
  ∃ own rest rest', ms = own ++ rest ∧ ms' = own ++ rest' ∧ rest.Perm rest' ∧
    (rest.map (·.labels)).Nodup ∧ ∀ m ∈ rest, IsLoose loose name m

/-- Whether families are the same but for the order of the histograms of loose buckets. -/
structure AgreeOn (loose : List LooseBuckets) (f f' : Family) : Prop where
  /-- They have the same name. -/
  name : f'.name = f.name
  /-- They tell the same in words. -/
  help : f'.help = f.help
  /-- They have the same kind. -/
  kind : f'.kind = f.kind
  /-- They have the same metrics. -/
  metrics : SameButLoose loose f.name f.metrics f'.metrics

section Metrics

variable {loose : List LooseBuckets} {name : String}

theorem SameButLoose.refl (ms : List Metric) : SameButLoose loose name ms ms :=
  ⟨ms, [], [], by simp, by simp, .nil, List.nodup_nil, nofun⟩

theorem SameButLoose.symm {ms ms' : List Metric} (same : SameButLoose loose name ms ms') :
    SameButLoose loose name ms' ms := by
  obtain ⟨own, rest, rest', equal, equal', perm, distinct, made⟩ := same
  exact ⟨own, rest', rest, equal', equal, perm.symm, (perm.map _).nodup_iff.mp distinct,
    fun m there => made m (perm.mem_iff.mpr there)⟩

theorem AgreeOn.symm {f f' : Family} (same : AgreeOn loose f f') : AgreeOn loose f' f :=
  ⟨same.name.symm, same.help.symm, same.kind.symm, same.name ▸ same.metrics.symm⟩

theorem SameButLoose.perm {ms ms' : List Metric} (same : SameButLoose loose name ms ms') :
    ms.Perm ms' := by
  obtain ⟨own, rest, rest', rfl, rfl, perm, -⟩ := same
  exact perm.append_left own

/-- Metrics that are no histograms are in the same order. -/
theorem SameButLoose.eq_of_kind {ms ms' : List Metric} (same : SameButLoose loose name ms ms')
    (other : ∀ m ∈ ms, m.value.kind ≠ .histogram) : ms' = ms := by
  obtain ⟨own, rest, rest', rfl, rfl, perm, -, made⟩ := same
  cases rest with
  | nil => rw [List.nil_perm.mp perm]
  | cons m rest =>
      obtain ⟨l, -, -, same⟩ := made m List.mem_cons_self
      exact absurd same.kind (other m (by simp))

theorem IsLoose.withTotal {m : Metric} (made : IsLoose loose name m) (total : Total)
    (x : Option Double) : IsLoose loose name (withTotal total x m) := by
  obtain ⟨l, there, named, same⟩ := made
  have after := sameBut_withTotal total x m
  exact ⟨l, there, named, after.labels.trans same.labels, after.kind.trans same.kind,
    after.points.trans same.points, fun _ absurdly => absurd trivial absurdly⟩

/-- Totals are set in the same metrics, whatever the order of the histograms of loose buckets. -/
theorem SameButLoose.settle {ms ms' : List Metric} (same : SameButLoose loose name ms ms')
    (total : Total) (ts : List Metric) :
    SameButLoose loose name (settle total ts ms) (settle total ts ms') := by
  obtain ⟨own, rest, rest', rfl, rfl, perm, distinct, made⟩ := same
  have distinct' : (rest'.map (·.labels)).Nodup := (perm.map _).nodup_iff.mp distinct
  refine ⟨_, _, _, settle_append total own rest ts, settle_append total own rest' ts, ?_, ?_, ?_⟩
  · rw [settle_of_nodup distinct, settle_of_nodup distinct']
    exact perm.map _
  · rw [settle_of_nodup distinct, List.map_map]
    simpa [Function.comp_def] using distinct
  · rw [settle_of_nodup distinct]
    intro m there
    obtain ⟨m', among, rfl⟩ := List.mem_map.mp there
    exact (made m' among).withTotal total _

end Metrics

/-- Families that are the same but for the order of loose buckets stay so when totals are set. -/
theorem reorders_agreeOn (loose : List LooseBuckets) : Reorders (AgreeOn loose) where
  refl _ := ⟨rfl, rfl, rfl, .refl _⟩
  symm := AgreeOn.symm
  name same := same.name
  help same := same.help
  kind same := same.kind
  perm same := same.metrics.perm
  scalar := by
    intro f f' same scalar kinds
    refine same.metrics.eq_of_kind fun m there histogram => ?_
    rw [← kinds m there, histogram] at scalar
    cases scalar
  settle same total ts := ⟨same.name, same.help, same.kind, same.metrics.settle total ts⟩

/-! ## Gathered families -/

/-- Metrics of a name make the same family, if those that come last are histograms of loose
buckets. -/
theorem agreeOn_familyOf {loose visited visited' : List LooseBuckets}
    (distinct : (loose.map (·.key)).Nodup) (perm : visited.Perm loose)
    (perm' : visited'.Perm loose) (help : Option String) (name : String) (own : List Metric) :
    Option.Rel (AgreeOn loose) (familyOf help name (own ++ looseMetrics name visited))
      (familyOf help name (own ++ looseMetrics name visited')) := by
  have rests := looseMetrics_perm name (perm.trans perm'.symm)
  have labels : ((looseMetrics name visited).map (·.labels)).Nodup :=
    labels_looseMetrics_nodup name ((perm.map _).nodup_iff.mpr distinct)
  have made : ∀ m ∈ looseMetrics name visited, IsLoose loose name m := by
    intro m there
    obtain ⟨l, among, rfl⟩ := List.mem_map.mp there
    obtain ⟨among, named⟩ := List.mem_filter.mp among
    exact ⟨l, perm.mem_iff.mp among, of_decide_eq_true named, rfl, rfl, rfl, fun _ _ => rfl⟩
  cases own with
  | cons m own =>
      simp only [List.cons_append, familyOf, List.filter_append]
      refine .some ⟨rfl, rfl, rfl, m :: own.filter (·.value.kind = m.value.kind), _, _, rfl, rfl,
        rests.filter _, (List.filter_sublist.map _).nodup labels, fun m' there => ?_⟩
      exact made m' (List.mem_filter.mp there).1
  | nil =>
      rw [List.nil_append, List.nil_append]
      by_cases empty : looseMetrics name visited = []
      · rw [empty] at rests ⊢
        rw [List.nil_perm.mp rests]
        exact .none
      · have nonempty : looseMetrics name visited' ≠ [] := fun nil =>
          empty (List.perm_nil.mp (nil ▸ rests))
        rw [familyOf_of_kind help name empty fun _ => kind_of_mem_looseMetrics,
          familyOf_of_kind help name nonempty fun _ => kind_of_mem_looseMetrics]
        exact .some ⟨rfl, rfl, rfl, [], _, _, rfl, rfl, rests, labels, made⟩

theorem agreeEverywhere_gather (t : Transcript) (order order' : VisitOrder)
    (groups : order.groups = order'.groups) (perm : ∀ ls, (order.loose ls).Perm ls)
    (perm' : ∀ ls, (order'.loose ls).Perm ls) :
    AgreeEverywhere (AgreeOn (looseBuckets t.metrics.reverse)) (gather order t)
      (gather order' t) := by
  intro name
  have own : ownMetrics order t = ownMetrics order' t := by rw [ownMetrics, ownMetrics, groups]
  rw [get?_gather, get?_gather, metricsUnder_gathered, metricsUnder_gathered, own]
  exact agreeOn_familyOf (looseBuckets_nodup _) (perm _) (perm' _) _ _ _

/-! ## Readings -/

/-- The orders in which a reader visits its maps. -/
structure MapOrder where
  /-- The order of loose buckets. -/
  loose : List LooseBuckets → List LooseBuckets
  /-- The order of the names of histograms and summaries. -/
  bases : List String → List String
  /-- The order of families. -/
  families : List Family → List Family

/-- Whether maps are visited as a whole, each entry once. -/
structure MapOrder.Fair (order : MapOrder) : Prop where
  loose : ∀ ls, (order.loose ls).Perm ls
  bases : ∀ names, (order.bases names).Perm names
  families : ∀ fs, (order.families fs).Perm fs

/-- The families of an exposition whose groups are visited in some order, and the maps in others. -/
def readBy (groups : List Group → List Group) (order : MapOrder) (body : List Char) :
    Except ReadError (List Family) :=
  (readIn ⟨groups, order.loose, order.bases⟩ body).map order.families

/-- Whether two readings agree: they are one error, or the same families but for their order and
for the order of the histograms of loose buckets in each. -/
inductive ReadingsAgree (loose : List LooseBuckets) :
    Except ReadError (List Family) → Except ReadError (List Family) → Prop
  /-- The exposition is refused. -/
  | refused (error : ReadError) : ReadingsAgree loose (.error error) (.error error)
  /-- Each family is found in either reading. -/
  | read {families families' matching : List Family} (perm : matching.Perm families')
      (same : List.Forall₂ (AgreeOn loose) families matching) :
      ReadingsAgree loose (.ok families) (.ok families')

theorem forall₂_familiesOf (groups : List Group → List Group) {order order' : MapOrder}
    (fair : order.Fair) (fair' : order'.Fair) (t : Transcript) :
    List.Forall₂ (AgreeOn (looseBuckets t.metrics.reverse))
      (familiesOf ⟨groups, order.loose, order.bases⟩ t)
      (familiesOf ⟨groups, order'.loose, order'.bases⟩ t) := by
  exact forall₂_familiesOf_of_gather (reorders_agreeOn _)
    (agreeEverywhere_gather t ⟨groups, order.loose, order.bases⟩
      ⟨groups, order'.loose, order'.bases⟩ rfl fair.loose fair'.loose) fair.bases fair'.bases

/-- The loose buckets of an exposition. -/
def looseBucketsOf (body : List Char) : List LooseBuckets :=
  looseBuckets (Transcript.ofLines (Text.lines body)).metrics.reverse

/-- In whatever orders two readers of an exposition visit their maps, they agree. -/
theorem agree_in_any_order (groups : List Group → List Group) {order order' : MapOrder}
    (fair : order.Fair) (fair' : order'.Fair) (body : List Char) :
    ReadingsAgree (looseBucketsOf body) (readBy groups order body) (readBy groups order' body) := by
  rw [readBy, readBy, readIn, readIn]
  split
  next => exact .refused _
  next =>
    dsimp only
    split
    next => exact .refused _
    next =>
      have same := forall₂_familiesOf groups fair fair' (Transcript.ofLines (Text.lines body))
      obtain ⟨matching, related, perm⟩ := List.perm_comp_forall₂ (fair.families _) same
      exact .read (perm.trans (fair'.families _).symm) related

/-- Every map in the order it is kept in. -/
def MapOrder.kept : MapOrder := ⟨id, id, id⟩

/-- Every map the other way round. -/
def MapOrder.backwards : MapOrder := ⟨List.reverse, List.reverse, List.reverse⟩

/-- Histograms that nothing is declared of, one of which is named like the sum of another. -/
def undeclared : String :=
  "x_bucket\x7ble=\"1\"\x7d 2\nx_sum_bucket\x7ble=\"1\"\x7d 3\nx_count 7\nx_sum_sum 4\n" ++
    "y_bucket\x7bjob=\"a\",le=\"1\"\x7d 1\ny_bucket\x7bjob=\"b\",le=\"1\"\x7d 2\ny_sum\x7bjob=\"b\"\x7d 9\n"

/-- They are read alike in either order, if not in one order. -/
theorem agree_undeclared :
    MapOrder.kept.Fair ∧ MapOrder.backwards.Fair ∧
      ReadingsAgree (looseBucketsOf undeclared.toList) (readBy id .kept undeclared.toList)
        (readBy id .backwards undeclared.toList) ∧
      (readBy id .kept undeclared.toList).map (·.map (·.name)) = .ok ["x", "x_sum", "y"] ∧
      readBy id .kept undeclared.toList ≠ readBy id .backwards undeclared.toList := by
  have kept : MapOrder.kept.Fair := ⟨.refl, .refl, .refl⟩
  have backwards : MapOrder.backwards.Fair :=
    ⟨List.reverse_perm, List.reverse_perm, List.reverse_perm⟩
  refine ⟨kept, backwards, agree_in_any_order id kept backwards _, ?_, ?_⟩
  · decide +kernel
  · decide +kernel

/-- A name that is declared twice has two groups, and the first one gives the kind of its
family. -/
def twiceDeclared : String :=
  "# TYPE x histogram\nx_bucket\x7ble=\"1\"\x7d 2\n# TYPE x summary\nx\x7bquantile=\"0.5\"\x7d 3\n"

example : readBy id .kept twiceDeclared.toList ≠ readBy List.reverse .kept twiceDeclared.toList := by
  decide +kernel

end Exposition

end Telemetry
