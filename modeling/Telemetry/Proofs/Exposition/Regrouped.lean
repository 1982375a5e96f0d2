import Telemetry.Proofs.Exposition.AnyOrder
import Telemetry.Proofs.Merging.Reordered

/-!
# Reading groups in another order

The groups of an exposition are kept in a map as well, and two readings may visit them in
different orders.  A name that has groups of both kinds then has the kind of whichever is
visited first, unless a plain sample comes before all groups.  If the readings take these
names alike (`SameKinds`), their families are the same but for the order of histograms and
of summaries in each, and otherwise they are not (`reordered_familiesOf_iff`).  They do if
both visit groups in one order, and if there are no such names (`sameKinds_of_oneKind`).

The metrics of a name come in parts: the plain samples, then the groups, then the loose
buckets.  No two groups have the same name and the same labels (`groups_nodup`), so the
metrics of groups of one kind differ in their labels, as those of loose buckets do.  A part
in which labels differ may be put in any order before totals are moved to it
(`SameInParts.settle`).
-/

namespace Telemetry

/-! ## Groups -/

/-- What groups are kept under. -/
def Group.key (g : Group) : String × Labels := (g.name, g.labels)

namespace Transcript

theorem keys_addPoint (new : Group) (point : Double × Double) (gs : List Group) :
    (addPoint new point gs).map (·.key) =
      if new.key ∈ gs.map (·.key) then gs.map (·.key) else gs.map (·.key) ++ [new.key] := by
  induction gs with
  | nil => rfl
  | cons g gs ih =>
      rw [addPoint]
      split
      next same =>
        have own : new.key = g.key := Prod.ext same.1.symm same.2.symm
        rw [if_pos (by simp [own])]
        rfl
      next different =>
        have other : new.key ≠ g.key := fun own =>
          different ⟨(congrArg Prod.fst own).symm, (congrArg Prod.snd own).symm⟩
        simp only [List.map_cons, ih, List.mem_cons, other, false_or]
        split <;> rfl

theorem keys_addPoint_nodup {gs : List Group} (distinct : (gs.map (·.key)).Nodup) (new : Group)
    (point : Double × Double) : ((addPoint new point gs).map (·.key)).Nodup := by
  rw [keys_addPoint]
  split
  · exact distinct
  next fresh => exact distinct.append (List.nodup_singleton _) (by simpa using fresh)

theorem groups_nodup_add {t : Transcript} (distinct : (t.groups.map (·.key)).Nodup) (e : Entry) :
    ((t.add e).groups.map (·.key)).Nodup := by
  cases e with
  | help name text => exact distinct
  | type name kind => cases kind <;> exact distinct
  | sample name text number =>
      have takes := t.takes name text number
      generalize t.add (.sample name text number) = t' at takes
      cases takes with
      | nothing => exact distinct
      | scalar => exact distinct
      | point => exact keys_addPoint_nodup distinct _ _

/-- No two groups have the same name and the same labels. -/
theorem groups_nodup (lines : List (List Char)) : ((ofLines lines).groups.map (·.key)).Nodup := by
  rw [ofLines]
  induction lines.filterMap Entry.ofLine? using List.reverseRecOn with
  | nil => exact List.nodup_nil
  | append_singleton entries e ih =>
      rw [List.foldl_append, List.foldl_cons, List.foldl_nil]
      exact groups_nodup_add ih e

end Transcript

namespace Exposition

theorem hasTotals_groupKind (g : Group) : hasTotals g.kind = true := by
  rw [Group.kind]
  cases g.isSummary <;> rfl

/-- The metrics of the groups of a name. -/
def groupMetrics (name : String) (gs : List Group) : List Metric :=
  (gs.filter (·.title = name)).map metricOf

/-- The plain samples of a name. -/
def plainMetrics (t : Transcript) (name : String) : List Metric :=
  metricsUnder name (t.metrics.reverse.filter fun s => (looseBucket? s.1 s.2).isNone)

/-- The metrics of a name come in three parts. -/
theorem metricsUnder_gathered_parts (order : VisitOrder) (t : Transcript) (name : String) :
    metricsUnder name (gathered order t) = plainMetrics t name ++
      (groupMetrics name (order.groups t.groups) ++
        looseMetrics name (order.loose (looseBuckets t.metrics.reverse))) := by
  have groups : metricsUnder name ((order.groups t.groups).map fun g => (g.title, metricOf g)) =
      groupMetrics name (order.groups t.groups) := by
    rw [metricsUnder, List.filter_map, List.map_map]
    rfl
  rw [metricsUnder_gathered, ownMetrics, metricsUnder_append, groups, List.append_assoc]
  rfl

theorem filter_groupMetrics (name : String) (kind : Kind) (gs : List Group) :
    (groupMetrics name gs).filter (·.value.kind = kind) =
      (gs.filter fun g => g.title = name ∧ g.kind = kind).map metricOf := by
  rw [groupMetrics, List.filter_map, List.filter_filter]
  congr 1
  refine List.filter_congr fun g _ => ?_
  simp [(metricOf_eq g).2.1, Bool.and_comm]

/-- Groups of one name and one kind differ in their labels. -/
theorem labels_groupMetrics_nodup {t : Transcript} (titled : t.Titled)
    (distinct : (t.groups.map (·.key)).Nodup) {gs : List Group} (perm : gs.Perm t.groups)
    (name : String) (kind : Kind) :
    (((groupMetrics name gs).filter (·.value.kind = kind)).map (·.labels)).Nodup := by
  have keys : (((groupMetrics name gs).filter (·.value.kind = kind)).map (·.labels)).map
      (Prod.mk (kind.pointName name)) =
        (gs.filter fun g => g.title = name ∧ g.kind = kind).map (·.key) := by
    rw [filter_groupMetrics, List.map_map, List.map_map]
    refine List.map_congr_left fun g there => ?_
    obtain ⟨among, own⟩ := List.mem_filter.mp there
    obtain ⟨rfl, rfl⟩ := of_decide_eq_true own
    rw [Group.key, titled.groups g (perm.mem_iff.mp among), Function.comp_apply,
      Function.comp_apply, (metricOf_eq g).1]
  refine List.Nodup.of_map (Prod.mk (kind.pointName name)) ?_
  rw [keys]
  exact (List.filter_sublist.map _).nodup ((perm.map _).nodup_iff.mpr distinct)

/-! ## Parts in another order -/

/-- Whether metrics are the same part by part, in any order in a part whose labels differ. -/
inductive SameInParts : List Metric → List Metric → Prop
  /-- There are no parts. -/
  | nil : SameInParts [] []
  /-- There is one more part. -/
  | append {part part' ms ms' : List Metric} (perm : part.Perm part')
      (distinct : (part.map (·.labels)).Nodup) (rest : SameInParts ms ms') :
      SameInParts (part ++ ms) (part' ++ ms')

namespace SameInParts

/-- The same metrics may come before all parts. -/
theorem append_left (own : List Metric) {ms ms' : List Metric} (same : SameInParts ms ms') :
    SameInParts (own ++ ms) (own ++ ms') := by
  induction own with
  | nil => exact same
  | cons m own ih =>
      have one : SameInParts ([m] ++ (own ++ ms)) ([m] ++ (own ++ ms')) :=
        .append (.refl _) (List.nodup_singleton _) ih
      exact one

theorem refl (ms : List Metric) : SameInParts ms ms := by
  simpa using append_left ms .nil

/-- One part may be put in another order. -/
theorem of_perm {part part' : List Metric} (perm : part.Perm part')
    (distinct : (part.map (·.labels)).Nodup) : SameInParts part part' := by
  simpa using append perm distinct .nil

theorem symm {ms ms' : List Metric} (same : SameInParts ms ms') : SameInParts ms' ms := by
  induction same with
  | nil => exact .nil
  | append perm distinct _ ih => exact .append perm.symm ((perm.map _).nodup_iff.mp distinct) ih

theorem perm {ms ms' : List Metric} (same : SameInParts ms ms') : ms.Perm ms' := by
  induction same with
  | nil => exact .refl _
  | append perm _ _ ih => exact perm.append ih

/-- Totals are set in the same metrics of each part. -/
theorem settle {ms ms' : List Metric} (same : SameInParts ms ms') (total : Total)
    (ts : List Metric) : SameInParts (settle total ts ms) (settle total ts ms') := by
  induction same generalizing ts with
  | nil => exact .nil
  | @append part part' ms ms' perm distinct _ ih =>
      have distinct' : (part'.map (·.labels)).Nodup := (perm.map _).nodup_iff.mp distinct
      have left : ts.filter (·.labels ∉ part'.map (·.labels)) =
          ts.filter (·.labels ∉ part.map (·.labels)) :=
        List.filter_congr fun t _ => decide_eq_decide.mpr (not_congr (perm.map _).mem_iff.symm)
      rw [settle_append, settle_append, left, settle_of_nodup distinct, settle_of_nodup distinct']
      refine .append (perm.map _) ?_ (ih _)
      rw [List.map_map]
      simpa [Function.comp_def] using distinct

end SameInParts

/-- Whether families are the same but for the order of metrics in parts of them, which are
histograms or summaries. -/
structure Regrouped (f f' : Family) : Prop where
  /-- They have the same name. -/
  name : f'.name = f.name
  /-- They tell the same in words. -/
  help : f'.help = f.help
  /-- They have the same kind. -/
  kind : f'.kind = f.kind
  /-- They have the same metrics part by part. -/
  parts : SameInParts f.metrics f'.metrics
  /-- Metrics without totals are in the same order. -/
  scalar : hasTotals f.kind = false → f'.metrics = f.metrics

theorem Regrouped.symm {f f' : Family} (same : Regrouped f f') : Regrouped f' f where
  name := same.name.symm
  help := same.help.symm
  kind := same.kind.symm
  parts := same.parts.symm
  scalar scalar := (same.scalar (same.kind ▸ scalar)).symm

theorem Regrouped.reordered {f f' : Family} (same : Regrouped f f') : f.Reordered f' :=
  ⟨same.name, same.help, same.kind, same.parts.perm, same.scalar⟩

/-- Families that are the same in parts stay so when totals are set. -/
theorem reorders_regrouped : Reorders Regrouped where
  refl _ := ⟨rfl, rfl, rfl, .refl _, fun _ => rfl⟩
  symm := Regrouped.symm
  name same := same.name
  help same := same.help
  kind same := same.kind
  perm same := same.parts.perm
  scalar same scalar _ := same.scalar scalar
  settle {f f'} same total ts := by
    refine ⟨same.name, same.help, same.kind, same.parts.settle total ts, fun scalar => ?_⟩
    rw [same.scalar scalar]

/-! ## Kinds of names -/

/-- The kind of the group of a name that is visited first. -/
def groupKind? (order : VisitOrder) (t : Transcript) (name : String) : Option Kind :=
  ((order.groups t.groups).find? (·.title = name)).map (·.kind)

/-- Whether two orders visit a group of the same kind first for each name that has no plain
sample. -/
def SameKinds (order order' : VisitOrder) (t : Transcript) : Prop :=
  ∀ name, plainMetrics t name = [] → groupKind? order t name = groupKind? order' t name

section Orders

variable {order order' : VisitOrder} (fair : order.Fair) (fair' : order'.Fair) {t : Transcript}
include fair

theorem groupKind?_eq_none_iff {name : String} :
    groupKind? order t name = none ↔ ∀ g ∈ t.groups, g.title ≠ name := by
  rw [groupKind?, Option.map_eq_none_iff, List.find?_eq_none]
  simp [(fair.groups t.groups).mem_iff]

theorem exists_of_groupKind? {name : String} {kind : Kind}
    (first : groupKind? order t name = some kind) :
    ∃ g ∈ t.groups, g.title = name ∧ g.kind = kind := by
  obtain ⟨g, found, same⟩ := Option.map_eq_some_iff.mp first
  exact ⟨g, (fair.groups _).mem_iff.mp (List.mem_of_find?_eq_some found),
    by simpa using List.find?_some found, same⟩

include fair'

/-- A name that has the same kind in two orders wherever it has one in both has the same kind. -/
theorem groupKind?_congr {name : String}
    (alike : ∀ {kind kind'}, groupKind? order t name = some kind →
      groupKind? order' t name = some kind' → kind = kind') :
    groupKind? order t name = groupKind? order' t name := by
  cases first : groupKind? order t name with
  | none => exact ((groupKind?_eq_none_iff fair').mpr ((groupKind?_eq_none_iff fair).mp first)).symm
  | some kind =>
      cases first' : groupKind? order' t name with
      | none =>
          obtain ⟨g, there, named, -⟩ := exists_of_groupKind? fair first
          exact absurd named ((groupKind?_eq_none_iff fair').mp first' g there)
      | some kind' => rw [alike first first']

/-- Where no name is that of a histogram and of a summary, kinds are the same in all orders. -/
theorem sameKinds_of_oneKind
    (oneKind : ∀ g ∈ t.groups, ∀ g' ∈ t.groups, g.title = g'.title → g.kind = g'.kind) :
    SameKinds order order' t := by
  intro name _
  refine groupKind?_congr fair fair' fun {kind kind'} first first' => ?_
  obtain ⟨g, there, named, rfl⟩ := exists_of_groupKind? fair first
  obtain ⟨g', there', named', rfl⟩ := exists_of_groupKind? fair' first'
  exact oneKind g there g' there' (named.trans named'.symm)

end Orders

/-- The kind that the metrics of a name have at first. -/
theorem firstKind_append (plain groups loose : List Metric) :
    ((plain ++ (groups ++ loose)).head?).map (·.value.kind) =
      ((plain.head?).map (·.value.kind) <|> (groups.head?).map (·.value.kind) <|>
        (loose.head?).map (·.value.kind)) := by
  cases plain <;> cases groups <;> rfl

theorem firstKind_groupMetrics (order : VisitOrder) (t : Transcript) (name : String) :
    ((groupMetrics name (order.groups t.groups)).head?).map (·.value.kind) =
      groupKind? order t name := by
  rw [groupMetrics, List.head?_map, List.head?_filter, Option.map_map, groupKind?]
  congr 1
  funext g
  exact (metricOf_eq g).2.1

theorem firstKind_looseMetrics (name : String) {loose loose' : List LooseBuckets}
    (perm : loose.Perm loose') :
    ((looseMetrics name loose).head?).map (·.value.kind) =
      ((looseMetrics name loose').head?).map (·.value.kind) := by
  have kept := looseMetrics_perm name perm
  cases first : looseMetrics name loose with
  | nil =>
      rw [first] at kept
      rw [List.nil_perm.mp kept]
  | cons m ms =>
      cases first' : looseMetrics name loose' with
      | nil =>
          rw [first, first'] at kept
          exact absurd (List.perm_nil.mp kept) (List.cons_ne_nil _ _)
      | cons m' ms' =>
          have kind := kind_of_mem_looseMetrics (first ▸ List.mem_cons_self)
          have kind' := kind_of_mem_looseMetrics (first' ▸ List.mem_cons_self)
          exact congrArg some (kind.trans kind'.symm)

/-- Two orders give a name one kind at first if they visit a group of one kind first. -/
theorem firstKind_gathered {order order' : VisitOrder} {t : Transcript}
    (same : SameKinds order order' t) (perm : ∀ ls, (order.loose ls).Perm ls)
    (perm' : ∀ ls, (order'.loose ls).Perm ls) (name : String) :
    ((metricsUnder name (gathered order t)).head?).map (·.value.kind) =
      ((metricsUnder name (gathered order' t)).head?).map (·.value.kind) := by
  rw [metricsUnder_gathered_parts, metricsUnder_gathered_parts, firstKind_append, firstKind_append,
    firstKind_groupMetrics, firstKind_groupMetrics,
    firstKind_looseMetrics name ((perm _).trans (perm' _).symm)]
  cases plain : plainMetrics t name with
  | nil => rw [same name plain]
  | cons => rfl

/-! ## Families -/

/-- Metrics that are the same in parts make the same family in parts. -/
theorem regrouped_familyOf {ms ms' : List Metric}
    (kinds : (ms.head?).map (·.value.kind) = (ms'.head?).map (·.value.kind))
    (parts : ∀ kind, SameInParts (ms.filter (·.value.kind = kind))
      (ms'.filter (·.value.kind = kind)))
    (scalar : ∀ kind, hasTotals kind = false →
      ms'.filter (·.value.kind = kind) = ms.filter (·.value.kind = kind))
    (help : Option String) (name : String) :
    Option.Rel Regrouped (familyOf help name ms) (familyOf help name ms') := by
  have made : ∀ (m : Metric) (ms : List Metric), familyOf help name (m :: ms) =
      some ⟨name, help, m.value.kind, (m :: ms).filter (·.value.kind = m.value.kind)⟩ := by
    intro m ms
    rw [familyOf, List.filter_cons_of_pos (by simp)]
  cases ms with
  | nil =>
      cases ms' with
      | nil => exact .none
      | cons m' ms' => cases kinds
  | cons m ms =>
      cases ms' with
      | nil => cases kinds
      | cons m' ms' =>
          have kind : m.value.kind = m'.value.kind := Option.some.inj kinds
          rw [made, made, ← kind]
          exact .some ⟨rfl, rfl, rfl, parts _, scalar _⟩

theorem agreeEverywhere_regrouped {order order' : VisitOrder} (fair : order.Fair)
    (fair' : order'.Fair) {t : Transcript} (titled : t.Titled)
    (distinct : (t.groups.map (·.key)).Nodup) (same : SameKinds order order' t) :
    AgreeEverywhere Regrouped (gather order t) (gather order' t) := by
  intro name
  rw [get?_gather, get?_gather]
  refine regrouped_familyOf (firstKind_gathered same fair.loose fair'.loose name) ?_ ?_ _ _
  all_goals
    intro kind
    simp only [metricsUnder_gathered_parts, List.filter_append]
  · have groups : (order.groups t.groups).Perm (order'.groups t.groups) :=
      (fair.groups _).trans (fair'.groups _).symm
    have loose := looseMetrics_perm name
      ((fair.loose (looseBuckets t.metrics.reverse)).trans (fair'.loose _).symm)
    have different : ((order.loose (looseBuckets t.metrics.reverse)).map (·.key)).Nodup :=
      ((fair.loose _).map _).nodup_iff.mpr (looseBuckets_nodup _)
    refine .append_left _ (.append (((groups.filter _).map _).filter _)
      (labels_groupMetrics_nodup titled distinct (fair.groups _) name kind)
      (.of_perm (loose.filter _) ?_))
    exact (List.filter_sublist.map _).nodup (labels_looseMetrics_nodup name different)
  · intro scalar
    have noGroup : ∀ gs, (groupMetrics name gs).filter (·.value.kind = kind) = [] := by
      intro gs
      rw [filter_groupMetrics, List.map_eq_nil_iff, List.filter_eq_nil_iff]
      rintro g - own
      rw [← (of_decide_eq_true own).2, hasTotals_groupKind] at scalar
      cases scalar
    have noLoose : ∀ ls, (looseMetrics name ls).filter (·.value.kind = kind) = [] := by
      intro ls
      refine List.filter_eq_nil_iff.mpr fun m there own => ?_
      rw [← of_decide_eq_true own, kind_of_mem_looseMetrics there] at scalar
      cases scalar
    simp only [noGroup, noLoose]

section Reading

variable {order order' : VisitOrder} (fair : order.Fair) (fair' : order'.Fair)
  (lines : List (List Char))
include fair fair'

/-- Readings that take kinds alike give the same families in parts. -/
theorem regrouped_familiesOf (same : SameKinds order order' (Transcript.ofLines lines)) :
    List.Forall₂ Regrouped (familiesOf order (Transcript.ofLines lines))
      (familiesOf order' (Transcript.ofLines lines)) :=
  forall₂_familiesOf_of_gather reorders_regrouped
    (agreeEverywhere_regrouped fair fair' (Transcript.titled_foldl_add _ Transcript.titled_empty)
      (Transcript.groups_nodup lines) same) fair.bases fair'.bases

omit fair' in
/-- A name without plain samples comes out with the kind of its first group. -/
theorem exists_family_of_groupKind? {t : Transcript} {name : String} {kind : Kind}
    (plain : plainMetrics t name = []) (first : groupKind? order t name = some kind) :
    ∃ f ∈ familiesOf order t, f.name = name ∧ f.kind = kind := by
  have composite : hasTotals kind = true := by
    obtain ⟨g, -, -, rfl⟩ := exists_of_groupKind? fair first
    exact hasTotals_groupKind g
  have head : ((metricsUnder name (gathered order t)).head?).map (·.value.kind) = some kind := by
    rw [metricsUnder_gathered_parts, firstKind_append, firstKind_groupMetrics, plain, first]
    rfl
  obtain ⟨m, ahead, rfl⟩ := Option.map_eq_some_iff.mp head
  obtain ⟨ms, under⟩ := List.head?_eq_some_iff.mp ahead
  have found : (gather order t).get? name = some ⟨name, t.helps.get? name, m.value.kind,
      m :: ms.filter (·.value.kind = m.value.kind)⟩ := by
    rw [get?_gather, under, familyOf]
  exact ⟨_, (mem_familiesOf_iff fair t).mpr ⟨name, _, found, if_pos composite⟩, rfl, rfl⟩

/-- Two readings give the same families but for the order of histograms and of summaries, exactly
if they take kinds alike. -/
theorem reordered_familiesOf_iff :
    List.Forall₂ Family.Reordered (familiesOf order (Transcript.ofLines lines))
        (familiesOf order' (Transcript.ofLines lines)) ↔
      SameKinds order order' (Transcript.ofLines lines) := by
  constructor
  · intro alike name plain
    refine groupKind?_congr fair fair' fun {kind kind'} first first' => ?_
    obtain ⟨f, there, named, rfl⟩ := exists_family_of_groupKind? fair plain first
    obtain ⟨f', there', named', rfl⟩ := exists_family_of_groupKind? fair' plain first'
    -- A reading tells each name once, and `alike` tells it with one kind.
    have told : (f.name, f.kind) ∈
        (familiesOf order' (Transcript.ofLines lines)).map fun g => (g.name, g.kind) :=
      Family.map_kinds_eq alike ▸ List.mem_map_of_mem there
    obtain ⟨g, among, same⟩ := List.mem_map.mp told
    obtain ⟨nameEq, kindEq⟩ := Prod.mk.inj same
    have distinct := (names_familiesOf fair' (Transcript.ofLines lines)).imp String.ne_of_lt
    have one : g = f' := List.inj_on_of_nodup_map distinct among there'
      (nameEq.trans (named.trans named'.symm))
    rw [← kindEq, one]
  · intro same
    exact (regrouped_familiesOf fair fair' lines same).imp fun _ _ => Regrouped.reordered

/-- Two readings of an exposition that take kinds alike are one error, or the same families but
for the order of histograms and of summaries. -/
theorem reordered_readIn (body : List Char)
    (same : SameKinds order order' (Transcript.ofLines (Text.lines body))) :
    (∃ error, readIn order body = .error error ∧ readIn order' body = .error error) ∨
      ∃ families families', readIn order body = .ok families ∧ readIn order' body = .ok families' ∧
        List.Forall₂ Family.Reordered families families' := by
  rw [readIn, readIn]
  split
  next number _ => exact .inl ⟨.invalidLine number, rfl, rfl⟩
  next =>
    dsimp only
    split
    next => exact .inl ⟨.noSamples, rfl, rfl⟩
    next =>
      exact .inr ⟨_, _, rfl, rfl, (reordered_familiesOf_iff fair fair' (Text.lines body)).mpr same⟩

end Reading

end Exposition

end Telemetry
