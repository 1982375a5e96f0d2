import Mathlib.Data.List.Forall2
import Telemetry.Proofs.Exposition.AnyOrder
import Telemetry.Proofs.Exposition.Represented
import Telemetry.Proofs.Exposition.Transcribed

/-!
# Totals of declared names

A histogram or a summary is declared, and later its sum and its count are given once
each, among its buckets or quantiles.  If nothing else is said of any name that starts
with its own, all of this comes together in one metric, and no family is left under the
names of the totals.  That is so only if there is a bucket or a quantile: a kind that is
declared makes no family, so without points the totals find none and stay where they are,
as samples of which nothing is known (`totals_return_iff`).

A transcript is looked at from one name on (`metricsAt`, `groupsAt`).  Entries of other
names change nothing there (`at_add_of_not_under`), and each line of the declared name
adds its part.
-/

namespace Telemetry

/-! ## Names under a name -/

/-- Whether a name starts with another one. -/
def isUnder (base name : String) : Bool := base.toList.isPrefixOf name.toList

theorem isUnder_iff {base name : String} :
    isUnder base name = true ↔ ∃ ending, name = base ++ ending := by
  rw [isUnder, List.isPrefixOf_iff_prefix]
  constructor
  · rintro ⟨ending, equal⟩
    refine ⟨String.ofList ending, ?_⟩
    rw [← String.toList_inj, String.toList_append, String.toList_ofList, equal]
  · rintro ⟨ending, rfl⟩
    rw [String.toList_append]
    exact List.prefix_append _ _

theorem isUnder_append (base ending : String) : isUnder base (base ++ ending) = true :=
  isUnder_iff.mpr ⟨ending, rfl⟩

theorem isUnder_pointName {base name : String} (kind : Kind) (under : isUnder base name = true) :
    isUnder base (kind.pointName name) = true := by
  obtain ⟨ending, rfl⟩ := isUnder_iff.mp under
  rw [Kind.pointName]
  split
  · rw [String.append_assoc]
    exact isUnder_append _ _
  · exact under

theorem isUnder_self (base : String) : isUnder base base = true :=
  isUnder_iff.mpr ⟨"", by simp⟩

/-- Whether an entry tells the kind of a name that starts with another, or gives a sample of it. -/
def Entry.isUnder (base : String) : Entry → Bool
  | help _ _ => false
  | type name _ => Telemetry.isUnder base name
  | sample name _ _ => Telemetry.isUnder base name

/-! ## What is told of a declared name -/

/-- A part of a histogram or a summary. -/
inductive Component where
  /-- One of its totals. -/
  | total (total : Total) (x : Double)
  /-- A bucket or a quantile. -/
  | point (bound x : Double)

namespace Component

/-- The total. -/
def total? : Component → Option (Total × Double)
  | total t x => some (t, x)
  | point _ _ => none

/-- The bucket or the quantile. -/
def point? : Component → Option (Double × Double)
  | total _ _ => none
  | point bound x => some (bound, x)

/-- The sample that a total is at first. -/
def sample? (base : String) (labels : Labels) : Component → Option (String × Metric)
  | total t x => some (base ++ t.ending, ⟨labels, .untyped x⟩)
  | point _ _ => none

/-- The samples of parts are named after totals. -/
theorem exists_of_mem_samples {base : String} {labels : Labels} {parts : List Component}
    {s : String × Metric} (there : s ∈ parts.filterMap (·.sample? base labels)) :
    ∃ total : Total, s.1 = base ++ total.ending := by
  obtain ⟨part, -, given⟩ := List.mem_filterMap.mp there
  cases part with
  | point => cases given
  | total total x =>
      cases given
      exact ⟨total, rfl⟩

end Component

/-- The group of some points of what is declared under a name. -/
def pointGroup (base : String) (kind : Kind) (labels : Labels) (points : List (Double × Double)) :
    Group :=
  ⟨kind.pointName base, base, decide (kind = .summary), labels, points⟩

/-- Whether an entry tells a part of what has been declared under a name, with some labels. -/
inductive Entry.Tells (base : String) (kind : Kind) (labels : Labels) : Entry → Component → Prop
  | total {text : Option (List Char)} {number : List Char} {x : Double} (total : Total)
      (labelled : (text.map Entry.labels).getD .empty = labels)
      (read : Double.read? number = some x) :
      Tells base kind labels (.sample (base ++ total.ending) text number) (.total total x)
  | point {text number : List Char} {bound x : Double}
      (given : ((Entry.labels text).get? kind.pointLabel).bind
        (fun bound => Double.read? bound.toList) = some bound)
      (labelled : (Entry.labels text).erase kind.pointLabel = labels)
      (read : Double.read? number = some x) :
      Tells base kind labels (.sample (kind.pointName base) (some text) number) (.point bound x)

/-- Whether a histogram or a summary is declared between some entries, and nothing else is told
under its name than parts of it, with the same labels, and after it has been declared. -/
structure Declaration (base : String) (kind : Kind) (labels : Labels) (before after : List Entry)
    (parts : List Component) : Prop where
  composite : Exposition.hasTotals kind = true
  /-- Nothing is told before. -/
  first : ∀ e ∈ before, e.isUnder base = false
  /-- What is told later are its parts, in order. -/
  parts : List.Forall₂ (Entry.Tells base kind labels) (after.filter (·.isUnder base)) parts
  /-- The name of a summary is not declared again as that of the buckets of a histogram. -/
  apart : kind = .summary → ∀ name, .type name .histogram ∈ after → name ++ Bucket.ending ≠ base

/-! ## Lines of a declared name -/

section Lines

variable {s : Spelling} (valid : s.Valid) (plain : s.Plain) {line : List Char}
  (spelled : Text.trim line = s.text) {base : String} {kind : Kind} {x : Double}
  (number : Double.read? s.number = some x)
include valid plain spelled number

/-- A line under the name of a total that is spelled in a plain way tells that total. -/
theorem Entry.exists_tells_total {total : Total}
    (named : String.ofList s.name = base ++ total.ending) :
    ∃ e, Entry.ofLine? line = some e ∧ e.Tells base kind s.labelSet (.total total x) := by
  refine ⟨_, Spelling.ofLine?_of_plain valid plain spelled, ?_⟩
  rw [Spelling.entry, named]
  exact .total total (Spelling.labels_of_plain valid plain) number

/-- A line under the name of points that is spelled in a plain way tells a point, if its bound or
share can be read. -/
theorem Entry.exists_tells_point {bound : Double}
    (named : String.ofList s.name = kind.pointName base)
    (given : (s.labelSet.get? kind.pointLabel).bind (fun bound => Double.read? bound.toList) =
      some bound) :
    ∃ e, Entry.ofLine? line = some e ∧
      e.Tells base kind (s.labelSet.erase kind.pointLabel) (.point bound x) := by
  refine ⟨_, Spelling.ofLine?_of_plain valid plain spelled, ?_⟩
  have labels := Spelling.labels_of_plain valid plain
  rw [Spelling.entry, named]
  cases braces : s.braces with
  | none =>
      rw [braces] at labels
      rw [← labels] at given
      cases given
  | some parts =>
      rw [braces] at labels
      rw [← labels] at given ⊢
      exact .point given rfl number

end Lines

namespace Transcript

/-! ## What others leave alone -/

/-- The samples under a name that stand for themselves, the latest first. -/
def metricsAt (t : Transcript) (base : String) : List (String × Metric) :=
  t.metrics.filter (isUnder base ·.1)

/-- The groups under a name. -/
def groupsAt (t : Transcript) (base : String) : List Group :=
  t.groups.filter (isUnder base ·.name)

theorem filter_addPoint (new : Group) (point : Double × Double) (p : String → Bool) :
    ∀ gs : List Group, (addPoint new point gs).filter (p ·.name) =
      if p new.name then addPoint new point (gs.filter (p ·.name)) else gs.filter (p ·.name)
  | [] => by
      rw [addPoint, List.filter_cons, List.filter_nil, addPoint]
  | g :: gs => by
      have later := filter_addPoint new point p gs
      rw [addPoint]
      split
      next same =>
        rw [List.filter_cons, List.filter_cons]
        dsimp only
        rw [same.1]
        split
        · rw [addPoint, if_pos same, same.1]
        · rfl
      next different =>
        rw [List.filter_cons, List.filter_cons, later]
        split
        next own =>
          split
          · rw [addPoint, if_neg different]
          · rfl
        · rfl

/-- An entry of another name adds nothing under a name. -/
theorem at_add_of_not_under {base : String} {e : Entry} (other : e.isUnder base = false)
    (t : Transcript) :
    (t.add e).metricsAt base = t.metricsAt base ∧ (t.add e).groupsAt base = t.groupsAt base := by
  cases e with
  | help name text => exact ⟨rfl, rfl⟩
  | type name kind => cases kind <;> exact ⟨rfl, rfl⟩
  | sample name text number =>
      change isUnder base name = false at other
      have takes := t.takes name text number
      generalize t.add (.sample name text number) = t' at takes
      cases takes with
      | nothing => exact ⟨rfl, rfl⟩
      | scalar =>
          refine ⟨?_, rfl⟩
          rw [metricsAt, addScalar, List.filter_cons_of_neg (by simp [other])]
          rfl
      | point =>
          refine ⟨rfl, ?_⟩
          rw [groupsAt, filter_addPoint, if_neg (by simp [other])]
          rfl

theorem knownAt_add_of_not_under {base key : String} {e : Entry} (other : e.isUnder base = false)
    (own : isUnder base key = true)
    (apart : ∀ name, e = .type name .histogram → name ++ Bucket.ending ≠ key) (t : Transcript) :
    (t.add e).kinds.get? key = t.kinds.get? key ∧
      (t.add e).titles.get? key = t.titles.get? key := by
  cases e with
  | help name text => exact ⟨rfl, rfl⟩
  | sample name text number =>
      have takes := t.takes name text number
      generalize t.add (.sample name text number) = t' at takes
      cases takes <;> exact ⟨rfl, rfl⟩
  | type name kind =>
      change isUnder base name = false at other
      have different : key ≠ kind.pointName name := by
        rw [Kind.pointName]
        split
        next histogram => exact (apart name (by rw [histogram])).symm
        next =>
          rintro rfl
          rw [other] at own
          cases own
      obtain ⟨kinds, -⟩ := t.setKind_eq name kind
      refine ⟨?_, ?_⟩
      · change (t.setKind name kind).kinds.get? key = _
        rw [kinds, Dict.get?_insert, if_neg different]
      · cases kind with
        | histogram =>
            change (t.titles.insert (name ++ Bucket.ending) name).get? key = _
            rw [Dict.get?_insert]
            exact if_neg different
        | _ => rfl

/-! ## What is told of a declared name -/

section Parts

variable {base : String} {kind : Kind} {labels : Labels}

theorem Knows.add_of_not_under {t : Transcript} (knows : t.Knows base kind)
    (composite : Exposition.hasTotals kind = true) {e : Entry} (other : e.isUnder base = false)
    (apart : kind = .summary → ∀ name, e = .type name .histogram → name ++ Bucket.ending ≠ base) :
    (t.add e).Knows base kind := by
  have bucket : ∀ name, e = .type name .histogram →
      name ++ Bucket.ending ≠ kind.pointName base := by
    rintro name rfl
    cases kind with
    | histogram =>
        intro equal
        have same : name = base := (String.append_left_inj _).mp equal
        rw [Entry.isUnder, same, isUnder_self] at other
        cases other
    | summary => exact apart rfl name rfl
    | _ => cases composite
  obtain ⟨declared, title⟩ := knownAt_add_of_not_under other
    (isUnder_pointName kind (isUnder_self base)) bucket t
  refine ⟨declared.trans knows.declared, fun histogram => title.trans (knows.title histogram),
    fun composite total => ?_⟩
  exact (knownAt_add_of_not_under other (isUnder_append base total.ending)
    (fun name _ => bucketName_ne_total name base total) t).1.trans (knows.totals composite total)

/-- A part that is told of a declared name is a sample or a point under it. -/
theorem at_add_part {t : Transcript} (knows : t.Knows base kind)
    (composite : Exposition.hasTotals kind = true) {e : Entry} {part : Component}
    (tells : e.Tells base kind labels part) :
    (t.add e).Knows base kind ∧
      (t.add e).metricsAt base = (part.sample? base labels).toList ++ t.metricsAt base ∧
      (t.add e).groupsAt base = part.point?.toList.foldl
        (fun gs point => addPoint (pointGroup base kind labels []) point gs)
        (t.groupsAt base) := by
  cases tells with
  | @total text number x total labelled read =>
      have none_ := knows.totals composite total
      have added : t.add (.sample (base ++ total.ending) text number) =
          t.addScalar (base ++ total.ending) labels (.untyped x) := by
        rw [add, read]
        dsimp only
        rw [addSample_of_scalar (by simp [none_]), labelled, none_]
        rfl
      rw [added]
      refine ⟨⟨knows.declared, knows.title, knows.totals⟩, ?_, rfl⟩
      exact List.filter_cons_of_pos (isUnder_append base total.ending)
  | @point text number bound x given labelled read =>
      have title : (if kind = .summary then kind.pointName base
          else (t.titles.get? (kind.pointName base)).getD (kind.pointName base)) = base := by
        cases kind with
        | histogram => simp [knows.title rfl]
        | summary => rfl
        | _ => cases composite
      have added : t.add (.sample (kind.pointName base) (some text) number) =
          { t with groups := addPoint (pointGroup base kind labels []) (bound, x) t.groups } := by
        rw [add, read]
        dsimp only
        rw [addSample_of_composite knows.declared composite, addGrouped_eq t composite, given,
          labelled]
        dsimp only
        rw [title]
        rfl
      rw [added]
      refine ⟨⟨knows.declared, knows.title, knows.totals⟩, rfl, ?_⟩
      exact (filter_addPoint _ _ (isUnder base) t.groups).trans
        (if_pos (isUnder_pointName kind (isUnder_self base)))

/-- What is told under a declared name comes into the transcript part by part. -/
theorem at_foldl_add (composite : Exposition.hasTotals kind = true) {after : List Entry} :
    ∀ {parts : List Component} {t : Transcript}, t.Knows base kind →
      List.Forall₂ (Entry.Tells base kind labels) (after.filter (·.isUnder base)) parts →
      (kind = .summary → ∀ name, .type name .histogram ∈ after → name ++ Bucket.ending ≠ base) →
      (after.foldl add t).metricsAt base =
        (parts.filterMap (·.sample? base labels)).reverse ++ t.metricsAt base ∧
      (after.foldl add t).groupsAt base = (parts.filterMap (·.point?)).foldl
        (fun gs point => addPoint (pointGroup base kind labels []) point gs)
        (t.groupsAt base) := by
  induction after with
  | nil =>
      intro parts t knows tells apart
      cases tells
      exact ⟨rfl, rfl⟩
  | cons e after ih =>
      intro parts t knows tells apart
      have later : kind = .summary → ∀ name, .type name .histogram ∈ after →
          name ++ Bucket.ending ≠ base := fun summary name there =>
        apart summary name (List.mem_cons_of_mem e there)
      rw [List.foldl_cons]
      cases under : e.isUnder base with
      | false =>
          rw [List.filter_cons_of_neg (by simp [under])] at tells
          have knows' := knows.add_of_not_under composite under fun summary name equal =>
            apart summary name (equal ▸ List.mem_cons_self)
          obtain ⟨metrics, groups⟩ := at_add_of_not_under under t
          rw [← metrics, ← groups]
          exact ih knows' tells later
      | true =>
          rw [List.filter_cons_of_pos under] at tells
          cases tells with
          | @cons _ part _ parts first tells =>
              obtain ⟨knows', metrics, groups⟩ := at_add_part knows composite first
              obtain ⟨metrics', groups'⟩ := ih knows' tells later
              rw [metrics', groups', metrics, groups]
              cases part with
              | total total x =>
                  refine ⟨?_, rfl⟩
                  rw [← List.append_assoc]
                  exact congrArg (· ++ _) List.reverse_cons.symm
              | point bound x => exact ⟨rfl, rfl⟩

end Parts

/-- Before a name is declared nothing is known of it. -/
theorem at_foldl_add_of_not_under {base : String} {before : List Entry}
    (other : ∀ e ∈ before, e.isUnder base = false) (t : Transcript) :
    (before.foldl add t).metricsAt base = t.metricsAt base ∧
      (before.foldl add t).groupsAt base = t.groupsAt base ∧
      ∀ total : Total, (before.foldl add t).kinds.get? (base ++ total.ending) =
        t.kinds.get? (base ++ total.ending) := by
  induction before generalizing t with
  | nil => exact ⟨rfl, rfl, fun _ => rfl⟩
  | cons e before ih =>
      obtain ⟨here, later⟩ := List.forall_mem_cons.mp other
      obtain ⟨metrics, groups, kinds⟩ := ih later (t.add e)
      obtain ⟨metrics', groups'⟩ := at_add_of_not_under here t
      refine ⟨metrics.trans metrics', groups.trans groups', fun total => (kinds total).trans ?_⟩
      exact (knownAt_add_of_not_under here (isUnder_append base total.ending)
        (fun name _ => bucketName_ne_total name base total) t).1

/-- Of a declared name the transcript has the totals, and a group of all points if there are any. -/
theorem at_of_declaration {base : String} {kind : Kind} {labels : Labels}
    {before after : List Entry} {parts : List Component}
    (declared : Declaration base kind labels before after parts) :
    let t := (before ++ .type base kind :: after).foldl add empty
    t.metricsAt base = (parts.filterMap (·.sample? base labels)).reverse ∧
      t.groupsAt base = if parts.filterMap (·.point?) = [] then []
        else [pointGroup base kind labels (parts.filterMap (·.point?))] := by
  intro t
  obtain ⟨metrics, groups, none_⟩ := at_foldl_add_of_not_under declared.first empty
  obtain ⟨kinds, -, samples, points⟩ := (before.foldl add empty).setKind_eq base kind
  have knows : ((before.foldl add empty).setKind base kind).Knows base kind := by
    refine ⟨by rw [kinds, Dict.get?_insert, if_pos rfl], ?_, fun _ total => ?_⟩
    · rintro rfl
      change (((before.foldl add empty).titles.insert (base ++ Bucket.ending) base).get?
        (base ++ Bucket.ending)) = _
      rw [Dict.get?_insert, if_pos rfl]
    · have different : base ++ total.ending ≠ kind.pointName base :=
        (pointName_ne_total (Total.append_ending_ne base total).symm).symm
      rw [kinds, Dict.get?_insert, if_neg different]
      exact none_ total
  obtain ⟨metrics', groups'⟩ := at_foldl_add declared.composite knows declared.parts declared.apart
  have run : t = after.foldl add ((before.foldl add empty).setKind base kind) := by
    rw [show t = (before ++ .type base kind :: after).foldl add empty from rfl, List.foldl_append]
    rfl
  have noSamples : ((before.foldl add empty).setKind base kind).metricsAt base = [] := by
    rw [metricsAt, samples]
    exact metrics
  have noGroups : ((before.foldl add empty).setKind base kind).groupsAt base = [] := by
    rw [groupsAt, points]
    exact groups
  rw [noSamples, List.append_nil] at metrics'
  rw [noGroups] at groups'
  refine ⟨run ▸ metrics', (run ▸ groups').trans ?_⟩
  split
  next none_ =>
    rw [none_]
    rfl
  next given => exact foldl_addPoint (List.forall_mem_nil _) given

end Transcript

namespace Exposition

/-! ## What is gathered of a declared name -/

/-- Loose buckets come of samples that are named after them. -/
theorem exists_of_mem_looseBuckets {samples : List (String × Metric)} {l : LooseBuckets}
    (there : l ∈ looseBuckets samples) : ∃ s ∈ samples, s.1 = l.name ++ Bucket.ending := by
  have key : l.key ∈ (looseBuckets samples).map (·.key) := List.mem_map_of_mem there
  have found : ∃ point, (l.name, l.labels, point) ∈
      samples.filterMap fun s => looseBucket? s.1 s.2 := by
    rw [looseBuckets] at key
    generalize samples.filterMap (fun s => looseBucket? s.1 s.2) = found at key
    induction found using List.reverseRecOn with
    | nil => cases key
    | append_singleton found last ih =>
        obtain ⟨name, labels, point⟩ := last
        rw [List.foldl_append, List.foldl_cons, List.foldl_nil, keys_addLoose] at key
        have earlier : (∃ point, (l.name, l.labels, point) ∈ found) →
            ∃ point', (l.name, l.labels, point') ∈ found ++ [(name, labels, point)] := by
          rintro ⟨point, among⟩
          exact ⟨point, List.mem_append_left _ among⟩
        split at key
        · exact earlier (ih key)
        · rcases List.mem_append.mp key with key | key
          · exact earlier (ih key)
          · cases List.mem_singleton.mp key
            exact ⟨point, List.mem_append_right _ List.mem_cons_self⟩
  obtain ⟨point, member⟩ := found
  obtain ⟨s, among, loose⟩ := List.mem_filterMap.mp member
  exact ⟨s, among, (of_looseBucket? loose).1⟩

section Declared

variable {order : VisitOrder} (fair : order.Fair) {t : Transcript} {base : String} {kind : Kind}
  {labels : Labels} {parts : List Component}
  (samples : t.metricsAt base = (parts.filterMap (·.sample? base labels)).reverse)
  (points : t.groupsAt base = if parts.filterMap (·.point?) = [] then []
    else [pointGroup base kind labels (parts.filterMap (·.point?))])

include samples in
theorem looseMetrics_of_declared {name : String} (under : isUnder base name = true)
    {loose : List LooseBuckets} (perm : loose.Perm (looseBuckets t.metrics.reverse)) :
    looseMetrics name loose = [] := by
  rw [looseMetrics, List.map_eq_nil_iff, List.filter_eq_nil_iff]
  intro l there same
  obtain ⟨s, among, named⟩ := exists_of_mem_looseBuckets (perm.mem_iff.mp there)
  rw [of_decide_eq_true same] at named
  have member : s ∈ t.metricsAt base := by
    refine List.mem_filter.mpr ⟨List.mem_reverse.mp among, ?_⟩
    rw [named]
    exact isUnder_pointName .histogram under
  rw [samples, List.mem_reverse] at member
  obtain ⟨total, own⟩ := Component.exists_of_mem_samples member
  exact bucketName_ne_total name base total (named.symm.trans own)

include samples in
theorem metricsUnder_samples_of_declared {name : String} (under : isUnder base name = true) :
    metricsUnder name (t.metrics.reverse.filter fun s => (looseBucket? s.1 s.2).isNone) =
      metricsUnder name (parts.filterMap (·.sample? base labels)) := by
  have own : parts.filterMap (·.sample? base labels) =
      t.metrics.reverse.filter (isUnder base ·.1) := by
    rw [List.filter_reverse, ← Transcript.metricsAt, samples, List.reverse_reverse]
  rw [own, metricsUnder, metricsUnder, List.filter_filter, List.filter_filter]
  congr 1
  refine List.filter_congr fun s there => ?_
  by_cases named : s.1 = name
  · have among : isUnder base s.1 = true := by rwa [named]
    have member : s ∈ parts.filterMap (·.sample? base labels) :=
      own ▸ List.mem_filter.mpr ⟨there, among⟩
    have kept : (looseBucket? s.1 s.2).isNone = true := by
      obtain ⟨total, ownName⟩ := Component.exists_of_mem_samples member
      rw [Option.isNone_iff_eq_none, Option.eq_none_iff_forall_ne_some]
      intro loose found
      exact bucketName_ne_total _ base total ((of_looseBucket? found).1.symm.trans ownName)
    rw [kept, among]
  · simp [named]

include fair points in
theorem metricsUnder_groups_of_declared (titled : t.Titled) {name : String}
    (under : isUnder base name = true) :
    metricsUnder name ((order.groups t.groups).map fun g => (g.title, metricOf g)) =
      if name = base ∧ parts.filterMap (·.point?) ≠ [] then
        [metricOf (pointGroup base kind labels (parts.filterMap (·.point?)))]
      else [] := by
  have own : (order.groups t.groups).filter (isUnder base ·.name) = t.groupsAt base := by
    have perm := (fair.groups t.groups).filter (isUnder base ·.name)
    rw [← Transcript.groupsAt, points] at perm
    rw [points]
    split at perm
    next none_ => rw [if_pos none_, perm.eq_nil]
    next given => rw [if_neg given, List.perm_singleton.mp perm]
  have titles : (order.groups t.groups).filter (·.title = name) =
      (t.groupsAt base).filter (·.title = name) := by
    rw [← own, List.filter_filter]
    refine List.filter_congr fun g there => ?_
    by_cases same : g.title = name
    · have named := titled.groups g ((fair.groups t.groups).mem_iff.mp there)
      have among : isUnder base g.name = true := by
        rw [named, same]
        exact isUnder_pointName g.kind under
      simp [same, among]
    · simp [same]
  have all : metricsUnder name ((order.groups t.groups).map fun g => (g.title, metricOf g)) =
      ((order.groups t.groups).filter (·.title = name)).map metricOf := by
    rw [metricsUnder, List.filter_map, List.map_map]
    rfl
  rw [all, titles, points]
  by_cases none_ : parts.filterMap (·.point?) = []
  · simp [none_]
  · by_cases same : name = base
    · simp [none_, same, pointGroup]
    · simp [none_, same, pointGroup, Ne.symm same]

include fair samples points in
/-- Under a declared name and the names of its totals, nothing is gathered but what has been
told. -/
theorem metricsUnder_declared (titled : t.Titled) {name : String}
    (under : isUnder base name = true) :
    metricsUnder name (gathered order t) =
      metricsUnder name (parts.filterMap (·.sample? base labels)) ++
        if name = base ∧ parts.filterMap (·.point?) ≠ [] then
          [metricOf (pointGroup base kind labels (parts.filterMap (·.point?)))]
        else [] := by
  rw [metricsUnder_gathered, looseMetrics_of_declared samples under (fair.loose _), List.append_nil,
    ownMetrics, metricsUnder_append, metricsUnder_samples_of_declared samples under,
    metricsUnder_groups_of_declared fair points titled under]

end Declared

/-! ## What becomes of a declared name -/

/-- The totals of a declared name are samples of their own at first. -/
theorem metricsUnder_total_of_parts {base : String} {labels : Labels} {parts : List Component}
    {amount : Total → Double}
    (totals : (parts.filterMap (·.total?)).Perm
      ([Total.sum, .count].map fun total => (total, amount total))) (total : Total) :
    metricsUnder (base ++ total.ending) (parts.filterMap (·.sample? base labels)) =
      [⟨labels, .untyped (amount total)⟩] := by
  have asTotals : parts.filterMap (·.sample? base labels) = (parts.filterMap (·.total?)).map
      fun t => (base ++ t.1.ending, (⟨labels, .untyped t.2⟩ : Metric)) := by
    rw [List.map_filterMap]
    refine List.filterMap_congr fun part _ => ?_
    cases part <;> rfl
  have perm : (metricsUnder (base ++ total.ending) (parts.filterMap (·.sample? base labels))).Perm
      (metricsUnder (base ++ total.ending)
        (([Total.sum, .count].map fun total => (total, amount total)).map
          fun t => (base ++ t.1.ending, (⟨labels, .untyped t.2⟩ : Metric)))) := by
    rw [asTotals]
    exact ((totals.map _).filter _).map _
  have apart : ∀ {total total' : Total}, total ≠ total' →
      base ++ total.ending ≠ base ++ total'.ending := fun different equal =>
    different (Total.append_ending_inj equal).2
  refine List.perm_singleton.mp (perm.trans ?_)
  cases total with
  | sum => simp [metricsUnder, apart (by decide : Total.count ≠ .sum)]
  | count => simp [metricsUnder, apart (by decide : Total.sum ≠ .count)]

theorem metricsUnder_base_of_parts (base : String) (labels : Labels) (parts : List Component) :
    metricsUnder base (parts.filterMap (·.sample? base labels)) = [] := by
  refine metricsUnder_of_ne fun s there => ?_
  obtain ⟨total, named⟩ := Component.exists_of_mem_samples there
  rw [named]
  exact Total.append_ending_ne base total

/-- Whether the totals of a declared name have come back to it: a metric of its kind has both, and
no family stands under their names. -/
structure Returned (families : List Family) (base : String) (kind : Kind) (labels : Labels)
    (amount : Total → Double) : Prop where
  metric : ∃ f ∈ families, f.name = base ∧ f.kind = kind ∧ ∃ m ∈ f.metrics, m.labels = labels ∧
    m.value.kind = kind ∧ ∀ total, m.value.total? total = some (amount total)
  gone : ∀ f ∈ families, ∀ total : Total, f.name ≠ base ++ total.ending

/-- Whether the totals of a declared name stand for themselves, without a kind, and the name has no
family. -/
structure LeftAlone (families : List Family) (base : String) (labels : Labels)
    (amount : Total → Double) : Prop where
  absent : ∀ f ∈ families, f.name ≠ base
  totals : ∀ total : Total, ∃ f ∈ families, f.name = base ++ total.ending ∧ f.kind = .untyped ∧
    f.metrics = [⟨labels, .untyped (amount total)⟩]

theorem LeftAlone.not_returned {families : List Family} {base : String} {kind : Kind}
    {labels : Labels} {amount : Total → Double} (left : LeftAlone families base labels amount) :
    ¬Returned families base kind labels amount := by
  intro returned
  obtain ⟨f, there, named, -⟩ := left.totals .sum
  exact returned.gone f there .sum named

theorem settled_of_stays {families : Dict Family} {name : String} (help : Option String)
    {kind : Kind} {ms : List Metric} (scalar : hasTotals kind = false) (nonempty : ms ≠ [])
    (stays : ∀ m ∈ ms, isTotal families name m = false) :
    settled families ⟨name, help, kind, ms⟩ = some ⟨name, help, kind, ms⟩ := by
  rw [settled, if_neg (by simp [scalar])]
  exact without_of_none nonempty stays

section Settled

variable {order : VisitOrder} (fair : order.Fair) {t : Transcript} {base : String} {labels : Labels}
  {amount : Total → Double}
  (totals : ∀ total : Total, metricsUnder (base ++ total.ending) (gathered order t) =
    [⟨labels, .untyped (amount total)⟩])
include totals

theorem get?_gather_totals (total : Total) :
    (gather order t).get? (base ++ total.ending) =
      some ⟨base ++ total.ending, t.helps.get? (base ++ total.ending), .untyped,
        [⟨labels, .untyped (amount total)⟩]⟩ := by
  rw [get?_gather, totals]
  rfl

theorem lastTotal_total (total : Total) :
    lastTotal labels (samplesOf (gather order t) (base ++ total.ending)) = some (amount total) := by
  rw [samplesOf, get?_gather_totals totals]
  simp [lastTotal, Value.scalar?]

include fair

/-- Totals come back to a metric with their labels. -/
theorem returned_of_gathered {kind : Kind} (composite : hasTotals kind = true) {m : Metric}
    (labelled : m.labels = labels) (own : m.value.kind = kind)
    (alone : metricsUnder base (gathered order t) = [m]) :
    Returned (familiesOf order t) base kind labels amount := by
  have found : (gather order t).get? base = some ⟨base, t.helps.get? base, kind, [m]⟩ := by
    rw [get?_gather, alone, ← own]
    rfl
  constructor
  · have family := mem_familiesOf_of_composite fair found composite
    have set : settleAll (gather order t) base [.sum, .count] [m] =
        [withTotal .count (some (amount .count)) (withTotal .sum (some (amount .sum)) m)] := by
      simp [settleAll, settle, labelled, lastTotal_total totals]
    refine ⟨_, family, rfl, rfl, _, by rw [set]; exact List.mem_cons_self, ?_, ?_, fun total => ?_⟩
    · rw [labels_withTotal, labels_withTotal, labelled]
    · simp [withTotal, own]
    · have grouped : hasTotals (setTotal .sum (amount .sum) m.value).kind = true := by
        rw [kind_setTotal, own, composite]
      cases total with
      | count => exact total?_setTotal grouped (amount .count)
      | sum =>
          have other : Total.sum ≠ .count := by decide
          refine (total?_setTotal_of_ne other (amount .count) _).trans ?_
          exact total?_setTotal (own ▸ composite) (amount .sum)
  · rintro f there total named
    obtain ⟨name, g, gathered, becomes⟩ := (mem_familiesOf_iff fair t).mp there
    have title : name = base ++ total.ending := by
      rw [← named, name_of_settled becomes, (homogeneous_gather order t).named gathered]
    rw [title, get?_gather_totals totals] at gathered
    cases gathered
    have moved : isTotal (gather order t) (base ++ total.ending)
        ⟨labels, .untyped (amount total)⟩ = true :=
      (isTotal_iff (homogeneous_gather order t)).mpr
        ⟨base, total, _, rfl, found, composite, by simp [belongs, labelled, Value.scalar?]⟩
    simp [settled, hasTotals, without, moved] at becomes

/-- Totals that no metric has been gathered for stay where they are. -/
theorem leftAlone_of_gathered (nothing : metricsUnder base (gathered order t) = []) :
    LeftAlone (familiesOf order t) base labels amount := by
  have absent : (gather order t).get? base = none := by
    rw [get?_gather, nothing]
    rfl
  constructor
  · rintro f there named
    obtain ⟨name, g, gathered, becomes⟩ := (mem_familiesOf_iff fair t).mp there
    rw [← (homogeneous_gather order t).named gathered, ← name_of_settled becomes, named,
      absent] at gathered
    cases gathered
  · intro total
    have found := get?_gather_totals totals total
    have stays : ∀ m, isTotal (gather order t) (base ++ total.ending) m = false := by
      intro m
      rw [Bool.eq_false_iff, ne_eq, isTotal_iff (homogeneous_gather order t)]
      rintro ⟨base', total', g, named, found, -⟩
      rw [← (Total.append_ending_inj named).1, absent] at found
      cases found
    have same := settled_of_stays (t.helps.get? (base ++ total.ending))
      (rfl : hasTotals .untyped = false)
      (List.cons_ne_nil (⟨labels, .untyped (amount total)⟩ : Metric) []) fun m _ => stays m
    exact ⟨_, (mem_familiesOf_iff fair t).mpr ⟨_, _, found, same⟩, rfl, rfl, rfl⟩

end Settled

/-! ## Reading -/

/-- A histogram or a summary is declared in an exposition, and later its sum and its count are
given once, with the same labels, among any number of buckets or quantiles, and nothing else is
told under its name.  The totals come back to it exactly if there is a bucket or a quantile.
Without one they are families of their own, and the kind that was declared is lost. -/
theorem totals_return_iff {order : VisitOrder} (fair : order.Fair) {body : List Char}
    {families : List Family} (accepted : readIn order body = .ok families)
    {before after : List Entry} {base : String} {kind : Kind} {labels : Labels}
    {parts : List Component}
    (entries : (Text.lines body).filterMap Entry.ofLine? = before ++ .type base kind :: after)
    (declared : Declaration base kind labels before after parts) {amount : Total → Double}
    (totals : (parts.filterMap (·.total?)).Perm
      ([Total.sum, .count].map fun total => (total, amount total))) :
    (Returned families base kind labels amount ↔ parts.filterMap (·.point?) ≠ []) ∧
      (parts.filterMap (·.point?) = [] → LeftAlone families base labels amount) := by
  have transcript : Transcript.ofLines (Text.lines body) =
      (before ++ .type base kind :: after).foldl Transcript.add .empty := by
    rw [Transcript.ofLines, entries]
  rw [eq_of_readIn accepted, transcript]
  obtain ⟨samples, points⟩ := Transcript.at_of_declaration declared
  have titled := Transcript.titled_foldl_add (before ++ .type base kind :: after)
    Transcript.titled_empty
  generalize (before ++ .type base kind :: after).foldl Transcript.add .empty = t at *
  have given : ∀ total : Total, metricsUnder (base ++ total.ending) (gathered order t) =
      [⟨labels, .untyped (amount total)⟩] := by
    intro total
    rw [metricsUnder_declared fair samples points titled (isUnder_append base total.ending),
      metricsUnder_total_of_parts totals,
      if_neg fun both => Total.append_ending_ne base total both.1, List.append_nil]
  have own := metricsUnder_declared fair samples points titled (isUnder_self base)
  rw [metricsUnder_base_of_parts, List.nil_append] at own
  by_cases none_ : parts.filterMap (·.point?) = []
  · rw [if_neg (by simp [none_])] at own
    have left := leftAlone_of_gathered fair given own
    exact ⟨⟨fun returned => absurd returned left.not_returned, fun some_ => absurd none_ some_⟩,
      fun _ => left⟩
  · rw [if_pos ⟨rfl, none_⟩] at own
    obtain ⟨labelled, grouped, -⟩ :=
      metricOf_eq (pointGroup base kind labels (parts.filterMap (·.point?)))
    have same : (pointGroup base kind labels (parts.filterMap (·.point?))).kind = kind := by
      have composite := declared.composite
      cases kind with
      | histogram => rfl
      | summary => rfl
      | _ => cases composite
    have returned := returned_of_gathered fair given declared.composite labelled
      (grouped.trans same) own
    exact ⟨⟨fun _ => none_, fun _ => returned⟩, fun empty => absurd empty none_⟩

/-- A summary with two totals, and any lines between them. -/
def summaryText (between : String) : List Char :=
  ("# TYPE rpc summary\nrpc_sum 3\n" ++ between ++ "rpc_count 2").toList

/-- A line for a quantile of it. -/
def quantileLine : String := "rpc\x7bquantile=\"0.5\"\x7d 1\n"

/-- What that line tells. -/
def quantileEntry : Entry := .sample "rpc" (some "quantile=\"0.5\"".toList) ['1']

/-- The entries of a summary with two totals and any quantiles between them. -/
def summaryEntries (quantiles : List Entry) : List Entry :=
  .sample "rpc_sum" none ['3'] :: (quantiles ++ [.sample "rpc_count" none ['2']])

/-- Its totals. -/
def summaryTotals : Total → Double
  | .sum => .ofNat 3
  | .count => .ofNat 2

theorem declaration_summaryEntries (quantiles : List Entry) {points : List Component}
    (tells : List.Forall₂ (Entry.Tells "rpc" .summary .empty)
      (quantiles.filter (·.isUnder "rpc")) points)
    (apart : ∀ name, .type name .histogram ∉ quantiles) :
    Declaration "rpc" .summary .empty [] (summaryEntries quantiles)
      (.total .sum (.ofNat 3) :: (points ++ [.total .count (.ofNat 2)])) where
  composite := rfl
  first := List.forall_mem_nil _
  parts := by
    have sum : Entry.Tells "rpc" .summary .empty (.sample "rpc_sum" none ['3'])
        (.total .sum (.ofNat 3)) := .total .sum rfl (by decide +kernel)
    have count : Entry.Tells "rpc" .summary .empty (.sample "rpc_count" none ['2'])
        (.total .count (.ofNat 2)) := .total .count rfl (by decide +kernel)
    have split : (summaryEntries quantiles).filter (·.isUnder "rpc") =
        .sample "rpc_sum" none ['3'] ::
          (quantiles.filter (·.isUnder "rpc") ++ [.sample "rpc_count" none ['2']]) := by
      rw [summaryEntries, List.filter_cons_of_pos (by decide), List.filter_append,
        List.filter_cons_of_pos (by decide), List.filter_nil]
    rw [split]
    exact .cons sum (List.rel_append tells (.cons count .nil))
  apart := by
    intro _ name there
    simp [summaryEntries, apart] at there

deriving instance DecidableEq for Entry

/-- With a quantile between them, the totals come back. -/
theorem totals_return_quantile :
    ∃ families, readIn ⟨id, id, id⟩ (summaryText quantileLine) = .ok families ∧
      Returned families "rpc" .summary .empty summaryTotals := by
  have fair : (⟨id, id, id⟩ : VisitOrder).Fair := ⟨List.Perm.refl, List.Perm.refl, List.Perm.refl⟩
  have tells : Entry.Tells "rpc" .summary .empty quantileEntry
      (.point (.ofDecimal false 5 (-1)) (.ofNat 1)) :=
    .point (by decide +kernel) (by decide +kernel) (by decide +kernel)
  have declared := declaration_summaryEntries [quantileEntry] (.cons tells .nil)
    (by simp [quantileEntry])
  have accepted : readIn ⟨id, id, id⟩ (summaryText quantileLine) =
      .ok [⟨"rpc", none, .summary, [⟨.empty,
        .summary ⟨[⟨.ofDecimal false 5 (-1), .ofNat 1⟩], .ofNat 2, .ofNat 3⟩⟩]⟩] :=
    eq_ok_of_toOption (by decide +kernel)
  have entries : (Text.lines (summaryText quantileLine)).filterMap
      Entry.ofLine? = [] ++ .type "rpc" .summary :: summaryEntries [quantileEntry] := by
    decide +kernel
  exact ⟨_, accepted,
    (totals_return_iff fair accepted entries declared (.refl _)).1.mpr (by decide)⟩

/-- Without any line between them they do not, although nothing else is wrong. -/
theorem totals_left_bare :
    ∃ families, readIn ⟨id, id, id⟩ (summaryText "") = .ok families ∧
      (Text.lines (summaryText "")).filterMap Entry.ofLine? =
        [] ++ .type "rpc" .summary :: summaryEntries [] ∧
      Declaration "rpc" .summary .empty [] (summaryEntries [])
        [.total .sum (summaryTotals .sum), .total .count (summaryTotals .count)] ∧
      ¬Returned families "rpc" .summary .empty summaryTotals := by
  have accepted : readIn ⟨id, id, id⟩ (summaryText "") =
      .ok [⟨"rpc_count", none, .untyped, [⟨.empty, .untyped (.ofNat 2)⟩]⟩,
        ⟨"rpc_sum", none, .untyped, [⟨.empty, .untyped (.ofNat 3)⟩]⟩] :=
    eq_ok_of_toOption (by decide +kernel)
  refine ⟨_, accepted, by decide +kernel, declaration_summaryEntries [] .nil nofun, ?_⟩
  intro returned
  exact returned.gone _ (List.mem_cons_of_mem _ List.mem_cons_self) .sum (by decide)

end Exposition

end Telemetry
