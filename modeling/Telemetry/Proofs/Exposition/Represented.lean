import Telemetry.Proofs.Exposition.Gathered
import Telemetry.Proofs.Exposition.Plain

/-!
# What becomes of a sample line

A sample is *represented* by some families if its number is found there under its
name and its labels: in a metric of its own, in a bucket or a quantile, or in a
total.  A sample that is read is represented, or it has been *passed over* for one
of these reasons.

* Points are declared under its name, and its bound or share cannot be read.
* Its group is one of points of another kind.
* Its family has another kind, since a name is exposed under one kind.
* It is a total, and a later line gives the same total again.

A line that is spelled in a plain way is read as it is spelled, so it is represented
or passed over (`represented_of_plain`).  Without this a line that the line check
accepts may be read as something else, or not at all.
-/

namespace Telemetry

open Text

namespace Exposition

/-! ## Samples in families -/

/-- Whether a sample is found in some families. -/
inductive Represented (families : List Family) (name : String) (labels : Labels) (x : Double) :
    Prop
  /-- It is a metric of its own. -/
  | scalar {f : Family} {m : Metric} (family : f ∈ families) (metric : m ∈ f.metrics)
      (named : name = f.name) (labelled : labels = m.labels) (number : m.value.scalar? = some x)
  /-- It is a bucket or a quantile, and one of its labels is the bound or the share. -/
  | point {f : Family} {m : Metric} {bound : Double} (family : f ∈ families)
      (metric : m ∈ f.metrics) (composite : hasTotals m.value.kind = true)
      (named : name = m.value.kind.pointName f.name)
      (labelled : labels.erase m.value.kind.pointLabel = m.labels)
      (given : (labels.get? m.value.kind.pointLabel).bind (fun text => Double.read? text.toList) =
        some bound)
      (number : (bound, x) ∈ m.value.points)
  /-- It is a total. -/
  | total {f : Family} {m : Metric} {total : Total} (family : f ∈ families)
      (metric : m ∈ f.metrics) (named : name = f.name ++ total.ending)
      (labelled : labels = m.labels)
      (number : m.value.total? total = some x)

theorem represented_iff {families : List Family} {name : String} {labels : Labels} {x : Double} :
    Represented families name labels x ↔ ∃ f ∈ families, ∃ m ∈ f.metrics,
      (name = f.name ∧ labels = m.labels ∧ m.value.scalar? = some x) ∨
      (hasTotals m.value.kind = true ∧ name = m.value.kind.pointName f.name ∧
        labels.erase m.value.kind.pointLabel = m.labels ∧ ∃ p ∈ m.value.points,
          (labels.get? m.value.kind.pointLabel).bind (fun text => Double.read? text.toList) =
            some p.1 ∧ p.2 = x) ∨
      ∃ total ∈ [Total.sum, .count], name = f.name ++ total.ending ∧ labels = m.labels ∧
        m.value.total? total = some x := by
  constructor
  · rintro (⟨family, metric, named, labelled, number⟩ |
      ⟨family, metric, composite, named, labelled, given, number⟩ |
      @⟨f, m, total, family, metric, named, labelled, number⟩)
    · exact ⟨_, family, _, metric, .inl ⟨named, labelled, number⟩⟩
    · exact ⟨_, family, _, metric, .inr (.inl ⟨composite, named, labelled, _, number, given, rfl⟩)⟩
    · refine ⟨f, family, m, metric, .inr (.inr ⟨total, ?_, named, labelled, number⟩)⟩
      cases total <;> decide
  · rintro ⟨f, family, m, metric, ⟨named, labelled, number⟩ |
      ⟨composite, named, labelled, ⟨bound, y⟩, number, given, rfl⟩ |
      ⟨total, -, named, labelled, number⟩⟩
    · exact .scalar family metric named labelled number
    · exact .point family metric composite named labelled given number
    · exact .total family metric named labelled number

instance (families : List Family) (name : String) (labels : Labels) (x : Double) :
    Decidable (Represented families name labels x) :=
  decidable_of_iff _ represented_iff.symm

/-- The kind of the metric that a sample comes to, by what has been told of its name. -/
def takenKind (told : Transcript) (name : String) (labels : Labels) (labelled : Bool) : Kind :=
  let declared := told.kinds.get? name
  if declared.any hasTotals && labelled then declared.getD .untyped
  else if (looseBucket? name ⟨labels, Transcript.valueOf declared .zero⟩).isSome then .histogram
  else (Transcript.valueOf declared .zero).kind

/-- Why a sample is passed over that follows some lines and is followed by others.  `told` is what
has been told before it, and `whole` is what is told in the end. -/
inductive PassedOver (order : VisitOrder) (told whole : Transcript) (later : List (List Char))
    (name : String) (labels : Labels) (labelled : Bool) : Prop
  /-- The name is one of points, and the bound or the share cannot be read. -/
  | unread {kind : Kind} (declared : told.kinds.get? name = some kind)
      (composite : hasTotals kind = true) (given : labelled = true)
      (unread : (labels.get? kind.pointLabel).bind (fun text => Double.read? text.toList) = none)
  /-- The points of the name and the labels are those of another kind. -/
  | otherGroup {kind : Kind} {g : Group} (declared : told.kinds.get? name = some kind)
      (composite : hasTotals kind = true) (given : labelled = true) (there : g ∈ whole.groups)
      (named : g.name = name) (same : g.labels = labels.erase kind.pointLabel)
      (other : g.kind ≠ kind)
  /-- The family has another kind. -/
  | otherKind {title : String} {f : Family}
      (named : name = (takenKind told name labels labelled).pointName title)
      (found : (gather order whole).get? title = some f)
      (other : f.kind ≠ takenKind told name labels labelled)
  /-- A later line gives the total again. -/
  | overwritten {base : String} {total : Total} {line : List Char} {text : Option (List Char)}
      {number : List Char} (named : name = base ++ total.ending)
      (composite : ∃ f, (gather order whole).get? base = some f ∧ hasTotals f.kind = true)
      (there : line ∈ later) (entry : Entry.ofLine? line = some (.sample name text number))
      (same : (text.map Entry.labels).getD .empty = labels)

/-! ## Metrics that are gathered -/

/-- The samples that are gathered after one of them come of later lines. -/
theorem gathered_split (order : VisitOrder) {t : Transcript} {name : String} {m : Metric}
    {earlier later : List (String × Metric)}
    (all : t.metrics.reverse = earlier ++ (name, m) :: later) (own : looseBucket? name m = none) :
    ∃ before after, gathered order t = before ++ (name, m) :: after ∧
      ∀ p ∈ after, p.2.value.scalar?.isSome → p ∈ later := by
  refine ⟨earlier.filter fun s => (looseBucket? s.1 s.2).isNone,
    later.filter (fun s => (looseBucket? s.1 s.2).isNone) ++
      ((order.groups t.groups).map (fun g => (g.title, metricOf g)) ++
        (order.loose (looseBuckets t.metrics.reverse)).map fun l =>
          (l.name, ⟨l.labels, histogramOf l.points⟩)), ?_, fun p there scalar => ?_⟩
  · have first : (t.metrics.reverse.filter fun s => (looseBucket? s.1 s.2).isNone) =
        earlier.filter (fun s => (looseBucket? s.1 s.2).isNone) ++
          (name, m) :: later.filter fun s => (looseBucket? s.1 s.2).isNone := by
      rw [all, List.filter_append, List.filter_cons_of_pos (by simp [own])]
    rw [gathered, ownMetrics, first]
    simp only [List.append_assoc, List.cons_append]
  · rw [List.mem_append, List.mem_append, List.mem_map, List.mem_map] at there
    rcases there with there | ⟨g, -, rfl⟩ | ⟨l, -, rfl⟩
    · exact (List.mem_filter.mp there).1
    · rw [metricOf] at scalar
      cases kind : g.isSummary <;> simp [kind, summaryOf, histogramOf, Value.scalar?] at scalar
    · cases scalar

section Gathered

variable {order : VisitOrder} (fair : order.Fair) {t : Transcript}
include fair

theorem mem_familiesOf_of_composite {name : String} {f : Family}
    (found : (gather order t).get? name = some f) (composite : hasTotals f.kind = true) :
    { f with metrics := settleAll (gather order t) f.name [.sum, .count] f.metrics } ∈
      familiesOf order t :=
  (mem_familiesOf_iff fair t).mpr ⟨name, f, found, by rw [settled, if_pos composite]⟩

/-- The points of a metric that is gathered are represented, unless its family has another kind. -/
theorem represented_of_points {title name : String} {m : Metric} {labels : Labels}
    {bound x : Double} (there : (title, m) ∈ gathered order t)
    (composite : hasTotals m.value.kind = true) (named : name = m.value.kind.pointName title)
    (labelled : labels.erase m.value.kind.pointLabel = m.labels)
    (given : (labels.get? m.value.kind.pointLabel).bind (fun text => Double.read? text.toList) =
      some bound)
    (number : (bound, x) ∈ m.value.points) :
    Represented (familiesOf order t) name labels x ∨
      ∃ f, (gather order t).get? title = some f ∧ f.kind ≠ m.value.kind := by
  obtain ⟨f, found, among⟩ := mem_of_gathered there
  by_cases same : f.kind = m.value.kind
  · have family := mem_familiesOf_of_composite fair found (same ▸ composite)
    obtain ⟨m', metric, kept⟩ := mem_settleAll (gather order t) f.name [.sum, .count] (among same)
    have title_ : f.name = title := (homogeneous_gather order t).named found
    rw [← title_, ← kept.kind] at named
    rw [← kept.kind, ← kept.labels] at labelled
    rw [← kept.kind] at given composite
    rw [← kept.points] at number
    exact .inl (.point family metric composite named labelled given number)
  · exact .inr ⟨f, found, same⟩

/-- A sample that is moved nowhere is represented by its own metric. -/
theorem represented_of_unmoved {name : String} {f : Family} {m : Metric} {x : Double}
    (found : (gather order t).get? name = some f) (there : m ∈ f.metrics)
    (number : m.value.scalar? = some x) (stays : isTotal (gather order t) name m = false) :
    Represented (familiesOf order t) name m.labels x := by
  have sound := homogeneous_gather order t
  have own : f.name = name := sound.named found
  have scalar : hasTotals f.kind = false := by simp [← sound.kinds found m there, number]
  have left : m ∈ f.metrics.filter (!isTotal (gather order t) f.name ·) := by
    rw [List.mem_filter, own, stays]
    exact ⟨there, rfl⟩
  have family : { f with metrics := f.metrics.filter (!isTotal (gather order t) f.name ·) } ∈
      familiesOf order t := by
    refine (mem_familiesOf_iff fair t).mpr ⟨name, f, found, ?_⟩
    rw [settled, if_neg (by simp [scalar]), without, if_neg]
    simp only [List.isEmpty_iff]
    exact List.ne_nil_of_mem left
  exact .scalar family left own.symm rfl number

/-- The last total with some labels is represented by the metric with these labels. -/
theorem represented_of_last {base : String} {total : Total} {f : Family} {u : Metric} {x : Double}
    (found : (gather order t).get? base = some f) (composite : hasTotals f.kind = true)
    (own : belongs f.metrics u = true)
    (last : lastTotal u.labels (samplesOf (gather order t) (base ++ total.ending)) = some x) :
    Represented (familiesOf order t) (base ++ total.ending) u.labels x := by
  have sound := homogeneous_gather order t
  rw [belongs, Bool.and_eq_true, List.any_eq_true] at own
  obtain ⟨-, m, there, same⟩ := own
  have composites : ∀ m ∈ f.metrics, hasTotals m.value.kind = true := fun m among => by
    rw [sound.kinds found m among]
    exact composite
  have both : [Total.sum, .count].Nodup ∧ total ∈ [Total.sum, .count] := by
    cases total <;> decide
  have family := mem_familiesOf_of_composite fair found composite
  rw [← sound.named found] at last ⊢
  obtain ⟨m', metric, labelled, number⟩ := exists_settleAll both.1 both.2 composites
    ⟨m, there, of_decide_eq_true same⟩ last
  exact .total family metric rfl labelled.symm number

omit fair in
/-- The last total with the labels of a sample is that sample, or one that is gathered later. -/
theorem lastTotal_of_gathered {name : String} {f : Family} {m : Metric}
    {before after : List (String × Metric)}
    (split : gathered order t = before ++ (name, m) :: after)
    (found : (gather order t).get? name = some f) (kind : m.value.kind = f.kind) {x : Double}
    (number : m.value.scalar? = some x) :
    lastTotal m.labels (samplesOf (gather order t) name) = some x ∨
      ∃ u, (name, u) ∈ after ∧ u.labels = m.labels ∧ u.value.scalar?.isSome := by
  have samples : samplesOf (gather order t) name = f.metrics := by
    rw [samplesOf, found]
    rfl
  have metrics := metrics_of_gather found
  rw [split, metricsUnder_append, metricsUnder_cons_self, List.filter_append,
    List.filter_cons_of_pos (by simp [kind])] at metrics
  cases last : lastTotal m.labels ((metricsUnder name after).filter (·.value.kind = f.kind)) with
  | none =>
      left
      rw [samples, metrics, lastTotal_append, lastTotal, last]
      simp [number]
  | some y =>
      obtain ⟨u, there, labelled, scalar⟩ := mem_of_lastTotal last
      have among := mem_metricsUnder_iff.mp (List.mem_filter.mp there).1
      exact .inr ⟨u, among, labelled, by simp [scalar]⟩

/-- A sample that stands for itself is represented, unless its family has another kind or it is a
total that is given again. -/
theorem represented_of_scalar {name : String} {m : Metric} {x : Double}
    {earlier later : List (String × Metric)}
    (all : t.metrics.reverse = earlier ++ (name, m) :: later) (own : looseBucket? name m = none)
    (number : m.value.scalar? = some x) :
    Represented (familiesOf order t) name m.labels x ∨
      (∃ f, (gather order t).get? name = some f ∧ f.kind ≠ m.value.kind) ∨
        ∃ base, ∃ total : Total, name = base ++ total.ending ∧
          (∃ f, (gather order t).get? base = some f ∧ hasTotals f.kind = true) ∧
            ∃ u, (name, u) ∈ later ∧ u.labels = m.labels := by
  obtain ⟨before, after, split, given⟩ := gathered_split order all own
  have there : (name, m) ∈ gathered order t := by
    rw [split]
    simp
  obtain ⟨f, found, among⟩ := mem_of_gathered there
  by_cases same : f.kind = m.value.kind
  · cases moved : isTotal (gather order t) name m with
    | false => exact .inl (represented_of_unmoved fair found (among same) number moved)
    | true =>
        obtain ⟨base, total, g, rfl, base_, composite, belongs⟩ :=
          (isTotal_iff (homogeneous_gather order t)).mp moved
        rcases lastTotal_of_gathered split found same.symm number with
          last | ⟨u, later_, labelled, scalar⟩
        · exact .inl (represented_of_last fair base_ composite belongs last)
        · exact .inr (.inr ⟨base, total, rfl, ⟨g, base_, composite⟩, u, given _ later_ scalar,
            labelled⟩)
  · exact .inr (.inl ⟨f, found, same⟩)

end Gathered

/-! ## Entries that are read -/

theorem isSome_looseBucket? (name : String) (labels : Labels) (declared : Option Kind)
    (x y : Double) :
    (looseBucket? name ⟨labels, Transcript.valueOf declared x⟩).isSome =
      (looseBucket? name ⟨labels, Transcript.valueOf declared y⟩).isSome := by
  have untyped : (looseBucket? name ⟨labels, .untyped x⟩).isSome =
      (looseBucket? name ⟨labels, .untyped y⟩).isSome := by
    rw [looseBucket?, looseBucket?]
    dsimp only
    split
    · split <;> rfl
    · rfl
  rcases declared with _ | (_ | _ | _ | _ | _)
  case some.counter => rfl
  case some.gauge => rfl
  all_goals exact untyped

theorem kind_valueOf (declared : Option Kind) (x y : Double) :
    (Transcript.valueOf declared x).kind = (Transcript.valueOf declared y).kind := by
  rcases declared with _ | (_ | _ | _ | _ | _) <;> rfl

theorem ofLines_append (before later : List (List Char)) {line : List Char} {e : Entry}
    (entry : Entry.ofLine? line = some e) :
    Transcript.ofLines (before ++ line :: later) =
      (later.filterMap Entry.ofLine?).foldl Transcript.add ((Transcript.ofLines before).add e) := by
  simp only [Transcript.ofLines, List.filterMap_append, List.filterMap_cons_some entry,
    List.foldl_append, List.foldl_cons]

theorem titled_ofLines (lines : List (List Char)) : (Transcript.ofLines lines).Titled :=
  Transcript.titled_foldl_add _ Transcript.titled_empty

/-- The kind of a sample that is no point. -/
theorem takenKind_of_alone {told : Transcript} {name : String} {labelled : Bool}
    (alone : ∀ kind, told.kinds.get? name = some kind → hasTotals kind = true → labelled = false)
    (labels : Labels) (x : Double) :
    takenKind told name labels labelled =
      if (looseBucket? name ⟨labels, Transcript.valueOf (told.kinds.get? name) x⟩).isSome then
        .histogram
      else (Transcript.valueOf (told.kinds.get? name) x).kind := by
  have none_ : ((told.kinds.get? name).any hasTotals && labelled) = false := by
    cases found : told.kinds.get? name with
    | none => rfl
    | some kind =>
        cases composite : hasTotals kind with
        | false => simp [composite]
        | true => simp [alone kind found composite]
  rw [takenKind, none_, isSome_looseBucket? name labels _ x .zero, kind_valueOf _ x .zero]
  rfl

/-- A sample that stands for itself comes after what was told before it, and the samples after it
are those of later lines. -/
theorem metrics_ofLines {before later : List (List Char)} {line : List Char} {name : String}
    {text : Option (List Char)} {number : List Char} {x : Double}
    (read : Double.read? number = some x)
    (entry : Entry.ofLine? line = some (.sample name text number))
    (alone : ∀ kind, (Transcript.ofLines before).kinds.get? name = some kind →
      hasTotals kind = true → text = none) :
    ∃ after, (Transcript.ofLines (before ++ line :: later)).metrics.reverse =
        (Transcript.ofLines before).metrics.reverse ++
          (name, ⟨(text.map Entry.labels).getD .empty,
            Transcript.valueOf ((Transcript.ofLines before).kinds.get? name) x⟩) :: after ∧
      ∀ s ∈ after, ∃ line ∈ later, ∃ text number,
        Entry.ofLine? line = some (.sample s.1 text number) ∧
          (text.map Entry.labels).getD .empty = s.2.labels := by
  have added : (Transcript.ofLines before).add (.sample name text number) =
      (Transcript.ofLines before).addScalar name ((text.map Entry.labels).getD .empty)
        (Transcript.valueOf ((Transcript.ofLines before).kinds.get? name) x) := by
    rw [Transcript.add, read]
    exact Transcript.addSample_of_scalar alone x
  obtain ⟨after, all, gives⟩ := Transcript.metrics_foldl_add (later.filterMap Entry.ofLine?)
    ((Transcript.ofLines before).add (.sample name text number))
  refine ⟨after, ?_, fun s there => ?_⟩
  · rw [ofLines_append before later entry, all, added, Transcript.addScalar, List.reverse_cons,
      List.append_assoc]
    rfl
  · obtain ⟨e, member, text', number', y, rfl, -, same, -⟩ := gives s there
    obtain ⟨line', there', entry'⟩ := List.mem_filterMap.mp member
    exact ⟨line', there', text', number', entry', same⟩

/-- A sample that is read as a point is in a group of its name and its labels, whatever comes
after it. -/
theorem groups_ofLines {before later : List (List Char)} {line text : List Char} {name : String}
    {number : List Char} {kind : Kind} {bound x : Double} (read : Double.read? number = some x)
    (entry : Entry.ofLine? line = some (.sample name (some text) number))
    (declared : (Transcript.ofLines before).kinds.get? name = some kind)
    (composite : hasTotals kind = true)
    (given : ((Entry.labels text).get? kind.pointLabel).bind (fun s => Double.read? s.toList) =
      some bound) :
    ∃ g ∈ (Transcript.ofLines (before ++ line :: later)).groups, g.name = name ∧
      g.labels = (Entry.labels text).erase kind.pointLabel ∧ (bound, x) ∈ g.points := by
  obtain ⟨g, there, named, labelled, number⟩ :
      ∃ g ∈ ((Transcript.ofLines before).add (.sample name (some text) number)).groups,
        g.name = name ∧ g.labels = (Entry.labels text).erase kind.pointLabel ∧
          (bound, x) ∈ g.points := by
    rw [Transcript.add, read]
    dsimp only
    rw [Transcript.addSample_of_composite declared composite,
      Transcript.addGrouped_eq _ composite, given]
    exact Transcript.mem_addPoint.2.1
  obtain ⟨g', there', within⟩ := Transcript.groups_foldl_add (later.filterMap Entry.ofLine?) there
  rw [ofLines_append before later entry]
  exact ⟨g', there', within.name.trans named, within.labels.trans labelled, within.points number⟩

section Entries

variable {order : VisitOrder} (fair : order.Fair) {before later : List (List Char)}
  {line : List Char} {name : String} {number : List Char} {x : Double}
  (read : Double.read? number = some x)
include fair read

/-- A sample that is read as a point. -/
theorem represented_of_point {text : List Char} {kind : Kind} {bound : Double}
    (entry : Entry.ofLine? line = some (.sample name (some text) number))
    (declared : (Transcript.ofLines before).kinds.get? name = some kind)
    (composite : hasTotals kind = true)
    (given : ((Entry.labels text).get? kind.pointLabel).bind (fun s => Double.read? s.toList) =
      some bound) :
    Represented (familiesOf order (Transcript.ofLines (before ++ line :: later))) name
        (Entry.labels text) x ∨
      PassedOver order (Transcript.ofLines before) (Transcript.ofLines (before ++ line :: later))
        later name (Entry.labels text) true := by
  have whole := titled_ofLines (before ++ line :: later)
  have taken : takenKind (Transcript.ofLines before) name (Entry.labels text) true = kind := by
    simp [takenKind, declared, composite]
  obtain ⟨g, there, named, labelled, number⟩ := groups_ofLines read entry declared composite given
  by_cases same : g.kind = kind
  · have metric := mem_gathered_of_group fair there
    obtain ⟨labels, kind_, points⟩ := metricOf_eq g
    have own := whole.groups g there
    rw [← same] at declared composite given labelled taken
    rw [← kind_] at composite given labelled own
    rw [named] at own
    rcases represented_of_points fair metric composite own (labelled.symm.trans labels.symm) given
      (points _ number) with here | ⟨f, found, other⟩
    · exact .inl here
    · rw [kind_] at other own
      exact .inr (.otherKind (taken.symm ▸ own) found (taken.symm ▸ other))
  · exact .inr (.otherGroup declared composite rfl there named labelled same)

omit read in
/-- A sample that is read as a loose bucket. -/
theorem represented_of_loose {labels labels' : Labels} {base : String} {bound y : Double}
    {declared : Option Kind} {t : Transcript}
    (there : (name, ⟨labels, Transcript.valueOf declared x⟩) ∈ t.metrics.reverse)
    (loose : looseBucket? name ⟨labels, Transcript.valueOf declared x⟩ =
      some (base, labels', bound, y)) :
    Represented (familiesOf order t) name labels x ∨
      ∃ f, name = Kind.histogram.pointName base ∧ (gather order t).get? base = some f ∧
        f.kind ≠ .histogram := by
  obtain ⟨named, value, erased, given⟩ := of_looseBucket? loose
  have named : name = Kind.histogram.pointName base := named
  have same : y = x := by
    have scalar := Transcript.scalar?_valueOf declared x
    rw [show Transcript.valueOf declared x = .untyped y from value] at scalar
    exact Option.some.inj scalar
  subst same
  obtain ⟨l, among, rfl, labelled, points⟩ := mem_looseBuckets there loose
  rcases represented_of_points fair (mem_gathered_of_loose fair among) rfl named
    (erased.symm.trans labelled.symm) given (mem_points_histogramOf points) with
    here | ⟨f, found, other⟩
  · exact .inl here
  · exact .inr ⟨f, named, found, other⟩

/-- A sample that is read as one that stands for itself, or as a loose bucket. -/
theorem represented_of_number {text : Option (List Char)} {labels : Labels}
    (entry : Entry.ofLine? line = some (.sample name text number))
    (labels_eq : (text.map Entry.labels).getD .empty = labels)
    (alone : ∀ kind, (Transcript.ofLines before).kinds.get? name = some kind →
      hasTotals kind = true → text = none) :
    Represented (familiesOf order (Transcript.ofLines (before ++ line :: later))) name labels x ∨
      PassedOver order (Transcript.ofLines before) (Transcript.ofLines (before ++ line :: later))
        later name labels text.isSome := by
  obtain ⟨after, split, given⟩ := metrics_ofLines read entry alone
  rw [labels_eq] at split
  have scalar := Transcript.scalar?_valueOf ((Transcript.ofLines before).kinds.get? name) x
  have kind := takenKind_of_alone (fun kind found composite =>
    (congrArg Option.isSome (alone kind found composite) : text.isSome = false)) labels x
  cases loose : looseBucket? name
      ⟨labels, Transcript.valueOf ((Transcript.ofLines before).kinds.get? name) x⟩ with
  | some parts =>
      obtain ⟨base, labels', bound, y⟩ := parts
      rw [loose] at kind
      have taken : takenKind (Transcript.ofLines before) name labels text.isSome = .histogram :=
        kind
      rcases represented_of_loose fair (by rw [split]; simp) loose with
        here | ⟨f, named, found, other⟩
      · exact .inl here
      · exact .inr (.otherKind (taken.symm ▸ named) found (taken.symm ▸ other))
  | none =>
      rw [loose] at kind
      rcases represented_of_scalar fair split loose scalar with
        here | ⟨f, found, other⟩ | ⟨base, total, named, composite, u, among, labelled⟩
      · exact .inl here
      · refine .inr (.otherKind ?_ found (kind.symm ▸ other))
        have taken : takenKind (Transcript.ofLines before) name labels text.isSome =
            (Transcript.valueOf ((Transcript.ofLines before).kinds.get? name) x).kind := kind
        rw [taken, Kind.pointName_of_scalar (by simp [scalar])]
      · obtain ⟨line', there, text', number', entry', same⟩ := given _ among
        exact .inr (.overwritten named composite there entry' (same.trans labelled))

end Entries

/-! ## Lines that are spelled in a plain way -/

theorem eq_of_readIn {order : VisitOrder} {body : List Char} {families : List Family}
    (accepted : readIn order body = .ok families) :
    families = familiesOf order (Transcript.ofLines (Text.lines body)) := by
  rw [readIn] at accepted
  dsimp only at accepted
  split at accepted
  · cases accepted
  · split at accepted
    · cases accepted
    · cases accepted
      rfl

/-- A sample line that is spelled in a plain way is represented in the families that are read, by
its name, its labels and its number, or it has been passed over. -/
theorem represented_of_plain {order : VisitOrder} (fair : order.Fair) {body : List Char}
    {families : List Family} (accepted : readIn order body = .ok families)
    {before later : List (List Char)} {line : List Char}
    (lines : Text.lines body = before ++ line :: later) {s : Spelling} (valid : s.Valid)
    (plain : s.Plain) (spelled : trim line = s.text) {x : Double}
    (number : Double.read? s.number = some x) :
    Represented families (String.ofList s.name) s.labelSet x ∨
      PassedOver order (Transcript.ofLines before) (Transcript.ofLines (Text.lines body)) later
        (String.ofList s.name) s.labelSet s.braces.isSome := by
  have entry := Spelling.ofLine?_of_plain valid plain spelled
  have labels := Spelling.labels_of_plain valid plain
  rw [Spelling.entry] at entry
  rw [eq_of_readIn accepted, lines]
  -- Labels under a declared name make a point of the sample, and nothing else does.
  by_cases point : ∃ kind,
      (Transcript.ofLines before).kinds.get? (String.ofList s.name) = some kind ∧
      hasTotals kind = true ∧ s.braces ≠ none
  · obtain ⟨kind, declared, composite, braced⟩ := point
    obtain ⟨braces, equal⟩ := Option.ne_none_iff_exists'.mp braced
    rw [equal] at entry labels ⊢
    cases given : (s.labelSet.get? kind.pointLabel).bind fun text => Double.read? text.toList with
    | none => exact .inr (.unread declared composite rfl given)
    | some bound =>
        rw [← labels] at given ⊢
        exact represented_of_point fair number entry declared composite given
  · have alone : ∀ kind, (Transcript.ofLines before).kinds.get? (String.ofList s.name) = some kind →
        hasTotals kind = true →
          s.braces.map (fun braces => Spelling.inner braces.1 braces.2) = none := by
      intro kind declared composite
      cases braces : s.braces with
      | none => rfl
      | some parts => exact absurd ⟨kind, declared, composite, by simp [braces]⟩ point
    have same : (s.braces.map fun braces => Spelling.inner braces.1 braces.2).isSome =
        s.braces.isSome := Option.isSome_map
    rw [← same]
    exact represented_of_number fair number entry labels alone

theorem eq_ok_of_toOption {ε α : Type} {result : Except ε α} {a : α}
    (found : result.toOption = some a) : result = .ok a := by
  cases result with
  | error e => cases found
  | ok b => exact congrArg Except.ok (Option.some.inj found)

/-- The line of a bucket. -/
def bucketLine : Spelling where
  name := "size_bucket".toList
  braces := some ([⟨[], "job".toList, [], [], "api".toList, []⟩,
    ⟨[], "le".toList, [], [], "1".toList, []⟩], [])
  number := "2".toList

/-- The bucket is in the histogram that was declared before, and nothing speaks against it. -/
theorem represented_bucketLine :
    ∃ families, readIn ⟨id, id, id⟩ ("# TYPE size histogram\n".toList ++ bucketLine.text) =
        .ok families ∧
      Represented families "size_bucket" bucketLine.labelSet (.ofNat 2) := by
  have fair : (⟨id, id, id⟩ : VisitOrder).Fair := ⟨List.Perm.refl, List.Perm.refl, List.Perm.refl⟩
  have accepted : readIn ⟨id, id, id⟩ ("# TYPE size histogram\n".toList ++ bucketLine.text) =
      .ok [⟨"size", none, .histogram, [⟨.ofList [("job", "api")],
        .histogram ⟨[⟨.ofNat 1, .ofNat 2⟩], .zero, .zero⟩⟩]⟩] :=
    eq_ok_of_toOption (by decide +kernel)
  have lines : Text.lines ("# TYPE size histogram\n".toList ++ bucketLine.text) =
      ["# TYPE size histogram".toList] ++ bucketLine.text :: [] := by decide
  have valid : bucketLine.Valid := by decide +kernel
  have plain : bucketLine.Plain := by decide
  have taken := represented_of_plain fair accepted lines valid plain (by decide)
    (by decide +kernel : _ = some (.ofNat 2))
  refine ⟨_, accepted, taken.resolve_right fun passedOver => ?_⟩
  -- There are no other kinds than that of histograms, and no later lines.
  have told : (Transcript.ofLines ["# TYPE size histogram".toList]).kinds.get?
      (String.ofList bucketLine.name) = some .histogram := by decide +kernel
  have kind : takenKind (Transcript.ofLines ["# TYPE size histogram".toList])
      (String.ofList bucketLine.name) bucketLine.labelSet true = .histogram := by decide +kernel
  let whole := Transcript.ofLines
    (Text.lines ("# TYPE size histogram\n".toList ++ bucketLine.text))
  have groups : ∀ g ∈ whole.groups, g.kind = .histogram := by decide +kernel
  have families : ∀ f ∈ (gather ⟨id, id, id⟩ whole).values, f.kind = .histogram := by
    decide +kernel
  cases passedOver with
  | unread declared _ _ unread =>
      cases told.symm.trans declared
      exact absurd unread (by decide +kernel)
  | otherGroup declared _ _ there _ _ other =>
      cases told.symm.trans declared
      exact other (groups _ there)
  | otherKind _ found other =>
      exact other ((families _ (Dict.mem_values_iff.mpr ⟨_, found⟩)).trans kind.symm)
  | overwritten _ _ there => cases there

/-! ## Lines that are lost -/

/-- A sample line between other lines. -/
structure Placed where
  /-- The text before it. -/
  before : String
  /-- The line. -/
  line : Spelling
  /-- The text after it. -/
  after : String

namespace Placed

/-- The exposition. -/
def body (p : Placed) : List Char := p.before.toList ++ (p.line.text ++ p.after.toList)

/-- Whether the exposition is read with the line in it, and the line is not found in what is
read. -/
def Lost (p : Placed) : Prop :=
  p.line.Valid ∧ (∃ line ∈ Text.lines p.body, trim line = p.line.text) ∧
    ∃ families ∈ (read p.body).toOption, ∃ x ∈ Double.read? p.line.number,
      ¬Represented families (String.ofList p.line.name) p.line.labelSet x

instance (p : Placed) : Decidable p.Lost := inferInstanceAs (Decidable (_ ∧ _ ∧ _))

end Placed

/-- A label without blanks. -/
def bareLabel (name quoted : String) : LabelSpelling where
  name := name.toList
  quoted := quoted.toList

/-- A line with labels directly after its name, with the number one. -/
def labelledLine (name : String) (labels : List LabelSpelling) : Spelling where
  name := name.toList
  braces := some (labels, [])
  number := ['1']

/-- A line without labels, with the number one. -/
def bareLine (name : String) : Spelling where
  name := name.toList
  number := ['1']

/-- Lines that are read otherwise than they are spelled, one for each thing that a plain line does
not have. -/
def unplainLines : List Spelling :=
  [bareLine "ns:up",
    { labelledLine "up" [bareLabel "job" "api"] with gap := [' '] },
    labelledLine "up" [],
    { labelledLine "up" [bareLabel "job" "api"] with space := [] },
    labelledLine "up" [{ bareLabel "job" "api" with before := [' '] }],
    labelledLine "up" [{ bareLabel "job" "api" with afterName := [' '] }],
    labelledLine "up" [{ bareLabel "job" "api" with beforeQuote := [' '] }],
    labelledLine "up" [{ bareLabel "job" "api" with after := [' '] }],
    labelledLine "up" [bareLabel "job" "a,b"],
    labelledLine "up" [bareLabel "job" "a=b"],
    labelledLine "up" [bareLabel "job" "a\x7db"],
    labelledLine "up" [bareLabel "job" "a\\\"b"],
    labelledLine "up" [bareLabel "job" "a\\\\b"],
    labelledLine "up" [bareLabel "job" "a\\nb"]]

/-- Plain lines that are passed over, one for each reason. -/
def passedOverLines : List Placed :=
  [⟨"ok 2\n# TYPE size histogram\n", labelledLine "size_bucket" [bareLabel "job" "api"], ""⟩,
    ⟨"# TYPE size histogram\nsize_bucket\x7ble=\"1\"\x7d 1\n# TYPE size_bucket summary\n",
      labelledLine "size_bucket" [bareLabel "quantile" "0.5"], ""⟩,
    ⟨"up 2\n# TYPE up gauge\n", bareLine "up", ""⟩,
    ⟨"# TYPE size summary\nsize\x7bquantile=\"1\"\x7d 2\n", bareLine "size_sum",
      "\nsize_sum 3"⟩]

/-- A line that the line check accepts may be lost, if it is not plain or if it is passed over. -/
theorem lost_lines :
    (∀ s ∈ unplainLines, Placed.Lost ⟨"ok 2\n", s, ""⟩) ∧
      ∀ p ∈ passedOverLines, p.line.Plain ∧ p.Lost := by
  decide +kernel

end Exposition

end Telemetry
