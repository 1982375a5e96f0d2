import Telemetry.Proofs.Exposition.Clean
import Telemetry.Proofs.Lookup

/-!
# Transcripts of written lines

What is written of clean families is taken into a transcript line by line.  A metric
that is one number is one sample there.  A histogram or a summary is one group and
two samples, which are its totals.

The lines of one family change nothing that those of another depend on
(`Ready.next`).  So the transcript holds the samples and the groups of all families,
in order (`foldl_add_families`).
-/

namespace Telemetry

open Text

/-! ## Samples -/

namespace Transcript

/-- The labels that are read from a sample. -/
theorem labels_entry {s : Sample} (plain : s.Plain) :
    ∃ text, s.entry = .sample s.name text s.value.text ∧ (text = none ↔ s.labels = []) ∧
      (text.map Entry.labels).getD .empty = .ofList s.labels := by
  have read := Spelling.labels_of_plain (Sample.valid_spelling plain.named)
    (Sample.plain_spelling plain)
  rw [Sample.labelSet_spelling] at read
  refine ⟨_, rfl, ?_, ?_⟩
  · cases s.labels <;> simp
  · rw [← read, Sample.spelling]
    cases s.labels <;> rfl

theorem add_scalar {t : Transcript} {s : Sample} (plain : s.Plain)
    (kind : ∀ kind, t.kinds.get? s.name = some kind → Exposition.hasTotals kind = false) :
    t.add s.entry =
      t.addScalar s.name (.ofList s.labels) (valueOf (t.kinds.get? s.name) s.value.reread) := by
  obtain ⟨text, entry, -, labels⟩ := labels_entry plain
  rw [entry, add, Double.read?_text, ← labels]
  refine addSample_of_scalar (fun k found composite => ?_) _
  rw [kind k found] at composite
  cases composite

theorem add_grouped {t : Transcript} {s : Sample} (plain : s.Plain) (labelled : s.labels ≠ [])
    {kind : Kind} (declared : t.kinds.get? s.name = some kind)
    (composite : Exposition.hasTotals kind = true) :
    t.add s.entry =
      t.addGrouped (decide (kind = .summary)) s.name (.ofList s.labels) s.value.reread := by
  obtain ⟨text, entry, none_, labels⟩ := labels_entry plain
  cases text with
  | none => exact absurd (none_.mp rfl) labelled
  | some text =>
      rw [entry, add, Double.read?_text, ← labels]
      exact addSample_of_composite declared composite text _

end Transcript

/-! ## Metrics -/

namespace Transcript

/-- A transcript with more samples and more groups. -/
def extend (t : Transcript) (scalars : List (String × Metric)) (groups : List Group) : Transcript :=
  { t with metrics := scalars.reverse ++ t.metrics, groups := t.groups ++ groups }

@[simp] theorem extend_nil (t : Transcript) : t.extend [] [] = t := by
  simp [extend]

@[simp] theorem extend_extend (t : Transcript) (scalars scalars' : List (String × Metric))
    (groups groups' : List Group) :
    (t.extend scalars groups).extend scalars' groups' =
      t.extend (scalars ++ scalars') (groups ++ groups') := by
  simp [extend]

/-- Whether a transcript has been told the kind of a name. -/
structure Knows (t : Transcript) (name : String) (kind : Kind) : Prop where
  declared : t.kinds.get? (kind.pointName name) = some kind
  title : kind = .histogram → t.titles.get? (kind.pointName name) = some name
  /-- Nothing has been told about the names of totals. -/
  totals : Exposition.hasTotals kind = true →
    ∀ total : Total, t.kinds.get? (name ++ total.ending) = none

section Points

variable {t : Transcript} {name : String} {m : Metric} (knows : t.Knows name m.value.kind)
  (composite : Exposition.hasTotals m.value.kind = true) (clean : m.Clean)
include knows composite clean

theorem add_point {p : Double × Double} (plain : (m.pointSample name p).Plain) :
    t.add (m.pointSample name p).entry =
      { t with
        groups :=
          addPoint { m.group name with points := [] } (p.1.reread, p.2.reread) t.groups } := by
  have labelled : (m.pointSample name p).labels ≠ [] := by simp [Metric.pointSample]
  have title : (if decide (m.value.kind = .summary) then m.value.kind.pointName name
      else (t.titles.get? (m.value.kind.pointName name)).getD (m.value.kind.pointName name)) =
        name := by
    have told := knows.title
    cases equal : m.value.kind with
    | histogram =>
        rw [equal] at told
        simp [told rfl]
    | summary => rfl
    | _ =>
        rw [equal] at composite
        cases composite
  have key : (if decide (m.value.kind = .summary) then Quantile.label else Bucket.label) =
      m.value.kind.pointLabel := by
    simp [Kind.pointLabel]
  have absent := clean.noPointLabel m.value.kind
  rw [add_grouped plain labelled knows.declared composite, addGrouped]
  dsimp only [Metric.pointSample] at *
  rw [Dict.ofList_append_singleton, key, Dict.get?_insert, if_pos rfl, Option.bind_some, boundText,
    String.toList_ofList, Double.read?_text]
  dsimp only
  rw [title, Dict.erase_insert absent]
  rfl

/-- The points of a metric come into a group of their own. -/
theorem foldl_add_points (plain : ∀ s ∈ m.samples name, s.Plain)
    (fresh : ∀ g ∈ t.groups, g.name = m.value.kind.pointName name → g.labels ≠ m.labels) :
    ((m.value.closed.points.map (m.pointSample name)).map Sample.entry).foldl add t =
      t.extend [] [m.reread.group name] := by
  have run : ∀ (points : List (Double × Double)), (∀ p ∈ points, (m.pointSample name p).Plain) →
      ((points.map (m.pointSample name)).map Sample.entry).foldl add t = { t with
        groups := (points.map fun p => (p.1.reread, p.2.reread)).foldl
          (fun gs point => addPoint { m.group name with points := [] } point gs) t.groups } := by
    intro points plain
    induction points using List.reverseRecOn with
    | nil => rfl
    | append_singleton points p ih =>
        have before := ih fun q there => plain q (List.mem_append_left _ there)
        have knows' : Knows { t with
            groups := (points.map fun p => (p.1.reread, p.2.reread)).foldl
              (fun gs point => addPoint { m.group name with points := [] } point gs) t.groups }
            name m.value.kind := ⟨knows.declared, knows.title, knows.totals⟩
        simp only [List.map_append, List.foldl_append, before, List.map_cons, List.map_nil,
          List.foldl_cons, List.foldl_nil]
        exact add_point knows' composite clean (plain p (by simp))
  have nonempty : m.value.closed.points.map (fun p => (p.1.reread, p.2.reread)) ≠ [] := by
    rw [ne_eq, List.map_eq_nil_iff]
    exact points_closed_ne_nil clean.value composite
  have all : ∀ p ∈ m.value.closed.points, (m.pointSample name p).Plain := fun p there =>
    plain _ (by
      rw [Metric.samples_of_composite composite]
      exact List.mem_append_left _ (List.mem_map_of_mem there))
  rw [run _ all, foldl_addPoint fresh nonempty, extend, ← Value.points_reread]
  simp [Metric.group, Metric.reread]

omit clean in
/-- The totals of a metric stand for themselves, since nothing is known of their names. -/
theorem foldl_add_totals (plain : ∀ s ∈ m.samples name, s.Plain) :
    (([Total.sum, .count].filterMap fun total => (m.value.total? total).map fun x =>
        (⟨name ++ total.ending, m.labels.toList, x⟩ : Sample)).map Sample.entry).foldl add t =
      t.extend (m.reread.totals name) [] := by
  have one : ∀ (t : Transcript), t.Knows name m.value.kind → ∀ (total : Total) (x : Double),
      m.value.total? total = some x →
      t.add (Sample.entry ⟨name ++ total.ending, m.labels.toList, x⟩) =
        t.addScalar (name ++ total.ending) m.labels (.untyped x.reread) := by
    intro t knows total x given
    have none_ := knows.totals composite total
    have sample : Sample.Plain ⟨name ++ total.ending, m.labels.toList, x⟩ := plain _ (by
      rw [Metric.samples_of_composite composite]
      refine List.mem_append_right _ (List.mem_filterMap.mpr ⟨total, ?_, by simp [given]⟩)
      cases total <;> simp)
    rw [add_scalar sample (by simp [none_])]
    simp only [none_, Dict.ofList_toList]
    rfl
  obtain ⟨sum, given⟩ := Value.total?_of_composite composite .sum
  obtain ⟨count, given'⟩ := Value.total?_of_composite composite .count
  have then_ := one (t.addScalar (name ++ Total.sum.ending) m.labels (.untyped sum.reread))
    ⟨knows.declared, knows.title, knows.totals⟩ .count count given'
  simp only [List.filterMap_cons, List.filterMap_nil, given, given', Option.map_some,
    List.map_cons, List.map_nil, List.foldl_cons, List.foldl_nil, one t knows .sum sum given, then_]
  simp [extend, Metric.totals, Metric.reread, Value.total?_reread, given, given', addScalar]

end Points

/-- The lines of one metric. -/
theorem foldl_add_metric {t : Transcript} {name : String} {m : Metric}
    (knows : t.Knows name m.value.kind) (clean : m.Clean) (h : IsName isLabelChar name.toList)
    (fresh : Exposition.hasTotals m.value.kind = true →
      ∀ g ∈ t.groups, g.name = m.value.kind.pointName name → g.labels ≠ m.labels) :
    ((m.samples name).map Sample.entry).foldl add t =
      t.extend (m.reread.scalars name) (m.reread.groups name) := by
  have plain := clean.plain h
  have kind : m.reread.value.kind = m.value.kind := Value.kind_reread m.value
  rw [Metric.scalars, Metric.groups, kind]
  cases composite : Exposition.hasTotals m.value.kind with
  | true =>
      have knows' : (t.extend [] [m.reread.group name]).Knows name m.value.kind :=
        ⟨knows.declared, knows.title, knows.totals⟩
      rw [Metric.samples_of_composite composite, List.map_append, List.foldl_append,
        foldl_add_points knows composite clean plain (fresh composite),
        foldl_add_totals knows' composite plain]
      simp
  | false =>
      obtain ⟨x, -, samples, value⟩ := Metric.samples_of_scalar composite name
      have declared : t.kinds.get? name = some m.value.kind := by
        have told := knows.declared
        rwa [Kind.pointName_of_scalar composite] at told
      rw [samples] at plain ⊢
      rw [List.map_singleton, List.foldl_cons, List.foldl_nil,
        add_scalar (plain _ List.mem_cons_self) (by simpa [declared] using composite)]
      simp only [declared, Dict.ofList_toList, ← value]
      simp [extend, addScalar, Metric.reread]

/-- The lines of the metrics of a name. -/
theorem foldl_add_metrics {name : String} (h : IsName isLabelChar name.toList) {kind : Kind} :
    ∀ {ms : List Metric} {t : Transcript}, t.Knows name kind → (∀ m ∈ ms, m.value.kind = kind) →
      (∀ m ∈ ms, m.Clean) → (Exposition.hasTotals kind = true → (ms.map (·.labels)).Nodup) →
      (Exposition.hasTotals kind = true →
        ∀ g ∈ t.groups, g.name = kind.pointName name → ∀ m ∈ ms, g.labels ≠ m.labels) →
      ((ms.flatMap (·.samples name)).map Sample.entry).foldl add t =
        t.extend (ms.flatMap (·.reread.scalars name)) (ms.flatMap (·.reread.groups name))
  | [], t, _, _, _, _, _ => by simp
  | m :: ms, t, knows, kinds, clean, distinct, fresh => by
      obtain rfl : m.value.kind = kind := kinds m List.mem_cons_self
      have step := foldl_add_metric knows (clean m List.mem_cons_self) h
        fun composite g there same => fresh composite g there same m List.mem_cons_self
      have knows' :
          (t.extend (m.reread.scalars name) (m.reread.groups name)).Knows name m.value.kind :=
        ⟨knows.declared, knows.title, knows.totals⟩
      have fresh' : Exposition.hasTotals m.value.kind = true →
          ∀ g ∈ (t.extend (m.reread.scalars name) (m.reread.groups name)).groups,
            g.name = m.value.kind.pointName name → ∀ m' ∈ ms, g.labels ≠ m'.labels := by
        intro composite g there same m' later
        rcases List.mem_append.mp there with there | there
        · exact fresh composite g there same m' (List.mem_cons_of_mem m later)
        · rw [Metric.groups] at there
          split at there
          · rw [List.mem_singleton.mp there]
            intro equal
            exact (List.nodup_cons.mp (distinct composite)).1
              (List.mem_map.mpr ⟨m', later, equal.symm⟩)
          · cases there
      rw [List.flatMap_cons, List.map_append, List.foldl_append, step,
        foldl_add_metrics h knows' (fun m' there => kinds m' (List.mem_cons_of_mem m there))
          (fun m' there => clean m' (List.mem_cons_of_mem m there))
          (fun composite => (List.nodup_cons.mp (distinct composite)).2) fresh',
        extend_extend]
      rfl

/-! ## Families -/

/-- A transcript that has been told the help and the kind of a family. -/
def tell (t : Transcript) (f : Family) : Transcript :=
  (f.help.elim t fun text => { t with helps := t.helps.insert f.name text }).setKind f.name f.kind

/-- Whether nothing in a transcript is taken for a part of a family. -/
structure Ready (t : Transcript) (f : Family) : Prop where
  totals : Exposition.hasTotals f.kind = true →
    ∀ total : Total, t.kinds.get? (f.name ++ total.ending) = none
  groups : Exposition.hasTotals f.kind = true →
    ∀ g ∈ t.groups, g.name ≠ f.kind.pointName f.name

theorem setKind_eq (t : Transcript) (name : String) (kind : Kind) :
    (t.setKind name kind).kinds = t.kinds.insert (kind.pointName name) kind ∧
      (t.setKind name kind).helps = t.helps ∧ (t.setKind name kind).metrics = t.metrics ∧
        (t.setKind name kind).groups = t.groups := by
  cases kind <;> exact ⟨rfl, rfl, rfl, rfl⟩

theorem tell_eq (t : Transcript) (f : Family) :
    (t.tell f).kinds = t.kinds.insert (f.kind.pointName f.name) f.kind ∧
      (∀ name, (t.tell f).helps.get? name =
        if name = f.name then f.help <|> t.helps.get? name else t.helps.get? name) ∧
        (t.tell f).metrics = t.metrics ∧ (t.tell f).groups = t.groups := by
  rw [tell]
  obtain ⟨kinds, helps, metrics, groups⟩ := setKind_eq
    (f.help.elim t fun text => { t with helps := t.helps.insert f.name text }) f.name f.kind
  rw [kinds, helps, metrics, groups]
  cases f.help with
  | none => simp
  | some text => simp

theorem name_of_mem_groups {f : Family} (clean : f.Clean) {g : Group}
    (there : g ∈ f.reread.groups) :
    Exposition.hasTotals f.kind = true ∧ g.name = f.kind.pointName f.name ∧ g.title = f.name := by
  obtain ⟨m, member, there⟩ := List.mem_flatMap.mp there
  have kind : m.value.kind = f.kind := clean.kind_of_mem member
  rw [Metric.groups, kind] at there
  split at there
  next composite =>
    rw [List.mem_singleton.mp there, Metric.group, kind]
    exact ⟨composite, rfl, rfl⟩
  next => cases there

/-- The lines of one family. -/
theorem foldl_add_lines {t : Transcript} {f : Family} (clean : f.Clean) (ready : t.Ready f) :
    (f.lines.map Line.entry).foldl add t =
      (t.tell f).extend f.reread.scalars f.reread.groups := by
  obtain ⟨kinds, -, -, groups⟩ := t.tell_eq f
  have knows : (t.tell f).Knows f.name f.kind := by
    refine ⟨by simp [kinds], fun equal => ?_, fun composite total => ?_⟩
    · rw [tell, equal]
      simp [setKind, Kind.pointName]
    · have other : f.name ++ total.ending ≠ f.kind.pointName f.name :=
        (pointName_ne_total (Total.append_ending_ne f.name total).symm).symm
      rw [kinds, Dict.get?_insert, if_neg other]
      exact ready.totals composite total
  have fresh : Exposition.hasTotals f.kind = true → ∀ g ∈ (t.tell f).groups,
      g.name = f.kind.pointName f.name → ∀ m ∈ f.metrics, g.labels ≠ m.labels := by
    intro composite g there same
    rw [groups] at there
    exact absurd same (ready.groups composite g there)
  have told : ((f.help.toList.map (Line.help f.name) ++ [Line.type f.name f.kind]).map
      Line.entry).foldl add t = t.tell f := by
    rw [tell]
    cases f.help <;> rfl
  have samples : ((f.metrics.flatMap (·.samples f.name)).map Line.sample).map Line.entry =
      (f.metrics.flatMap (·.samples f.name)).map Sample.entry := List.map_map
  rw [Family.lines, List.map_append, List.foldl_append, told, samples,
    foldl_add_metrics clean.name knows clean.kinds clean.metrics clean.distinct fresh]
  simp [Family.scalars, Family.groups, Family.reread, List.flatMap_map, Metric.reread]

/-- The next families are as they were after the lines of one. -/
theorem Ready.next {t : Transcript} {f g : Family} {families : List Family}
    (clean : Clean (f :: families)) (ready : t.Ready g) (there : g ∈ families) :
    ((t.tell f).extend f.reread.scalars f.reread.groups).Ready g := by
  obtain ⟨kinds, -, -, groups⟩ := t.tell_eq f
  have here : g ∈ f :: families := List.mem_cons_of_mem f there
  constructor
  · intro composite total
    have other : g.name ++ total.ending ≠ f.kind.pointName f.name :=
      (pointName_ne_total ((clean.apart g here composite f List.mem_cons_self).2 total)).symm
    change (t.tell f).kinds.get? _ = none
    rw [kinds, Dict.get?_insert, if_neg other]
    exact ready.totals composite total
  · intro composite g' there'
    rcases List.mem_append.mp there' with old | new
    · rw [groups] at old
      exact ready.groups composite g' old
    · obtain ⟨composite', name, -⟩ := name_of_mem_groups (clean.each f List.mem_cons_self) new
      have different : f.name ≠ g.name := fun equal =>
        (List.nodup_cons.mp clean.names).1 (List.mem_map.mpr ⟨g, there, equal.symm⟩)
      rw [name]
      exact clean.pointName_ne List.mem_cons_self here different composite' composite

/-- The lines of some families. -/
theorem foldl_add_families {families : List Family} {t : Transcript} (clean : Clean families)
    (ready : ∀ f ∈ families, t.Ready f) :
    let read := ((families.flatMap Family.lines).map Line.entry).foldl add t
    read.metrics = (families.flatMap (·.reread.scalars)).reverse ++ t.metrics ∧
      read.groups = t.groups ++ families.flatMap (·.reread.groups) ∧
        ∀ name, read.helps.get? name =
          ((families.find? (·.name = name)).bind (·.help) <|> t.helps.get? name) := by
  induction families generalizing t with
  | nil => simp
  | cons f families ih =>
      have own := foldl_add_lines (clean.each f List.mem_cons_self) (ready f List.mem_cons_self)
      obtain ⟨-, helps, metrics, groups⟩ := t.tell_eq f
      obtain ⟨metrics', groups', helps'⟩ := ih clean.tail fun g there =>
        (ready g (List.mem_cons_of_mem f there)).next clean there
      rw [List.flatMap_cons, List.map_append, List.foldl_append, own]
      refine ⟨?_, ?_, fun name => ?_⟩
      · rw [metrics']
        simp [extend, metrics]
      · rw [groups']
        simp [extend, groups]
      · rw [helps']
        simp only [extend, helps]
        by_cases same : f.name = name
        · have absent : families.find? (·.name = name) = none := by
            rw [List.find?_eq_none]
            intro g there equal
            rw [decide_eq_true_eq] at equal
            exact (List.nodup_cons.mp clean.names).1
              (List.mem_map.mpr ⟨g, there, equal.trans same.symm⟩)
          simp [same, absent]
        · simp [same, Ne.symm same]

end Transcript

/-- The transcript of an exposition that is written in a plain way. -/
theorem ofLines_exposition {families : List Family}
    (plain : ∀ line ∈ families.flatMap Family.lines, line.Plain) :
    Transcript.ofLines (Text.lines (exposition families)) =
      ((families.flatMap Family.lines).map Line.entry).foldl Transcript.add .empty := by
  have read : ((families.flatMap Family.lines).map Line.text).filterMap Entry.ofLine? =
      (families.flatMap Family.lines).map Line.entry := by
    rw [List.filterMap_map, List.filterMap_eq_map_iff_forall_eq_some]
    exact fun line there => Line.ofLine?_text (plain line there)
  have last : Entry.ofLine? [] = none := rfl
  rw [Transcript.ofLines, lines_exposition fun line there => (plain line there).named,
    List.filterMap_append, read, List.filterMap_cons_none last, List.filterMap_nil, List.append_nil]

end Telemetry
