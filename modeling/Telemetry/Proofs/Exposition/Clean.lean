import Telemetry.Proofs.Exposition.Totals
import Telemetry.Proofs.Exposition.Transcript
import Telemetry.Proofs.Exposition.Written

/-!
# Clean families

Not every family can be told from what is written of it.  It can if it is *clean*:
its names have no colons, nothing in its labels is escaped, no label has the name
that a bound or a share is given under, buckets ascend, and no two histograms or
summaries have the same labels.  Of several families none may have the name under
which another exposes buckets or totals.

What is read back of a clean family is the family, save for two things: histograms
have the bucket for plus infinity, and what is not a number has lost its sign.
-/

namespace Telemetry

open Text

/-! ## Lines -/

namespace Line

/-- Whether a line is written in a plain way. -/
def Plain : Line → Prop
  | help name text => IsName isLabelChar name.toList ∧ IsPlainHelp text.toList
  | type name _ => IsName isLabelChar name.toList
  | sample s => s.Plain

/-- What a line tells. -/
def entry : Line → Entry
  | help name text => .help name text
  | type name kind => .type name kind
  | sample s => s.entry

theorem Plain.named {line : Line} (plain : line.Plain) : line.Named := by
  have name : ∀ {name : List Char}, IsName isLabelChar name → IsName isNameChar name := fun h =>
    ⟨h.nonempty, h.start, fun c there => isNameChar_of_isLabelChar (h.all c there)⟩
  cases line with
  | help => exact name plain.1
  | type => exact name plain
  | sample s => exact Sample.Plain.named plain

theorem ofLine?_text {line : Line} (plain : line.Plain) :
    Entry.ofLine? line.text = some line.entry := by
  cases line with
  | help => exact ofLine?_help plain.1 plain.2
  | type => exact ofLine?_type plain _
  | sample s => exact Sample.ofLine?_text plain

end Line

/-! ## What is read back -/

namespace Value

/-- A value with other numbers. -/
def mapNumbers (f : Double → Double) : Value → Value
  | counter x => counter (f x)
  | gauge x => gauge (f x)
  | untyped x => untyped (f x)
  | histogram d =>
    histogram ⟨d.buckets.map fun b => ⟨f b.upperBound, f b.cumulativeCount⟩, f d.count, f d.sum⟩
  | summary d => summary ⟨d.quantiles.map fun q => ⟨f q.quantile, f q.value⟩, f d.count, f d.sum⟩

/-- A value whose buckets end with the one for plus infinity. -/
def closed : Value → Value
  | histogram d => histogram d.closed
  | value => value

/-- A value as it is read back. -/
def reread (v : Value) : Value := v.closed.mapNumbers Double.reread

@[simp] theorem kind_reread (v : Value) : v.reread.kind = v.kind := by
  cases v <;> rfl

theorem points_reread (v : Value) :
    v.reread.points = v.closed.points.map fun p => (p.1.reread, p.2.reread) := by
  cases v <;> simp [reread, closed, mapNumbers, points]

theorem total?_reread (v : Value) (total : Total) :
    v.reread.total? total = (v.total? total).map Double.reread := by
  cases v with
  | histogram d =>
      have same : d.closed.sum = d.sum ∧ d.closed.count = d.count := by
        rw [Distribution.closed]
        split <;> exact ⟨rfl, rfl⟩
      cases total <;> simp [reread, closed, mapNumbers, total?, same]
  | summary d => cases total <;> rfl
  | _ => rfl

theorem total?_of_composite {v : Value} (composite : Exposition.hasTotals v.kind = true)
    (total : Total) : ∃ x, v.total? total = some x := by
  cases v with
  | histogram d => exact ⟨_, rfl⟩
  | summary d => exact ⟨_, rfl⟩
  | _ => cases composite

end Value

namespace Metric

/-- A metric as it is read back. -/
def reread (m : Metric) : Metric := ⟨m.labels, m.value.reread⟩

/-- The sample of a point. -/
def pointSample (name : String) (m : Metric) (p : Double × Double) : Sample :=
  ⟨m.value.kind.pointName name, m.labels.toList ++ [(m.value.kind.pointLabel, boundText p.1)], p.2⟩

/-- The samples of totals. -/
def totals (name : String) (m : Metric) : List (String × Metric) :=
  [Total.sum, .count].filterMap fun total =>
    (m.value.total? total).map fun x => (name ++ total.ending, ⟨m.labels, .untyped x⟩)

/-- The samples that stand for themselves. -/
def scalars (name : String) (m : Metric) : List (String × Metric) :=
  if Exposition.hasTotals m.value.kind then m.totals name else [(name, m)]

/-- The group of the points. -/
def group (name : String) (m : Metric) : Group :=
  ⟨m.value.kind.pointName name, name, decide (m.value.kind = .summary), m.labels, m.value.points⟩

/-- The group of the points if there is one. -/
def groups (name : String) (m : Metric) : List Group :=
  if Exposition.hasTotals m.value.kind then [m.group name] else []

/-- A histogram or a summary is exposed as its points and then its totals. -/
theorem samples_of_composite {m : Metric} (composite : Exposition.hasTotals m.value.kind = true)
    (name : String) :
    m.samples name = m.value.closed.points.map (m.pointSample name) ++
      [Total.sum, .count].filterMap fun total =>
        (m.value.total? total).map fun x => ⟨name ++ total.ending, m.labels.toList, x⟩ := by
  obtain ⟨labels, value⟩ := m
  cases value with
  | histogram d =>
      have points : d.bucketSamples name labels =
          (Value.histogram d).closed.points.map (pointSample name ⟨labels, .histogram d⟩) := by
        rw [Distribution.bucketSamples_eq, Value.closed, Value.points, List.map_map]
        rfl
      rw [samples, ← points]
      rfl
  | summary d =>
      have points : (d.quantiles.map fun q =>
            (⟨name, labels.toList ++ [(Quantile.label, boundText q.quantile)], q.value⟩ : Sample)) =
          (Value.summary d).closed.points.map (pointSample name ⟨labels, .summary d⟩) := by
        change _ = (Value.summary d).points.map _
        rw [Value.points, List.map_map]
        rfl
      rw [← points]
      rfl
  | _ => cases composite

theorem samples_of_scalar {m : Metric} (scalar : Exposition.hasTotals m.value.kind = false)
    (name : String) :
    ∃ x, m.value.scalar? = some x ∧ m.samples name = [⟨name, m.labels.toList, x⟩] ∧
      m.value.reread = Transcript.valueOf (some m.value.kind) x.reread := by
  obtain ⟨labels, value⟩ := m
  cases value with
  | histogram d => cases scalar
  | summary d => cases scalar
  | _ => exact ⟨_, rfl, rfl, rfl⟩

end Metric

namespace Family

/-- A family as it is read back. -/
def reread (f : Family) : Family := { f with metrics := f.metrics.map (·.reread) }

/-- The samples that stand for themselves. -/
def scalars (f : Family) : List (String × Metric) := f.metrics.flatMap (·.scalars f.name)

/-- The groups of the points. -/
def groups (f : Family) : List Group := f.metrics.flatMap (·.groups f.name)

end Family

/-! ## Clean families -/

/-- Whether buckets ascend, and each bound is a number, or there is a quantile. -/
def Value.Clean : Value → Prop
  | .histogram d =>
    (d.buckets.Pairwise fun a b => a.upperBound.position ≤ b.upperBound.position) ∧
      ∀ b ∈ d.buckets, ∀ negative, b.upperBound ≠ .nan negative
  | .summary d => d.quantiles ≠ []
  | _ => True

instance : ∀ v : Value, Decidable v.Clean
  | .histogram _ => inferInstanceAs (Decidable (_ ∧ _))
  | .summary _ => inferInstanceAs (Decidable (_ ≠ _))
  | .counter _ | .gauge _ | .untyped _ => isTrue trivial

/-- Whether a metric can be told from what is written of it. -/
@[mk_iff]
structure Metric.Clean (m : Metric) : Prop where
  /-- Its labels have names. -/
  names : ∀ l ∈ m.labels.toList, IsName isLabelChar l.1.toList
  /-- There is nothing in their values that would be escaped or could be taken for an end. -/
  values : ∀ l ∈ m.labels.toList, ∀ c ∈ l.2.toList, isPlainChar c = true ∧ c ≠ '\\' ∧ c ≠ '\n'
  /-- No label is taken for a bound. -/
  noBound : m.labels.get? Bucket.label = none
  /-- No label is taken for a share. -/
  noShare : m.labels.get? Quantile.label = none
  value : m.value.Clean

instance (m : Metric) : Decidable m.Clean := decidable_of_iff _ (Metric.clean_iff m).symm

/-- Whether a family can be told from what is written of it. -/
@[mk_iff]
structure Family.Clean (f : Family) : Prop where
  name : IsName isLabelChar f.name.toList
  help : ∀ text, f.help = some text → IsPlainHelp text.toList
  nonempty : f.metrics ≠ []
  kinds : ∀ m ∈ f.metrics, m.value.kind = f.kind
  metrics : ∀ m ∈ f.metrics, m.Clean
  /-- Histograms and summaries are told apart by their labels. -/
  distinct : Exposition.hasTotals f.kind = true → (f.metrics.map (·.labels)).Nodup

instance (f : Family) : Decidable (∀ text, f.help = some text → IsPlainHelp text.toList) :=
  inferInstanceAs (Decidable (∀ text ∈ f.help, IsPlainHelp text.toList))

instance (f : Family) : Decidable f.Clean := decidable_of_iff _ (Family.clean_iff f).symm

instance {p : Total → Prop} [DecidablePred p] : Decidable (∀ total, p total) :=
  decidable_of_iff (p .sum ∧ p .count)
    ⟨fun ⟨sum, count⟩ total => by cases total <;> assumption, fun all => ⟨all .sum, all .count⟩⟩

/-- Whether families can be told apart by what is written of them. -/
@[mk_iff]
structure Clean (families : List Family) : Prop where
  each : ∀ f ∈ families, f.Clean
  names : (families.map (·.name)).Nodup
  /-- No family has the name of the buckets or of a total of another. -/
  apart : ∀ f ∈ families, Exposition.hasTotals f.kind = true → ∀ g ∈ families,
    g.name ≠ f.name ++ Bucket.ending ∧ ∀ total : Total, g.name ≠ f.name ++ total.ending

instance (families : List Family) : Decidable (Clean families) :=
  decidable_of_iff _ (clean_iff families).symm

theorem Family.Clean.kind_of_mem {f : Family} (clean : f.Clean) {m : Metric}
    (there : m ∈ f.reread.metrics) : m.value.kind = f.kind := by
  obtain ⟨m', member, rfl⟩ := List.mem_map.mp there
  exact (Value.kind_reread m'.value).trans (clean.kinds m' member)

theorem Family.Clean.nodup_labels {f : Family} (clean : f.Clean)
    (composite : Exposition.hasTotals f.kind = true) :
    (f.reread.metrics.map (·.labels)).Nodup := by
  have labels : f.reread.metrics.map (·.labels) = f.metrics.map (·.labels) := by
    simp [Family.reread, Metric.reread]
  rw [labels]
  exact clean.distinct composite

theorem IsName.append {allowed : Char → Bool} {name ending : List Char} (h : IsName allowed name)
    (all : ∀ c ∈ ending, allowed c = true) : IsName allowed (name ++ ending) := by
  obtain ⟨c, more, rfl, -⟩ := h.head
  refine ⟨List.cons_ne_nil _ _, h.start, fun d there => ?_⟩
  exact (List.mem_append.mp there).elim (h.all d) (all d)

theorem isName_pointLabel (kind : Kind) : IsName isLabelChar kind.pointLabel.toList := by
  have bound : IsName isLabelChar Bucket.label.toList := by decide
  have share : IsName isLabelChar Quantile.label.toList := by decide
  rw [Kind.pointLabel]
  split
  · exact share
  · exact bound

/-- A metric is exposed under its name, which may be given an ending, and with its labels and
perhaps that of a point. -/
theorem Metric.of_mem_samples {m : Metric} {name : String} {s : Sample}
    (there : s ∈ m.samples name) :
    (∃ ending : String, s.name = name ++ ending ∧ ∀ c ∈ ending.toList, isLabelChar c = true) ∧
      ∀ l ∈ s.labels, l ∈ m.labels.toList ∨ ∃ x, l = (m.value.kind.pointLabel, boundText x) := by
  have noEnding : ∃ ending : String,
      name = name ++ ending ∧ ∀ c ∈ ending.toList, isLabelChar c = true :=
    ⟨"", by simp, by simp⟩
  cases composite : Exposition.hasTotals m.value.kind with
  | false =>
      obtain ⟨x, -, samples, -⟩ := samples_of_scalar composite name
      rw [samples, List.mem_singleton] at there
      subst there
      exact ⟨noEnding, fun l among => .inl among⟩
  | true =>
      rw [samples_of_composite composite, List.mem_append, List.mem_map,
        List.mem_filterMap] at there
      rcases there with ⟨p, -, rfl⟩ | ⟨total, -, there⟩
      · refine ⟨?_, fun l among => ?_⟩
        · change ∃ ending, m.value.kind.pointName name = name ++ ending ∧ _
          rw [Kind.pointName]
          split
          · exact ⟨Bucket.ending, rfl, by decide⟩
          · exact noEnding
        · rcases List.mem_append.mp among with own | point
          · exact .inl own
          · exact .inr ⟨p.1, List.mem_singleton.mp point⟩
      · obtain ⟨x, -, rfl⟩ := Option.map_eq_some_iff.mp there
        refine ⟨⟨total.ending, rfl, ?_⟩, fun l among => .inl among⟩
        cases total <;> decide

/-- What is exposed of a metric whose labels have names has names, if that of the metric is one. -/
theorem Metric.named_samples {m : Metric} {name : String} (title : IsName isNameChar name.toList)
    (names : ∀ l ∈ m.labels.toList, IsName isLabelChar l.1.toList) :
    ∀ s ∈ m.samples name, s.Named := by
  intro s there
  obtain ⟨⟨ending, called, chars⟩, labels⟩ := of_mem_samples there
  constructor
  · rw [called, String.toList_append]
    exact title.append fun c among => isNameChar_of_isLabelChar (chars c among)
  · intro l among
    rcases labels l among with own | ⟨x, rfl⟩
    · exact names l own
    · exact isName_pointLabel _

namespace Family

/-- Whether a family and the labels of its metrics have names. -/
@[mk_iff]
structure Named (f : Family) : Prop where
  name : IsName isNameChar f.name.toList
  labels : ∀ m ∈ f.metrics, ∀ l ∈ m.labels.toList, IsName isLabelChar l.1.toList

instance (f : Family) : Decidable f.Named := decidable_of_iff _ (named_iff f).symm

theorem Named.line {f : Family} (named : f.Named) : ∀ line ∈ f.lines, line.Named := by
  intro line there
  rw [lines, List.mem_append, List.mem_append, List.mem_singleton, List.mem_map,
    List.mem_map] at there
  rcases there with (⟨text, -, rfl⟩ | rfl) | ⟨s, given, rfl⟩
  · exact named.name
  · exact named.name
  · obtain ⟨m, metric, sample⟩ := List.mem_flatMap.mp given
    exact Metric.named_samples named.name (named.labels m metric) s sample

end Family

/-- What is written of a clean metric is written in a plain way. -/
theorem Metric.Clean.plain {m : Metric} (clean : m.Clean) {name : String}
    (h : IsName isLabelChar name.toList) : ∀ s ∈ m.samples name, s.Plain := by
  intro s there
  obtain ⟨⟨ending, named, chars⟩, labels⟩ := of_mem_samples there
  refine ⟨?_, fun l among => ?_, fun l among => ?_⟩
  · rw [named, String.toList_append]
    exact h.append chars
  · rcases labels l among with own | ⟨x, rfl⟩
    · exact clean.names l own
    · exact isName_pointLabel _
  · rcases labels l among with own | ⟨x, rfl⟩
    · exact clean.values l own
    · intro c there
      rw [boundText, String.toList_ofList] at there
      exact (by decide : ∀ c ∈ Double.textChars, isPlainChar c = true ∧ c ≠ '\\' ∧ c ≠ '\n') c
        (Double.mem_textChars_of_mem_text there)

/-- What is written of clean families is written in a plain way. -/
theorem Clean.plain {families : List Family} (clean : Clean families) :
    ∀ line ∈ families.flatMap Family.lines, line.Plain := by
  intro line there
  obtain ⟨f, member, there⟩ := List.mem_flatMap.mp there
  have own := clean.each f member
  rw [Family.lines, List.mem_append, List.mem_append, List.mem_singleton, List.mem_map,
    List.mem_map] at there
  rcases there with (⟨text, given, rfl⟩ | rfl) | ⟨s, given, rfl⟩
  · exact ⟨own.name, own.help text (Option.mem_toList.mp given)⟩
  · exact own.name
  · obtain ⟨m, metric, sample⟩ := List.mem_flatMap.mp given
    exact (own.metrics m metric).plain own.name s sample

theorem Metric.Clean.noPointLabel {m : Metric} (clean : m.Clean) (kind : Kind) :
    m.labels.get? kind.pointLabel = none := by
  rw [Kind.pointLabel]
  split
  · exact clean.noShare
  · exact clean.noBound

theorem points_closed_ne_nil {v : Value} (clean : v.Clean)
    (composite : Exposition.hasTotals v.kind = true) : v.closed.points ≠ [] := by
  cases v with
  | histogram d =>
      intro empty
      rw [Value.closed, Value.points, List.map_eq_nil_iff, Distribution.closed] at empty
      split at empty
      next closed => simp [Distribution.isClosed, empty] at closed
      next => simp at empty
  | summary d => exact fun empty => clean (List.map_eq_nil_iff.mp empty)
  | _ => cases composite

theorem bucketName_ne_total (name base : String) (total : Total) :
    name ++ Bucket.ending ≠ base ++ total.ending := by
  have bucket : Bucket.ending.toList = ['_', 'b', 'u', 'c', 'k', 'e', 't'] := by decide
  have sum : Total.sum.ending.toList = ['_', 's', 'u', 'm'] := by decide
  have count : Total.count.ending.toList = ['_', 'c', 'o', 'u', 'n', 't'] := by decide
  intro equal
  have texts := congrArg (fun s => s.toList.reverse) equal
  cases total with
  | sum => simp [bucket, sum] at texts
  | count => simp [bucket, count] at texts

theorem pointName_ne_total {name base : String} {kind : Kind} {total : Total}
    (apart : name ≠ base ++ total.ending) : kind.pointName name ≠ base ++ total.ending := by
  rw [Kind.pointName]
  split
  · exact bucketName_ne_total name base total
  · exact apart

theorem Clean.tail {f : Family} {families : List Family}
    (clean : Clean (f :: families)) : Clean families where
  each := fun g there => clean.each g (List.mem_cons_of_mem f there)
  names := (List.nodup_cons.mp clean.names).2
  apart := fun g there composite g' there' =>
    clean.apart g (List.mem_cons_of_mem f there) composite g' (List.mem_cons_of_mem f there')

/-- The points of different families are told apart by their names. -/
theorem Clean.pointName_ne {families : List Family} (clean : Clean families) {f g : Family}
    (hf : f ∈ families) (hg : g ∈ families) (different : f.name ≠ g.name)
    (composite : Exposition.hasTotals f.kind = true)
    (composite' : Exposition.hasTotals g.kind = true) :
    f.kind.pointName f.name ≠ g.kind.pointName g.name := by
  rw [Kind.pointName, Kind.pointName]
  split
  · split
    · intro equal
      exact different ((String.append_left_inj _).mp equal)
    · exact fun equal => (clean.apart f hf composite g hg).1 equal.symm
  · split
    · exact (clean.apart g hg composite' f hf).1
    · exact different

end Telemetry
