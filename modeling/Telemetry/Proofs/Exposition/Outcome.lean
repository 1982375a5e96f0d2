import Telemetry.Proofs.Exposition.AnyOrder

/-!
# What comes of a reading

A body is refused for its first line that is no sample where one must be, and the
error has the number of that line (`firstInvalid?_eq_some_iff`).  It is refused as
well if it has sample lines and nothing at all is read off them.  In every other case
families are read, and they are in good order (`InGoodOrder`).

The families are made in three steps, and each of them keeps what is so of single
metrics (`Metric.Tidy`).  A group does not have the label that tells its points apart
(`Transcript.Stripped`), and neither have loose buckets, so no metric that is made of
points does.  A metric that comes into a family is left as it is.  Totals that are
moved change no labels, no kinds and no points (`Metric.Tidy.settle`).
-/

namespace Telemetry

open Text (trim)

/-! ## Groups -/

namespace Transcript

/-- Whether no group has the label that tells its points apart. -/
def Stripped (t : Transcript) : Prop :=
  ∀ g ∈ t.groups, g.labels.get? g.kind.pointLabel = none

theorem Stripped.add {t : Transcript} (stripped : t.Stripped) (e : Entry) :
    (t.add e).Stripped := by
  cases e with
  | help name text => exact stripped
  | type name kind =>
      cases kind with
      | _ => exact stripped
  | sample name text number =>
      have takes := t.takes name text number
      generalize t.add (.sample name text number) = t' at takes
      cases takes with
      | nothing => exact stripped
      | scalar => exact stripped
      | @point _ _ kind _ _ _ _ composite =>
          intro g' there
          rcases mem_addPoint.2.2 g' there with ⟨g, old, within⟩ | rfl
          · rw [within.labels, Group.kind, within.isSummary]
            exact stripped g old
          · have same : (if decide (kind = .summary) then Kind.summary else .histogram) = kind := by
              cases kind with
              | histogram => rfl
              | summary => rfl
              | _ => cases composite
            simp only [Group.kind, same, Dict.get?_erase, if_true]

theorem stripped_ofLines (lines : List (List Char)) : (ofLines lines).Stripped := by
  rw [ofLines]
  have start : empty.Stripped := nofun
  generalize lines.filterMap Entry.ofLine? = entries, empty = t at start ⊢
  induction entries generalizing t with
  | nil => exact start
  | cons e entries ih => exact ih (t.add e) (start.add e)

/-- What stands for itself is one number. -/
theorem scalar_of_mem_ofLines {lines : List (List Char)} {s : String × Metric}
    (there : s ∈ (ofLines lines).metrics) : ∃ x, s.2.value.scalar? = some x := by
  obtain ⟨later, all, given⟩ := metrics_foldl_add (lines.filterMap Entry.ofLine?) empty
  have among : s ∈ later := by
    have member := List.mem_reverse.mpr there
    rw [ofLines, all] at member
    simpa [empty] using member
  obtain ⟨_, -, _, _, x, -, -, -, scalar⟩ := given s among
  exact ⟨x, scalar⟩

end Transcript

/-! ## Metrics -/

/-- Whether a metric does not have the label of its points, and its buckets ascend. -/
structure Metric.Tidy (m : Metric) : Prop where
  /-- A histogram has no bound among its labels. -/
  bound : m.value.kind = .histogram → m.labels.get? Bucket.label = none
  /-- A summary has no share among its labels. -/
  share : m.value.kind = .summary → m.labels.get? Quantile.label = none
  /-- The bounds of a histogram are in the order of all doubles. -/
  ascending : ∀ d, m.value = .histogram d →
    d.buckets.Pairwise fun a b => a.upperBound.position ≤ b.upperBound.position

namespace Exposition

theorem ascending_bucketsOf (points : List (Double × Double)) :
    (bucketsOf points).Pairwise fun a b => a.upperBound.position ≤ b.upperBound.position := by
  refine (List.pairwise_mergeSort (fun a b c first second => ?_) (fun a b => ?_) _).imp
    of_decide_eq_true
  · rw [decide_eq_true_eq] at first second ⊢
    exact Int.le_trans first second
  · rw [Bool.or_eq_true, decide_eq_true_eq, decide_eq_true_eq]
    exact Int.le_total _ _

theorem tidy_histogramOf {labels : Labels} (absent : labels.get? Bucket.label = none)
    (points : List (Double × Double)) : (⟨labels, histogramOf points⟩ : Metric).Tidy where
  bound _ := absent
  share := nofun
  ascending d made := by
    cases made
    exact ascending_bucketsOf points

theorem tidy_summaryOf {labels : Labels} (absent : labels.get? Quantile.label = none)
    (points : List (Double × Double)) : (⟨labels, summaryOf points⟩ : Metric).Tidy :=
  ⟨nofun, fun _ => absent, nofun⟩

theorem tidy_metricOf {g : Group} (stripped : g.labels.get? g.kind.pointLabel = none) :
    (metricOf g).Tidy := by
  rw [Group.kind] at stripped
  rw [metricOf]
  cases summary : g.isSummary with
  | false =>
      rw [summary] at stripped
      exact tidy_histogramOf stripped g.points
  | true =>
      rw [summary] at stripped
      exact tidy_summaryOf stripped g.points

theorem tidy_of_scalar {m : Metric} {x : Double} (scalar : m.value.scalar? = some x) : m.Tidy := by
  obtain ⟨labels, value⟩ := m
  cases value with
  | histogram d => cases scalar
  | summary d => cases scalar
  | _ => exact ⟨nofun, nofun, nofun⟩

/-- Loose buckets have lost their bounds. -/
theorem label_of_looseBuckets {samples : List (String × Metric)} {l : LooseBuckets}
    (there : l ∈ looseBuckets samples) : l.labels.get? Bucket.label = none := by
  have key : l.key ∈ (looseBuckets samples).map (·.key) := List.mem_map_of_mem there
  suffices all : ∀ k ∈ (looseBuckets samples).map (·.key), k.2.get? Bucket.label = none from
    all l.key key
  have found : ∀ p ∈ samples.filterMap (fun s => looseBucket? s.1 s.2),
      p.2.1.get? Bucket.label = none := by
    intro p among
    obtain ⟨s, -, loose⟩ := List.mem_filterMap.mp among
    obtain ⟨-, -, erased, -⟩ := of_looseBucket? loose
    rw [erased, Dict.get?_erase, if_pos rfl]
  rw [looseBuckets]
  generalize samples.filterMap (fun s => looseBucket? s.1 s.2) = points at found
  induction points using List.reverseRecOn with
  | nil => exact List.forall_mem_nil _
  | append_singleton points last ih =>
      have earlier := ih fun p among => found p (List.mem_append_left _ among)
      rw [List.foldl_append, List.foldl_cons, List.foldl_nil, keys_addLoose]
      split
      · exact earlier
      · intro k among
        rcases List.mem_append.mp among with old | new
        · exact earlier k old
        · rw [List.mem_singleton.mp new]
          exact found last (List.mem_append_right _ (List.mem_singleton_self last))

/-- All metrics that come into families are tidy. -/
theorem tidy_of_mem_gathered {order : VisitOrder} (fair : order.Fair) {lines : List (List Char)}
    {p : String × Metric} (there : p ∈ gathered order (Transcript.ofLines lines)) : p.2.Tidy := by
  rcases List.mem_append.mp there with own | loose
  · rcases List.mem_append.mp own with scalar | group
    · have among := (List.mem_filter.mp scalar).1
      obtain ⟨x, one⟩ := Transcript.scalar_of_mem_ofLines (List.mem_reverse.mp among)
      exact tidy_of_scalar one
    · obtain ⟨g, visited, rfl⟩ := List.mem_map.mp group
      exact tidy_metricOf
        (Transcript.stripped_ofLines lines g ((fair.groups _).mem_iff.mp visited))
  · obtain ⟨l, visited, rfl⟩ := List.mem_map.mp loose
    exact tidy_histogramOf (label_of_looseBuckets ((fair.loose _).mem_iff.mp visited)) l.points

/-! ## Totals -/

theorem buckets_of_setTotal {total : Total} {x : Double} {v : Value} {d : Distribution}
    (set : setTotal total x v = .histogram d) :
    ∃ d', v = .histogram d' ∧ d.buckets = d'.buckets := by
  cases v with
  | histogram d' =>
      cases set
      exact ⟨d', rfl, by cases total <;> rfl⟩
  | _ => cases set

end Exposition

namespace Metric.Tidy

open Exposition

theorem withTotal {m : Metric} (tidy : m.Tidy) (total : Total) (x : Option Double) :
    (withTotal total x m).Tidy := by
  have same := sameBut_withTotal total x m
  refine ⟨fun histogram => ?_, fun summary => ?_, fun d made => ?_⟩
  · rw [same.labels]
    exact tidy.bound (same.kind ▸ histogram)
  · rw [same.labels]
    exact tidy.share (same.kind ▸ summary)
  · cases x with
    | none => exact tidy.ascending d made
    | some x =>
        obtain ⟨d', before, buckets⟩ := buckets_of_setTotal made
        rw [buckets]
        exact tidy.ascending d' before

/-- Metrics stay tidy when totals are set in them. -/
theorem settle {ms : List Metric} (tidy : ∀ m ∈ ms, m.Tidy) (total : Total) (ts : List Metric) :
    ∀ m ∈ settle total ts ms, m.Tidy := by
  induction ms generalizing ts with
  | nil => exact nofun
  | cons first ms ih =>
      intro m there
      rcases List.mem_cons.mp there with rfl | later
      · exact (tidy first List.mem_cons_self).withTotal total _
      · exact ih (fun m among => tidy m (List.mem_cons_of_mem first among)) _ m later

theorem settleAll {families : Dict Family} {name : String} (totals : List Total)
    {ms : List Metric} (tidy : ∀ m ∈ ms, m.Tidy) :
    ∀ m ∈ settleAll families name totals ms, m.Tidy := by
  induction totals generalizing ms with
  | nil => exact tidy
  | cons total totals ih => exact ih (settle tidy total _)

end Metric.Tidy

namespace Exposition

/-! ## Families -/

/-- Whether families are as a reader leaves them. -/
structure InGoodOrder (families : List Family) : Prop where
  /-- No two have one name. -/
  distinct : (families.map (·.name)).Nodup
  /-- Each has a metric. -/
  nonempty : ∀ f ∈ families, f.metrics ≠ []
  /-- Each has metrics of its own kind only. -/
  kinds : ∀ f ∈ families, ∀ m ∈ f.metrics, m.value.kind = f.kind
  /-- Their metrics are tidy. -/
  tidy : ∀ f ∈ families, ∀ m ∈ f.metrics, m.Tidy

theorem InGoodOrder.perm {families families' : List Family} (sound : InGoodOrder families)
    (perm : families'.Perm families) : InGoodOrder families' where
  distinct := (perm.map _).nodup_iff.mpr sound.distinct
  nonempty f there := sound.nonempty f (perm.mem_iff.mp there)
  kinds f there := sound.kinds f (perm.mem_iff.mp there)
  tidy f there := sound.tidy f (perm.mem_iff.mp there)

section Settled

variable {families : Dict Family} (sound : Homogeneous families) {name : String} {f g : Family}
  (found : families.get? name = some f) (becomes : settled families f = some g)
include sound found becomes

/-- A settled family is not empty, and its metrics have its kind. -/
theorem homogeneous_settled : g.metrics ≠ [] ∧ ∀ m ∈ g.metrics, m.value.kind = g.kind := by
  have nonempty := sound.nonempty found
  have kinds := sound.kinds found
  rw [settled] at becomes
  split at becomes
  next =>
    cases becomes
    have shapes := shape_settleAll families f.name [.sum, .count] f.metrics
    refine ⟨fun empty => ?_, fun m there => ?_⟩
    · have none_ := congrArg (List.map shape) empty
      rw [shapes, List.map_nil] at none_
      exact nonempty (List.map_eq_nil_iff.mp none_)
    · obtain ⟨m', among, -, kind⟩ := exists_of_shape shapes there
      exact kind.symm.trans (kinds m' among)
  next =>
    simp only [without, List.isEmpty_iff] at becomes
    split at becomes
    next => cases becomes
    next left =>
      cases becomes
      exact ⟨left, fun m there => kinds m (List.mem_filter.mp there).1⟩

omit sound found in
theorem tidy_settled (tidy : ∀ m ∈ f.metrics, m.Tidy) : ∀ m ∈ g.metrics, m.Tidy := by
  rw [settled] at becomes
  split at becomes
  next =>
    cases becomes
    exact Metric.Tidy.settleAll _ tidy
  next =>
    simp only [without] at becomes
    split at becomes
    next => cases becomes
    next =>
      cases becomes
      exact fun m there => tidy m (List.mem_filter.mp there).1

end Settled

theorem inGoodOrder_familiesOf {order : VisitOrder} (fair : order.Fair)
    (lines : List (List Char)) : InGoodOrder (familiesOf order (Transcript.ofLines lines)) := by
  have sound := homogeneous_gather order (Transcript.ofLines lines)
  have tidy : ∀ {name f}, (gather order (Transcript.ofLines lines)).get? name = some f →
      ∀ m ∈ f.metrics, m.Tidy := by
    intro name f found m there
    rw [metrics_of_gather found] at there
    have own := mem_metricsUnder_iff.mp (List.mem_filter.mp there).1
    exact tidy_of_mem_gathered fair own
  refine ⟨?_, fun g there => ?_, fun g there => ?_, fun g there => ?_⟩
  · exact (names_familiesOf fair _).imp String.ne_of_lt
  all_goals obtain ⟨name, f, found, becomes⟩ := (mem_familiesOf_iff fair _).mp there
  · exact (homogeneous_settled sound found becomes).1
  · exact (homogeneous_settled sound found becomes).2
  · exact tidy_settled becomes (tidy found)

/-! ## Lines -/

/-- Whether a line is neither blank nor a comment, and no sample. -/
def IsMalformed (line : List Char) : Prop :=
  trim line ≠ [] ∧ (trim line).head? ≠ some '#' ∧ isSampleLine (trim line) = false

/-- Whether a line is a sample. -/
def IsSample (line : List Char) : Prop :=
  trim line ≠ [] ∧ (trim line).head? ≠ some '#' ∧ isSampleLine (trim line) = true

/-- Whether the first malformed line has some number, counting from one. -/
def FirstMalformed (lines : List (List Char)) (number : Nat) : Prop :=
  ∃ before line after, lines = before ++ line :: after ∧ number = before.length + 1 ∧
    IsMalformed line ∧ ∀ earlier ∈ before, ¬ IsMalformed earlier

theorem isMalformed_iff {line : List Char} :
    IsMalformed line ↔ (mustBeSample line && !isSampleLine (trim line)) = true := by
  simp [IsMalformed, mustBeSample, and_assoc]

theorem firstInvalid?_eq_some_iff {lines : List (List Char)} {number : Nat} :
    firstInvalid? lines = some number ↔ FirstMalformed lines number := by
  rw [firstInvalid?, Option.map_eq_some_iff]
  constructor
  · rintro ⟨index, found, rfl⟩
    obtain ⟨inside, malformed, earlier⟩ := List.findIdx?_eq_some_iff_getElem.mp found
    refine ⟨lines.take index, lines[index], lines.drop (index + 1), ?_, ?_,
      isMalformed_iff.mpr malformed, fun line there => ?_⟩
    · rw [List.getElem_cons_drop, List.take_append_drop]
    · rw [List.length_take_of_le (Nat.le_of_lt inside)]
    · obtain ⟨j, short, rfl⟩ := List.mem_iff_getElem.mp there
      rw [List.length_take] at short
      rw [List.getElem_take, isMalformed_iff]
      exact earlier j (by omega)
  · rintro ⟨before, line, after, rfl, rfl, malformed, earlier⟩
    refine ⟨before.length, List.findIdx?_eq_some_iff_getElem.mpr ⟨by simp, ?_, fun j short => ?_⟩,
      rfl⟩
    · rw [List.getElem_append_right (Nat.le_refl _)]
      simpa using isMalformed_iff.mp malformed
    · rw [List.getElem_append_left short]
      exact fun malformed => earlier _ (List.getElem_mem short) (isMalformed_iff.mpr malformed)

theorem firstInvalid?_eq_none_iff {lines : List (List Char)} :
    firstInvalid? lines = none ↔ ∀ line ∈ lines, ¬ IsMalformed line := by
  rw [firstInvalid?, Option.map_eq_none_iff, List.findIdx?_eq_none_iff]
  simp only [isMalformed_iff, Bool.not_eq_true]

/-- Where no line is malformed, those that must be samples are. -/
theorem any_mustBeSample_iff {lines : List (List Char)}
    (accepted : ∀ line ∈ lines, ¬ IsMalformed line) :
    lines.any mustBeSample = true ↔ ∃ line ∈ lines, IsSample line := by
  rw [List.any_eq_true]
  refine exists_congr fun line => and_congr_right fun there => ?_
  have notMalformed := accepted line there
  rw [isMalformed_iff, Bool.and_eq_true, Bool.not_eq_true', not_and, Bool.not_eq_false]
    at notMalformed
  have must : mustBeSample line = true ↔ trim line ≠ [] ∧ (trim line).head? ≠ some '#' := by
    simp [mustBeSample]
  rw [IsSample, ← and_assoc, ← must]
  exact ⟨fun given => ⟨given, notMalformed given⟩, And.left⟩

/-! ## Readings -/

/-- Whether there are sample lines, all lines are accepted, and nothing is read off them. -/
structure TellsNothing (lines : List (List Char)) : Prop where
  accepted : ∀ line ∈ lines, ¬ IsMalformed line
  sample : ∃ line ∈ lines, IsSample line
  /-- Nothing stands for itself. -/
  metrics : (Transcript.ofLines lines).metrics = []
  /-- There are no points. -/
  groups : (Transcript.ofLines lines).groups = []

theorem tellsNothing_iff {lines : List (List Char)}
    (accepted : ∀ line ∈ lines, ¬ IsMalformed line) :
    TellsNothing lines ↔
      ((Transcript.ofLines lines).isEmpty && lines.any mustBeSample) = true := by
  rw [Bool.and_eq_true, any_mustBeSample_iff accepted, Transcript.isEmpty, Bool.and_eq_true,
    List.isEmpty_iff, List.isEmpty_iff]
  exact ⟨fun h => ⟨⟨h.metrics, h.groups⟩, h.sample⟩,
    fun h => ⟨accepted, h.2, h.1.1, h.1.2⟩⟩

theorem not_firstMalformed {lines : List (List Char)}
    (accepted : ∀ line ∈ lines, ¬ IsMalformed line) (number : Nat) :
    ¬ FirstMalformed lines number := by
  rintro ⟨before, line, after, rfl, -, malformed, -⟩
  exact accepted line (by simp) malformed

/-- There is one first malformed line at most. -/
theorem FirstMalformed.unique {lines : List (List Char)} {number number' : Nat}
    (first : FirstMalformed lines number) (first' : FirstMalformed lines number') :
    number = number' :=
  Option.some.inj ((firstInvalid?_eq_some_iff.mpr first).symm.trans
    (firstInvalid?_eq_some_iff.mpr first'))

section Readings

variable (groups : List Group → List Group) (order : MapOrder) (body : List Char)

/-- The three ways in which a reading ends. -/
theorem readBy_eq :
    (∃ number, FirstMalformed (Text.lines body) number ∧
      readBy groups order body = .error (.invalidLine number)) ∨
    (TellsNothing (Text.lines body) ∧ readBy groups order body = .error .noSamples) ∨
    ((∀ line ∈ Text.lines body, ¬ IsMalformed line) ∧ ¬ TellsNothing (Text.lines body) ∧
      readBy groups order body = .ok (order.families
        (familiesOf ⟨groups, order.loose, order.bases⟩
          (Transcript.ofLines (Text.lines body))))) := by
  rw [readBy, readIn]
  dsimp only
  cases first : firstInvalid? (Text.lines body) with
  | some number => exact .inl ⟨number, firstInvalid?_eq_some_iff.mp first, rfl⟩
  | none =>
      have accepted := firstInvalid?_eq_none_iff.mp first
      by_cases nothing : TellsNothing (Text.lines body)
      · rw [if_pos ((tellsNothing_iff accepted).mp nothing)]
        exact .inr (.inl ⟨nothing, rfl⟩)
      · rw [if_neg fun silent => nothing ((tellsNothing_iff accepted).mpr silent)]
        exact .inr (.inr ⟨accepted, nothing, rfl⟩)

end Readings

/-- In whatever orders a reader visits its maps: a body is refused with the number of its first
malformed line, if it has one.  Otherwise it is refused for telling nothing, exactly if there are
sample lines and nothing is read off them.  In every other case families are read, and they are in
good order. -/
theorem refused_or_inGoodOrder {groups : List Group → List Group}
    (visited : ∀ gs, (groups gs).Perm gs) {order : MapOrder} (fair : order.Fair)
    (body : List Char) :
    (∀ number, readBy groups order body = .error (.invalidLine number) ↔
      FirstMalformed (Text.lines body) number) ∧
    (readBy groups order body = .error .noSamples ↔ TellsNothing (Text.lines body)) ∧
    ((∀ number, ¬ FirstMalformed (Text.lines body) number) → ¬ TellsNothing (Text.lines body) →
      ∃ families, readBy groups order body = .ok families ∧ InGoodOrder families) := by
  rcases readBy_eq groups order body with
    ⟨number, first, refused⟩ | ⟨nothing, refused⟩ | ⟨accepted, told, read⟩
  · rw [refused]
    refine ⟨fun number' => ⟨?_, fun first' => ?_⟩, ⟨nofun, fun nothing => ?_⟩, fun none_ => ?_⟩
    · rintro ⟨⟩
      exact first
    · rw [first.unique first']
    · exact absurd first (not_firstMalformed nothing.accepted number)
    · exact absurd first (none_ number)
  · rw [refused]
    refine ⟨fun number => ⟨nofun, fun first => ?_⟩, ⟨fun _ => nothing, fun _ => rfl⟩,
      fun _ told => absurd nothing told⟩
    exact absurd first (not_firstMalformed nothing.accepted number)
  · have visits : (⟨groups, order.loose, order.bases⟩ : VisitOrder).Fair :=
      ⟨visited, fair.loose, fair.bases⟩
    rw [read]
    refine ⟨fun number => ⟨nofun, fun first => ?_⟩, ⟨nofun, fun nothing => absurd nothing told⟩,
      fun _ _ => ⟨_, rfl, (inGoodOrder_familiesOf visits _).perm (fair.families _)⟩⟩
    exact absurd first (not_firstMalformed accepted number)

/-- Buckets against the order of their bounds, of a name that is declared and of one that is not,
and a total that comes before them. -/
def disorderly : String :=
  "# TYPE x histogram\nx_sum_bucket\x7ble=\"1\"\x7d 3\nx_sum_sum 8\n" ++
    "x_bucket\x7ble=\"+Inf\"\x7d 2\nx_bucket\x7ble=\"-0\"\x7d 1\n" ++
    "x_bucket\x7ble=\"0\"\x7d 1\nx_count 7\ny\x7ble=\"1\"\x7d 5\n"

/-- Families come of them in good order, a bad line has its number, and a name with a colon tells
nothing. -/
theorem inGoodOrder_disorderly :
    (∀ gs : List Group, gs.reverse.Perm gs) ∧ MapOrder.backwards.Fair ∧
      (∃ families, readBy List.reverse .backwards disorderly.toList = .ok families ∧
        families.map (·.name) = ["y", "x_sum", "x"] ∧ InGoodOrder families) ∧
      FirstMalformed (Text.lines "up 1\n\n# up\nup\x7b\n1up 1".toList) 4 ∧
      TellsNothing (Text.lines "a:b 1".toList) := by
  have visited : ∀ gs : List Group, gs.reverse.Perm gs := List.reverse_perm
  have fair : MapOrder.backwards.Fair :=
    ⟨List.reverse_perm, List.reverse_perm, List.reverse_perm⟩
  refine ⟨visited, fair, ?_, ?_, ?_⟩
  · have names : (readBy List.reverse .backwards disorderly.toList).map (·.map (·.name)) =
        .ok ["y", "x_sum", "x"] := by
      decide +kernel
    obtain ⟨malformed, nothing, good⟩ := refused_or_inGoodOrder visited fair disorderly.toList
    obtain ⟨families, read, sound⟩ := good
      (fun number first => by
        rw [(malformed number).mpr first] at names
        cases names)
      (fun tells => by
        rw [nothing.mpr tells] at names
        cases names)
    rw [read] at names
    exact ⟨families, read, Except.ok.inj names, sound⟩
  · refine ((refused_or_inGoodOrder visited fair _).1 4).mp ?_
    decide +kernel
  · refine (refused_or_inGoodOrder visited fair _).2.1.mp ?_
    decide +kernel

end Exposition

end Telemetry
