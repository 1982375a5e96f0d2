import Telemetry.Proofs.Conversion
import Telemetry.Proofs.Text.Base64

/-!
# The labels of a measurement

An envelope gives a label for each tag that is kept, its own tags before the default
ones, and those of its source and its instance where it has no such tag
(`Envelope.Gives`).  These are all the labels that its measurements have in common
(`get?_commonLabels`), and a measurement of a counter or a timer has just one more,
for the name it was given (`get?_measurement`).

So the labels of a counter tell its envelope, as far as its tags are *plain*: kept
as they are, and not among the labels that are made otherwise
(`Envelope.IsPlain.eq_of_labels`).
-/

namespace Telemetry

open Remarked

/-! ## One label after the other -/

theorem get?_insertUnique {labels more : Labels} {name value : String}
    (h : (insertUnique labels name value).result = .ok more) (key v : String) :
    more.get? key = some v ↔ labels.get? key = some v ∨ (name = key ∧ value = v) := by
  obtain ⟨new, rfl⟩ := insertUnique_eq_ok_iff.mp h
  rw [Dict.get?_insert]
  by_cases same : key = name
  · subst same
    simp [new]
  · have other : name ≠ key := fun equal => same equal.symm
    simp [same, other]

theorem get?_addTag {labels more : Labels} {tag : String × String}
    (h : (addTag labels tag).result = .ok more) (key v : String) :
    more.get? key = some v ↔
      labels.get? key = some v ∨ (IsKept tag ∧ sanitize isTagChar tag.1 = key ∧ tag.2 = v) := by
  unfold addTag at h
  split at h
  next out =>
    have left : ¬IsKept tag := by
      rintro ⟨free, given⟩
      rw [free, given] at out
      cases out
    rw [result_noteIf_bind, result_pure_eq_ok_iff] at h
    simp [← h, left]
  next stays =>
    have kept : IsKept tag := by
      rw [Bool.or_eq_true, not_or, Bool.not_eq_true, Bool.not_eq_true] at stays
      exact stays
    rw [result_noteIf_bind] at h
    simp [get?_insertUnique h, kept]

/-- The labels of some tags are those of the tags that are kept. -/
theorem get?_foldlM_addTag :
    ∀ {tags : List (String × String)} {labels more : Labels},
      (tags.foldlM addTag labels).result = .ok more → ∀ key v,
        (more.get? key = some v ↔ labels.get? key = some v ∨
          ∃ tag ∈ tags, IsKept tag ∧ sanitize isTagChar tag.1 = key ∧ tag.2 = v)
  | [], labels, more, h, key, v => by
      rw [List.foldlM_nil, result_pure_eq_ok_iff] at h
      simp [h]
  | tag :: tags, labels, more, h, key, v => by
      rw [List.foldlM_cons] at h
      obtain ⟨between, first, rest⟩ := result_bind_eq_ok_iff.mp h
      rw [get?_foldlM_addTag rest, get?_addTag first, List.exists_mem_cons_iff, or_assoc]

/-- A tag of the envelope is found before a default tag of its name. -/
theorem get?_tagsWithDefaults_eq (defaults : Dict String) (e : Envelope) (key : String) :
    (tagsWithDefaults defaults e).get? key = (e.tags.get? key <|> defaults.get? key) := by
  have folded : ∀ (ds : List (String × String)) (tags : Dict String),
      (ds.foldl (fun tags d => tags.insertNew d.1 d.2) tags).get? key =
        (tags.get? key <|> ds.lookup key) := by
    intro ds
    induction ds with
    | nil => intro tags; simp
    | cons d ds ih =>
        intro tags
        rw [List.foldl_cons, ih, Dict.get?_insertNew, lookup_cons_eq]
        by_cases same : key = d.1
        · subst same
          cases tags.get? d.1 <;> simp
        · simp [same]
  exact folded defaults.entries e.tags

/-! ## The labels an envelope gives -/

/-- What labels an envelope gives all its measurements. -/
inductive Envelope.Gives (defaults : Dict String) (e : Envelope) : String → String → Prop where
  /-- A tag that is kept, of the envelope or by default. -/
  | tag {key value : String} (found : (tagsWithDefaults defaults e).get? key = some value)
      (kept : IsKept (key, value)) : Gives defaults e (sanitize isTagChar key) value
  /-- The source, if no tag of the envelope has its name. -/
  | source (absent : e.tags.contains sourceLabel = false) : Gives defaults e sourceLabel e.sourceId
  /-- The instance, if it is known and no tag of the envelope has its name. -/
  | ofInstance (absent : e.tags.contains instanceLabel = false)
      (known : e.instanceId.isEmpty = false) : Gives defaults e instanceLabel e.instanceId

/-- The common labels are those the envelope gives, in whatever order its tags are visited. -/
theorem get?_commonLabels {defaults : Dict String} {e : Envelope} {tags : List (String × String)}
    (perm : tags.Perm (tagsWithDefaults defaults e).toList) {labels : Labels}
    (h : (commonLabels e tags).result = .ok labels) (key v : String) :
    labels.get? key = some v ↔ e.Gives defaults key v := by
  rw [commonLabels_eq] at h
  obtain ⟨fromTags, first, h⟩ := result_bind_eq_ok_iff.mp h
  obtain ⟨withSource, second, third⟩ := result_bind_eq_ok_iff.mp h
  have ofTags : fromTags.get? key = some v ↔
      ∃ k value, (tagsWithDefaults defaults e).get? k = some value ∧ IsKept (k, value) ∧
        sanitize isTagChar k = key ∧ value = v := by
    rw [get?_foldlM_addTag first, Dict.get?_empty]
    simp [perm.mem_iff, Prod.exists, Dict.toList, Dict.get?_eq_some_iff]
  have ofSource : withSource.get? key = some v ↔ fromTags.get? key = some v ∨
      (e.tags.contains sourceLabel = false ∧ sourceLabel = key ∧ e.sourceId = v) := by
    cases has : e.tags.contains sourceLabel with
    | true =>
        rw [has, if_pos rfl, result_pure_eq_ok_iff] at second
        simp [second]
    | false =>
        rw [has] at second
        simp [get?_insertUnique second]
  have ofInstance : labels.get? key = some v ↔ withSource.get? key = some v ∨
      (e.tags.contains instanceLabel = false ∧ e.instanceId.isEmpty = false ∧
        instanceLabel = key ∧ e.instanceId = v) := by
    cases has : e.tags.contains instanceLabel || e.instanceId.isEmpty with
    | true =>
        rw [has, if_pos rfl, result_pure_eq_ok_iff] at third
        rw [Bool.or_eq_true] at has
        rcases has with has | has <;> simp [third, has]
    | false =>
        obtain ⟨absent, known⟩ := Bool.or_eq_false_iff.mp has
        rw [has] at third
        simp [get?_insertUnique third, absent, known]
  rw [ofInstance, ofSource, ofTags]
  constructor
  · rintro ((⟨k, _, found, kept, rfl, rfl⟩ | ⟨absent, rfl, rfl⟩) | ⟨absent, known, rfl, rfl⟩)
    · exact .tag found kept
    · exact .source absent
    · exact .ofInstance absent known
  · intro gives
    cases gives with
    | tag found kept => exact .inl (.inl ⟨_, _, found, kept, rfl, rfl⟩)
    | source absent => exact .inl (.inr ⟨absent, rfl, rfl⟩)
    | ofInstance absent known => exact .inr ⟨absent, known, rfl, rfl⟩

/-! ## Counters -/

/-- When a reading is measured, and what is made of it. -/
theorem result_measurement_eq_ok_iff {name given : String} {labels : Labels} {reading : Reading}
    {m : Measurement} :
    (measurement name given labels reading).result = .ok m ↔
      isValidName name = true ∧ ∃ more,
        (insertUnique labels givenNameLabel (Text.base64OfString given)).result = .ok more ∧
          more.keys.find? (!isValidName ·) = none ∧
            m = ⟨.of name (identifyingLabels more reading), name, more, reading⟩ := by
  unfold measurement
  cases isValidName name with
  | false => simp [result_fail_ne_ok]
  | true =>
      simp only [Bool.not_true, Bool.false_eq_true, if_false, true_and]
      rw [result_bind_eq_ok_iff]
      refine exists_congr fun more => and_congr_right fun _ => ?_
      cases more.keys.find? (!isValidName ·) with
      | none => exact result_pure_eq_ok_iff.trans (by simp [eq_comm])
      | some label => simp [result_fail_ne_ok]

/-- When a counter is converted, and what is made of it. -/
theorem result_convert_counter_eq_ok_iff {defaults : Dict String} {e : Envelope}
    {c : CounterMessage} (counter : e.message = some (.counter c)) {ms : List Measurement} :
    (convert defaults e).result = .ok ms ↔ ∃ labels m,
      (commonLabels e (tagsWithDefaults defaults e).toList).result = .ok labels ∧
        (measurement (sanitize isMetricChar c.name) c.name labels
          (.counter (.ofNat c.total.toNat))).result = .ok m ∧ ms = [m] := by
  simp only [convert, convertIn, counter, sanitizeName, result_bind_eq_ok_iff,
    result_noteIf_bind, result_pure_eq_ok_iff, id_eq]
  constructor
  · rintro ⟨_, rfl, labels, common, m, measured, rfl⟩
    exact ⟨labels, m, common, measured, rfl⟩
  · rintro ⟨labels, m, common, measured, rfl⟩
    exact ⟨_, rfl, labels, common, m, measured, rfl⟩

/-- A counter has the labels its envelope gives, and one for the name it was given. -/
theorem gives_iff_of_convert_counter {defaults : Dict String} {e : Envelope} {c : CounterMessage}
    (counter : e.message = some (.counter c)) {m : Measurement}
    (h : (convert defaults e).result = .ok [m]) :
    (∀ key v, e.Gives defaults key v ↔ key ≠ givenNameLabel ∧ m.labels.get? key = some v) ∧
      m.labels.get? givenNameLabel = some (Text.base64OfString c.name) := by
  obtain ⟨labels, _, common, measured, one⟩ := (result_convert_counter_eq_ok_iff counter).mp h
  cases one
  obtain ⟨-, more, added, -, rfl⟩ := result_measurement_eq_ok_iff.mp measured
  obtain ⟨new, -⟩ := insertUnique_eq_ok_iff.mp added
  constructor
  · intro key v
    rw [get?_insertUnique added, ← get?_commonLabels (.refl _) common]
    constructor
    · intro given
      refine ⟨?_, .inl given⟩
      rintro rfl
      rw [new] at given
      cases given
    · rintro ⟨other, given | ⟨same, -⟩⟩
      · exact given
      · exact absurd same.symm other
  · exact (get?_insertUnique added _ _).mpr (.inr ⟨rfl, rfl⟩)

/-! ## Plain tags -/

/-- Whether a tag becomes a label as it is, which nothing else can become. -/
structure IsPlainTag (defaults : Dict String) (tag : String × String) : Prop where
  /-- It is kept. -/
  kept : IsKept tag
  /-- Nothing in its name has to be changed. -/
  clean : sanitize isTagChar tag.1 = tag.1
  /-- It does not stand for the source or the instance. -/
  apart : tag.1 ≠ sourceLabel ∧ tag.1 ≠ instanceLabel
  /-- No default tag becomes the same label. -/
  new : ∀ d ∈ defaults.toList, IsKept d → sanitize isTagChar d.1 ≠ tag.1

instance (tag : String × String) : Decidable (IsKept tag) :=
  inferInstanceAs (Decidable (_ ∧ _))

instance (defaults : Dict String) (tag : String × String) : Decidable (IsPlainTag defaults tag) :=
  decidable_of_iff
    (IsKept tag ∧ sanitize isTagChar tag.1 = tag.1 ∧
      (tag.1 ≠ sourceLabel ∧ tag.1 ≠ instanceLabel) ∧
      ∀ d ∈ defaults.toList, IsKept d → sanitize isTagChar d.1 ≠ tag.1)
    ⟨fun ⟨kept, clean, apart, new⟩ => ⟨kept, clean, apart, new⟩,
      fun ⟨kept, clean, apart, new⟩ => ⟨kept, clean, apart, new⟩⟩

/-- Whether all tags of an envelope are plain. -/
def Envelope.IsPlain (defaults : Dict String) (e : Envelope) : Prop :=
  ∀ tag ∈ e.tags.toList, IsPlainTag defaults tag

instance (defaults : Dict String) (e : Envelope) : Decidable (e.IsPlain defaults) :=
  inferInstanceAs (Decidable (∀ tag ∈ e.tags.toList, IsPlainTag defaults tag))

namespace Envelope.IsPlain

variable {defaults : Dict String} {e e' : Envelope}

theorem plainTag (plain : e.IsPlain defaults) {key v : String} (found : e.tags.get? key = some v) :
    IsPlainTag defaults (key, v) :=
  plain _ (Dict.get?_eq_some_iff.mp found)

theorem absent_instance (plain : e.IsPlain defaults) :
    e.tags.contains instanceLabel = false := by
  rw [Bool.eq_false_iff, ne_eq, Dict.contains_iff]
  rintro ⟨v, found⟩
  exact (plain.plainTag found).apart.2 rfl

/-- A plain tag gives its label. -/
theorem gives (plain : e.IsPlain defaults) {key v : String} (found : e.tags.get? key = some v) :
    e.Gives defaults key v := by
  have tag := plain.plainTag found
  have given : e.Gives defaults (sanitize isTagChar key) v :=
    .tag (by rw [get?_tagsWithDefaults_eq, found]; rfl) tag.kept
  rwa [tag.clean] at given

/-- A label that is given and might be that of a plain tag is that of a tag. -/
theorem found_of_gives (plain : e.IsPlain defaults) {key v : String}
    (tag : IsPlainTag defaults (key, v)) (given : e.Gives defaults key v) :
    e.tags.get? key = some v := by
  generalize same : key = label at given
  cases given with
  | @tag k _ found kept =>
      rw [get?_tagsWithDefaults_eq] at found
      cases own : e.tags.get? k with
      | some value =>
          rw [own] at found
          cases found
          have clean : sanitize isTagChar k = k := (plain.plainTag own).clean
          rw [clean, own]
      | none =>
          rw [own] at found
          exact absurd same.symm (tag.new (k, v) (Dict.get?_eq_some_iff.mp found) kept)
  | source absent => exact absurd same tag.apart.1
  | ofInstance absent known => exact absurd same tag.apart.2

/-- Plain envelopes that give the same labels have the same tags. -/
theorem tags_eq (plain : e.IsPlain defaults) (plain' : e'.IsPlain defaults)
    (same : ∀ key v, e.Gives defaults key v ↔ e'.Gives defaults key v) : e.tags = e'.tags := by
  apply Dict.ext_get?
  intro key
  apply Option.ext
  intro v
  constructor
  · intro found
    exact plain'.found_of_gives (plain.plainTag found) ((same key v).mp (plain.gives found))
  · intro found
    exact plain.found_of_gives (plain'.plainTag found) ((same key v).mpr (plain'.gives found))

end Envelope.IsPlain

/-- Where an instance has become a label, no tag has. -/
theorem sanitize_ne_instanceLabel {defaults : Dict String} {e : Envelope} {labels : Labels}
    (h : (commonLabels e (tagsWithDefaults defaults e).toList).result = .ok labels)
    (absent : e.tags.contains instanceLabel = false) (known : e.instanceId.isEmpty = false)
    {key v : String} (found : (tagsWithDefaults defaults e).get? key = some v)
    (kept : IsKept (key, v)) : sanitize isTagChar key ≠ instanceLabel := by
  intro same
  rw [commonLabels_eq] at h
  obtain ⟨fromTags, first, h⟩ := result_bind_eq_ok_iff.mp h
  obtain ⟨withSource, second, third⟩ := result_bind_eq_ok_iff.mp h
  obtain ⟨-, added⟩ := extends_foldlM_addTag first
  have fromTag : fromTags.get? (sanitize isTagChar key) = some v :=
    added (key, v) (Dict.get?_eq_some_iff.mp found) kept
  rw [same] at fromTag
  have still : withSource.get? instanceLabel = some v := by
    split at second
    · rw [result_pure_eq_ok_iff] at second
      exact second ▸ fromTag
    · exact (extends_insertUnique second).1 _ _ fromTag
  rw [absent, known] at third
  obtain ⟨new, -⟩ := insertUnique_eq_ok_iff.mp third
  rw [new] at still
  cases still

namespace Envelope.IsPlain

variable {defaults : Dict String} {e e' : Envelope}

/-- A known instance is told by the labels of every envelope that gives the same. -/
theorem instanceId_of_known (plain : e.IsPlain defaults) (plain' : e'.IsPlain defaults)
    (same : ∀ key v, e.Gives defaults key v ↔ e'.Gives defaults key v) {labels : Labels}
    (h : (commonLabels e (tagsWithDefaults defaults e).toList).result = .ok labels)
    (known : e.instanceId.isEmpty = false) : e'.instanceId = e.instanceId := by
  have given := (same _ _).mp (.ofInstance plain.absent_instance known)
  generalize label : instanceLabel = key at given
  generalize e.instanceId = v at given
  cases given with
  | tag found kept =>
      have tags : tagsWithDefaults defaults e' = tagsWithDefaults defaults e := by
        rw [tagsWithDefaults, tagsWithDefaults, plain.tags_eq plain' same]
      rw [tags] at found
      exact absurd label.symm
        (sanitize_ne_instanceLabel h plain.absent_instance known found kept)
  | source absent => exact absurd label (by decide)
  | ofInstance absent known => rfl

/-- Plain envelopes that convert and give the same labels have the same instance. -/
theorem instanceId_eq (plain : e.IsPlain defaults) (plain' : e'.IsPlain defaults)
    (same : ∀ key v, e.Gives defaults key v ↔ e'.Gives defaults key v) {labels labels' : Labels}
    (h : (commonLabels e (tagsWithDefaults defaults e).toList).result = .ok labels)
    (h' : (commonLabels e' (tagsWithDefaults defaults e').toList).result = .ok labels') :
    e.instanceId = e'.instanceId := by
  cases known : e.instanceId.isEmpty with
  | false => exact (plain.instanceId_of_known plain' same h known).symm
  | true =>
      cases known' : e'.instanceId.isEmpty with
      | false => exact plain'.instanceId_of_known plain (fun key v => (same key v).symm) h' known'
      | true => rw [String.isEmpty_iff.mp known, String.isEmpty_iff.mp known']

/-- Plain envelopes with counters of the same labels differ in nothing but their source and what
they count. -/
theorem eq_of_labels {c c' : CounterMessage} (plain : e.IsPlain defaults)
    (plain' : e'.IsPlain defaults) (counter : e.message = some (.counter c))
    (counter' : e'.message = some (.counter c')) {m m' : Measurement}
    (h : (convert defaults e).result = .ok [m]) (h' : (convert defaults e').result = .ok [m'])
    (labels : m.labels = m'.labels) :
    e.instanceId = e'.instanceId ∧ e.tags = e'.tags ∧ c.name = c'.name := by
  obtain ⟨gives, name⟩ := gives_iff_of_convert_counter counter h
  obtain ⟨gives', name'⟩ := gives_iff_of_convert_counter counter' h'
  have same : ∀ key v, e.Gives defaults key v ↔ e'.Gives defaults key v := by
    intro key v
    rw [gives, gives', labels]
  obtain ⟨_, _, common, -⟩ := (result_convert_counter_eq_ok_iff counter).mp h
  obtain ⟨_, _, common', -⟩ := (result_convert_counter_eq_ok_iff counter').mp h'
  refine ⟨plain.instanceId_eq plain' same common common', plain.tags_eq plain' same, ?_⟩
  rw [labels, name'] at name
  exact (Text.base64OfString_injective (Option.some.inj name)).symm

end Envelope.IsPlain

end Telemetry
