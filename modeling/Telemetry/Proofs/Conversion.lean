import Telemetry.Conversion
import Telemetry.Proofs.Lookup

/-!
# What a conversion makes

A conversion that does not fail has done all of its parts without failing, so its
result is taken apart by one lemma for each way parts are put together
(`result_bind_eq_ok_iff`, `of_mem_result_mapM`).

Labels are only ever added (`Extends`): every measurement of an envelope has the
labels that are common to all of them (`of_mem_convertIn`), and what identifies it
is made of its own name and labels.  The label of the source is the source of the
envelope, if the envelope has no tag of that name that tells another
(`KeepsSource`).
-/

namespace Telemetry

/-! ## Results -/

namespace Remarked

variable {α β : Type}

theorem id_map' (x : Remarked α) : id <$> x = x := by
  obtain ⟨remarks, result⟩ := x
  cases result with
  | error _ => rfl
  | ok a => exact congrArg (Remarked.mk · (.ok a)) (List.append_nil remarks)

theorem bind_assoc' {γ : Type} (x : Remarked α) (f : α → Remarked β) (g : β → Remarked γ) :
    x >>= f >>= g = x >>= fun a => f a >>= g := by
  obtain ⟨remarks, result⟩ := x
  cases result with
  | error _ => rfl
  | ok a =>
      change bind ⟨remarks ++ (f a).remarks, (f a).result⟩ g = bind ⟨remarks, .ok a⟩ _
      cases second : (f a).result with
      | error e => simp [bind, second, Bind.bind]
      | ok b => simp [bind, second, Bind.bind]

instance : LawfulMonad Remarked := .mk' _ id_map' (fun _ _ => rfl) bind_assoc'

/-- A result comes from a result of the first part. -/
theorem result_bind_eq_ok_iff {x : Remarked α} {f : α → Remarked β} {b : β} :
    (x >>= f).result = .ok b ↔ ∃ a, x.result = .ok a ∧ (f a).result = .ok b := by
  change (x.bind f).result = .ok b ↔ _
  unfold Remarked.bind
  cases x.result with
  | error e => simp
  | ok a => simp

theorem result_pure_eq_ok_iff {a b : α} : (pure a : Remarked α).result = .ok b ↔ a = b := by
  constructor
  · intro equal
    cases equal
    rfl
  · rintro rfl
    rfl

/-- A remark never fails. -/
theorem result_noteIf_bind (condition : Bool) (r : Remark) (f : Unit → Remarked β) :
    (noteIf condition r >>= f).result = (f ()).result := rfl

theorem result_fail_ne_ok {e : ConversionError} {a : α} : (fail e : Remarked α).result ≠ .ok a :=
  nofun

/-- Each of some results comes from an element. -/
theorem of_mem_result_mapM {f : α → Remarked β} :
    ∀ {xs : List α} {ys : List β}, (xs.mapM f).result = .ok ys →
      ∀ y ∈ ys, ∃ x ∈ xs, (f x).result = .ok y
  | [], ys, h, y, there => by
      rw [List.mapM_nil] at h
      rw [← result_pure_eq_ok_iff.mp h] at there
      cases there
  | x :: xs, ys, h, y, there => by
      rw [List.mapM_cons] at h
      obtain ⟨head, first, h⟩ := result_bind_eq_ok_iff.mp h
      obtain ⟨rest, others, h⟩ := result_bind_eq_ok_iff.mp h
      rw [← result_pure_eq_ok_iff.mp h] at there
      cases List.mem_cons.mp there with
      | inl equal => exact ⟨x, List.mem_cons_self, equal ▸ first⟩
      | inr there =>
          obtain ⟨x', there', made⟩ := of_mem_result_mapM others y there
          exact ⟨x', List.mem_cons_of_mem _ there', made⟩

end Remarked

open Remarked

/-! ## Labels are only added -/

/-- Whether the second labels hold all of the first. -/
def Labels.Extends (labels more : Labels) : Prop :=
  ∀ key value, labels.get? key = some value → more.get? key = some value

namespace Labels

theorem Extends.refl (labels : Labels) : Extends labels labels := fun _ _ found => found

theorem Extends.trans {a b c : Labels} (first : Extends a b) (second : Extends b c) :
    Extends a c :=
  fun key value found => second key value (first key value found)

end Labels

open Labels (Extends)

/-- A label that is added is new. -/
theorem insertUnique_eq_ok_iff {labels more : Labels} {name value : String} :
    (insertUnique labels name value).result = .ok more ↔
      labels.get? name = none ∧ more = labels.insert name value := by
  unfold insertUnique
  cases found : labels.get? name with
  | none =>
      have absent : labels.contains name = false := by rw [Dict.contains, found]; rfl
      rw [absent]
      constructor
      · intro equal
        cases equal
        exact ⟨rfl, rfl⟩
      · rintro ⟨-, rfl⟩
        rfl
  | some _ =>
      have present : labels.contains name = true := by rw [Dict.contains, found]; rfl
      rw [present]
      constructor
      · exact fun equal => absurd equal result_fail_ne_ok
      · rintro ⟨equal, -⟩
        cases equal

theorem extends_insertUnique {labels more : Labels} {name value : String}
    (h : (insertUnique labels name value).result = .ok more) :
    Extends labels more ∧ more.get? name = some value := by
  obtain ⟨new, rfl⟩ := insertUnique_eq_ok_iff.mp h
  constructor
  · intro key value found
    rw [Dict.get?_insert, if_neg]
    · exact found
    · rintro rfl
      rw [new] at found
      cases found
  · rw [Dict.get?_insert, if_pos rfl]

/-- Whether a tag becomes a label. -/
def IsKept (tag : String × String) : Prop := isReserved tag.1 = false ∧ tag.2.isEmpty = false

theorem extends_addTag {labels more : Labels} {tag : String × String}
    (h : (addTag labels tag).result = .ok more) :
    Extends labels more ∧
      (IsKept tag → more.get? (sanitize isTagChar tag.1) = some tag.2) := by
  unfold addTag at h
  split at h
  next out =>
    rw [result_noteIf_bind, result_pure_eq_ok_iff] at h
    subst h
    refine ⟨Extends.refl _, fun kept => ?_⟩
    rw [kept.1, kept.2] at out
    cases out
  next =>
    rw [result_noteIf_bind] at h
    obtain ⟨all, added⟩ := extends_insertUnique h
    exact ⟨all, fun _ => added⟩

/-- The labels of some tags, and those that were there before. -/
theorem extends_foldlM_addTag :
    ∀ {tags : List (String × String)} {labels more : Labels},
      (tags.foldlM addTag labels).result = .ok more →
        Extends labels more ∧
          ∀ tag ∈ tags, IsKept tag → more.get? (sanitize isTagChar tag.1) = some tag.2
  | [], labels, more, h => by
      rw [List.foldlM_nil, result_pure_eq_ok_iff] at h
      exact ⟨h ▸ Extends.refl _, fun _ there => nomatch there⟩
  | tag :: tags, labels, more, h => by
      rw [List.foldlM_cons] at h
      obtain ⟨between, first, rest⟩ := result_bind_eq_ok_iff.mp h
      obtain ⟨all, added⟩ := extends_addTag first
      obtain ⟨later, others⟩ := extends_foldlM_addTag rest
      refine ⟨all.trans later, fun t there kept => ?_⟩
      cases List.mem_cons.mp there with
      | inl equal =>
          subst equal
          exact later _ _ (added kept)
      | inr there => exact others t there kept

/-- The tags of the envelope come before the default tags. -/
theorem get?_tagsWithDefaults (defaults : Dict String) (e : Envelope) {key value : String}
    (found : e.tags.get? key = some value) :
    (tagsWithDefaults defaults e).get? key = some value := by
  unfold tagsWithDefaults
  generalize defaults.toList = ds
  generalize e.tags = tags at found
  induction ds generalizing tags with
  | nil => exact found
  | cons d ds ih =>
      apply ih
      rw [Dict.get?_insertNew]
      split
      next same =>
        rw [← same, found]
        rfl
      next => exact found

/-! ## The label of the source -/

/-- Whether an envelope tells no other source in its tags than the one it comes from. -/
def Envelope.KeepsSource (e : Envelope) : Prop :=
  ∀ value, e.tags.get? sourceLabel = some value → value = e.sourceId ∧ value.isEmpty = false

instance (e : Envelope) : Decidable e.KeepsSource :=
  match found : e.tags.get? sourceLabel with
  | none => isTrue fun _ equal => nomatch found.symm.trans equal
  | some value =>
      if h : value = e.sourceId ∧ value.isEmpty = false then
        isTrue fun _ equal => Option.some.inj (found.symm.trans equal) ▸ h
      else isFalse fun keeps => h (keeps value found)

/-- The labels of the tags, then the source, then the instance. -/
theorem commonLabels_eq (e : Envelope) (tags : List (String × String)) :
    commonLabels e tags = (do
      let fromTags ← labelsOfTags tags
      let withSource ← (if e.tags.contains sourceLabel then pure fromTags
        else insertUnique fromTags sourceLabel e.sourceId : Remarked Labels)
      if e.tags.contains instanceLabel || e.instanceId.isEmpty then pure withSource
      else insertUnique withSource instanceLabel e.instanceId) := by
  unfold commonLabels
  congr 1
  funext fromTags
  cases e.tags.contains sourceLabel <;> rfl

theorem commonLabels_source {defaults : Dict String} {e : Envelope} (keeps : e.KeepsSource)
    {tags : List (String × String)} (perm : tags.Perm (tagsWithDefaults defaults e).toList)
    {labels : Labels} (h : (commonLabels e tags).result = .ok labels) :
    labels.get? sourceLabel = some e.sourceId := by
  rw [commonLabels_eq] at h
  obtain ⟨fromTags, first, h⟩ := result_bind_eq_ok_iff.mp h
  obtain ⟨withSource, second, third⟩ := result_bind_eq_ok_iff.mp h
  obtain ⟨-, added⟩ := extends_foldlM_addTag first
  have source : withSource.get? sourceLabel = some e.sourceId := by
    cases found : e.tags.get? sourceLabel with
    | none =>
        have absent : e.tags.contains sourceLabel = false := by rw [Dict.contains, found]; rfl
        rw [absent] at second
        exact (extends_insertUnique second).2
    | some value =>
        have present : e.tags.contains sourceLabel = true := by rw [Dict.contains, found]; rfl
        rw [present, if_pos rfl, result_pure_eq_ok_iff] at second
        obtain ⟨own, given⟩ := keeps value found
        subst second
        have there : (sourceLabel, value) ∈ tags :=
          perm.mem_iff.mpr (Dict.get?_eq_some_iff.mp (get?_tagsWithDefaults defaults e found))
        have free : isReserved sourceLabel = false := by decide
        have kept : IsKept (sourceLabel, value) := ⟨free, given⟩
        have clean : sanitize isTagChar sourceLabel = sourceLabel := by decide
        rw [← own]
        have label := added _ there kept
        rwa [clean] at label
  split at third
  · rw [result_pure_eq_ok_iff] at third
    exact third ▸ source
  · exact (extends_insertUnique third).1 _ _ source

/-! ## Measurements -/

/-- The name a metric is given, for a duration or for anything else. -/
def metricName (duration : Bool) (given : String) : String :=
  sanitize isMetricChar (if duration then given ++ secondsEnding else given)

theorem length_sanitize (allowed : Char → Bool) (s : String) :
    (sanitize allowed s).length = s.length := by
  rw [sanitize, String.length_ofList, List.length_map, String.length_toList]

theorem length_metricName (duration : Bool) (given : String) :
    (metricName duration given).length = given.length + if duration then 8 else 0 := by
  rw [metricName, length_sanitize]
  cases duration with
  | true => exact String.length_append given secondsEnding
  | false => rfl

/-- The ending makes a difference, whatever else becomes of the name. -/
theorem metricName_left_inj {duration duration' : Bool} {given : String}
    (same : metricName duration given = metricName duration' given) : duration = duration' := by
  have lengths := congrArg String.length same
  rw [length_metricName, length_metricName] at lengths
  cases duration <;> cases duration'
  all_goals simp at lengths ⊢

/-- Whether a reading is a duration. -/
def Reading.isDuration : Reading → Bool
  | .duration _ => true
  | _ => false

/-- What a measurement with some labels is made of. -/
structure Measurement.Fits (m : Measurement) (labels : Labels) : Prop where
  /-- It has the labels. -/
  labels : Extends labels m.labels
  /-- It is identified by its own name and labels. -/
  identity : m.identity = .of m.name (identifyingLabels m.labels m.reading)
  /-- Its name is made of the one it was given, and a label tells that one. -/
  name : ∃ given, m.name = metricName m.reading.isDuration given ∧
    m.labels.get? givenNameLabel = some (Text.base64OfString given)

theorem result_sanitizeName {name valid : String} (h : (sanitizeName name).result = .ok valid) :
    valid = sanitize isMetricChar name := by
  unfold sanitizeName at h
  rw [result_noteIf_bind] at h
  exact (result_pure_eq_ok_iff.mp h).symm

theorem fits_measurement {name given : String} {labels : Labels} {reading : Reading}
    {m : Measurement} (h : (measurement name given labels reading).result = .ok m)
    (named : name = metricName reading.isDuration given) : m.Fits labels := by
  unfold measurement at h
  split at h
  · exact absurd h result_fail_ne_ok
  · obtain ⟨more, added, h⟩ := result_bind_eq_ok_iff.mp h
    split at h
    · exact absurd h result_fail_ne_ok
    · rw [← result_pure_eq_ok_iff.mp h]
      obtain ⟨all, label⟩ := extends_insertUnique added
      exact ⟨all, rfl, given, named, label⟩

theorem fits_gaugeMeasurement {labels : Labels} {reading : String × GaugeReading}
    {m : Measurement} (h : (gaugeMeasurement labels reading).result = .ok m) : m.Fits labels := by
  unfold gaugeMeasurement at h
  obtain ⟨name, named, h⟩ := result_bind_eq_ok_iff.mp h
  have named := result_sanitizeName named
  simp only at h
  split at h
  · obtain ⟨same, unit, h⟩ := result_bind_eq_ok_iff.mp h
    rw [result_pure_eq_ok_iff] at unit
    exact unit ▸ fits_measurement h named
  · obtain ⟨withUnit, unit, h⟩ := result_bind_eq_ok_iff.mp h
    have fits := fits_measurement h named
    exact ⟨(extends_insertUnique unit).1.trans fits.labels, fits.identity, fits.name⟩

/-- Every measurement of an envelope has the labels that are common to all of them. -/
theorem of_mem_convertIn {order : ConversionOrder} {defaults : Dict String} {e : Envelope}
    {ms : List Measurement} (h : (convertIn order defaults e).result = .ok ms) :
    ∀ m ∈ ms, ∃ labels,
      (commonLabels e (order.tags (tagsWithDefaults defaults e).toList)).result = .ok labels ∧
        m.Fits labels := by
  unfold convertIn at h
  intro m there
  split at h
  · rw [result_pure_eq_ok_iff] at h
    subst h
    cases there
  · obtain ⟨name, named, h⟩ := result_bind_eq_ok_iff.mp h
    obtain ⟨labels, common, h⟩ := result_bind_eq_ok_iff.mp h
    obtain ⟨made, measured, h⟩ := result_bind_eq_ok_iff.mp h
    rw [← result_pure_eq_ok_iff.mp h, List.mem_singleton] at there
    exact ⟨labels, common, there ▸ fits_measurement measured (result_sanitizeName named)⟩
  · obtain ⟨labels, common, h⟩ := result_bind_eq_ok_iff.mp h
    obtain ⟨reading, -, measured⟩ := of_mem_result_mapM h m there
    exact ⟨labels, common, fits_gaugeMeasurement measured⟩
  · obtain ⟨name, named, h⟩ := result_bind_eq_ok_iff.mp h
    obtain ⟨labels, common, h⟩ := result_bind_eq_ok_iff.mp h
    obtain ⟨made, measured, h⟩ := result_bind_eq_ok_iff.mp h
    rw [← result_pure_eq_ok_iff.mp h, List.mem_singleton] at there
    exact ⟨labels, common, there ▸ fits_measurement measured (result_sanitizeName named)⟩

/-- The measurements of an envelope that tells no other source have its source as a label. -/
theorem source_of_mem_convert {defaults : Dict String} {e : Envelope} (keeps : e.KeepsSource)
    {ms : List Measurement} (h : (convert defaults e).result = .ok ms) :
    ∀ m ∈ ms, m.labels.get? sourceLabel = some e.sourceId := by
  intro m there
  obtain ⟨labels, common, fits⟩ := of_mem_convertIn h m there
  exact fits.labels _ _ (commonLabels_source keeps (List.Perm.refl _) common)

end Telemetry
