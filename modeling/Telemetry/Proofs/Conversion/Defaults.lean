import Telemetry.Proofs.Conversion.Labels
import Telemetry.Proofs.Scrape.Isolation

/-!
# Default tags

Default tags fill gaps: an envelope is given those whose keys it does not have
(`Envelope.gaps`).  If they are labels as they stand, they come under the labels that the
envelope has without them, as the labels of a target come under those of a scrape.

They are put among the tags, though, before the labels of the source, the instance,
the unit and the given name are made, and none of these is checked for beforehand.  A
default tag of such a name is a second label of that name, and so is one whose key a
tag of the envelope has only after it has been made valid.  Then nothing of the envelope is
converted.  `fills_gaps` says that there is no other hindrance.

The conversion with the default tags is followed next to the one without them.  Where
the latter has made some labels, the former has made the same over further ones, as long
as these are apart (`Labels.Apart`), and fails at the first step that adds one of them
(`lifts_insertUnique`).  `Lifts` says so of two computations, and is kept when they go on
(`Lifts.bind`).
-/

namespace Telemetry

open Remarked
open Scrape (layer get?_layer)

/-! ## Labels apart -/

namespace Labels

/-- Whether no name stands in both labels. -/
def Apart (below labels : Labels) : Prop :=
  ∀ key value, below.get? key = some value → labels.get? key = none

instance (below labels : Labels) : Decidable (Apart below labels) :=
  decidable_of_iff (∀ entry ∈ below.toList, labels.get? entry.1 = none)
    ⟨fun apart key _ found => apart (key, _) (Dict.mem_toList_iff.mpr found),
      fun apart _ among => apart _ _ (Dict.mem_toList_iff.mp among)⟩

variable {below labels more : Labels}

theorem apart_iff :
    Apart below labels ↔
      ∀ key v w, below.get? key = some v → labels.get? key = some w → False := by
  constructor
  · intro apart key v w found there
    rw [apart key v found] at there
    cases there
  · intro apart key v found
    exact Option.eq_none_iff_forall_ne_some.mpr fun w there => apart key v w found there

theorem Apart.of_extends (grows : Extends labels more) (apart : Apart below more) :
    Apart below labels :=
  apart_iff.mpr fun key v w found there => apart_iff.mp apart key v w found (grows key w there)

theorem apart_insert_iff {name value : String} :
    Apart below (labels.insert name value) ↔ Apart below labels ∧ below.get? name = none := by
  simp only [apart_iff, Dict.get?_insert]
  constructor
  · intro apart
    have new : below.get? name = none :=
      Option.eq_none_iff_forall_ne_some.mpr fun v found => apart name v value found (if_pos rfl)
    refine ⟨fun key v w found there => ?_, new⟩
    have other : key ≠ name := fun same => by simp [same, new] at found
    exact apart key v w found (by rw [if_neg other, there])
  · rintro ⟨apart, new⟩ key v w found there
    have other : key ≠ name := fun same => by simp [same, new] at found
    rw [if_neg other] at there
    exact apart key v w found there

theorem layer_insert (below labels : Labels) (name value : String) :
    layer below (labels.insert name value) = (layer below labels).insert name value := by
  apply Dict.ext_get?
  intro key
  simp only [get?_layer, Dict.get?_insert]
  split <;> rfl

end Labels

open Labels (Apart Extends)

/-! ## Two computations -/

namespace Remarked

variable {α β : Type}

/-- Whether the second computation has a result just in case there is room in that of the first,
and what this result is. -/
def Lifts (room : α → Prop) (under : α → α) (x x' : Remarked α) : Prop :=
  ∀ a, x.result = .ok a → ∀ a', x'.result = .ok a' ↔ room a ∧ a' = under a

theorem Lifts.pure {room : α → Prop} (under : α → α) {a : α} (apart : room a) :
    Lifts room under (Pure.pure a) (Pure.pure (under a)) := by
  intro b made b'
  rw [← result_pure_eq_ok_iff.mp made, result_pure_eq_ok_iff]
  exact ⟨fun same => ⟨apart, same.symm⟩, fun ⟨_, same⟩ => same.symm⟩

theorem Lifts.refl (x : Remarked α) : Lifts (fun _ => True) id x x := by
  intro a made a'
  rw [made, Except.ok.injEq]
  exact ⟨fun same => ⟨trivial, same.symm⟩, fun ⟨_, same⟩ => same.symm⟩

/-- What follows is lifted too, if there is room in the first result whenever there is in the
last. -/
theorem Lifts.bind {room : α → Prop} {under : α → α} {room' : β → Prop} {under' : β → β}
    {x x' : Remarked α} {f f' : α → Remarked β} (first : Lifts room under x x')
    (rest : ∀ a, x.result = .ok a → room a → Lifts room' under' (f a) (f' (under a)))
    (keeps : ∀ a b, x.result = .ok a → (f a).result = .ok b → room' b → room a) :
    Lifts room' under' (x >>= f) (x' >>= f') := by
  intro b made b'
  obtain ⟨a, before, after⟩ := result_bind_eq_ok_iff.mp made
  rw [result_bind_eq_ok_iff]
  constructor
  · rintro ⟨a', before', after'⟩
    obtain ⟨apart, rfl⟩ := (first a before a').mp before'
    exact (rest a before apart b after b').mp after'
  · rintro ⟨apart, rfl⟩
    have apart' := keeps a b before after apart
    exact ⟨under a, (first a before _).mpr ⟨apart', rfl⟩,
      (rest a before apart' b after _).mpr ⟨apart, rfl⟩⟩

theorem Lifts.mapM {γ : Type} {room : β → Prop} {under : β → β} {f f' : γ → Remarked β}
    (each : ∀ c, Lifts room under (f c) (f' c)) (cs : List γ) :
    Lifts (fun bs => ∀ b ∈ bs, room b) (List.map under) (cs.mapM f) (cs.mapM f') := by
  induction cs with
  | nil =>
      rw [List.mapM_nil, List.mapM_nil]
      exact Lifts.pure (List.map under) nofun
  | cons c cs ih =>
      rw [List.mapM_cons, List.mapM_cons]
      refine (each c).bind (fun head _ apart => ih.bind (fun tail _ aparts => ?_) ?_) ?_
      · exact Lifts.pure (List.map under) (List.forall_mem_cons.mpr ⟨apart, aparts⟩)
      · intro tail all _ made aparts
        rw [← result_pure_eq_ok_iff.mp made] at aparts
        exact (List.forall_mem_cons.mp aparts).2
      · intro head all _ made aparts
        obtain ⟨tail, -, made⟩ := result_bind_eq_ok_iff.mp made
        rw [← result_pure_eq_ok_iff.mp made] at aparts
        exact (List.forall_mem_cons.mp aparts).1

end Remarked

/-! ## Tags -/

/-- The labels that tags become. -/
def keptNames (tags : List (String × String)) : List String :=
  (tags.filter fun tag => IsKept tag).map fun tag => sanitize isTagChar tag.1

theorem mem_keptNames_iff {tags : List (String × String)} {name : String} :
    name ∈ keptNames tags ↔ ∃ tag ∈ tags, IsKept tag ∧ sanitize isTagChar tag.1 = name := by
  simp [keptNames, and_assoc]

theorem result_addTag_of_kept {tag : String × String} (kept : IsKept tag) (labels : Labels) :
    (addTag labels tag).result =
      (insertUnique labels (sanitize isTagChar tag.1) tag.2).result := by
  rw [addTag, kept.1, kept.2]
  rfl

theorem result_addTag_of_not_kept {tag : String × String} (out : ¬IsKept tag) (labels : Labels) :
    (addTag labels tag).result = .ok labels := by
  have out : (isReserved tag.1 || tag.2.isEmpty) = true := by
    rw [← Bool.not_eq_false, Bool.or_eq_false_iff]
    exact out
  rw [addTag, if_pos out]
  rfl

theorem forall_get?_insert_eq_none_iff {labels : Labels} {name value : String}
    {names : List String} :
    (∀ n ∈ names, (labels.insert name value).get? n = none) ↔
      name ∉ names ∧ ∀ n ∈ names, labels.get? n = none := by
  simp only [Dict.get?_insert]
  constructor
  · intro free
    have apart : name ∉ names := fun among => by simpa using free name among
    refine ⟨apart, fun n among => ?_⟩
    have other : n ≠ name := fun same => apart (same ▸ among)
    simpa [other] using free n among
  · rintro ⟨apart, free⟩ n among
    have other : n ≠ name := fun same => apart (same ▸ among)
    simpa [other] using free n among

/-- Tags become labels if no two of them become one, and none becomes a label that is there. -/
theorem exists_foldlM_addTag_iff {tags : List (String × String)} {labels : Labels} :
    (∃ more, (tags.foldlM addTag labels).result = .ok more) ↔
      (keptNames tags).Nodup ∧ ∀ name ∈ keptNames tags, labels.get? name = none := by
  induction tags generalizing labels with
  | nil => exact ⟨fun _ => ⟨List.nodup_nil, nofun⟩, fun _ => ⟨labels, rfl⟩⟩
  | cons tag tags ih =>
      have steps : (∃ more, ((tag :: tags).foldlM addTag labels).result = .ok more) ↔
          ∃ between, (addTag labels tag).result = .ok between ∧
            ∃ more, (tags.foldlM addTag between).result = .ok more := by
        simp only [List.foldlM_cons, result_bind_eq_ok_iff]
        exact ⟨fun ⟨more, between, first, rest⟩ => ⟨between, first, more, rest⟩,
          fun ⟨between, first, more, rest⟩ => ⟨more, between, first, rest⟩⟩
      rw [steps]
      simp only [ih]
      by_cases kept : IsKept tag
      · have names : keptNames (tag :: tags) = sanitize isTagChar tag.1 :: keptNames tags := by
          simp [keptNames, kept]
        simp only [result_addTag_of_kept kept, insertUnique_eq_ok_iff, names, List.nodup_cons,
          List.forall_mem_cons]
        constructor
        · rintro ⟨_, ⟨new, rfl⟩, distinct, free⟩
          obtain ⟨apart, free⟩ := forall_get?_insert_eq_none_iff.mp free
          exact ⟨⟨apart, distinct⟩, new, free⟩
        · rintro ⟨⟨apart, distinct⟩, new, free⟩
          exact ⟨_, ⟨new, rfl⟩, distinct, forall_get?_insert_eq_none_iff.mpr ⟨apart, free⟩⟩
      · have names : keptNames (tag :: tags) = keptNames tags := by simp [keptNames, kept]
        simp [result_addTag_of_not_kept kept, names]

/-! ## Gaps -/

/-- The default tags whose keys an envelope does not have. -/
def Envelope.gaps (defaults : Dict String) (e : Envelope) : Dict String :=
  defaults.filter fun key _ => !e.tags.contains key

/-- Whether default tags are labels as they stand: their keys are valid and not reserved, and their
values are not empty. -/
def AreLabels (defaults : Dict String) : Prop :=
  ∀ tag ∈ defaults.toList,
    IsKept tag ∧ sanitize isTagChar tag.1 = tag.1 ∧ isValidName tag.1 = true

instance (defaults : Dict String) : Decidable (AreLabels defaults) :=
  inferInstanceAs (Decidable (∀ tag ∈ defaults.toList, _))

theorem get?_gaps_eq_some_iff {defaults : Dict String} {e : Envelope} {key value : String} :
    (e.gaps defaults).get? key = some value ↔
      defaults.get? key = some value ∧ e.tags.get? key = none := by
  simp [Envelope.gaps, Option.filter_eq_some_iff, Dict.contains]

theorem AreLabels.gaps {defaults : Dict String} (labels : AreLabels defaults) (e : Envelope) :
    AreLabels (e.gaps defaults) :=
  fun tag among => labels tag (List.mem_filter.mp among).1

/-- The labels of such tags have their keys. -/
theorem AreLabels.keptNames_eq {below : Dict String} (labels : AreLabels below) :
    keptNames below.toList = below.keys := by
  have all : below.toList.filter (fun tag => IsKept tag) = below.toList :=
    List.filter_eq_self.mpr fun tag among => decide_eq_true (labels tag among).1
  rw [keptNames, all, Dict.keys]
  exact List.map_congr_left fun tag among => (labels tag among).2.1

/-- The tags with the default tags are those of the envelope and those that fill its gaps. -/
theorem tagsWithDefaults_perm (defaults : Dict String) (e : Envelope) :
    (tagsWithDefaults defaults e).toList.Perm (e.tags.toList ++ (e.gaps defaults).toList) := by
  have apart : e.tags.toList.Disjoint (e.gaps defaults).toList := by
    intro tag own gap
    have absent := (get?_gaps_eq_some_iff.mp (Dict.mem_toList_iff.mp gap)).2
    rw [Dict.mem_toList_iff.mp own] at absent
    cases absent
  have distinct : (e.tags.toList ++ (e.gaps defaults).toList).Nodup :=
    (e.tags.keys_nodup.of_map _).append ((e.gaps defaults).keys_nodup.of_map _) apart
  refine (List.perm_ext_iff_of_nodup ((Dict.keys_nodup _).of_map _) distinct).mpr ?_
  rintro ⟨key, value⟩
  show (key, value) ∈ (tagsWithDefaults defaults e).toList ↔ _
  simp only [List.mem_append, Dict.mem_toList_iff, get?_gaps_eq_some_iff,
    get?_tagsWithDefaults_eq]
  cases e.tags.get? key <;> simp

/-! ## Common labels -/

section Lifting

variable {defaults : Dict String} {e : Envelope}

/-- Which labels there are after the default tags have been added to some others. -/
theorem get?_labelsOfTags_gaps (clean : AreLabels defaults) {tags tags' : List (String × String)}
    (perm : tags.Perm e.tags.toList) (perm' : tags'.Perm (tagsWithDefaults defaults e).toList)
    {labels more : Labels} (made : (labelsOfTags tags).result = .ok labels)
    (made' : (labelsOfTags tags').result = .ok more) (key v : String) :
    more.get? key = some v ↔ labels.get? key = some v ∨ (e.gaps defaults).get? key = some v := by
  have both := perm'.trans (tagsWithDefaults_perm defaults e)
  rw [get?_foldlM_addTag made', get?_foldlM_addTag made]
  simp only [Dict.get?_empty, reduceCtorEq, false_or, both.mem_iff, perm.mem_iff, List.mem_append,
    or_and_right, exists_or]
  refine or_congr_right ⟨?_, fun found => ?_⟩
  · rintro ⟨tag, gap, -, rfl, rfl⟩
    rw [((clean.gaps e) tag gap).2.1]
    exact Dict.mem_toList_iff.mp gap
  · have gap : (key, v) ∈ (e.gaps defaults).toList := Dict.mem_toList_iff.mpr found
    obtain ⟨kept, same, -⟩ := (clean.gaps e) _ gap
    exact ⟨_, gap, kept, same, rfl⟩

/-- Default tags become labels if they have room among those of the other tags. -/
theorem exists_labelsOfTags_gaps_iff (clean : AreLabels defaults)
    {tags tags' : List (String × String)} (perm : tags.Perm e.tags.toList)
    (perm' : tags'.Perm (tagsWithDefaults defaults e).toList) {labels : Labels}
    (made : (labelsOfTags tags).result = .ok labels) :
    (∃ more, (labelsOfTags tags').result = .ok more) ↔ Apart (e.gaps defaults) labels := by
  have both : tags'.Perm (tags ++ (e.gaps defaults).toList) :=
    (perm'.trans (tagsWithDefaults_perm defaults e)).trans (perm.symm.append_right _)
  have names : (keptNames tags').Perm (keptNames tags ++ (e.gaps defaults).keys) := by
    rw [← (clean.gaps e).keptNames_eq]
    simpa [keptNames] using (both.filter fun tag => IsKept tag).map fun tag =>
      sanitize isTagChar tag.1
  have own : (keptNames tags).Nodup := (exists_foldlM_addTag_iff.mp ⟨labels, made⟩).1
  have found (name : String) : name ∈ keptNames tags ↔ ∃ v, labels.get? name = some v := by
    simp only [mem_keptNames_iff, get?_foldlM_addTag made, Dict.get?_empty, reduceCtorEq, false_or]
    exact ⟨fun ⟨tag, there, kept, same⟩ => ⟨_, tag, there, kept, same, rfl⟩,
      fun ⟨_, tag, there, kept, same, _⟩ => ⟨tag, there, kept, same⟩⟩
  rw [labelsOfTags, exists_foldlM_addTag_iff, names.nodup_iff, List.nodup_append]
  constructor
  · rintro ⟨⟨-, -, apart⟩, -⟩
    refine Labels.apart_iff.mpr fun key v w gap there => ?_
    exact apart key ((found key).mpr ⟨w, there⟩) key (Dict.mem_keys_iff.mpr ⟨v, gap⟩) rfl
  · intro apart
    refine ⟨⟨own, (e.gaps defaults).keys_nodup, ?_⟩, fun _ _ => rfl⟩
    rintro name there _ gap rfl
    obtain ⟨w, there⟩ := (found name).mp there
    obtain ⟨v, gap⟩ := Dict.mem_keys_iff.mp gap
    exact Labels.apart_iff.mp apart name v w gap there

theorem lifts_labelsOfTags (clean : AreLabels defaults) {tags tags' : List (String × String)}
    (perm : tags.Perm e.tags.toList) (perm' : tags'.Perm (tagsWithDefaults defaults e).toList) :
    Lifts (Apart (e.gaps defaults)) (layer (e.gaps defaults)) (labelsOfTags tags)
      (labelsOfTags tags') := by
  intro labels made more
  have layered {more : Labels} (made' : (labelsOfTags tags').result = .ok more) :
      Apart (e.gaps defaults) labels ∧ more = layer (e.gaps defaults) labels := by
    have apart := (exists_labelsOfTags_gaps_iff clean perm perm' made).mp ⟨more, made'⟩
    refine ⟨apart, Dict.ext_get? fun key => Option.ext fun v => ?_⟩
    rw [get?_labelsOfTags_gaps clean perm perm' made made', get?_layer]
    cases gap : (e.gaps defaults).get? key with
    | none => cases labels.get? key <;> simp
    | some w => simp [apart key w gap]
  refine ⟨layered, ?_⟩
  rintro ⟨apart, rfl⟩
  obtain ⟨more, made'⟩ := (exists_labelsOfTags_gaps_iff clean perm perm' made).mpr apart
  rw [made', (layered made').2]

/-- A label that is added is added over further labels, unless it is one of them. -/
theorem lifts_insertUnique {below labels : Labels} (apart : Apart below labels)
    (name value : String) :
    Lifts (Apart below) (layer below) (insertUnique labels name value)
      (insertUnique (layer below labels) name value) := by
  intro more made more'
  obtain ⟨new, rfl⟩ := insertUnique_eq_ok_iff.mp made
  rw [insertUnique_eq_ok_iff, Labels.apart_insert_iff, Labels.layer_insert, get?_layer, new]
  simp [apart]

theorem lifts_insertUnless {below labels : Labels} (apart : Apart below labels) (has : Bool)
    (name value : String) :
    Lifts (Apart below) (layer below)
      (if has then pure labels else insertUnique labels name value)
      (if has then pure (layer below labels) else insertUnique (layer below labels) name value) := by
  cases has with
  | true => exact Lifts.pure _ apart
  | false => exact lifts_insertUnique apart name value

theorem extends_insertUnless {labels more : Labels} {has : Bool} {name value : String}
    (made : (if has then pure labels else insertUnique labels name value : Remarked Labels).result =
      .ok more) : Extends labels more := by
  cases has with
  | true => exact result_pure_eq_ok_iff.mp made ▸ Extends.refl labels
  | false => exact (extends_insertUnique made).1

theorem lifts_commonLabels (clean : AreLabels defaults) {tags tags' : List (String × String)}
    (perm : tags.Perm e.tags.toList) (perm' : tags'.Perm (tagsWithDefaults defaults e).toList) :
    Lifts (Apart (e.gaps defaults)) (layer (e.gaps defaults)) (commonLabels e tags)
      (commonLabels e tags') := by
  rw [commonLabels_eq, commonLabels_eq]
  refine (lifts_labelsOfTags clean perm perm').bind (fun fromTags _ apart => ?_) ?_
  · refine (lifts_insertUnless apart _ _ _).bind (fun withSource _ apart => ?_) ?_
    · exact lifts_insertUnless apart _ _ _
    · intro withSource labels _ made apart
      exact apart.of_extends (extends_insertUnless made)
  · intro fromTags labels _ made apart
    obtain ⟨withSource, source, ofInstance⟩ := result_bind_eq_ok_iff.mp made
    exact (apart.of_extends (extends_insertUnless ofInstance)).of_extends
      (extends_insertUnless source)

end Lifting

/-! ## Measurements -/

/-- A measurement over further labels. -/
def Measurement.over (below : Labels) (m : Measurement) : Measurement :=
  { m with
    labels := layer below m.labels
    identity := .of m.name (identifyingLabels (layer below m.labels) m.reading) }

theorem find?_invalid_eq_none_iff {labels : Labels} :
    labels.keys.find? (!isValidName ·) = none ↔
      ∀ key value, labels.get? key = some value → isValidName key = true := by
  simp [Dict.keys, Dict.get?_eq_some_iff]

theorem lifts_measurement {below labels : Labels} (clean : AreLabels below)
    (apart : Apart below labels) (name given : String) (reading : Reading) :
    Lifts (fun m => Apart below m.labels) (·.over below) (measurement name given labels reading)
      (measurement name given (layer below labels) reading) := by
  intro m made m'
  obtain ⟨valid, more, added, names, rfl⟩ := result_measurement_eq_ok_iff.mp made
  have lifts := lifts_insertUnique apart givenNameLabel (Text.base64OfString given) more added
  rw [result_measurement_eq_ok_iff]
  constructor
  · rintro ⟨-, more', added', -, rfl⟩
    obtain ⟨room, rfl⟩ := (lifts more').mp added'
    exact ⟨room, rfl⟩
  · rintro ⟨room, rfl⟩
    refine ⟨valid, _, (lifts _).mpr ⟨room, rfl⟩, ?_, rfl⟩
    rw [find?_invalid_eq_none_iff] at names ⊢
    intro key value found
    rw [get?_layer] at found
    cases own : more.get? key with
    | some v => exact names key v own
    | none =>
        rw [own] at found
        exact (clean (key, value) (Dict.mem_toList_iff.mpr found)).2.2

theorem gaugeMeasurement_eq (labels : Labels) (reading : String × GaugeReading) :
    gaugeMeasurement labels reading = (do
      let name ← sanitizeName reading.1
      let labels ← (if reading.2.unit.isEmpty then pure labels
        else insertUnique labels unitLabel reading.2.unit : Remarked Labels)
      measurement name reading.1 labels (.gauge reading.2.value)) := by
  unfold gaugeMeasurement
  congr 1
  funext name
  cases reading.2.unit.isEmpty <;> rfl

theorem extends_measurement {name given : String} {labels : Labels} {reading : Reading}
    {m : Measurement} (made : (measurement name given labels reading).result = .ok m) :
    Extends labels m.labels := by
  obtain ⟨-, more, added, -, rfl⟩ := result_measurement_eq_ok_iff.mp made
  exact (extends_insertUnique added).1

theorem lifts_gaugeMeasurement {below labels : Labels} (clean : AreLabels below)
    (apart : Apart below labels) (reading : String × GaugeReading) :
    Lifts (fun m => Apart below m.labels) (·.over below) (gaugeMeasurement labels reading)
      (gaugeMeasurement (layer below labels) reading) := by
  rw [gaugeMeasurement_eq, gaugeMeasurement_eq]
  refine (Lifts.refl (sanitizeName reading.1)).bind (fun name _ _ => ?_) fun _ _ _ _ _ => trivial
  refine (lifts_insertUnless apart _ _ _).bind (fun labels _ apart => ?_) ?_
  · exact lifts_measurement clean apart _ _ _
  · exact fun labels m _ made apart => apart.of_extends (extends_measurement made)

/-! ## Envelopes -/

/-- Whether further labels have room among those of an envelope and its measurements. -/
def Envelope.LeavesRoom (e : Envelope) (below : Labels) (ms : List Measurement) : Prop :=
  (∀ key value, e.Gives .empty key value → below.get? key = none) ∧
    ∀ m ∈ ms, Apart below m.labels

section Envelopes

variable {defaults : Dict String} {e : Envelope} {order : ConversionOrder}

theorem apart_commonLabels_iff {tags : List (String × String)} (perm : tags.Perm e.tags.toList)
    {labels below : Labels} (made : (commonLabels e tags).result = .ok labels) :
    Apart below labels ↔ ∀ key value, e.Gives .empty key value → below.get? key = none := by
  have given : ∀ key v, labels.get? key = some v ↔ e.Gives .empty key v :=
    get?_commonLabels perm made
  simp only [Labels.apart_iff, ← given, Option.eq_none_iff_forall_ne_some]
  exact ⟨fun apart key w there v found => apart key v w found there,
    fun room key v w found there => room key w there v found⟩

/-- What follows the common labels is lifted with them. -/
theorem lifts_withCommonLabels (clean : AreLabels defaults)
    (fair : ∀ tags, (order.tags tags).Perm tags) {f : Labels → Remarked (List Measurement)}
    (rest : ∀ labels, Apart (e.gaps defaults) labels →
      Lifts (fun ms => ∀ m ∈ ms, Apart (e.gaps defaults) m.labels)
        (List.map (·.over (e.gaps defaults))) (f labels) (f (layer (e.gaps defaults) labels))) :
    Lifts (e.LeavesRoom (e.gaps defaults)) (List.map (·.over (e.gaps defaults)))
      (commonLabels e (order.tags e.tags.toList) >>= f)
      (commonLabels e (order.tags (tagsWithDefaults defaults e).toList) >>= f) := by
  have perm := fair e.tags.toList
  refine (lifts_commonLabels clean perm (fair _)).bind (fun labels made apart ms last ms' => ?_) ?_
  · -- There may be no measurements, so the room among the common labels is said apart.
    have room := (apart_commonLabels_iff perm made).mp apart
    rw [rest labels apart ms last ms']
    exact ⟨fun ⟨aparts, same⟩ => ⟨⟨room, aparts⟩, same⟩, fun ⟨room, same⟩ => ⟨room.2, same⟩⟩
  · exact fun labels ms made _ room => (apart_commonLabels_iff perm made).mpr room.1

theorem lifts_single {below labels : Labels} (clean : AreLabels below)
    (apart : Apart below labels) (name given : String) (reading : Reading) :
    Lifts (fun ms => ∀ m ∈ ms, Apart below m.labels) (List.map (·.over below))
      (measurement name given labels reading >>= fun m => pure [m])
      (measurement name given (layer below labels) reading >>= fun m => pure [m]) := by
  refine (lifts_measurement clean apart name given reading).bind (fun m _ apart => ?_) ?_
  · have aparts : ∀ m' ∈ [m], Apart below m'.labels := List.forall_mem_singleton.mpr apart
    exact Lifts.pure (List.map (Measurement.over below)) aparts
  · intro m ms _ made aparts
    exact aparts m (result_pure_eq_ok_iff.mp made ▸ List.mem_singleton_self m)

/-- An envelope with a message is converted with default tags just in case these have room among
the labels there are without them. -/
theorem lifts_convertIn (clean : AreLabels defaults) (fair : ∀ tags, (order.tags tags).Perm tags)
    {message : Message} (told : e.message = some message) :
    Lifts (e.LeavesRoom (e.gaps defaults)) (List.map (·.over (e.gaps defaults)))
      (convertIn order .empty e) (convertIn order defaults e) := by
  have below := clean.gaps e
  simp only [convertIn, told]
  cases message with
  | counter c =>
      refine (Lifts.refl (sanitizeName c.name)).bind (fun name _ _ => ?_) fun _ _ _ _ _ => trivial
      exact lifts_withCommonLabels clean fair fun labels apart => lifts_single below apart _ _ _
  | gauge readings =>
      refine lifts_withCommonLabels clean fair fun labels apart => ?_
      exact Lifts.mapM (fun reading => lifts_gaugeMeasurement below apart reading) _
  | timer t =>
      refine (Lifts.refl (sanitizeName _)).bind (fun name _ _ => ?_) fun _ _ _ _ _ => trivial
      exact lifts_withCommonLabels clean fair fun labels apart => lifts_single below apart _ _ _

/-- A tag with the key of a default tag is a label of every measurement, unless it is empty. -/
theorem label_of_tag (clean : AreLabels defaults) (fair : ∀ tags, (order.tags tags).Perm tags)
    {ms : List Measurement} (alone : (convertIn order .empty e).result = .ok ms) {m : Measurement}
    (among : m ∈ ms) {key : String} (standard : key ∈ defaults.keys) {value : String}
    (tag : e.tags.get? key = some value) (given : value ≠ "") : m.labels.get? key = some value := by
  obtain ⟨labels, common, fits⟩ := of_mem_convertIn alone m among
  obtain ⟨v, found⟩ := Dict.mem_keys_iff.mp standard
  obtain ⟨⟨free, -⟩, same, -⟩ := clean (key, v) (Dict.mem_toList_iff.mpr found)
  have kept : IsKept (key, value) := ⟨free, by simpa [String.isEmpty_iff] using given⟩
  have gives : e.Gives .empty (sanitize isTagChar key) value := .tag tag kept
  rw [same] at gives
  exact fits.labels key value ((get?_commonLabels (fair _) common key value).mpr gives)

/-- It makes no difference whether labels are over the default tags or over those that fill gaps,
if they have what the other default tags would fill. -/
theorem layer_gaps_eq_iff {labels : Labels}
    (tagged : ∀ key ∈ defaults.keys, ∀ value, e.tags.get? key = some value → value ≠ "" →
      labels.get? key = some value) :
    layer (e.gaps defaults) labels = layer defaults labels ↔
      ∀ key ∈ defaults.keys, e.tags.get? key = some "" → labels.contains key = true := by
  constructor
  · intro same key standard tag
    have atKey := congrArg (Dict.get? · key) same
    simp only [get?_layer] at atKey
    obtain ⟨v, found⟩ := Dict.mem_keys_iff.mp standard
    have noGap : (e.gaps defaults).get? key = none := by
      rw [Option.eq_none_iff_forall_ne_some]
      intro v gap
      rw [(get?_gaps_eq_some_iff.mp gap).2] at tag
      cases tag
    rw [found, noGap] at atKey
    rw [Dict.contains]
    cases own : labels.get? key with
    | some v => rfl
    | none =>
        rw [own] at atKey
        cases atKey
  · intro covered
    refine Dict.ext_get? fun key => ?_
    rw [get?_layer, get?_layer]
    cases own : labels.get? key with
    | some v => rfl
    | none =>
        have uncovered : key ∈ defaults.keys → e.tags.get? key = none := by
          intro standard
          rw [Option.eq_none_iff_forall_ne_some]
          intro value tag
          by_cases given : value = ""
          · have there := covered key standard (given ▸ tag)
            rw [Dict.contains, own] at there
            cases there
          · rw [tagged key standard value tag given] at own
            cases own
        refine Option.ext fun v => ?_
        show (e.gaps defaults).get? key = some v ↔ defaults.get? key = some v
        rw [get?_gaps_eq_some_iff, and_iff_left_iff_imp]
        exact fun found => uncovered (Dict.mem_keys_iff.mpr ⟨v, found⟩)

/-- What default tags do to an envelope that is converted without them. -/
structure FillsGaps (order : ConversionOrder) (defaults : Dict String) (e : Envelope)
    (ms : List Measurement) : Prop where
  /-- It is still converted if those that fill its gaps have room among its labels and those of its
  measurements, and in no other case, unless it tells nothing. -/
  converts : (∃ ms', (convertIn order defaults e).result = .ok ms') ↔
    e.message = none ∨ e.LeavesRoom (e.gaps defaults) ms
  /-- Then its measurements are the same, over those that fill its gaps. -/
  filled : ∀ ms', (convertIn order defaults e).result = .ok ms' →
    ms' = ms.map (·.over (e.gaps defaults))
  /-- The default tags are under the labels, as in a scrape, unless a tag of the envelope that is
  empty stands for one of them. -/
  layered : ∀ m ∈ ms, (m.over (e.gaps defaults)).labels = layer defaults m.labels ↔
    ∀ key ∈ defaults.keys, e.tags.get? key = some "" → m.labels.contains key = true

/-- Default tags fill the gaps of every envelope that leaves room for them. -/
theorem fills_gaps (clean : AreLabels defaults) (fair : ∀ tags, (order.tags tags).Perm tags)
    {ms : List Measurement} (alone : (convertIn order .empty e).result = .ok ms) :
    FillsGaps order defaults e ms := by
  have lifts : ∀ ms', (convertIn order defaults e).result = .ok ms' ↔
      (e.message = none ∨ e.LeavesRoom (e.gaps defaults) ms) ∧
        ms' = ms.map (·.over (e.gaps defaults)) := by
    intro ms'
    cases told : e.message with
    | none =>
        simp only [convertIn, told, result_pure_eq_ok_iff] at alone ⊢
        simp [← alone, eq_comm]
    | some message => simpa using lifts_convertIn clean fair told ms alone ms'
  refine ⟨?_, fun ms' made => ((lifts ms').mp made).2, fun m among => ?_⟩
  · simp only [lifts, exists_and_left, exists_eq, and_true]
  · exact layer_gaps_eq_iff fun key standard value tag given =>
      label_of_tag clean fair alone among standard tag given

/-- A gauge of an instance with a tag of its own. -/
def cpuReading : Envelope :=
  ⟨"svc", "0", .ofList [("job", "web")], some (.gauge (.ofList [("cpu", ⟨.ofNat 1, "%"⟩)]))⟩

/-- Two default tags, of which the gauge has one. -/
def sharedTags : Dict String := .ofList [("deployment", "cf"), ("job", "core")]

/-- Tags are visited in the other order. -/
def backwards : ConversionOrder := ⟨List.reverse, id⟩

/-- The gauge is given the other one. -/
theorem fills_cpuReading :
    AreLabels sharedTags ∧ (∀ tags, (backwards.tags tags).Perm tags) ∧
      ∃ ms, (convertIn backwards .empty cpuReading).result = .ok ms ∧
        FillsGaps backwards sharedTags cpuReading ms ∧
        ms.map (fun m => (m.over (cpuReading.gaps sharedTags)).labels.toList) =
          [[("deployment", "cf"), ("instance_id", "0"), ("job", "web"),
            ("loggregator_name", "Y3B1"), ("source_id", "svc"), ("unit", "%")]] := by
  have clean : AreLabels sharedTags := by decide +kernel
  have fair : ∀ tags, (backwards.tags tags).Perm tags := fun tags => tags.reverse_perm
  refine ⟨clean, fair, _, rfl, fills_gaps clean fair rfl, ?_⟩
  decide +kernel

/-- A counter without tags. -/
def plainCounter : Envelope := ⟨"svc", "", .empty, some (.counter ⟨"b", 0, 1⟩)⟩

/-- A default tag with the name of the source makes every such envelope fail. -/
theorem rejected_plainCounter :
    AreLabels (.ofList [("source_id", "cf")]) ∧
      (∃ ms, (convert .empty plainCounter).result = .ok ms) ∧
      (convert (.ofList [("source_id", "cf")]) plainCounter).result =
        .error (.duplicateLabel "source_id") := by
  refine ⟨by decide +kernel, ⟨_, rfl⟩, ?_⟩
  decide +kernel

end Envelopes

end Telemetry
