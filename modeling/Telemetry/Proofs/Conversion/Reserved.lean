import Telemetry.Proofs.Conversion.Exact

/-!
# Reserved labels

A tag whose key starts with two underscores is left out, since such names are reserved.
The test is made before the key is made valid, though, and this puts underscores for
other characters.  So a key like `._name_` passes the test and becomes `__name_`.

These are the only reserved labels that are exposed (`reserved_label_iff`): the key of
their tag starts with two characters that are neither letters nor digits of ASCII, and
not with two underscores (`becomesReserved_iff`).
-/

namespace Telemetry

/-- Whether a key is not reserved, and starts with two characters for which underscores stand once
it is made valid. -/
def BecomesReserved (key : String) : Prop :=
  ∃ first second rest, key.toList = first :: second :: rest ∧ first.isAlphanum = false ∧
    second.isAlphanum = false ∧ ¬(first = '_' ∧ second = '_')

theorem isReserved_iff {key : String} :
    isReserved key = true ↔ ∃ rest, key.toList = '_' :: '_' :: rest := by
  have mark : "__".toList = ['_', '_'] := by decide
  rw [isReserved, mark, List.isPrefixOf_iff_prefix, List.prefix_iff_eq_append]
  constructor
  · intro equal
    exact ⟨_, equal.symm⟩
  · rintro ⟨rest, equal⟩
    rw [equal]
    rfl

/-- An underscore stands for itself and for what may not stand in a tag. -/
theorem sanitized_eq_underscore_iff (c : Char) :
    (if isTagChar c then c else '_') = '_' ↔ c.isAlphanum = false := by
  rw [isTagChar]
  by_cases same : c = '_'
  · subst same
    decide
  · cases c.isAlphanum <;> simp [same]

/-- Which keys are reserved after they are made valid, but not before. -/
theorem becomesReserved_iff {key : String} :
    BecomesReserved key ↔
      isReserved key = false ∧ isReserved (sanitize isTagChar key) = true := by
  rw [← Bool.not_eq_true, isReserved_iff, isReserved_iff, sanitize, String.toList_ofList,
    BecomesReserved]
  rcases key.toList with _ | ⟨first, _ | ⟨second, rest⟩⟩
  · simp
  · simp
  · simp only [List.map_cons, List.cons.injEq, sanitized_eq_underscore_iff]
    constructor
    · rintro ⟨_, _, _, ⟨rfl, rfl, rfl⟩, letter, letter', other⟩
      refine ⟨?_, _, letter, letter', rfl⟩
      rintro ⟨_, first, second, -⟩
      exact other ⟨first, second⟩
    · rintro ⟨other, _, letter, letter', -⟩
      refine ⟨_, _, _, ⟨rfl, rfl, rfl⟩, letter, letter', ?_⟩
      rintro ⟨first, second⟩
      exact other ⟨rest, first, second, rfl⟩

/-- The labels that are derived are not reserved. -/
theorem mem_pairs_of_isReserved {defaults : Dict String} {e : Envelope} {t : Told}
    {label value : String} (there : (label, value) ∈ e.pairs defaults t)
    (reserved : isReserved label = true) : (label, value) ∈ tagPairs (e.keptTags defaults) := by
  have derived : ∀ {name text : String} {has : Prop} [Decidable has], isReserved name = false →
      (label, value) ∉ if has then [] else [(name, text)] := by
    intro name text has _ free member
    split at member
    · cases member
    · cases List.mem_singleton.mp member
      rw [reserved] at free
      cases free
  simp only [Envelope.pairs, Envelope.commonPairs, Told.pairs, List.mem_append] at there
  rcases there with ((tag | source) | ofInstance) | unit | given
  · exact tag
  · exact absurd source (derived (by decide))
  · exact absurd ofInstance (derived (by decide))
  · exact absurd unit (derived (by decide))
  · cases List.mem_singleton.mp given
    exact absurd reserved (by decide)

/-- A label that is exposed is reserved just in case it comes of a tag that is kept and becomes
reserved when it is made valid. -/
theorem reserved_label_iff {order : ConversionOrder} (fair : order.Fair) {defaults : Dict String}
    {e : Envelope} {ms : List Measurement} (made : (convertIn order defaults e).result = .ok ms)
    {m : Measurement} (among : m ∈ ms) (label value : String) :
    m.labels.get? label = some value ∧ isReserved label = true ↔
      ∃ tag ∈ e.keptTags defaults, BecomesReserved tag.1 ∧ sanitize isTagChar tag.1 = label ∧
        tag.2 = value := by
  obtain ⟨all, can⟩ := measured_of_converted fair made
  obtain ⟨t, told, rfl⟩ := List.mem_map.mp (all.mem_iff.mp among)
  have free : ∀ tag ∈ e.keptTags defaults, isReserved tag.1 = false := fun tag kept =>
    (of_decide_eq_true (List.mem_filter.mp kept).2 : IsKept tag).1
  rw [(can t told).get?_labels]
  constructor
  · rintro ⟨there, reserved⟩
    obtain ⟨tag, kept, equal⟩ := List.mem_map.mp (mem_pairs_of_isReserved there reserved)
    cases equal
    exact ⟨tag, kept, becomesReserved_iff.mpr ⟨free tag kept, reserved⟩, rfl, rfl⟩
  · rintro ⟨tag, kept, becomes, rfl, rfl⟩
    refine ⟨?_, (becomesReserved_iff.mp becomes).2⟩
    simp only [Envelope.pairs, Envelope.commonPairs, List.mem_append]
    exact .inl (.inl (.inl (List.mem_map.mpr ⟨tag, kept, rfl⟩)))

/-- A counter with a tag that is not reserved until it is made valid. -/
def renamedCounter : Envelope :=
  ⟨"svc", "", .ofList [("._name__", "up"), ("__name__", "down")], some (.counter ⟨"b", 0, 1⟩)⟩

/-- It is exposed under a label for another name. -/
theorem reserved_renamedCounter :
    (⟨id, id⟩ : ConversionOrder).Fair ∧
      ∃ m, (convertIn ⟨id, id⟩ .empty renamedCounter).result = .ok [m] ∧
        (m.labels.get? "__name__" = some "up" ∧ isReserved "__name__" = true ↔
          ∃ tag ∈ renamedCounter.keptTags .empty, BecomesReserved tag.1 ∧
            sanitize isTagChar tag.1 = "__name__" ∧ tag.2 = "up") := by
  have fair : (⟨id, id⟩ : ConversionOrder).Fair := ⟨.refl, .refl⟩
  exact ⟨fair, _, rfl, reserved_label_iff fair rfl (List.mem_singleton_self _) _ _⟩

/-- So the label for the name is there, though a tag of this key is left out. -/
theorem leaked_renamedCounter :
    ∃ m, (convert .empty renamedCounter).result = .ok [m] ∧
      m.labels.toList = [("__name__", "up"), ("loggregator_name", "Yg=="), ("source_id", "svc")] ∧
        isReserved "__name__" = true := by
  exact ⟨_, rfl, by decide +kernel, by decide⟩

end Telemetry
