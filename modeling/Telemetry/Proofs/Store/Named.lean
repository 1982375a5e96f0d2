import Telemetry.Proofs.Conversion.Defaults
import Telemetry.Proofs.Exposition.Clean
import Telemetry.Proofs.Store.Series

/-!
# Names that are exposed

An envelope may call its metrics and its tags what it likes.  What a scanner takes for
the name of a metric or of a label is a *name*, though (`IsName`), and everything that
is converted has names (`wellNamed_of_mem_convertIn`): an underscore has been put for
each character that may not stand in one, and what is empty or starts with a digit then
is refused.  The endings and the labels of an exposition keep names what they are, and the
values of labels are escaped, so no line of it is refused, whatever was written.
-/

namespace Telemetry

open Remarked

/-! ## Names made valid -/

theorem allowed_of_mem_sanitize {allowed : Char → Bool} (underscore : allowed '_' = true)
    {s : String} {c : Char} (there : c ∈ (sanitize allowed s).toList) : allowed c = true := by
  rw [sanitize, String.toList_ofList, List.mem_map] at there
  obtain ⟨before, -, rfl⟩ := there
  cases kept : allowed before with
  | true => simpa using kept
  | false => simpa using underscore

/-- A valid name of allowed characters is a name. -/
theorem isName_of_isValidName {allowed : Char → Bool} {s : String} (valid : isValidName s = true)
    (all : ∀ c ∈ s.toList, allowed c = true) : IsName allowed s.toList := by
  unfold isValidName at valid
  split at valid
  next => cases valid
  next c more chars =>
    refine ⟨by simp [chars], ?_, all⟩
    rw [chars, List.head?_cons, Option.any_some]
    simpa [Char.isDigit, isDigit, Char.le_def, imp_iff_not_or] using valid

/-! ## Labels on the way -/

/-- Whether the names of some labels have no other characters than names have. -/
def Labels.Spelled (labels : Labels) : Prop :=
  ∀ key value, labels.get? key = some value → ∀ c ∈ key.toList, isLabelChar c = true

theorem Envelope.Gives.spelled {defaults : Dict String} {e : Envelope} {key value : String}
    (gives : e.Gives defaults key value) : ∀ c ∈ key.toList, isLabelChar c = true := by
  cases gives with
  | tag found kept => exact fun c there => allowed_of_mem_sanitize rfl there
  | source absent => decide
  | ofInstance absent known => decide

theorem Labels.Spelled.insertUnique {labels more : Labels} (spelled : labels.Spelled)
    {name value : String} (chars : ∀ c ∈ name.toList, isLabelChar c = true)
    (added : (insertUnique labels name value).result = .ok more) : more.Spelled := by
  intro key v found
  rcases (get?_insertUnique added key v).mp found with found | ⟨rfl, -⟩
  · exact spelled key v found
  · exact chars

/-! ## Measurements -/

/-- Whether a metric and its labels have names. -/
structure WellNamed (name : String) (labels : Labels) : Prop where
  /-- That of the metric may have colons. -/
  name : IsName isNameChar name.toList
  /-- Those of the labels have none. -/
  labels : ∀ l ∈ labels.toList, IsName isLabelChar l.1.toList

theorem wellNamed_measurement {labels : Labels} (spelled : labels.Spelled) {name given : String}
    {reading : Reading} {m : Measurement}
    (made : (measurement (sanitize isMetricChar name) given labels reading).result = .ok m) :
    WellNamed m.name m.labels := by
  obtain ⟨valid, more, added, names, rfl⟩ := result_measurement_eq_ok_iff.mp made
  have spelled : more.Spelled := spelled.insertUnique (by decide) added
  constructor
  · exact isName_of_isValidName valid fun c there => allowed_of_mem_sanitize rfl there
  · rintro ⟨key, value⟩ there
    have found : more.get? key = some value := Dict.mem_toList_iff.mp there
    exact isName_of_isValidName (find?_invalid_eq_none_iff.mp names key value found)
      (spelled key value found)

theorem wellNamed_gaugeMeasurement {labels : Labels} (spelled : labels.Spelled)
    {reading : String × GaugeReading} {m : Measurement}
    (made : (gaugeMeasurement labels reading).result = .ok m) : WellNamed m.name m.labels := by
  rw [gaugeMeasurement_eq] at made
  obtain ⟨name, sanitized, made⟩ := result_bind_eq_ok_iff.mp made
  obtain ⟨withUnit, unit, made⟩ := result_bind_eq_ok_iff.mp made
  have spelled : withUnit.Spelled := by
    split at unit
    · exact result_pure_eq_ok_iff.mp unit ▸ spelled
    · exact spelled.insertUnique (by decide) unit
  rw [result_sanitizeName sanitized] at made
  exact wellNamed_measurement spelled made

/-- Whatever an envelope and the default tags are called, what is converted has names. -/
theorem wellNamed_of_mem_convertIn {order : ConversionOrder}
    (perm : ∀ tags, (order.tags tags).Perm tags) {defaults : Dict String} {e : Envelope}
    {ms : List Measurement} (h : (convertIn order defaults e).result = .ok ms) :
    ∀ m ∈ ms, WellNamed m.name m.labels := by
  have common : ∀ {labels : Labels},
      (commonLabels e (order.tags (tagsWithDefaults defaults e).toList)).result = .ok labels →
        labels.Spelled := fun made key value found =>
    ((get?_commonLabels (perm _) made key value).mp found).spelled
  intro m there
  -- A counter and a timer are measured once, and differ only in what they are called.
  have once : ∀ {name given : String} {reading : Reading},
      (do
        let valid ← sanitizeName name
        let labels ← commonLabels e (order.tags (tagsWithDefaults defaults e).toList)
        let m ← measurement valid given labels reading
        return [m]).result = .ok ms → WellNamed m.name m.labels := by
    intro name given reading h
    obtain ⟨valid, sanitized, h⟩ := result_bind_eq_ok_iff.mp h
    obtain ⟨labels, given, h⟩ := result_bind_eq_ok_iff.mp h
    obtain ⟨made, measured, h⟩ := result_bind_eq_ok_iff.mp h
    rw [← result_pure_eq_ok_iff.mp h, List.mem_singleton] at there
    rw [result_sanitizeName sanitized, ← there] at measured
    exact wellNamed_measurement (common given) measured
  unfold convertIn at h
  split at h
  next =>
    rw [← result_pure_eq_ok_iff.mp h] at there
    cases there
  next => exact once h
  next =>
    obtain ⟨labels, given, h⟩ := result_bind_eq_ok_iff.mp h
    obtain ⟨reading, -, measured⟩ := of_mem_result_mapM h m there
    exact wellNamed_gaugeMeasurement (common given) measured
  next => exact once h

/-! ## Lines -/

/-- The lines of what is kept with names have names. -/
theorem Store.named_of_mem_lines {visited : List StoredMetric}
    (named : ∀ m ∈ visited, WellNamed m.name m.labels) :
    ∀ line ∈ (familiesOf visited).flatMap Family.lines, line.Named := by
  intro line there
  obtain ⟨f, member, there⟩ := List.mem_flatMap.mp there
  have title : IsName isNameChar f.name.toList := by
    obtain ⟨first, others, ofName, -⟩ := Family.mem_merge_iff.mp member
    have among : first ∈ visited.map StoredMetric.family :=
      (List.mem_filter.mp (ofName ▸ List.mem_cons_self)).1
    obtain ⟨m, kept, rfl⟩ := List.mem_map.mp among
    exact Family.named_of_filter ofName ▸ (named m kept).name
  have labels : ∀ metric ∈ f.metrics, ∀ l ∈ metric.labels.toList,
      IsName isLabelChar l.1.toList := by
    intro metric exposed
    rw [metrics_of_mem_familiesOf member] at exposed
    obtain ⟨m, kept, rfl⟩ := List.mem_map.mp exposed
    exact (named m (List.mem_filter.mp kept).1).labels
  exact Family.Named.line ⟨title, labels⟩ line there

/-- A line with names is a comment or a sample as it stands. -/
theorem Line.comment_or_sample {line : Line} (named : line.Named) :
    line.text.head? = some '#' ∨ isSampleLine line.text = true := by
  cases line with
  | help name text => exact .inl (by rw [text_help, List.append_assoc, mark_help]; rfl)
  | type name kind => exact .inl (by rw [text_type, List.append_assoc, mark_type]; rfl)
  | sample s => exact .inr (Sample.isSampleLine_text named)

theorem Exposition.readIn_ne_invalidLine {families : List Family}
    (named : ∀ line ∈ families.flatMap Family.lines, line.Named) (order : VisitOrder)
    (number : Nat) : readIn order (exposition families) ≠ .error (.invalidLine number) := by
  unfold readIn
  simp only [firstInvalid?_exposition named]
  split <;> simp

/-! ## Runs -/

/-- After every run of writes and sweeps, everything that is kept has names.  In whatever order it
is visited, each line that is exposed is a comment or a sample, and none is refused when it is
read. -/
theorem exposed_names_valid (defaults : Dict String) (ttl : Nat) (d : Diagnostics)
    (steps : List Collector.Step) (visited : List StoredMetric)
    (perm : visited.Perm (Collector.run (.fresh defaults ttl, d) steps).1.store.metrics) :
    (∀ m ∈ visited, IsName isNameChar m.name.toList ∧
      ∀ l ∈ m.labels.toList, IsName isLabelChar l.1.toList) ∧
    (∃ lines, Text.lines (exposition (Store.familiesOf visited)) = lines ++ [[]] ∧
      ∀ line ∈ lines, line.head? = some '#' ∨ isSampleLine line = true) ∧
    ∀ order number, Exposition.readIn order (exposition (Store.familiesOf visited)) ≠
      .error (.invalidLine number) := by
  have everywhere : (Collector.run (.fresh defaults ttl, d) steps).1.store.Everywhere
      fun _ _ m => WellNamed m.name m.labels :=
    everywhere_run (fun _ _ _ _ converted m there _ _ =>
      wellNamed_of_mem_convertIn (fun _ => .refl _) converted m there) ttl d
  have named : ∀ m ∈ visited, WellNamed m.name m.labels := by
    intro m there
    rw [perm.mem_iff, Store.metrics_eq, List.mem_map] at there
    obtain ⟨⟨⟨source, id⟩, _⟩, entry, rfl⟩ := there
    exact everywhere source id _ (Store.mem_entries_iff.mp entry)
  have lines := Store.named_of_mem_lines named
  refine ⟨fun m there => ⟨(named m there).name, (named m there).labels⟩, ?_,
    Exposition.readIn_ne_invalidLine lines⟩
  refine ⟨_, lines_exposition lines, fun text there => ?_⟩
  obtain ⟨line, member, rfl⟩ := List.mem_map.mp there
  exact Line.comment_or_sample (lines line member)

/-- Metrics, tags and units that are called what no metric and no label can be called. -/
def oddlyNamed : List Collector.Step :=
  let tags : Dict String :=
    .ofList [("größe.1", "a\"b\\c\n\x7d"), ("__quiet", "x"), ("\x7ble=\"", "# TYPE")]
  let readings : Dict GaugeReading :=
    .ofList [("çpu/µ", ⟨.ofNat 7, "\n%"⟩), ("up:time", ⟨.ofNat 1, ""⟩)]
  [.write ⟨"source \"α\"\n", "0", tags, some (.gauge readings)⟩ 0,
    .write ⟨"β", "", .empty, some (.counter ⟨"9lives", 0, 1⟩)⟩ 1,
    .write ⟨"β", "", tags, some (.counter ⟨"", 0, 1⟩)⟩ 1,
    .write ⟨"β", "", tags, some (.timer ⟨"\n", 0, 5⟩)⟩ 2, .expire 3]

/-- What of it can be converted is exposed under names. -/
theorem exposed_names_oddlyNamed :
    let defaults : Dict String := .ofList [("ümlaut", "ü"), ("größe.1", "-")]
    let metrics := (Collector.run (.fresh defaults 600, {}) oddlyNamed).1.store.metrics
    metrics.map (·.name) = ["up:time", "_pu__", "__seconds"] ∧
      (∀ m ∈ metrics, m.labels.keys.head? = some "_le__") ∧
      ∀ order number, Exposition.readIn order (exposition (Store.familiesOf metrics)) ≠
        .error (.invalidLine number) := by
  intro defaults metrics
  refine ⟨by decide +kernel, by decide +kernel, ?_⟩
  exact (exposed_names_valid defaults 600 {} oddlyNamed metrics (.refl _)).2.2

end Telemetry
