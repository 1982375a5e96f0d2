import Telemetry.Envelope.Decoding
import Telemetry.Proofs.Lookup

/-!
# Fields of records

A record is written as an object or as an array of its fields in order, and `Json.HasField`
says of either how a field is written.  A record that can be read has just these fields
(`Json.get?_of_record?`), so what a counter is told to be is what is written of it
(`CounterMessage.of_ofJson?`): a number that is not written counts as zero.
-/

namespace Telemetry

namespace Json

/-- Whether a record with some names of fields has a field of a name and a value. -/
def HasField (names : List String) (name : String) (value : Json) : Json → Prop
  | .object fields => (some name, value) ∈ fields
  | .array items => (name, value) ∈ names.zip items
  | _ => False

theorem namedFields?_eq_some_iff {fields : List (Option String × Json)}
    {named : List (String × Json)} :
    namedFields? fields = some named ↔ fields = named.map fun f => (some f.1, f.2) := by
  rw [namedFields?]
  induction fields generalizing named with
  | nil => cases named <;> simp
  | cons field fields ih =>
      obtain ⟨key, value⟩ := field
      rw [List.mapM_cons]
      cases key with
      | none => cases named <;> simp
      | some key =>
          cases named with
          | nil => simp [Option.bind_eq_some_iff]
          | cons head named =>
              simp [Option.bind_eq_some_iff, ih, Prod.ext_iff, and_assoc, and_comm]

theorem nodup_zip {names : List String} (distinct : names.Nodup) (items : List Json) :
    ((names.zip items).map Prod.fst).Nodup := by
  rw [List.zip_eq_zip_take_min, List.map_fst_zip (by simp)]
  exact distinct.sublist (List.take_sublist _ _)

/-- A record that is read has the fields that are written, as far as it declares them. -/
theorem get?_of_record? {names : List String} (distinct : names.Nodup) {j : Json}
    {fields : Dict Json} (read : record? names j = some fields) {name : String}
    (declared : name ∈ names) (value : Json) :
    fields.get? name = some value ↔ HasField names name value j := by
  cases j with
  | object written =>
      obtain ⟨named, all, read⟩ := Option.bind_eq_some_iff.mp read
      simp only at read
      split at read
      next single =>
        cases read
        have named := namedFields?_eq_some_iff.mp all
        rw [Dict.get?_ofList_eq_some_iff single]
        simp [HasField, named, declared]
      next => cases read
  | array items =>
      rw [record?] at read
      split at read
      next =>
        cases read
        exact Dict.get?_ofList_eq_some_iff (nodup_zip distinct items)
      next => cases read
  | null => cases read
  | bool value => cases read
  | number numeral => cases read
  | text value => cases read

end Json

open Json (HasField)

/-! ## Counters -/

/-- The fields of a counter. -/
def CounterMessage.fieldNames : List String := ["name", "delta", "total"]

/-- The fields of an envelope. -/
def Envelope.fieldNames : List String :=
  ["source_id", "instance_id", "tags", "counter", "gauge", "timer"]

/-- A value that is there is no null. -/
theorem Json.decode_of_nullable? {α : Type} {decode : Json → Option α} {j : Json} {a : α}
    (read : nullable? decode j = some (some a)) : decode j = some a := by
  unfold nullable? at read
  split at read
  next => cases read
  next =>
    obtain ⟨a', decoded, same⟩ := Option.map_eq_some_iff.mp read
    cases same
    exact decoded

/-- A number that may be left out is the one that is written, or zero. -/
theorem Json.optional_uint64 {fields : Dict Json} {name : String} {n : UInt64}
    (read : optional fields name 0 uint64? = some n) :
    (∀ value, fields.get? name = some value → value.uint64? = some n) ∧
      ((∀ value, fields.get? name ≠ some value) → n = 0) := by
  unfold optional at read
  split at read
  next absent =>
    cases read
    exact ⟨fun value found => (nomatch absent.symm.trans found), fun _ => rfl⟩
  next value found =>
    refine ⟨fun value' found' => ?_, fun absent => absurd found (absent value)⟩
    rw [found] at found'
    cases found'
    exact read

/-- What is written of the numbers of a counter. -/
theorem CounterMessage.of_ofJson? {j : Json} {c : CounterMessage} (read : ofJson? j = some c) :
    ((∀ value, HasField fieldNames "delta" value j → value.uint64? = some c.delta) ∧
      ((∀ value, ¬HasField fieldNames "delta" value j) → c.delta = 0)) ∧
      ∀ value, HasField fieldNames "total" value j → value.uint64? = some c.total := by
  obtain ⟨fields, record, read⟩ := Option.bind_eq_some_iff.mp read
  obtain ⟨name, -, read⟩ := Option.bind_eq_some_iff.mp read
  obtain ⟨delta, deltaRead, read⟩ := Option.bind_eq_some_iff.mp read
  obtain ⟨total, totalRead, read⟩ := Option.bind_eq_some_iff.mp read
  cases read
  have field : ∀ name ∈ fieldNames, ∀ value,
      fields.get? name = some value ↔ HasField fieldNames name value j :=
    fun _ declared value => Json.get?_of_record? (by decide) record declared value
  have deltas := Json.optional_uint64 deltaRead
  have totals := Json.optional_uint64 totalRead
  simp only [ne_eq, field "delta" (by decide)] at deltas
  simp only [field "total" (by decide)] at totals
  exact ⟨deltas, totals.1⟩

/-- An envelope with a counter is written with one. -/
theorem Envelope.counter_of_ofJson? {j : Json} {e : Envelope} {c : CounterMessage}
    (read : ofJson? j = some e) (counter : e.message = some (.counter c)) {value : Json}
    (written : HasField fieldNames "counter" value j) : CounterMessage.ofJson? value = some c := by
  obtain ⟨fields, record, read⟩ := Option.bind_eq_some_iff.mp read
  obtain ⟨sourceId, -, read⟩ := Option.bind_eq_some_iff.mp read
  obtain ⟨instanceId, -, read⟩ := Option.bind_eq_some_iff.mp read
  obtain ⟨tags, -, read⟩ := Option.bind_eq_some_iff.mp read
  obtain ⟨counter?, counterRead, read⟩ := Option.bind_eq_some_iff.mp read
  obtain ⟨gauge?, -, read⟩ := Option.bind_eq_some_iff.mp read
  obtain ⟨timer?, -, read⟩ := Option.bind_eq_some_iff.mp read
  cases read
  have one : counter? = some c := by
    cases counter? <;> cases gauge? <;> cases timer? <;> simp_all [Message.one?]
  have found := (Json.get?_of_record? (by decide) record (by decide) value).mpr written
  rw [Json.optional, found, one] at counterRead
  exact Json.decode_of_nullable? counterRead

end Telemetry
