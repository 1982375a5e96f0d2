import Telemetry.Intake
import Telemetry.Proofs.Json
import Telemetry.Proofs.Totals

/-!
# Totals that are carried

A sender may tell what there is in all and say nothing of what was added.  Such a counter
comes out with the total it carries, and later increments of its key are added to that, as
long as the table is not emptied (`last_afterAll`).

There is one exception.  A total of zero cannot be told from none, since a field that is
left out counts as zero.  So a counter that carries zero comes out with the running total of
its key, as if nothing had been added, and the count of a sender that starts over goes on
where it was (`zeroTotal_ignored`).  What comes out is the total that was carried just in
case this is not zero or the key has no other running total (`carried_total`).
-/

namespace Telemetry

open Json (HasField)

/-! ## Lines that carry a total -/

/-- Whether a line holds an envelope with a counter that carries a total, and in which what was
added is left out. -/
structure CarriesTotal (line : List Char) (e : Envelope) (total : UInt64) : Prop where
  /-- The line holds the envelope. -/
  holds : Intake.envelope? line = some e
  /-- It tells of a counter. -/
  counter : ∃ c, e.message = some (.counter c)
  /-- The total is written, and what was added is not. -/
  written : ∃ j counter value, Json.read? (Text.trim line) = some j ∧
    HasField Envelope.fieldNames "counter" counter j ∧
    HasField CounterMessage.fieldNames "total" value counter ∧ value.uint64? = some total ∧
    ∀ delta, ¬HasField CounterMessage.fieldNames "delta" delta counter

/-- The counter of such a line has the total that is carried, and nothing was added. -/
theorem CarriesTotal.exists_counter {line : List Char} {e : Envelope} {total : UInt64}
    (carries : CarriesTotal line e total) :
    ∃ c, e.message = some (.counter c) ∧ c.total = total ∧ c.delta = 0 := by
  obtain ⟨c, counter⟩ := carries.counter
  obtain ⟨j, value, number, read, field, totalField, isTotal, noDelta⟩ := carries.written
  have holds := (Option.ite_none_left_eq_some.mp carries.holds).2
  rw [Envelope.read?, read, Option.bind_some] at holds
  have decoded := Envelope.counter_of_ofJson? holds counter field
  obtain ⟨⟨-, delta⟩, carried⟩ := CounterMessage.of_ofJson? decoded
  have same := carried number totalField
  rw [isTotal] at same
  exact ⟨c, counter, (Option.some.inj same).symm, delta noDelta⟩

namespace RunningTotals

/-! ## Increments of a key -/

/-- The table after some envelopes. -/
def afterAll (t : RunningTotals) (es : List Envelope) : RunningTotals :=
  es.foldl (fun t e => (t.process e).1) t

/-- Whether the table does not grow too large while it takes some envelopes. -/
def HasRoom : RunningTotals → List Envelope → Prop
  | t, [] => t.totals.size ≤ limit
  | t, e :: es => t.totals.size ≤ limit ∧ HasRoom (t.process e).1 es

/-- Whether the counters of a key that are among some envelopes carry no total. -/
def OnlyIncreases (key : TotalKey) (es : List Envelope) : Prop :=
  ∀ e ∈ es, ∀ c, e.message = some (.counter c) → keyOf e c = key → c.total = 0

/-- What an envelope adds to the total of a key. -/
def added (key : TotalKey) (e : Envelope) : UInt64 :=
  match e.message with
  | some (.counter c) => if keyOf e c = key then c.delta else 0
  | _ => 0

/-- What some envelopes add to the total of a key, modulo 64 bits. -/
def addedByAll (key : TotalKey) : List Envelope → UInt64
  | [] => 0
  | e :: es => added key e + addedByAll key es

theorem makeRoom_of_room {t : RunningTotals} (room : t.totals.size ≤ limit) : t.makeRoom = t := by
  rw [makeRoom, if_neg (Nat.not_lt.mpr room)]

/-- The total of a key goes up by what was added, if the table has room. -/
theorem last_process {t : RunningTotals} (room : t.totals.size ≤ limit) {key : TotalKey}
    {e : Envelope}
    (increases : ∀ c, e.message = some (.counter c) → keyOf e c = key → c.total = 0) :
    (t.process e).1.last key = t.last key + added key e := by
  by_cases counter : ∃ c, e.message = some (.counter c)
  · obtain ⟨c, counter⟩ := counter
    rw [process_of_counter t counter, makeRoom_of_room room, last_insert]
    simp only [added, counter]
    by_cases same : keyOf e c = key
    · subst same
      rw [if_pos rfl, if_pos rfl, next, if_pos (increases c counter rfl)]
    · have other : key ≠ keyOf e c := fun equal => same equal.symm
      rw [if_neg other, if_neg same, UInt64.add_zero]
  · have other : ∀ c, e.message ≠ some (.counter c) := fun c equal => counter ⟨c, equal⟩
    have nothing : added key e = 0 := by
      unfold added
      split
      next c equal => exact absurd equal (other c)
      next => rfl
    rw [process_of_not_counter t other, nothing, UInt64.add_zero]

theorem last_afterAll {t : RunningTotals} {key : TotalKey} {es : List Envelope}
    (increases : OnlyIncreases key es) (room : HasRoom t es) :
    (t.afterAll es).last key = t.last key + addedByAll key es := by
  induction es generalizing t with
  | nil => exact (UInt64.add_zero _).symm
  | cons e es ih =>
      obtain ⟨here, later⟩ := room
      have first := increases e List.mem_cons_self
      have rest : OnlyIncreases key es := fun e' there =>
        increases e' (List.mem_cons_of_mem _ there)
      rw [afterAll, List.foldl_cons, ← afterAll, ih rest later, last_process here first, addedByAll,
        UInt64.add_assoc]

theorem HasRoom.afterAll {t : RunningTotals} {es : List Envelope} (room : HasRoom t es) :
    (t.afterAll es).totals.size ≤ limit := by
  induction es generalizing t with
  | nil => exact room
  | cons e es ih => exact ih room.2

/-! ## What comes of a total -/

/-- What comes of a counter that comes out with a total, and of the increments that follow it. -/
structure GoesOnFrom (t : RunningTotals) (e : Envelope) (c : CounterMessage) (total : UInt64) :
    Prop where
  /-- It comes out with this total, and is the same otherwise. -/
  given : (t.process e).2 = { e with message := some (.counter { c with total := total }) }
  /-- Later increments of its key are added to it, as long as the table has room. -/
  later : ∀ es, OnlyIncreases (keyOf e c) es → HasRoom (t.process e).1 es →
    ∀ e' c', e'.message = some (.counter c') → keyOf e' c' = keyOf e c → c'.total = 0 →
      (((t.process e).1.afterAll es).process e').2 =
        { e' with
          message := some (.counter
            { c' with total := total + addedByAll (keyOf e c) es + c'.delta }) }

/-- Every counter comes out with the total that follows the last one. -/
theorem goesOnFrom_next (t : RunningTotals) {e : Envelope} {c : CounterMessage}
    (counter : e.message = some (.counter c)) :
    GoesOnFrom t e c (next (t.makeRoom.last (keyOf e c)) c) := by
  have processed := process_of_counter t counter
  refine ⟨by rw [processed], ?_⟩
  intro es increases room e' c' counter' same increment
  have before := last_afterAll increases room
  rw [processed, last_insert, if_pos rfl, ← processed] at before
  rw [process_of_counter _ counter', makeRoom_of_room room.afterAll, same, before, next,
    if_pos increment]

/-- A counter that carries a total comes out with it, unless this is zero: then it comes out with
the running total of its key. -/
theorem carried_total {line : List Char} {e : Envelope} {carried : UInt64}
    (carries : CarriesTotal line e carried) (t : RunningTotals) :
    ∃ c, e.message = some (.counter c) ∧ c.total = carried ∧
      let total := if carried = 0 then t.makeRoom.last (keyOf e c) else carried
      GoesOnFrom t e c total ∧
        (total = carried ↔ carried ≠ 0 ∨ t.makeRoom.last (keyOf e c) = 0) := by
  obtain ⟨c, counter, rfl, nothing⟩ := carries.exists_counter
  refine ⟨c, counter, rfl, ?_⟩
  intro total
  have goesOn := goesOnFrom_next t counter
  rw [next, nothing, UInt64.add_zero] at goesOn
  refine ⟨goesOn, ?_⟩
  by_cases zero : c.total = 0
  · simp [total, zero]
  · simp [total, zero]

/-- A line with a counter of requests that carries a total of one digit. -/
def totalLine (digit : Char) : List Char :=
  "\x7b\"source_id\":\"svc\",\"counter\":\x7b\"name\":\"requests\",\"total\":".toList ++
    digit :: "\x7d\x7d".toList

/-- Its value. -/
def totalJson (digit : Char) : Json :=
  .object [(some "source_id", .text (some "svc")),
    (some "counter", .object [(some "name", .text (some "requests")),
      (some "total", .number ⟨false, [digit], [], none⟩)])]

theorem carriesTotal_totalLine {digit : Char} {total : UInt64}
    (holds : Intake.envelope? (totalLine digit) = some (requestsOf 0 total))
    (read : Json.read? (Text.trim (totalLine digit)) = some (totalJson digit))
    (number : Numeral.toUInt64? ⟨false, [digit], [], none⟩ = some total) :
    CarriesTotal (totalLine digit) (requestsOf 0 total) total where
  holds := holds
  counter := ⟨_, rfl⟩
  written := by
    refine ⟨_, _, _, read, .tail _ (.head _), .tail _ (.head _), number, ?_⟩
    simp [HasField]

/-- A total of seven is carried on. -/
theorem carried_seven :
    CarriesTotal (totalLine '7') (requestsOf 0 7) 7 ∧
      ((((⟨{}⟩ : RunningTotals).process (requestsOf 0 7)).1.afterAll [requestsOf 2 0]).process
        (requestsOf 3 0)).2 = requestsOf 3 12 := by
  have carries : CarriesTotal (totalLine '7') (requestsOf 0 7) 7 :=
    carriesTotal_totalLine (by decide +kernel) (by with_unfolding_all rfl) (by decide)
  obtain ⟨c, counter, -, goesOn, -⟩ := carried_total carries ⟨{}⟩
  cases counter
  refine ⟨carries, ?_⟩
  have increases : OnlyIncreases (keyOf (requestsOf 0 7) ⟨"requests", 0, 7⟩) [requestsOf 2 0] := by
    intro e there c counter _
    cases List.mem_singleton.mp there
    cases counter
    rfl
  have room : HasRoom ((⟨{}⟩ : RunningTotals).process (requestsOf 0 7)).1 [requestsOf 2 0] := by
    simp [HasRoom, process, requestsOf, makeRoom, limit, keyOf, Std.HashMap.size_insert]
  rw [goesOn.later _ increases room (requestsOf 3 0) ⟨"requests", 3, 0⟩ rfl rfl rfl]
  rfl

/-- A table with a running total of five. -/
def withFive : RunningTotals := ((⟨{}⟩ : RunningTotals).process (requestsOf 5 0)).1

/-- A total of zero is ignored if there has been another one. -/
theorem zeroTotal_ignored :
    CarriesTotal (totalLine '0') (requestsOf 0 0) 0 ∧
      (withFive.process (requestsOf 0 0)).2 = requestsOf 0 5 ∧
      ¬∀ (t : RunningTotals) (line : List Char) (e : Envelope) (carried : UInt64),
        CarriesTotal line e carried →
          ∃ c, (t.process e).2.message = some (.counter c) ∧ c.total = carried := by
  have carries : CarriesTotal (totalLine '0') (requestsOf 0 0) 0 :=
    carriesTotal_totalLine (by decide +kernel) (by with_unfolding_all rfl) (by decide)
  have ignored : (withFive.process (requestsOf 0 0)).2 = requestsOf 0 5 := by
    simp [withFive, process, requestsOf, makeRoom, limit, last, next, keyOf,
      Std.HashMap.size_insert]
  refine ⟨carries, ignored, fun all => ?_⟩
  obtain ⟨c, counter, total⟩ := all withFive (totalLine '0') (requestsOf 0 0) 0 carries
  rw [ignored] at counter
  cases counter
  exact absurd total (by decide)

end RunningTotals

end Telemetry
