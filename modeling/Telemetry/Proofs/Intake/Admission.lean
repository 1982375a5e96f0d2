import Mathlib.Data.List.Basic
import Telemetry.Intake
import Telemetry.Intake.Door

/-!
# Who is let in

A door counts a connection before it is known whether there is room for it, and while it
stands on the threshold those inside may end.  So the count is not always the number of
those inside.  It is that number while the door waits for the next connection, and one more
while one stands on the threshold (`Reception.Kept`).

What is compared with the limit is the count as it was just before, which is the number of
those who were inside at that time.  Some may have left since, never has anyone come in, and
so there is room for a connection that is let in.  One that is turned away may find less
than the limit inside by then.

The door counts with numbers, where the agent has a word of 64 bits.  The word goes up and
down with the number (`Door.word`), and the two are compared with the limit alike.
-/

namespace Telemetry

namespace Door

/-! ## The steps of a door -/

/-- A connection is let in if fewer than the limit were counted before it. -/
theorem settle_of_room {d : Door} {before : Nat} (counted : d.threshold = .counted before)
    (room : before < d.limit) :
    d.settle = ({ d with inside := d.inside + 1, threshold := .waiting }, true) := by
  simp only [settle, counted, if_neg (Nat.not_le.mpr room)]

/-- Otherwise it is turned away. -/
theorem settle_of_full {d : Door} {before : Nat} (counted : d.threshold = .counted before)
    (full : d.limit ≤ before) :
    d.settle = ({ d with count := d.count - 1, threshold := .waiting }, false) := by
  simp only [settle, counted, if_pos full]

theorem settle_eq_false_iff {d : Door} {before : Nat} (counted : d.threshold = .counted before) :
    d.settle.2 = false ↔ d.limit ≤ before := by
  constructor
  · intro full
    by_contra room
    rw [settle_of_room counted (Nat.not_le.mp room)] at full
    exact nomatch full
  · intro full
    rw [settle_of_full counted full]

theorem room_of_settle {d : Door} {before : Nat} (counted : d.threshold = .counted before)
    (room : d.settle.2 = true) : before < d.limit := by
  by_contra full
  rw [settle_of_full counted (Nat.not_lt.mp full)] at room
  exact nomatch room

/-- Whoever is inside may leave. -/
theorem leave_of_inside {d : Door} (some : d.inside ≠ 0) :
    d.leave = { d with inside := d.inside - 1, count := d.count - 1 } := by
  rw [leave, if_neg some]

/-- The count as a word of 64 bits, which starts over when they are full. -/
def word (d : Door) : UInt64 := d.count.toUInt64

theorem word_arrive (d : Door) : d.arrive.word = d.word + 1 := UInt64.ofNat_add d.count 1

/-- Where the count goes down by one, the word does too. -/
theorem word_of_lowered {d d' : Door} (lowered : d'.count + 1 = d.count) :
    d'.word = d.word - 1 := by
  rw [word, word, ← lowered]
  exact (UInt64.eq_sub_iff_add_eq.mpr (UInt64.ofNat_add d'.count 1).symm)

end Door

/-! ## The door and those who come -/

variable {ι : Type}

/-- A door with those who come to it. -/
structure Reception (ι : Type) where
  /-- The door. -/
  door : Door
  /-- The connection on the threshold, and those who were inside when it was counted. -/
  arrival : Option (ι × List ι)
  /-- The connections that were let in and have not ended. -/
  inside : List ι

namespace Reception

/-- Nobody has come to a door with a limit. -/
def start (limit : Nat) : Reception ι := ⟨{ limit := limit }, none, []⟩

/-- What happens at a door. -/
inductive Step [DecidableEq ι] (r : Reception ι) : Reception ι → Prop where
  /-- A connection arrives and is counted. -/
  | arrive (c : ι) (waiting : r.door.threshold = .waiting) :
      Step r { r with door := r.door.arrive, arrival := some (c, r.inside) }
  /-- A connection fails to arrive. -/
  | miss (waiting : r.door.threshold = .waiting) : Step r r
  /-- The connection on the threshold is let in. -/
  | letIn {c : ι} {before : List ι} (arrival : r.arrival = some (c, before))
      (room : r.door.settle.2 = true) :
      Step r ⟨r.door.settle.1, none, r.inside ++ [c]⟩
  /-- The connection on the threshold is turned away. -/
  | turnAway {c : ι} {before : List ι} (arrival : r.arrival = some (c, before))
      (full : r.door.settle.2 = false) :
      Step r { r with door := r.door.settle.1, arrival := none }
  /-- A connection that was let in ends, in one way or another. -/
  | leave {c : ι} (ending : ConnectionEnd) (there : c ∈ r.inside) :
      Step r { r with door := r.door.leave, inside := r.inside.erase c }

/-- What can come of a door by steps in any order. -/
inductive Reachable [DecidableEq ι] (limit : Nat) : Reception ι → Prop where
  | start : Reachable limit (start limit)
  | step {r r' : Reception ι} (reachable : Reachable limit r) (step : r.Step r') :
      Reachable limit r'

/-! ## What every step keeps -/

/-- The door knows how many are inside, and its count is right. -/
structure Kept (limit : Nat) (r : Reception ι) : Prop where
  /-- The limit does not change. -/
  constant : r.door.limit = limit
  /-- The door knows how many are inside. -/
  inside : r.door.inside = r.inside.length
  /-- They are not too many. -/
  limited : r.inside.length ≤ limit
  /-- They are all that is counted, but for the connection on the threshold.  When that was
  counted, no fewer were inside. -/
  count : (r.arrival = none ∧ r.door.threshold = .waiting ∧ r.door.count = r.inside.length) ∨
    ∃ c before, r.arrival = some (c, before) ∧ r.door.threshold = .counted before.length ∧
      r.door.count = r.inside.length + 1 ∧ r.inside.length ≤ before.length ∧
      before.length ≤ limit

variable {limit : Nat} {r r' : Reception ι}

theorem kept_start : (start limit : Reception ι).Kept limit :=
  ⟨rfl, rfl, Nat.zero_le _, .inl ⟨rfl, rfl, rfl⟩⟩

/-- Who stands on the threshold has been counted. -/
theorem Kept.of_arrival (kept : r.Kept limit) {c : ι} {before : List ι}
    (arrival : r.arrival = some (c, before)) :
    r.door.threshold = .counted before.length ∧ r.door.count = r.inside.length + 1 ∧
      r.inside.length ≤ before.length ∧ before.length ≤ limit := by
  rcases kept.count with ⟨none, -⟩ | ⟨c', before', some, counted⟩
  · exact nomatch none.symm.trans arrival
  · cases some.symm.trans arrival
    exact counted

theorem Kept.of_waiting (kept : r.Kept limit) (waiting : r.door.threshold = .waiting) :
    r.arrival = none ∧ r.door.count = r.inside.length := by
  rcases kept.count with ⟨none, -, count⟩ | ⟨c, before, -, counted, -⟩
  · exact ⟨none, count⟩
  · exact nomatch waiting.symm.trans counted

theorem Kept.of_busy (kept : r.Kept limit) (busy : r.door.threshold ≠ .waiting) :
    ∃ c before, r.arrival = some (c, before) := by
  rcases kept.count with ⟨-, waiting, -⟩ | ⟨c, before, arrival, -⟩
  · exact absurd waiting busy
  · exact ⟨c, before, arrival⟩

/-- There is room for who is let in, since nobody has come in after they were counted. -/
theorem Kept.limited_of_room (kept : r.Kept limit) (busy : r.door.threshold ≠ .waiting)
    (room : r.door.settle.2 = true) : r.inside.length + 1 ≤ limit := by
  obtain ⟨c, before, arrival⟩ := kept.of_busy busy
  obtain ⟨counted, -, since, -⟩ := kept.of_arrival arrival
  have less := Door.room_of_settle counted room
  rw [kept.constant] at less
  omega

/-- Who is turned away has been counted, so the count can be lowered. -/
theorem Kept.count_settle (kept : r.Kept limit) (busy : r.door.threshold ≠ .waiting)
    (full : r.door.settle.2 = false) :
    r.door.settle.1 =
        { r.door with count := r.door.count - 1, threshold := .waiting } ∧
      r.door.settle.1.count + 1 = r.door.count := by
  obtain ⟨c, before, arrival⟩ := kept.of_busy busy
  obtain ⟨counted, count, -⟩ := kept.of_arrival arrival
  rw [Door.settle_of_full counted ((Door.settle_eq_false_iff counted).mp full)]
  exact ⟨rfl, by dsimp only; omega⟩

/-- Those who are inside are counted, so the count can be lowered when one of them leaves. -/
theorem Kept.count_leave (kept : r.Kept limit) {c : ι} (there : c ∈ r.inside) :
    r.door.leave = { r.door with inside := r.inside.length - 1, count := r.door.count - 1 } ∧
      r.door.leave.count + 1 = r.door.count := by
  have some : 0 < r.inside.length := List.length_pos_of_mem there
  have counted : r.inside.length ≤ r.door.count := by
    rcases kept.count with ⟨-, -, count⟩ | ⟨c, before, -, -, count, -⟩ <;> omega
  have left := Door.leave_of_inside (d := r.door) (by rw [kept.inside]; omega)
  rw [left, kept.inside]
  exact ⟨rfl, by dsimp only; omega⟩

theorem Kept.step [DecidableEq ι] (kept : r.Kept limit) (step : r.Step r') : r'.Kept limit := by
  cases step with
  | arrive c waiting =>
      obtain ⟨-, count⟩ := kept.of_waiting waiting
      refine ⟨kept.constant, kept.inside, kept.limited, .inr ⟨c, r.inside, rfl, ?_, ?_, ?_, ?_⟩⟩
      · rw [← count]
        rfl
      · rw [← count]
        rfl
      · exact Nat.le_refl _
      · exact kept.limited
  | miss waiting => exact kept
  | letIn arrival room =>
      obtain ⟨counted, count, -⟩ := kept.of_arrival arrival
      have limited := kept.limited_of_room (by simp [counted]) room
      rw [Door.settle_of_room counted (Door.room_of_settle counted room)]
      refine ⟨kept.constant, ?_, ?_, .inl ⟨rfl, rfl, ?_⟩⟩
      · simp [kept.inside]
      · rw [List.length_append, List.length_singleton]
        exact limited
      · simp [count]
  | turnAway arrival full =>
      obtain ⟨counted, count, -⟩ := kept.of_arrival arrival
      rw [(kept.count_settle (by simp [counted]) full).1]
      refine ⟨kept.constant, kept.inside, kept.limited, .inl ⟨rfl, rfl, ?_⟩⟩
      rw [count, Nat.add_sub_cancel]
  | leave ending there =>
      have fewer := List.length_erase_of_mem there
      have some : 0 < r.inside.length := List.length_pos_of_mem there
      have limited := kept.limited
      rw [(kept.count_leave there).1]
      refine ⟨kept.constant, fewer.symm, by dsimp only; omega, ?_⟩
      rcases kept.count with ⟨none, waiting, count⟩ | ⟨c, before, some, counted, count, since, most⟩
      · exact .inl ⟨none, waiting, by dsimp only; omega⟩
      · exact .inr ⟨c, before, some, counted, by dsimp only; omega, by dsimp only; omega, most⟩

theorem Reachable.kept [DecidableEq ι] (reachable : Reachable limit r) : r.Kept limit := by
  induction reachable with
  | start => exact kept_start
  | step _ step kept => exact kept.step step

/-! ## At any time -/

/-- The limit is kept, and the count is right. -/
structure Orderly (limit : Nat) (r : Reception ι) : Prop where
  /-- Never are more inside than the limit allows, and for a connection on the threshold that is
  let in there is room. -/
  limited : r.inside.length ≤ limit ∧
    (r.door.threshold ≠ .waiting → r.door.settle.2 = true → r.inside.length + 1 ≤ limit)
  /-- While the door waits for the next connection, the count is the number of those inside. -/
  between : r.door.threshold = .waiting → r.door.count = r.inside.length
  /-- Otherwise it is one more. -/
  counted : r.door.threshold ≠ .waiting → r.door.count = r.inside.length + 1
  /-- Where it is lowered there is something to take away, for a connection that ends and for
  one that is turned away. -/
  lowered : (∀ c ∈ r.inside, r.door.leave.count + 1 = r.door.count) ∧
    (r.door.threshold ≠ .waiting → r.door.settle.2 = false →
      r.door.settle.1.count + 1 = r.door.count)
  /-- A connection is turned away just in case the limit was inside when it was counted. -/
  decided : ∀ c before, r.arrival = some (c, before) →
    r.door.threshold = .counted before.length ∧
      (r.door.settle.2 = false ↔ before.length = limit)
  /-- Turning it away leaves inside who is there and the count at their number. -/
  turnedAway : r.door.threshold ≠ .waiting → r.door.settle.2 = false →
    r.door.settle.1.inside = r.inside.length ∧ r.door.settle.1.count = r.inside.length
  /-- Where nobody ends in the meantime, it leaves the door as it was. -/
  undone : r.door.threshold = .waiting → r.inside.length = limit →
    r.door.letIn = (r.door, false)
  /-- A word of 64 bits is raised and lowered with the count. -/
  words : r.door.arrive.word = r.door.word + 1 ∧
    (∀ c ∈ r.inside, r.door.leave.word = r.door.word - 1) ∧
    (r.door.threshold ≠ .waiting → r.door.settle.2 = false →
      r.door.settle.1.word = r.door.word - 1)
  /-- It is the count if the limit is not the largest word there is, and even then it is
  compared with the limit as the count is. -/
  fits : limit < UInt64.size → (limit + 1 < UInt64.size → r.door.word.toNat = r.door.count) ∧
    ∀ before, r.door.threshold = .counted before →
      (limit.toUInt64 ≤ before.toUInt64 ↔ limit ≤ before)

/-- In whatever order connections arrive and end, the limit is kept and the count is right. -/
theorem limit_kept [DecidableEq ι] (reachable : Reachable limit r) : r.Orderly limit := by
  have kept := reachable.kept
  have counted : r.door.threshold ≠ .waiting → r.door.count = r.inside.length + 1 := by
    intro busy
    obtain ⟨c, before, arrival⟩ := kept.of_busy busy
    exact (kept.of_arrival arrival).2.1
  constructor
  case limited => exact ⟨kept.limited, kept.limited_of_room⟩
  case between => exact fun waiting => (kept.of_waiting waiting).2
  case counted => exact counted
  case lowered =>
    exact ⟨fun c there => (kept.count_leave there).2,
      fun busy full => (kept.count_settle busy full).2⟩
  case decided =>
    intro c before arrival
    obtain ⟨counted, -, -, most⟩ := kept.of_arrival arrival
    refine ⟨counted, ?_⟩
    rw [Door.settle_eq_false_iff counted, kept.constant]
    omega
  case turnedAway =>
    intro busy full
    rw [(kept.count_settle busy full).1, counted busy]
    exact ⟨kept.inside, rfl⟩
  case undone =>
    intro waiting full
    have count := (kept.of_waiting waiting).2
    have most : r.door.arrive.limit ≤ r.door.count := by
      rw [count, full]
      exact Nat.le_of_eq kept.constant
    rw [Door.letIn, Door.settle_of_full rfl most, Door.arrive, Nat.add_sub_cancel, ← waiting]
  case words =>
    refine ⟨r.door.word_arrive, fun c there => ?_, fun busy full => ?_⟩
    · exact Door.word_of_lowered (kept.count_leave there).2
    · exact Door.word_of_lowered (kept.count_settle busy full).2
  case fits =>
    intro fits
    have limited := kept.limited
    refine ⟨fun spare => ?_, fun before counted => ?_⟩
    · have small : r.door.count < UInt64.size := by
        rcases kept.count with ⟨-, -, count⟩ | ⟨c, before, -, -, count, -⟩ <;> omega
      exact UInt64.toNat_ofNat_of_lt' small
    · rcases kept.count with ⟨-, waiting, -⟩ | ⟨c, before', -, counted', -, -, most⟩
      · exact nomatch waiting.symm.trans counted
      · cases counted'.symm.trans counted
        rw [UInt64.le_iff_toNat_le, UInt64.toNat_ofNat_of_lt' fits,
          UInt64.toNat_ofNat_of_lt' (Nat.lt_of_le_of_lt most fits)]

/-- A second connection is counted while the only one that may be inside is still there.  That
one breaks off, and the second is turned away all the same. -/
theorem limit_kept_atOne :
    ∃ r : Reception String, Reachable 1 r ∧ r.arrival = some ("b", ["a"]) ∧ r.inside = [] ∧
      r.Orderly 1 ∧ r.door.settle = ({ limit := 1 }, false) := by
  have closed : Reachable 1 (Reception.start 1 : Reception String) := .start
  have first := closed.step (.arrive "a" rfl)
  have inside := (first.step (.letIn rfl rfl)).step (.miss rfl)
  have second := inside.step (.arrive "b" rfl)
  have alone := second.step (.leave (c := "a") .brokenOff (by decide))
  exact ⟨_, alone, rfl, rfl, limit_kept alone, rfl⟩

end Reception

end Telemetry
