import Mathlib.Algebra.GroupWithZero.Nat
import Mathlib.Data.List.Induction
import Telemetry.Proofs.Agent.Run

/-!
# What a queue forgets

A queue is pushed to and popped from in any order, and someone is told of the items that
are dropped.  A *course* keeps what has been taken out and what has become of being told.

Drops and pops both take the first item away, so what waits is always the end of what was
pushed, and whatever was taken came before it (`Accounts`).  Which of the two has taken an
item away is told by counting alone: the queue counts its drops, and each of them is told
as one (`Course.Kept`).  Every use keeps this, and `forgets_only_oldest` reads off it what
a queue holds after any course of uses, and what the next use does to it.
-/

namespace Telemetry

/-- An envelope that is taken in is pushed, and who is told of drops is the tally. -/
theorem Intake.accept_eq_pushTelling (q : Queue Envelope) (d : Diagnostics) (e : Envelope) :
    accept q d e = q.pushTelling (fun d n => d.count .dropped n)
      ((if e.IsMapped then d.count .originMappings 1 else d).count .ingress 1) e.sourced := by
  refine Prod.ext (accept_queue q d e) ?_
  simp only [accept, Queue.pushTelling, isMapped_iff]
  cases origin? e <;> rfl

namespace Queue

theorem foldl_add_replicate_one (n : Nat) :
    (List.replicate n (1 : UInt64)).foldl (· + ·) 0 = n.toUInt64 := by
  induction n with
  | zero => rfl
  | succ n ih =>
      rw [List.replicate_succ', List.foldl_append, ih]
      exact (UInt64.ofNat_add n 1).symm

variable {α σ : Type}

/-! ## Courses -/

/-- What is done to a queue. -/
inductive Use (α : Type) where
  /-- An item is pushed. -/
  | push (item : α)
  /-- The oldest item is taken out, if one waits. -/
  | pop
  deriving DecidableEq

/-- The item that a use pushes. -/
def Use.pushed? : Use α → Option α
  | .push item => some item
  | .pop => none

/-- All items that are pushed, in order. -/
def pushed (uses : List (Use α)) : List α := uses.filterMap Use.pushed?

/-- A queue in use. -/
structure Course (α σ : Type) where
  /-- The queue. -/
  queue : Queue α
  /-- What has been taken out, in order. -/
  taken : List α
  /-- What has become of whoever is told of drops. -/
  listener : σ

/-- A course goes on with a use. -/
def Course.step (tell : σ → UInt64 → σ) (c : Course α σ) : Use α → Course α σ
  | .push item =>
    let (queue, listener) := c.queue.pushTelling tell c.listener item
    { c with queue, listener }
  | .pop =>
    match c.queue.pop? with
    | none => c
    | some (item, rest) => { c with queue := rest, taken := c.taken ++ [item] }

/-- The course of some uses, from an empty queue on. -/
def course (tell : σ → UInt64 → σ) (listener : σ) (capacity : Nat) (uses : List (Use α)) :
    Course α σ :=
  uses.foldl (Course.step tell) ⟨.new capacity, [], listener⟩

variable {tell : σ → UInt64 → σ} {listener : σ} {capacity : Nat}

theorem course_append_singleton (uses : List (Use α)) (use : Use α) :
    course tell listener capacity (uses ++ [use]) =
      (course tell listener capacity uses).step tell use := by
  simp only [course, List.foldl_append, List.foldl_cons, List.foldl_nil]

theorem pushed_append_singleton (uses : List (Use α)) (use : Use α) :
    pushed (uses ++ [use]) = pushed uses ++ use.pushed?.toList := by
  rw [pushed, List.filterMap_append, ← pushed]
  cases use <;> rfl

/-! ## One use -/

namespace Course

variable {c : Course α σ}

/-- A push to a full queue drops the oldest item, which is counted and told. -/
theorem step_push_of_full (full : c.queue.pending = c.queue.capacity) (item : α) :
    ∃ oldest rest, c.queue.items = oldest :: rest ∧
      (c.step tell (.push item)).queue.items = rest ++ [item] ∧
      (c.step tell (.push item)).queue.dropped = c.queue.dropped + 1 ∧
      (c.step tell (.push item)).listener = tell c.listener 1 := by
  have isFull : c.queue.isFull = true := decide_eq_true (Nat.le_of_eq full.symm)
  have room := c.queue.capacity_pos
  cases items : c.queue.items with
  | nil =>
      rw [pending, items, List.length_nil] at full
      omega
  | cons oldest rest =>
      exact ⟨oldest, rest, rfl, by simp [step, pushTelling, push, isFull, items]⟩

/-- A push to a queue with room drops nothing, and nothing is told. -/
theorem step_push_of_room (room : c.queue.pending < c.queue.capacity) (item : α) :
    (c.step tell (.push item)).queue.items = c.queue.items ++ [item] ∧
      (c.step tell (.push item)).queue.dropped = c.queue.dropped ∧
      (c.step tell (.push item)).listener = c.listener := by
  have isFull : c.queue.isFull = false := decide_eq_false (Nat.not_le.mpr room)
  simp [step, pushTelling, push, isFull]

/-- A pop takes the oldest item out. -/
theorem step_pop_of_cons {oldest : α} {rest : List α} (items : c.queue.items = oldest :: rest) :
    (c.step tell .pop).queue.items = rest ∧ (c.step tell .pop).taken = c.taken ++ [oldest] ∧
      (c.step tell .pop).queue.dropped = c.queue.dropped ∧
      (c.step tell .pop).listener = c.listener := by
  cases popped : c.queue.pop? with
  | none =>
      rw [pop?_eq_none_iff.mp popped] at items
      cases items
  | some found =>
      obtain ⟨first, others⟩ := found
      obtain ⟨there, dropped⟩ := of_pop? popped
      rw [items, List.cons.injEq] at there
      obtain ⟨rfl, rfl⟩ := there
      simp [step, popped, dropped]

/-- A pop finds nothing in an empty queue. -/
theorem step_pop_of_nil (items : c.queue.items = []) : c.step tell .pop = c := by
  simp only [step, pop?_eq_none_iff.mpr items]

/-! ## What every use keeps -/

/-- All that was pushed is accounted for, and the drops have been counted and told, one by one. -/
structure Kept (tell : σ → UInt64 → σ) (listener : σ) (capacity : Nat) (arrived : List α)
    (c : Course α σ) : Prop where
  /-- The capacity is the one that was asked for, if that was not zero. -/
  capacity : c.queue.capacity = max capacity 1
  /-- Some items have been dropped. -/
  accounts : ∃ lost gone last, Accounts id arrived c.taken lost c.queue.items gone last ∧
    c.queue.dropped = lost.length ∧
    c.listener = (List.replicate lost.length 1).foldl tell listener

theorem kept_start :
    Kept tell listener capacity ([] : List α) ⟨.new capacity, [], listener⟩ :=
  ⟨rfl, [], [], [], .nil, rfl, rfl⟩

theorem Kept.push {arrived : List α} (kept : Kept tell listener capacity arrived c) (item : α) :
    Kept tell listener capacity (arrived ++ [item]) (c.step tell (.push item)) := by
  obtain ⟨capacity, lost, gone, last, accounts, dropped, told⟩ := kept
  obtain ⟨gone', last', pushed⟩ := accounts.push item
  refine ⟨capacity, lost ++ c.queue.displaced?.toList, gone', last', pushed, ?_, ?_⟩
  · rw [List.length_append, ← dropped]
    exact c.queue.dropped_push item
  · -- As many are told now as are dropped now, which is one at most.
    rw [List.length_append, List.replicate_add, List.foldl_append, ← told, length_displaced?]
    simp only [step, pushTelling]
    split <;> rfl

theorem Kept.pop {arrived : List α} (kept : Kept tell listener capacity arrived c) :
    Kept tell listener capacity arrived (c.step tell .pop) := by
  obtain ⟨capacity, lost, gone, last, accounts, dropped, told⟩ := kept
  simp only [step]
  cases popped : c.queue.pop? with
  | none => exact ⟨capacity, lost, gone, last, accounts, dropped, told⟩
  | some found =>
      obtain ⟨item, rest⟩ := found
      obtain ⟨gone', last', taken⟩ := accounts.pop popped
      have same : rest.capacity = c.queue.capacity := by
        unfold pop? at popped
        split at popped
        next => cases popped
        next =>
          cases popped
          rfl
      exact ⟨same.trans capacity, lost, gone', last', taken,
        (of_pop? popped).2.trans dropped, told⟩

end Course

theorem kept_course (uses : List (Use α)) :
    (course tell listener capacity uses).Kept tell listener capacity (pushed uses) := by
  induction uses using List.reverseRecOn with
  | nil => exact Course.kept_start
  | append_singleton uses use ih =>
      rw [course_append_singleton, pushed_append_singleton]
      cases use with
      | push item => exact ih.push item
      | pop => simpa [Use.pushed?] using ih.pop

/-! ## Courses of any uses -/

/-- A queue holds the newest items and forgets the oldest. -/
structure ForgetsOldest (tell : σ → UInt64 → σ) (listener : σ) (capacity : Nat)
    (uses : List (Use α)) (c : Course α σ) : Prop where
  /-- No more items wait than there is room for, and there is always room for one. -/
  bounded : c.queue.pending ≤ max capacity 1
  /-- What waits is what was pushed last, in order. -/
  newest : c.queue.items <:+ pushed uses
  /-- What was taken out was pushed before what waits, in the order in which it was taken. -/
  ordered : (c.taken ++ c.queue.items).Sublist (pushed uses)
  /-- If there is no room, a push drops the oldest item that waits, and no other. -/
  full : c.queue.pending = max capacity 1 → ∀ item,
    ∃ oldest rest, c.queue.items = oldest :: rest ∧
      (c.step tell (.push item)).queue.items = rest ++ [item] ∧
      (c.step tell (.push item)).queue.dropped = c.queue.dropped + 1 ∧
      (c.step tell (.push item)).listener = tell c.listener 1
  /-- If there is room, it drops none. -/
  room : c.queue.pending ≠ max capacity 1 → ∀ item,
    (c.step tell (.push item)).queue.items = c.queue.items ++ [item] ∧
      (c.step tell (.push item)).queue.dropped = c.queue.dropped ∧
      (c.step tell (.push item)).listener = c.listener
  /-- A pop takes the oldest item out, and drops none. -/
  pop : ∀ oldest rest, c.queue.items = oldest :: rest →
    (c.step tell .pop).queue.items = rest ∧ (c.step tell .pop).taken = c.taken ++ [oldest] ∧
      (c.step tell .pop).queue.dropped = c.queue.dropped ∧
      (c.step tell .pop).listener = c.listener
  /-- If nothing waits, it does nothing. -/
  empty : c.queue.items = [] → c.step tell .pop = c
  /-- Every item that was pushed has been taken, or waits, or has been dropped. -/
  counted : (pushed uses).length = c.taken.length + c.queue.pending + c.queue.dropped
  /-- Of the drops someone is told by numbers that make up their count, also where the count has
  started over. -/
  told : ∃ numbers : List UInt64, c.listener = numbers.foldl tell listener ∧
    (numbers.map UInt64.toNat).sum = c.queue.dropped ∧
    numbers.foldl (· + ·) 0 = c.queue.droppedCount

/-- Whatever is done to a queue of whatever capacity, it forgets only the oldest items. -/
theorem forgets_only_oldest (tell : σ → UInt64 → σ) (listener : σ) (capacity : Nat)
    (uses : List (Use α)) :
    ForgetsOldest tell listener capacity uses (course tell listener capacity uses) := by
  have kept : (course tell listener capacity uses).Kept tell listener capacity (pushed uses) :=
    kept_course uses
  obtain ⟨same, lost, gone, last, accounts, dropped, told⟩ := kept
  have waiting := accounts.waiting
  have bounded := (course tell listener capacity uses).queue.length_le
  rw [List.map_id] at waiting
  rw [same] at bounded
  constructor
  case bounded => exact bounded
  case newest => exact ⟨gone.map Prod.fst, by rw [← waiting, accounts.arrived]⟩
  case ordered =>
    rw [← accounts.taken, ← waiting, List.map_id, ← accounts.arrived]
    exact (withFate_sublist gone .taken).append (.refl last)
  case full => exact fun full item => Course.step_push_of_full (full.trans same.symm) item
  case room =>
    intro room item
    rw [← same] at room bounded
    exact Course.step_push_of_room (Nat.lt_of_le_of_ne bounded room) item
  case pop => exact fun oldest rest items => Course.step_pop_of_cons items
  case empty => exact Course.step_pop_of_nil
  case counted =>
    rw [accounts.length_arrived, dropped, pending]
    omega
  case told =>
    refine ⟨_, told, ?_, ?_⟩
    · rw [List.map_replicate, List.sum_replicate_nat, dropped]
      exact Nat.mul_one _
    · rw [droppedCount, dropped, foldl_add_replicate_one]

-- A pop comes too early, and of three items in a row the first is dropped.
example :
    let c := course (fun told n => told ++ [n]) [] 2 [.pop, .push 1, .push 2, .push 3, .pop]
    c.queue.items = [3] ∧ c.taken = [2] ∧ c.queue.dropped = 1 ∧ c.listener = [1] := by
  decide

end Queue

end Telemetry
