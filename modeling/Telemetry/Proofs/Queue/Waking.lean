import Mathlib.Logic.Function.Basic
import Mathlib.Logic.Relation
import Telemetry.Proofs.Queue

/-!
# Waking the consumer

A queue is filled by any number of producers and emptied by one consumer.  A producer
pushes an item, which is one step, and then notifies, which is another.  The consumer
looks into the queue, and only if it finds nothing does it wait to be notified.  What
they wait and notify at is a *notifier*, of which no more is known than its rules
(`Notifier.Lawful`): to notify wakes the one who waits, or else leaves one permit, with
which the next one does not wait at all.

Between the look and the wait anything may happen, one permit stands for any number of
notifications, and a permit may be left over from an item that was taken without waiting.
Still the consumer is never asleep over an item for good (`State.Vigilant`): where it has
found nothing and there is something by now, there is a permit, or a producer that is
about to notify, and where it sleeps there is such a producer.  Every step keeps this.
-/

namespace Telemetry.Waking

/-! ## Notifiers -/

/-- What one waits at until one is notified, with states of some type. -/
structure Notifier (ν : Type) where
  /-- The state at first. -/
  start : ν
  /-- Wakes the one who waits, or leaves a permit. -/
  notifyOne : ν → ν
  /-- Uses up a permit, or begins to wait. -/
  await : ν → ν
  /-- Whether someone waits and has not been notified. -/
  isParked : ν → Bool
  /-- Whether there is a permit. -/
  hasPermit : ν → Bool

/-- The rules of a notifier at which not more than one waits. -/
structure Notifier.Lawful {ν : Type} (n : Notifier ν) : Prop where
  /-- No one waits at first. -/
  start : n.isParked n.start = false
  /-- The one who waits is woken. -/
  wakes : ∀ v, n.isParked v = true → n.isParked (n.notifyOne v) = false
  /-- If no one waits, there is a permit from then on. -/
  permits : ∀ v, n.isParked v = false →
    n.isParked (n.notifyOne v) = false ∧ n.hasPermit (n.notifyOne v) = true
  /-- Who has a permit does not wait. -/
  passes : ∀ v, n.isParked v = false → n.hasPermit v = true → n.isParked (n.await v) = false

/-- A notifier that remembers whether someone waits and whether there is a permit. -/
def Notifier.simple : Notifier (Bool × Bool) where
  start := (false, false)
  notifyOne v := if v.1 then (false, v.2) else (false, true)
  await v := if v.2 then (false, false) else (true, false)
  isParked := Prod.fst
  hasPermit := Prod.snd

theorem Notifier.lawful_simple : Notifier.simple.Lawful where
  start := rfl
  wakes := by
    rintro ⟨parked, permit⟩ waits
    simp_all [simple]
  permits := by
    rintro ⟨parked, permit⟩ free
    simp_all [simple]
  passes := by
    rintro ⟨parked, permit⟩ free given
    simp_all [simple]

/-! ## Producers and the consumer -/

/-- How far the consumer is on its round. -/
inductive Stage where
  /-- It begins a round. -/
  | ready
  /-- It is about to look into the queue. -/
  | looking
  /-- It has found nothing. -/
  | missed
  /-- It waits, or has been woken. -/
  | awaiting
  deriving DecidableEq

variable {ι α ν : Type}

/-- A queue with its producers, its consumer and what has happened so far. -/
structure State (ι α ν : Type) where
  /-- The queue. -/
  queue : Queue α
  /-- What the consumer waits at. -/
  notifier : ν
  /-- Where the consumer is. -/
  stage : Stage
  /-- Which producers have pushed an item and not yet notified. -/
  notifying : ι → Bool
  /-- What has been pushed. -/
  arrived : List α
  /-- What the consumer has been given. -/
  returned : List α
  /-- What has been dropped. -/
  dropped : List α

/-- The state before anything happens. -/
def State.start (n : Notifier ν) (capacity : Nat) : State ι α ν :=
  ⟨.new capacity, n.start, .ready, fun _ => false, [], [], []⟩

/-- The steps of a producer. -/
inductive Produces [DecidableEq ι] (n : Notifier ν) (s : State ι α ν) : State ι α ν → Prop where
  /-- It pushes an item, by which another may be dropped. -/
  | push (p : ι) (item : α) (idle : s.notifying p = false) :
      Produces n s { s with
        queue := s.queue.push item
        notifying := Function.update s.notifying p true
        arrived := s.arrived ++ [item]
        dropped := s.dropped ++ s.queue.displaced?.toList }
  /-- It notifies. -/
  | notify (p : ι) (pushed : s.notifying p = true) :
      Produces n s { s with
        notifier := n.notifyOne s.notifier
        notifying := Function.update s.notifying p false }

/-- The steps of the consumer. -/
inductive Consumes (n : Notifier ν) (s : State ι α ν) : State ι α ν → Prop where
  /-- It prepares to wait. -/
  | prepare (ready : s.stage = .ready) : Consumes n s { s with stage := .looking }
  /-- It finds an item, which it is given. -/
  | take {item : α} {rest : Queue α} (looking : s.stage = .looking)
      (found : s.queue.pop? = some (item, rest)) :
      Consumes n s { s with queue := rest, stage := .ready, returned := s.returned ++ [item] }
  /-- It finds nothing. -/
  | miss (looking : s.stage = .looking) (empty : s.queue.pop? = none) :
      Consumes n s { s with stage := .missed }
  /-- It waits. -/
  | await (missed : s.stage = .missed) :
      Consumes n s { s with stage := .awaiting, notifier := n.await s.notifier }
  /-- It need not wait any longer. -/
  | wake (awaiting : s.stage = .awaiting) (woken : n.isParked s.notifier = false) :
      Consumes n s { s with stage := .ready }

/-- The states that the steps lead to, in whatever order they are taken. -/
inductive Reachable [DecidableEq ι] (n : Notifier ν) (capacity : Nat) : State ι α ν → Prop where
  | start : Reachable n capacity (.start n capacity)
  | produces {s s' : State ι α ν} (before : Reachable n capacity s) (step : Produces n s s') :
      Reachable n capacity s'
  | consumes {s s' : State ι α ν} (before : Reachable n capacity s) (step : Consumes n s s') :
      Reachable n capacity s'

/-! ## Vigilance -/

/-- Whether a producer is between its push and its notification. -/
def State.Announced (s : State ι α ν) : Prop := ∃ p, s.notifying p = true

/-- Whether an item that is there will not be slept over. -/
structure State.Vigilant (n : Notifier ν) (s : State ι α ν) : Prop where
  /-- The consumer sleeps only where it waits. -/
  awake : s.stage ≠ .awaiting → n.isParked s.notifier = false
  /-- It would not fall asleep over an item that came since it looked. -/
  missed : s.stage = .missed → s.queue.items ≠ [] → n.hasPermit s.notifier = true ∨ s.Announced
  /-- It will be woken if it sleeps over an item. -/
  asleep : n.isParked s.notifier = true → s.queue.items ≠ [] → s.Announced

variable {n : Notifier ν} {s s' : State ι α ν}

theorem vigilant_start (lawful : n.Lawful) (capacity : Nat) :
    (State.start n capacity : State ι α ν).Vigilant n where
  awake := fun _ => lawful.start
  missed := nofun
  asleep := fun _ some => absurd rfl some

theorem State.Vigilant.produces [DecidableEq ι] (vigilant : s.Vigilant n) (lawful : n.Lawful)
    (step : Produces n s s') : s'.Vigilant n := by
  cases step with
  | push p item idle =>
      have announced : ∃ q, Function.update s.notifying p true q = true := ⟨p, by simp⟩
      exact ⟨vigilant.awake, fun _ _ => .inr announced, fun _ _ => announced⟩
  | notify p pushed =>
      -- Whoever slept is woken, and if no one did there is a permit.
      have woken : n.isParked (n.notifyOne s.notifier) = false := by
        cases parked : n.isParked s.notifier with
        | true => exact lawful.wakes _ parked
        | false => exact (lawful.permits _ parked).1
      refine ⟨fun _ => woken, fun missed _ => .inl ?_, fun parked => ?_⟩
      · have awake : n.isParked s.notifier = false :=
          vigilant.awake fun awaiting => nomatch awaiting.symm.trans missed
        exact (lawful.permits _ awake).2
      · exact nomatch woken.symm.trans parked

theorem State.Vigilant.consumes (vigilant : s.Vigilant n) (lawful : n.Lawful)
    (step : Consumes n s s') : s'.Vigilant n := by
  have asleep : s.stage ≠ .awaiting → ∀ {P : Prop}, n.isParked s.notifier = true → P :=
    fun elsewhere _ parked => nomatch (vigilant.awake elsewhere).symm.trans parked
  cases step with
  | prepare ready =>
      have elsewhere : s.stage ≠ .awaiting := by simp [ready]
      exact ⟨fun _ => vigilant.awake elsewhere, nofun, asleep elsewhere⟩
  | take looking found =>
      have elsewhere : s.stage ≠ .awaiting := by simp [looking]
      exact ⟨fun _ => vigilant.awake elsewhere, nofun, asleep elsewhere⟩
  | miss looking empty =>
      have elsewhere : s.stage ≠ .awaiting := by simp [looking]
      refine ⟨fun _ => vigilant.awake elsewhere, fun _ some => ?_, asleep elsewhere⟩
      exact absurd (Queue.pop?_eq_none_iff.mp empty) some
  | await missed =>
      refine ⟨fun elsewhere => absurd rfl elsewhere, nofun, fun parked some => ?_⟩
      rcases vigilant.missed missed some with permit | announced
      · have awake : n.isParked s.notifier = false := vigilant.awake (by simp [missed])
        exact nomatch (lawful.passes _ awake permit).symm.trans parked
      · exact announced
  | wake awaiting woken =>
      exact ⟨fun _ => woken, nofun, fun parked => nomatch woken.symm.trans parked⟩

theorem Reachable.vigilant [DecidableEq ι] {capacity : Nat} (lawful : n.Lawful)
    (reachable : Reachable n capacity s) : s.Vigilant n := by
  induction reachable with
  | start => exact vigilant_start lawful capacity
  | produces _ step vigilant => exact vigilant.produces lawful step
  | consumes _ step vigilant => exact vigilant.consumes lawful step

/-! ## Fates of items -/

/-- All that was pushed has been returned or dropped, each once, or waits. -/
theorem Reachable.accounts [DecidableEq ι] {capacity : Nat} (reachable : Reachable n capacity s) :
    ∃ gone last, Accounts id s.arrived s.returned s.dropped s.queue.items gone last := by
  induction reachable with
  | start => exact ⟨[], [], .nil⟩
  | produces _ step accounts =>
      obtain ⟨gone, last, accounts⟩ := accounts
      cases step with
      | push => exact accounts.push _
      | notify => exact ⟨gone, last, accounts⟩
  | consumes _ step accounts =>
      obtain ⟨gone, last, accounts⟩ := accounts
      cases step with
      | take _ found => exact accounts.pop found
      | _ => exact ⟨gone, last, accounts⟩

/-! ## Going on -/

section GoingOn

variable {first : α} {rest : List α}

open Relation (ReflTransGen)

theorem returns_of_looking (items : s.queue.items = first :: rest) (looking : s.stage = .looking) :
    ∃ s', Consumes n s s' ∧ s'.returned = s.returned ++ [first] ∧ s'.queue.items = rest := by
  cases popped : s.queue.pop? with
  | none => simp [Queue.pop?_eq_none_iff.mp popped] at items
  | some found =>
      obtain ⟨item, others⟩ := found
      rw [(Queue.of_pop? popped).1, List.cons.injEq] at items
      obtain ⟨rfl, rfl⟩ := items
      exact ⟨_, .take looking popped, rfl, rfl⟩

theorem returns_of_ready (items : s.queue.items = first :: rest) (ready : s.stage = .ready) :
    ∃ s', ReflTransGen (Consumes n) s s' ∧ s'.returned = s.returned ++ [first] ∧
      s'.queue.items = rest := by
  have prepared : Consumes n s { s with stage := .looking } := .prepare ready
  obtain ⟨s', taken, returned⟩ :=
    returns_of_looking (n := n) (s := { s with stage := .looking }) items rfl
  exact ⟨s', .head prepared (.single taken), returned⟩

theorem returns_of_awaiting (items : s.queue.items = first :: rest) (awaiting : s.stage = .awaiting)
    (woken : n.isParked s.notifier = false) :
    ∃ s', ReflTransGen (Consumes n) s s' ∧ s'.returned = s.returned ++ [first] ∧
      s'.queue.items = rest := by
  have awake : Consumes n s { s with stage := .ready } := .wake awaiting woken
  obtain ⟨s', steps, returned⟩ :=
    returns_of_ready (n := n) (s := { s with stage := .ready }) items rfl
  exact ⟨s', .head awake steps, returned⟩

/-- Where no producer is about to notify, the consumer gets to the oldest item by itself. -/
theorem State.Vigilant.returns (vigilant : s.Vigilant n) (lawful : n.Lawful)
    (quiet : ¬s.Announced) (items : s.queue.items = first :: rest) :
    ∃ s', ReflTransGen (Consumes n) s s' ∧ s'.returned = s.returned ++ [first] ∧
      s'.queue.items = rest := by
  have some : s.queue.items ≠ [] := by simp [items]
  cases stage : s.stage with
  | ready => exact returns_of_ready items stage
  | looking =>
      obtain ⟨s', taken, returned⟩ := returns_of_looking (n := n) items stage
      exact ⟨s', .single taken, returned⟩
  | missed =>
      have permit : n.hasPermit s.notifier = true :=
        (vigilant.missed stage some).resolve_right quiet
      have awake : n.isParked s.notifier = false := vigilant.awake (by simp [stage])
      have passed := lawful.passes _ awake permit
      obtain ⟨s', steps, returned⟩ := returns_of_awaiting (n := n)
        (s := { s with stage := .awaiting, notifier := n.await s.notifier }) items rfl passed
      exact ⟨s', .head (.await stage) steps, returned⟩
  | awaiting =>
      refine returns_of_awaiting items stage ?_
      exact Bool.eq_false_iff.mpr fun parked => quiet (vigilant.asleep parked some)

end GoingOn

/-! ## All steps -/

/-- However producers and the consumer take their steps, the consumer does not sleep over an item
unless a producer is about to notify.  If none is, it gets to the oldest item by itself.  What has
been pushed has one fate each, so of different items none is returned twice, or dropped and
returned. -/
theorem never_asleep_over_items [DecidableEq ι] {n : Notifier ν} (lawful : n.Lawful)
    {capacity : Nat} {s : State ι α ν} (reachable : Reachable n capacity s) :
    (n.isParked s.notifier = true → s.queue.items ≠ [] → ∃ p, s.notifying p = true) ∧
    (∀ first rest, s.queue.items = first :: rest → (∀ p, s.notifying p = false) →
      ∃ s', Relation.ReflTransGen (Consumes n) s s' ∧ s'.returned = s.returned ++ [first] ∧
        s'.queue.items = rest) ∧
    (∃ gone last, Accounts id s.arrived s.returned s.dropped s.queue.items gone last) ∧
    (s.arrived.Nodup → (s.returned ++ s.dropped ++ s.queue.items).Nodup) := by
  have vigilant := reachable.vigilant lawful
  obtain ⟨gone, last, accounts⟩ := reachable.accounts
  refine ⟨vigilant.asleep, fun first rest items idle => ?_, ⟨gone, last, accounts⟩,
    fun distinct => ?_⟩
  · have quiet : ¬s.Announced := by
      rintro ⟨p, pushed⟩
      exact nomatch (idle p).symm.trans pushed
    exact vigilant.returns lawful quiet items
  · have perm := accounts.perm
    rw [List.map_id] at perm
    exact perm.nodup_iff.mpr distinct

/-- Two producers push before they notify, when the consumer has just looked.  Of their items one
is dropped, and of their notifications one is lost.  So the consumer comes to sleep, until a third
item has come and is about to be announced. -/
theorem asleep_over_third :
    ∃ s : State Bool String (Bool × Bool), Reachable .simple 1 s ∧
      Notifier.simple.isParked s.notifier = true ∧ s.queue.items = ["c"] ∧
      s.returned = ["b"] ∧ s.dropped = ["a"] ∧ ∃ p, s.notifying p = true := by
  have looked : Reachable Notifier.simple 1 (_ : State Bool String (Bool × Bool)) :=
    (Reachable.start.consumes (.prepare rfl)).consumes (.miss rfl rfl)
  have pushed := (looked.produces (.push true "a" rfl)).produces (.push false "b" rfl)
  have notified := (pushed.produces (.notify true rfl)).produces (.notify false rfl)
  have taken := (((notified.consumes (.await rfl)).consumes (.wake rfl rfl)).consumes
    (.prepare rfl)).consumes (.take rfl rfl)
  have asleep := ((taken.consumes (.prepare rfl)).consumes (.miss rfl rfl)).consumes (.await rfl)
  have reachable := asleep.produces (.push true "c" rfl)
  refine ⟨_, reachable, rfl, rfl, rfl, rfl, ?_⟩
  exact (never_asleep_over_items Notifier.lawful_simple reachable).1 rfl (by simp [Queue.push])

end Telemetry.Waking
