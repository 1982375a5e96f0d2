import Mathlib.Data.List.Basic
import Telemetry.Queue

/-!
# What a queue holds

A queue is known by its items.  An item that is pushed goes to the end, and if the
queue is full the first item is *displaced* (`Queue.displaced?`), which is the only
way an item is dropped.  An item that is popped is the first.  So what has come in is
what has gone out, by one way or the other, followed by what waits: an item that is
displaced or popped is always older than all that stay.

`Accounts` says this of a whole history: each item that has left has a `Fate`, and the
others wait.  It is kept by a push (`Accounts.push`) and by a pop (`Accounts.pop`).
-/

namespace Telemetry

namespace Queue

variable {α : Type}

/-! ## Pushing and popping -/

/-- The item that a push drops. -/
def displaced? (q : Queue α) : Option α := if q.isFull then q.items.head? else none

/-- A push puts its item behind the others, of which the first may be displaced. -/
theorem items_push (q : Queue α) (item : α) :
    q.displaced?.toList ++ (q.push item).items = q.items ++ [item] := by
  cases full : q.isFull with
  | false => simp [displaced?, push, full]
  | true =>
      cases items : q.items with
      | nil => simp [displaced?, push, full, items]
      | cons first rest => simp [displaced?, push, full, items]

/-- A full queue has a first item, since it has room for one. -/
theorem isSome_displaced? (q : Queue α) : q.displaced?.isSome = q.isFull := by
  cases full : q.isFull with
  | false => simp [displaced?, full]
  | true =>
      have enough : q.capacity ≤ q.items.length := of_decide_eq_true full
      have room := q.capacity_pos
      cases items : q.items with
      | nil =>
          rw [items, List.length_nil] at enough
          omega
      | cons first rest => simp [displaced?, full, items]

theorem length_displaced? (q : Queue α) :
    q.displaced?.toList.length = if q.isFull then 1 else 0 := by
  have some := q.isSome_displaced?
  cases displaced : q.displaced? with
  | none =>
      rw [displaced] at some
      simp [← some]
  | some item =>
      rw [displaced] at some
      simp [← some]

theorem dropped_push (q : Queue α) (item : α) :
    (q.push item).dropped = q.dropped + q.displaced?.toList.length := by
  rw [length_displaced?]
  simp only [push]
  split <;> rfl

/-- A pop takes the first item and leaves the others. -/
theorem of_pop? {q rest : Queue α} {item : α} (h : q.pop? = some (item, rest)) :
    q.items = item :: rest.items ∧ rest.dropped = q.dropped := by
  unfold pop? at h
  split at h
  next => cases h
  next items =>
    cases h
    exact ⟨items, rfl⟩

theorem pop?_eq_none_iff {q : Queue α} : q.pop? = none ↔ q.items = [] := by
  unfold pop?
  split
  next items => simp [items]
  next items => simp [items]

end Queue

/-! ## Fates -/

/-- How an item has left a queue. -/
inductive Fate where
  /-- It has been taken out. -/
  | taken
  /-- It has been dropped. -/
  | dropped
  deriving DecidableEq

/-- The items of a fate, in the order in which they came in. -/
def withFate {α : Type} (gone : List (α × Fate)) (fate : Fate) : List α :=
  (gone.filter (·.2 = fate)).map Prod.fst

theorem withFate_append {α : Type} (gone more : List (α × Fate)) (fate : Fate) :
    withFate (gone ++ more) fate = withFate gone fate ++ withFate more fate := by
  simp only [withFate, List.filter_append, List.map_append]

/-- The items of a fate came in, in this order. -/
theorem withFate_sublist {α : Type} (gone : List (α × Fate)) (fate : Fate) :
    (withFate gone fate).Sublist (gone.map Prod.fst) :=
  List.filter_sublist.map _

/-- An item that has left has one fate. -/
theorem withFate_perm {α : Type} (gone : List (α × Fate)) :
    (withFate gone .taken ++ withFate gone .dropped).Perm (gone.map Prod.fst) := by
  induction gone with
  | nil => exact .refl _
  | cons entry gone ih =>
      obtain ⟨item, fate⟩ := entry
      cases fate with
      | taken => exact ih.cons item
      | dropped => exact List.perm_middle.trans (ih.cons item)

/-- All that came in is accounted for.  First come the items that have left, each with its fate,
and then those that wait.  What came in may tell more than the item that is seen of it. -/
structure Accounts {α β : Type} (item : β → α) (arrived : List β) (taken dropped waiting : List α)
    (gone : List (β × Fate)) (last : List β) : Prop where
  /-- These came in. -/
  arrived : gone.map Prod.fst ++ last = arrived
  /-- These have been taken out. -/
  taken : (withFate gone .taken).map item = taken
  /-- These have been dropped. -/
  dropped : (withFate gone .dropped).map item = dropped
  /-- These wait. -/
  waiting : last.map item = waiting

namespace Accounts

variable {α β : Type} {item : β → α} {arrived : List β} {taken dropped waiting : List α}
  {gone : List (β × Fate)} {last : List β}

theorem nil : Accounts item [] [] [] [] [] [] := ⟨rfl, rfl, rfl, rfl⟩

/-- What came in has been taken out, or has been dropped, or waits. -/
theorem perm (h : Accounts item arrived taken dropped waiting gone last) :
    (taken ++ dropped ++ waiting).Perm (arrived.map item) := by
  rw [← h.arrived, ← h.taken, ← h.dropped, ← h.waiting, List.map_append, ← List.map_append]
  exact ((withFate_perm gone).map item).append_right _

theorem length_arrived (h : Accounts item arrived taken dropped waiting gone last) :
    arrived.length = dropped.length + waiting.length + taken.length := by
  have lengths := h.perm.length_eq
  rw [List.length_append, List.length_append, List.length_map] at lengths
  omega

/-- Something comes in and waits. -/
theorem arrive (h : Accounts item arrived taken dropped waiting gone last) (new : β) :
    Accounts item (arrived ++ [new]) taken dropped (waiting ++ [item new]) gone (last ++ [new]) where
  arrived := by rw [← List.append_assoc, h.arrived]
  taken := h.taken
  dropped := h.dropped
  waiting := by rw [List.map_append, h.waiting]; rfl

/-- The first item that waits leaves. -/
theorem leave {first : α} (fate : Fate)
    (h : Accounts item arrived taken dropped (first :: waiting) gone last) :
    ∃ oldest rest, Accounts item arrived
      (taken ++ if fate = .taken then [first] else [])
      (dropped ++ if fate = .dropped then [first] else []) waiting
      (gone ++ [(oldest, fate)]) rest := by
  obtain ⟨oldest, rest, split, rfl, others⟩ := List.map_eq_cons_iff.mp h.waiting
  refine ⟨oldest, rest, ?_, ?_, ?_, others⟩
  · rw [← h.arrived, split, List.map_append, List.append_assoc]
    rfl
  · rw [withFate_append, List.map_append, h.taken]
    cases fate <;> rfl
  · rw [withFate_append, List.map_append, h.dropped]
    cases fate <;> rfl

/-- A push lets its item in, and may drop the first one. -/
theorem push {q : Queue α} (h : Accounts item arrived taken dropped q.items gone last) (new : β) :
    ∃ gone' last', Accounts item (arrived ++ [new]) taken (dropped ++ q.displaced?.toList)
      (q.push (item new)).items gone' last' := by
  have after := q.items_push (item new)
  have wait := h.arrive new
  cases displaced : q.displaced? with
  | none =>
      rw [displaced] at after
      refine ⟨gone, last ++ [new], ?_⟩
      rw [Option.toList_none, List.append_nil, show (q.push (item new)).items = _ from after]
      exact wait
  | some first =>
      rw [displaced] at after
      rw [← after] at wait
      obtain ⟨oldest, rest, left⟩ := wait.leave .dropped
      refine ⟨gone ++ [(oldest, .dropped)], rest, ?_⟩
      simpa using left

/-- A pop takes the first item out. -/
theorem pop {q rest : Queue α} {first : α} (popped : q.pop? = some (first, rest))
    (h : Accounts item arrived taken dropped q.items gone last) :
    ∃ gone' last', Accounts item arrived (taken ++ [first]) dropped rest.items gone' last' := by
  rw [(Queue.of_pop? popped).1] at h
  obtain ⟨oldest, others, left⟩ := h.leave .taken
  refine ⟨gone ++ [(oldest, .taken)], others, ?_⟩
  simpa using left

end Accounts

end Telemetry
