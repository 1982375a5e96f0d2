/-!
# Queues that forget

A queue holds items in order of arrival, up to its capacity, which is at least
one.  When an item arrives and the queue is full, the oldest item is dropped to
make room.  The number of items dropped is kept.
-/

namespace Telemetry

/-- A queue of bounded length. -/
structure Queue (α : Type) where
  /-- How many items it holds at most. -/
  capacity : Nat
  /-- The items, oldest first. -/
  items : List α
  /-- How many items have been dropped. -/
  dropped : Nat
  /-- There is room for an item. -/
  capacity_pos : 0 < capacity
  /-- There is room for all items. -/
  length_le : items.length ≤ capacity

namespace Queue

variable {α : Type}

/-- The empty queue of a capacity.  A capacity of zero counts as one. -/
def new (capacity : Nat) : Queue α :=
  ⟨max capacity 1, [], 0, by omega, Nat.zero_le _⟩

/-- How many items wait. -/
def pending (q : Queue α) : Nat := q.items.length

/-- Whether no further item has room. -/
def isFull (q : Queue α) : Bool := q.capacity ≤ q.pending

/-- Adds an item, and drops the oldest one if the queue is full. -/
def push (q : Queue α) (item : α) : Queue α where
  capacity := q.capacity
  items := (if q.isFull then q.items.tail else q.items) ++ [item]
  dropped := if q.isFull then q.dropped + 1 else q.dropped
  capacity_pos := q.capacity_pos
  length_le := by
    have hlength := q.length_le
    have hpos := q.capacity_pos
    rw [List.length_append, List.length_singleton]
    split
    · rw [List.length_tail]
      omega
    · rename_i h
      have hroom : ¬q.capacity ≤ q.items.length := fun hle => h (decide_eq_true hle)
      omega

/-- Adds an item, and tells how many items are dropped, if any are.  There is never more than one
to tell. -/
def pushTelling {σ : Type} (tell : σ → UInt64 → σ) (q : Queue α) (s : σ) (item : α) :
    Queue α × σ :=
  (q.push item, if q.isFull then tell s 1 else s)

/-- How many items have been dropped, as it is told: the count has 64 bits and starts over when
they are full. -/
def droppedCount (q : Queue α) : UInt64 := q.dropped.toUInt64

/-- Takes the oldest item. -/
def pop? (q : Queue α) : Option (α × Queue α) :=
  match h : q.items with
  | [] => none
  | item :: rest =>
    some (item, ⟨q.capacity, rest, q.dropped, q.capacity_pos, by
      have := q.length_le
      rw [h, List.length_cons] at this
      omega⟩)

end Queue

end Telemetry
