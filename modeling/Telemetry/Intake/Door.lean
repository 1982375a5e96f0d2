/-!
# The door

Only so many connections may be open at a time.  The door counts them.  When a
connection arrives it is counted first, and then it is let in if fewer than the limit
were counted before it, or else turned away and counted no more.  A connection that
was let in is counted until it ends, which may happen between the two steps.
-/

namespace Telemetry

/-- Where the door stands. -/
inductive Threshold where
  /-- It waits for the next connection. -/
  | waiting
  /-- A connection has been counted, and so many before it. -/
  | counted (before : Nat)
  deriving DecidableEq

/-- The door. -/
structure Door where
  /-- How many connections may be open. -/
  limit : Nat
  /-- How many are counted. -/
  count : Nat := 0
  /-- How many have been let in and not ended. -/
  inside : Nat := 0
  /-- Where the door stands. -/
  threshold : Threshold := .waiting
  deriving DecidableEq

namespace Door

/-- A connection arrives and is counted. -/
def arrive (d : Door) : Door := { d with count := d.count + 1, threshold := .counted d.count }

/-- The connection that has been counted is let in or turned away. -/
def settle (d : Door) : Door × Bool :=
  match d.threshold with
  | .waiting => (d, false)
  | .counted before =>
    if d.limit ≤ before then ({ d with count := d.count - 1, threshold := .waiting }, false)
    else ({ d with inside := d.inside + 1, threshold := .waiting }, true)

/-- A connection that was let in ends. -/
def leave (d : Door) : Door :=
  if d.inside = 0 then d else { d with inside := d.inside - 1, count := d.count - 1 }

/-- A connection arrives, and is let in or turned away before another ends. -/
def letIn (d : Door) : Door × Bool := d.arrive.settle

/-- Which of some connections are let in, when all arrive before any ends. -/
def letInAll (d : Door) : Nat → Door × List Bool
  | 0 => (d, [])
  | n + 1 =>
    let (d, isIn) := d.letIn
    let (d, rest) := d.letInAll n
    (d, isIn :: rest)

end Door

end Telemetry
