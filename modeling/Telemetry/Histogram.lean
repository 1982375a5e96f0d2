import Telemetry.Family

/-!
# Histograms

A histogram counts observations under fixed bounds.  An observation is counted
under each bound that it does not exceed, so the counts are cumulative, and what
is not a number is counted under none.
-/

namespace Telemetry

/-- Observations counted under bounds. -/
structure Histogram where
  /-- Each bound with the number of observations up to it. -/
  buckets : List (Double × Nat)
  /-- The number of observations. -/
  count : Nat
  /-- Their sum, added up in order. -/
  sum : Double
  deriving DecidableEq

namespace Histogram

/-- The bounds for durations of timers, in seconds. -/
def timerBounds : List Double :=
  [.ofDecimal false 1 (-2), .ofDecimal false 2 (-1), .ofNat 1, .ofNat 15, .ofNat 60]

/-- The histogram that has counted nothing. -/
def new (bounds : List Double) : Histogram := ⟨bounds.map (·, 0), 0, .zero⟩

/-- Counts one observation. -/
def observe (h : Histogram) (x : Double) : Histogram where
  buckets := h.buckets.map fun (bound, n) => (bound, if x ≤ bound then n + 1 else n)
  count := h.count + 1
  sum := h.sum + x

/-- Counts observations in order. -/
def observeAll (h : Histogram) (xs : List Double) : Histogram := xs.foldl observe h

/-- What a histogram exposes. -/
def distribution (h : Histogram) : Distribution where
  buckets := h.buckets.map fun (bound, n) => ⟨bound, .ofNat n⟩
  count := .ofNat h.count
  sum := h.sum

end Histogram

end Telemetry
