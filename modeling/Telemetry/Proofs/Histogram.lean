import Telemetry.Histogram

/-!
# What a histogram has counted

A histogram is determined by the observations it has counted and their order
(`observeAll_new`): under each bound stands the number of those that do not exceed
it, the count is the number of all of them, and the sum is made by adding them up
from the first to the last.
-/

namespace Telemetry.Histogram

/-- Whether a histogram has counted some observations, in order, and nothing else. -/
structure Counts (h : Histogram) (bounds xs : List Double) : Prop where
  /-- Under each bound stands the number of observations up to it. -/
  buckets : h.buckets = bounds.map fun bound => (bound, (xs.filter (· ≤ bound)).length)
  /-- The number of observations. -/
  count : h.count = xs.length
  /-- The sum of the observations, from the first to the last. -/
  sum : h.sum = xs.foldl (· + ·) .zero

theorem counts_new (bounds : List Double) : (new bounds).Counts bounds [] := ⟨rfl, rfl, rfl⟩

theorem Counts.observe {h : Histogram} {bounds xs : List Double} (counts : h.Counts bounds xs)
    (x : Double) : (h.observe x).Counts bounds (xs ++ [x]) where
  buckets := by
    rw [Histogram.observe, counts.buckets, List.map_map]
    refine List.map_congr_left fun bound _ => ?_
    by_cases within : x ≤ bound <;> simp [within]
  count := by rw [Histogram.observe, counts.count, List.length_append]; rfl
  sum := by rw [Histogram.observe, counts.sum, List.foldl_append]; rfl

theorem Counts.observeAll {h : Histogram} {bounds before : List Double}
    (counts : h.Counts bounds before) :
    ∀ xs : List Double, (h.observeAll xs).Counts bounds (before ++ xs)
  | [] => by rwa [List.append_nil]
  | x :: xs => by
      rw [List.append_cons]
      exact (counts.observe x).observeAll xs

/-- A new histogram that counts observations has counted these. -/
theorem observeAll_new (bounds xs : List Double) :
    ((new bounds).observeAll xs).Counts bounds xs :=
  (counts_new bounds).observeAll xs

end Telemetry.Histogram
