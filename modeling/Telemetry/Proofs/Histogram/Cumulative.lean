import Telemetry.Proofs.Double.Order
import Telemetry.Proofs.Double.RoundTrip
import Telemetry.Proofs.Exposition.Samples
import Telemetry.Proofs.Histogram

/-!
# Cumulative buckets

A histogram under ascending bounds counts no fewer observations under a greater bound
(`upTo_le_upTo`), and never more than there are.  Neither depends on the order in which
they come, as they are counted one by one.  What is not a number is up to no bound, and
only the count tells of it.

The lines of a histogram end with a bucket for plus infinity, which has the value of the
count.  No bound of a bucket before it is written in the same way, as a bound can be read
back from its text.  The counts are rounded when they are exposed, and rounding keeps
their order (`Double.ofNat_le_ofNat`).

A last bound that is plus infinity itself would be taken for the closing bucket.  That
one counts the numbers only, so it is left out where lines are concerned.
-/

namespace Telemetry

namespace Histogram

/-! ## Counts -/

/-- The number of observations up to a bound. -/
def upTo (xs : List Double) (bound : Double) : Nat := (xs.filter (· ≤ bound)).length

theorem upTo_le_upTo (xs : List Double) {a b : Double} (le : a ≤ b) : upTo xs a ≤ upTo xs b := by
  rw [upTo, upTo, ← List.countP_eq_length_filter, ← List.countP_eq_length_filter]
  refine List.countP_mono_left fun x _ within => ?_
  rw [decide_eq_true_eq] at within ⊢
  exact Double.le_trans within le

theorem upTo_le_length (xs : List Double) (bound : Double) : upTo xs bound ≤ xs.length :=
  List.length_filter_le _ _

theorem upTo_of_perm {xs ys : List Double} (perm : ys.Perm xs) (bound : Double) :
    upTo ys bound = upTo xs bound :=
  (perm.filter _).length_eq

/-- Whether a histogram counts observations under bounds, each under all that it does not
exceed. -/
structure Cumulative (h : Histogram) (bounds xs : List Double) : Prop where
  /-- Under each bound stands the number of observations up to it. -/
  buckets : h.buckets = bounds.map fun bound => (bound, upTo xs bound)
  /-- The number of observations. -/
  count : h.count = xs.length
  /-- The numbers do not decrease along the bounds. -/
  ascending : (h.buckets.map Prod.snd).Pairwise (· ≤ ·)
  /-- They do not exceed the number of all observations. -/
  within : ∀ bucket ∈ h.buckets, bucket.2 ≤ h.count
  /-- Neither depends on the order of the observations. -/
  unordered : ∀ ys : List Double, ys.Perm xs →
    ((new bounds).observeAll ys).buckets = h.buckets ∧
      ((new bounds).observeAll ys).count = h.count

theorem cumulative_observeAll {bounds : List Double} (ascending : bounds.Pairwise (· ≤ ·))
    (xs : List Double) : ((new bounds).observeAll xs).Cumulative bounds xs := by
  have counts := observeAll_new bounds xs
  refine ⟨counts.buckets, counts.count, ?_, ?_, fun ys perm => ⟨?_, ?_⟩⟩
  · rw [counts.buckets, List.map_map]
    exact (List.pairwise_map).mpr (ascending.imp fun le => upTo_le_upTo xs le)
  · intro bucket there
    rw [counts.buckets] at there
    obtain ⟨bound, -, rfl⟩ := List.mem_map.mp there
    rw [counts.count]
    exact upTo_le_length xs bound
  · rw [(observeAll_new bounds ys).buckets, counts.buckets]
    exact List.map_congr_left fun bound _ => by rw [← upTo, ← upTo, upTo_of_perm perm]
  · rw [(observeAll_new bounds ys).count, counts.count, perm.length_eq]

/-! ## Lines -/

/-- The bounds that a histogram is exposed with, and the numbers that stand under them. -/
def rows (bounds xs : List Double) : List (Double × Nat) :=
  bounds.map (fun bound => (bound, upTo xs bound)) ++ [(.infinity false, xs.length)]

/-- The sample of one of them. -/
def rowSample (name : String) (labels : Labels) (row : Double × Nat) : Sample :=
  ⟨name ++ Bucket.ending, labels.toList ++ [(Bucket.label, boundText row.1)], .ofNat row.2⟩

/-- A bound that is not plus infinity is written in another way. -/
theorem boundText_ne {bound : Double} (finite : bound ≠ .infinity false) :
    boundText bound ≠ "+Inf" := by
  intro same
  have text : bound.text = "+Inf".toList := by rw [← same, boundText, String.toList_ofList]
  have read := Double.read?_text bound
  rw [text] at read
  have infinite : Double.read? "+Inf".toList = some (.infinity false) := by decide +kernel
  rw [infinite, Option.some.injEq] at read
  cases bound with
  | nan s => cases read
  | number s rank => exact finite read.symm

theorem count_boundText_rows {bounds : List Double} (finite : .infinity false ∉ bounds)
    (xs : List Double) : ((rows bounds xs).map fun row => boundText row.1).count "+Inf" = 1 := by
  have others : "+Inf" ∉ bounds.map boundText := by
    intro there
    obtain ⟨bound, among, same⟩ := List.mem_map.mp there
    exact boundText_ne (fun infinite => finite (infinite ▸ among)) same
  have texts : (rows bounds xs).map (fun row => boundText row.1) =
      bounds.map boundText ++ ["+Inf"] := by
    rw [rows, List.map_append, List.map_map]
    rfl
  rw [texts, List.count_append, List.count_eq_zero.mpr others]
  decide

/-- The values of the buckets do not decrease, the closing one included. -/
theorem pairwise_rows {bounds : List Double} (ascending : bounds.Pairwise (· ≤ ·))
    (xs : List Double) :
    (rows bounds xs).Pairwise fun a b => Double.ofNat a.2 ≤ Double.ofNat b.2 := by
  refine List.pairwise_append.mpr ⟨?_, List.pairwise_singleton _ _, fun row there last => ?_⟩
  · exact List.pairwise_map.mpr
      (ascending.imp fun le => Double.ofNat_le_ofNat (upTo_le_upTo xs le))
  · obtain ⟨bound, -, rfl⟩ := List.mem_map.mp there
    intro closing
    rw [List.mem_singleton.mp closing]
    exact Double.ofNat_le_ofNat (upTo_le_length xs bound)

/-- The buckets are exposed as the rows are. -/
theorem bucketSamples_distribution {bounds : List Double} (finite : .infinity false ∉ bounds)
    (xs : List Double) (name : String) (labels : Labels) :
    ((new bounds).observeAll xs).distribution.bucketSamples name labels =
      (rows bounds xs).map (rowSample name labels) := by
  have counts := observeAll_new bounds xs
  have given : ((new bounds).observeAll xs).distribution.buckets =
      bounds.map fun bound => ⟨bound, .ofNat (upTo xs bound)⟩ := by
    rw [distribution, counts.buckets, List.map_map]
    rfl
  have last : ((new bounds).observeAll xs).distribution.isClosed = false := by
    rw [Distribution.isClosed, given, List.getLast?_map, Option.any_map]
    cases closing : bounds.getLast? with
    | none => rfl
    | some bound =>
        have among : bound ∈ bounds := List.mem_of_getLast? closing
        exact decide_eq_false fun infinite => finite (infinite ▸ among)
  rw [Distribution.bucketSamples_eq, Distribution.closed, last]
  simp only [Bool.false_eq_true, if_false, given, rows, List.map_append, List.map_map]
  rw [← counts.count]
  rfl

/-! ## Texts -/

/-- Lines, each with its end. -/
def linesText (lines : List Line) : List Char := lines.flatMap fun line => line.text ++ ['\n']

/-- Whether a text shows a histogram, with the rows of its buckets, under a name and labels. -/
structure Shown (h : Histogram) (rows : List (Double × Nat)) (name : String) (labels : Labels)
    (text : List Char) : Prop where
  /-- The lines of the buckets stand together, with those of the sum and the count behind them. -/
  lines : ∃ before after, text = linesText (before ++
    (rows.map (rowSample name labels) ++ totalSamples name labels h.sum (.ofNat h.count)).map
      .sample ++ after)
  /-- One bucket is written as that for plus infinity. -/
  closing : (rows.map fun row => boundText row.1).count "+Inf" = 1
  /-- It is the last one, and it has the value of the count. -/
  last : rows.getLast? = some (.infinity false, h.count)
  /-- The values do not decrease. -/
  ascending : rows.Pairwise fun a b => Double.ofNat a.2 ≤ Double.ofNat b.2
  /-- They are read back from their texts. -/
  reread : ∀ row ∈ rows, Double.read? (Double.ofNat row.2).text = some (.ofNat row.2)

/-- The samples of a metric stand together in an exposition. -/
theorem exposition_of_mem {families : List Family} {f : Family} (there : f ∈ families)
    {m : Metric} (among : m ∈ f.metrics) :
    ∃ before after, exposition families =
      linesText (before ++ (m.samples f.name).map .sample ++ after) := by
  obtain ⟨earlier, later, rfl⟩ := List.append_of_mem there
  obtain ⟨ms, ms', metrics⟩ := List.append_of_mem among
  refine ⟨earlier.flatMap Family.lines ++ (f.help.toList.map (.help f.name) ++
      [.type f.name f.kind] ++ (ms.flatMap (·.samples f.name)).map .sample),
    (ms'.flatMap (·.samples f.name)).map .sample ++ later.flatMap Family.lines, ?_⟩
  rw [exposition, linesText, List.flatMap_append, List.flatMap_cons, Family.lines, metrics]
  simp only [List.flatMap_append, List.flatMap_cons, List.map_append, List.append_assoc]

/-- Under bounds that ascend, any observations are counted up to each bound.  If none of the bounds
is plus infinity, then wherever the histogram is exposed, its buckets are those of a cumulative
histogram that ends at its count. -/
theorem cumulative_and_shown {bounds : List Double} (ascending : bounds.Pairwise (· ≤ ·))
    (xs : List Double) :
    ((new bounds).observeAll xs).Cumulative bounds xs ∧
      (.infinity false ∉ bounds → ∀ families : List Family, ∀ f ∈ families, ∀ m ∈ f.metrics,
        m.value = .histogram ((new bounds).observeAll xs).distribution →
        ((new bounds).observeAll xs).Shown (rows bounds xs) f.name m.labels
          (exposition families)) := by
  refine ⟨cumulative_observeAll ascending xs, fun finite families f there m among value => ?_⟩
  have counts := observeAll_new bounds xs
  refine ⟨?_, count_boundText_rows finite xs, ?_, pairwise_rows ascending xs, fun row _ => ?_⟩
  · obtain ⟨before, after, text⟩ := exposition_of_mem there among
    refine ⟨before, after, ?_⟩
    rw [text, Metric.samples, value]
    dsimp only
    rw [bucketSamples_distribution finite]
    rfl
  · rw [rows, List.getLast?_concat, counts.count]
  · rw [Double.read?_text, Double.ofNat_eq]
    rfl

/-- A histogram under bounds of both signs that has counted what is not a number, what is infinite
and what equals a bound. -/
def mixed : Histogram :=
  (new [-.ofNat 1, .zero, .ofNat 3]).observeAll
    [.nan true, .infinity true, .ofNat 3, .infinity false, -.ofNat 1, -.zero]

theorem shown_mixed :
    List.Pairwise (· ≤ ·) [-Double.ofNat 1, .zero, .ofNat 3] ∧
      .infinity false ∉ [-Double.ofNat 1, .zero, .ofNat 3] ∧
      mixed.buckets = [(-.ofNat 1, 2), (.zero, 3), (.ofNat 3, 4)] ∧ mixed.count = 6 ∧
      mixed.Shown [(-.ofNat 1, 2), (.zero, 3), (.ofNat 3, 4), (.infinity false, 6)] "up"
        (.ofList [("a", "b")]) (exposition [.singleton "up" none
          ⟨.ofList [("a", "b")], .histogram mixed.distribution⟩]) := by
  have ascending : List.Pairwise (· ≤ ·) [-Double.ofNat 1, .zero, .ofNat 3] := by decide +kernel
  have finite : .infinity false ∉ [-Double.ofNat 1, .zero, .ofNat 3] := by decide +kernel
  obtain ⟨cumulative, shown⟩ := cumulative_and_shown ascending
    [.nan true, .infinity true, .ofNat 3, .infinity false, -.ofNat 1, -.zero]
  have counted : rows [-Double.ofNat 1, .zero, .ofNat 3]
      [.nan true, .infinity true, .ofNat 3, .infinity false, -.ofNat 1, -.zero] =
      [(-.ofNat 1, 2), (.zero, 3), (.ofNat 3, 4), (.infinity false, 6)] := by decide +kernel
  refine ⟨ascending, finite, ?_, cumulative.count, ?_⟩
  · rw [mixed, cumulative.buckets]
    decide +kernel
  · rw [← counted]
    have here := shown finite
      [.singleton "up" none ⟨.ofList [("a", "b")], .histogram mixed.distribution⟩]
    exact here _ (List.mem_singleton_self _) _ (List.mem_singleton_self _) rfl

end Histogram

end Telemetry
