import Telemetry.Envelope
import Telemetry.Histogram
import Telemetry.Proofs.Double.Order

/-!
# Times of timers

The times of a timer have 64 bits and a sign, and so has what is taken for the time
between them.  It is the true one as long as that fits (`TimerMessage.nanoseconds_eq_iff`).
A longer time loses two to the power of 64, and is taken for one that runs backwards.

In seconds a time is rounded twice, when it becomes a double and when it is divided.
Both keep the order, so a longer time has no fewer seconds.  For the bounds of the
histograms of timers nothing is lost at all: whether the seconds exceed the bound is
whether the time does (`secondsOf_le_iff`), as for each bound there is a greatest number
of nanoseconds that does not, and the next one exceeds it both in truth and when rounded.
-/

namespace Telemetry

/-! ## Nanoseconds -/

namespace TimerMessage

/-- The nanoseconds from the start to the stop, in whole numbers. -/
def elapsed (t : TimerMessage) : Int := t.stop.toInt - t.start.toInt

/-- Whether a timer does not stop before it starts, and its time fits in 64 bits. -/
structure IsOrderly (t : TimerMessage) : Prop where
  forward : 0 ≤ t.elapsed
  fits : t.elapsed < 2 ^ 63

instance (t : TimerMessage) : Decidable t.IsOrderly :=
  decidable_of_iff (0 ≤ t.elapsed ∧ t.elapsed < 2 ^ 63)
    ⟨fun ⟨forward, fits⟩ => ⟨forward, fits⟩, fun ⟨forward, fits⟩ => ⟨forward, fits⟩⟩

theorem nanoseconds_eq_bmod (t : TimerMessage) : t.nanoseconds = t.elapsed.bmod (2 ^ 64) :=
  Int64.toInt_sub t.stop t.start

theorem elapsed_lt (t : TimerMessage) : t.elapsed < 2 ^ 64 := by
  have stop := t.stop.toInt_lt
  have start := t.start.le_toInt
  rw [elapsed]
  omega

theorem IsOrderly.nanoseconds_eq {t : TimerMessage} (orderly : t.IsOrderly) :
    t.nanoseconds = t.elapsed := by
  have forward := orderly.forward
  have fits := orderly.fits
  rw [nanoseconds_eq_bmod, Int.bmod_eq_of_le (by omega) (by omega)]

/-- A time that does not fit is taken for a negative one. -/
theorem nanoseconds_of_large {t : TimerMessage} (large : 2 ^ 63 ≤ t.elapsed) :
    t.nanoseconds = t.elapsed - 2 ^ 64 ∧ t.nanoseconds < 0 := by
  have below := t.elapsed_lt
  have wrapped : t.nanoseconds = t.elapsed - 2 ^ 64 := by
    rw [nanoseconds_eq_bmod, Int.bmod_def]
    omega
  exact ⟨wrapped, by omega⟩

theorem nanoseconds_eq_iff {t : TimerMessage} (forward : 0 ≤ t.elapsed) :
    t.nanoseconds = t.elapsed ↔ t.elapsed < 2 ^ 63 := by
  constructor
  · intro same
    by_contra large
    have wrapped := (nanoseconds_of_large (Int.not_lt.mp large)).1
    omega
  · exact fun fits => IsOrderly.nanoseconds_eq ⟨forward, fits⟩

end TimerMessage

/-! ## Seconds -/

/-- The seconds of some nanoseconds. -/
def secondsOf (n : Nat) : Double := .ofNat n / .ofNat 1000000000

theorem TimerMessage.IsOrderly.seconds_eq {t : TimerMessage} (orderly : t.IsOrderly) :
    t.seconds = secondsOf t.elapsed.toNat := by
  have forward := orderly.forward
  have positive : decide (t.elapsed < 0) = false := decide_eq_false (Int.not_lt.mpr forward)
  have size : t.elapsed.natAbs = t.elapsed.toNat := by omega
  rw [TimerMessage.seconds, orderly.nanoseconds_eq, Double.ofInt, positive, size]
  rfl

/-- The rank of the number of nanoseconds in a second. -/
def billion : Fin (Double.top + 1) :=
  ⟨Double.nearestRank (1000000000 * Double.one) 1, Double.nearestRank_lt _ _⟩

theorem secondsOf_eq (n : Nat) : secondsOf n = .ofNat n / .number false billion := rfl

theorem billion_pos : 0 < billion.val := by decide +kernel

theorem billion_lt_top : billion.val < Double.top := by decide +kernel

theorem nonneg_secondsOf (n : Nat) : (secondsOf n).Nonneg := by
  rw [secondsOf_eq]
  exact Double.nonneg_div billion_pos billion_lt_top (Double.nonneg_ofNat n)

theorem secondsOf_le_secondsOf {m n : Nat} (le : m ≤ n) : secondsOf m ≤ secondsOf n := by
  rw [secondsOf_eq, secondsOf_eq]
  exact Double.div_le_div billion_pos billion_lt_top (Double.nonneg_ofNat m)
    (Double.nonneg_ofNat n) (Double.ofNat_le_ofNat le)

/-! ## Bounds -/

/-- Whether some nanoseconds do not exceed a bound in seconds, without rounding. -/
def isWithin (n : Nat) : Double → Bool
  | .number false rank => n * Double.one ≤ Double.unitsOfRank rank * 1000000000
  | _ => false

theorem isWithin_of_le {m n : Nat} (le : m ≤ n) {bound : Double}
    (within : isWithin n bound = true) : isWithin m bound = true := by
  cases bound with
  | nan s => cases within
  | number s rank =>
      cases s with
      | true => cases within
      | false =>
          rw [isWithin, decide_eq_true_eq] at within ⊢
          exact Nat.le_trans (Nat.mul_le_mul_right _ le) within

/-- The greatest numbers of nanoseconds that do not exceed the bounds. -/
def timerLimits : List Nat := [10000000, 200000000, 1000000000, 15000000000, 60000000000]

theorem exists_limit : ∀ bound ∈ Histogram.timerBounds, ∃ limit ∈ timerLimits,
    (secondsOf limit ≤ bound ∧ ¬ secondsOf (limit + 1) ≤ bound) ∧
      isWithin limit bound = true ∧ isWithin (limit + 1) bound = false := by
  decide +kernel

/-- The seconds exceed a bound of the histograms of timers exactly if the nanoseconds do. -/
theorem secondsOf_le_iff {bound : Double} (isBound : bound ∈ Histogram.timerBounds) (n : Nat) :
    secondsOf n ≤ bound ↔ isWithin n bound = true := by
  obtain ⟨limit, -, ⟨rounded, beyond⟩, within, without⟩ := exists_limit bound isBound
  rcases Nat.lt_or_ge limit n with more | less
  · refine ⟨fun le => ?_, fun le => ?_⟩
    · exact absurd (Double.le_trans (secondsOf_le_secondsOf more) le) beyond
    · rw [isWithin_of_le more le] at without
      cases without
  · exact ⟨fun _ => isWithin_of_le less within,
      fun _ => Double.le_trans (secondsOf_le_secondsOf less) rounded⟩

end Telemetry
