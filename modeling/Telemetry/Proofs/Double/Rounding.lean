import Mathlib.Tactic.Ring
import Telemetry.Double.Decimal

/-!
# Rounding

The rank that a quotient is rounded to depends on the quotient alone
(`nearestRank_eq_of_mul_eq`), and a quotient that is a double is rounded to itself
(`nearestRank_unitsOfRank`).  The powers that `ofDecimal` does not compute would
have been rounded to zero or to infinity, so it is a rounding in every case
(`ofDecimal_eq`), and zeros may be moved between the digits and the exponent
(`ofDecimal_mul_pow`).
-/

namespace Telemetry.Double

theorem binade_eq : binade = 2 ^ 52 := by decide

/-! ## Quotients -/

theorem roundHalfEven_mul_left {k : Nat} (pos : 0 < k) (num den : Nat) :
    roundHalfEven (k * num) (k * den) = roundHalfEven num den := by
  unfold roundHalfEven
  rw [Nat.mul_div_mul_left _ _ pos, Nat.mul_mod_mul_left]
  simp only [Nat.mul_left_comm 2 k, Nat.mul_lt_mul_left pos]

theorem roundHalfEven_of_dvd {den : Nat} (pos : 0 < den) (n : Nat) :
    roundHalfEven (n * den) den = n := by
  unfold roundHalfEven
  rw [Nat.mul_div_cancel _ pos, Nat.mul_mod_left]
  exact if_pos pos

theorem nearestRank_mul_left {k : Nat} (pos : 0 < k) (num den : Nat) :
    nearestRank (k * num) (k * den) = nearestRank num den := by
  unfold nearestRank
  rw [Nat.mul_div_mul_left _ _ pos]
  dsimp only
  rw [Nat.mul_assoc, roundHalfEven_mul_left pos]

/-- Equal quotients have one nearest rank. -/
theorem nearestRank_eq_of_mul_eq {num den num' den' : Nat} (pos : 0 < den) (pos' : 0 < den')
    (equal : num * den' = num' * den) : nearestRank num den = nearestRank num' den' := by
  calc nearestRank num den
      = nearestRank (den' * num) (den' * den) := (nearestRank_mul_left pos' num den).symm
    _ = nearestRank (den * num') (den * den') := by
        rw [Nat.mul_comm den' num, equal, Nat.mul_comm num' den, Nat.mul_comm den' den]
    _ = nearestRank num' den' := nearestRank_mul_left pos num' den'

theorem nearestRank_eq_zero {num den : Nat} (small : 2 * num < den) : nearestRank num den = 0 := by
  have quotient : num / den = 0 := Nat.div_eq_of_lt (by omega)
  have remainder : num % den = num := Nat.mod_eq_of_lt (by omega)
  have rounded : roundHalfEven num den = 0 := by
    unfold roundHalfEven
    rw [quotient, remainder]
    exact if_pos small
  have shift : (0 : Nat).log2 - 52 = 0 := by decide
  unfold nearestRank
  rw [quotient, shift]
  dsimp only
  rw [Nat.pow_eq, Nat.pow_zero, Nat.mul_one, rounded]
  rfl

theorem le_roundHalfEven {num den n : Nat} (pos : 0 < den) (le : n * den ≤ num) :
    n ≤ roundHalfEven num den := by
  have quotient : n ≤ num / den := (Nat.le_div_iff_mul_le pos).mpr le
  unfold roundHalfEven
  dsimp only
  split
  · exact quotient
  · split <;> omega

/-- The digits that are left of a great quotient fill a binade. -/
theorem binade_le_roundHalfEven {num den shift : Nat} (pos : 0 < den)
    (log : (num / den).log2 = shift + 52) : binade ≤ roundHalfEven num (den * 2 ^ shift) := by
  have nonzero : num / den ≠ 0 := by
    intro zero
    rw [zero, Nat.log2_zero] at log
    omega
  apply le_roundHalfEven (Nat.mul_pos pos (Nat.two_pow_pos _))
  have self := Nat.log2_self_le nonzero
  rw [log, Nat.le_div_iff_mul_le pos] at self
  calc binade * (den * 2 ^ shift) = 2 ^ (shift + 52) * den := by rw [binade_eq]; ring
    _ ≤ num := self

theorem nearestRank_eq_top {num den n : Nat} (pos : 0 < den) (large : 2 ^ n * den ≤ num)
    (enough : 2098 ≤ n) : nearestRank num den = top := by
  have quotient : 2 ^ n ≤ num / den := (Nat.le_div_iff_mul_le pos).mpr large
  have nonzero : num / den ≠ 0 :=
    Nat.ne_of_gt (Nat.lt_of_lt_of_le (Nat.two_pow_pos _) quotient)
  have log : n ≤ (num / den).log2 := (Nat.le_log2 nonzero).mpr quotient
  obtain ⟨shift, log_eq⟩ : ∃ shift, (num / den).log2 = shift + 52 :=
    ⟨(num / den).log2 - 52, by omega⟩
  unfold nearestRank
  dsimp only
  rw [log_eq, Nat.add_sub_cancel, Nat.pow_eq]
  apply Nat.min_eq_left
  calc top = 2046 * binade + binade := by decide
    _ ≤ shift * binade + roundHalfEven num (den * 2 ^ shift) :=
        Nat.add_le_add (Nat.mul_le_mul_right _ (by omega)) (binade_le_roundHalfEven pos log_eq)

/-! ## Ranks -/

/-- A double is rounded to itself. -/
theorem nearestRank_unitsOfRank {rank : Nat} (le : rank ≤ top) :
    nearestRank (unitsOfRank rank) 1 = rank := by
  unfold nearestRank
  dsimp only
  rw [Nat.div_one, Nat.one_mul, Nat.pow_eq]
  by_cases small : rank < binade
  · have units : unitsOfRank rank = rank := if_pos small
    have log : rank.log2 - 52 = 0 := by
      by_cases zero : rank = 0
      · rw [zero]
        decide
      · have bound : rank.log2 < 52 := (Nat.log2_lt zero).mpr (binade_eq ▸ small)
        omega
    rw [units, log]
    have exact_ := roundHalfEven_of_dvd Nat.one_pos rank
    rw [Nat.mul_one] at exact_
    rw [Nat.zero_mul, Nat.zero_add, Nat.pow_zero, exact_]
    exact Nat.min_eq_right le
  · obtain ⟨shift, quotient⟩ : ∃ shift, rank / binade = shift + 1 := by
      have positive : 0 < rank / binade := Nat.div_pos (by omega) (by decide)
      exact ⟨rank / binade - 1, by omega⟩
    have parts : binade * (shift + 1) + rank % binade = rank :=
      quotient ▸ Nat.div_add_mod rank binade
    have remainder : rank % binade < binade := Nat.mod_lt _ (by decide)
    have units : unitsOfRank rank = (binade + rank % binade) * 2 ^ shift := by
      unfold unitsOfRank
      rw [if_neg small, quotient, Nat.add_sub_cancel, Nat.pow_eq]
    have log : (unitsOfRank rank).log2 = shift + 52 := by
      have power : 0 < 2 ^ shift := Nat.two_pow_pos shift
      have lower : 2 ^ (shift + 52) ≤ unitsOfRank rank := by
        rw [units, Nat.pow_add, ← binade_eq, Nat.mul_comm]
        exact Nat.mul_le_mul_right _ (by omega)
      have upper : unitsOfRank rank < 2 ^ (shift + 52 + 1) := by
        calc unitsOfRank rank = (binade + rank % binade) * 2 ^ shift := units
          _ < 2 * binade * 2 ^ shift := Nat.mul_lt_mul_of_pos_right (by omega) power
          _ = 2 ^ (shift + 52 + 1) := by rw [binade_eq]; ring
      exact (Nat.log2_eq_iff (Nat.ne_of_gt (Nat.lt_of_lt_of_le (Nat.two_pow_pos _) lower))).mpr
        ⟨lower, upper⟩
    rw [log, Nat.add_sub_cancel, units, roundHalfEven_of_dvd (Nat.two_pow_pos _)]
    have sum : shift * binade + (binade + rank % binade) = rank := by
      rw [Nat.mul_comm shift, ← Nat.add_assoc, ← Nat.mul_succ]
      exact parts
    rw [sum]
    exact Nat.min_eq_right le

/-! ## Decimal numbers -/

theorem lt_ten_pow_log2 (digits : Nat) : digits < 10 ^ (digits.log2 / 3 + 1) := by
  calc digits < 2 ^ (digits.log2 + 1) := Nat.lt_log2_self
    _ ≤ 2 ^ (3 * (digits.log2 / 3 + 1)) := Nat.pow_le_pow_right (by decide) (by omega)
    _ = 8 ^ (digits.log2 / 3 + 1) := by rw [Nat.pow_mul]
    _ ≤ 10 ^ (digits.log2 / 3 + 1) := Nat.pow_le_pow_left (by decide) _

theorem two_mul_one_le {least places : Nat} (least_eq : least = 401) (enough : least ≤ places) :
    2 * one ≤ 10 ^ places := by
  have exceeds : 2 * one ≤ 10 ^ least := by
    subst least_eq
    decide +kernel
  exact Nat.le_trans exceeds (Nat.pow_le_pow_right (by decide) enough)

theorem two_pow_le {n least places : Nat} (n_eq : n = 2098) (least_eq : least = 400)
    (enough : least ≤ places) : 2 ^ n ≤ 10 ^ places * one := by
  have exceeds : 2 ^ n ≤ 10 ^ least * one := by
    subst n_eq least_eq
    decide +kernel
  exact Nat.le_trans exceeds (Nat.mul_le_mul_right _ (Nat.pow_le_pow_right (by decide) enough))

/-- A decimal number is read as the double nearest to it, also where the power is not computed. -/
theorem ofDecimal_eq (negative : Bool) (digits : Nat) (exponent : Int) :
    ofDecimal negative digits exponent =
      round negative (digits * 10 ^ exponent.toNat * one) (10 ^ (-exponent).toNat) := by
  unfold ofDecimal
  dsimp only
  split
  next small =>
    have vanishes :
        2 * (digits * 10 ^ exponent.toNat * one) < 10 ^ (-exponent).toNat := by
      rcases small with rfl | small
      · rw [Nat.zero_mul, Nat.zero_mul]
        exact Nat.pow_pos (by decide)
      · have whole : exponent.toNat = 0 := by omega
        obtain ⟨rest, places, enough⟩ :
            ∃ rest, (-exponent).toNat = digits.log2 / 3 + 1 + rest ∧ 401 ≤ rest :=
          ⟨(-exponent).toNat - (digits.log2 / 3 + 1), by omega, by omega⟩
        rw [whole, places, Nat.pow_zero, Nat.mul_one]
        calc 2 * (digits * one) = digits * (2 * one) := Nat.mul_left_comm _ _ _
          _ < 10 ^ (digits.log2 / 3 + 1) * 10 ^ rest :=
              Nat.mul_lt_mul_of_lt_of_le (lt_ten_pow_log2 digits) (two_mul_one_le rfl enough)
                (Nat.pow_pos (by decide))
          _ = 10 ^ (digits.log2 / 3 + 1 + rest) := (Nat.pow_add _ _ _).symm
    exact congrArg (number negative) (Fin.ext (nearestRank_eq_zero vanishes).symm)
  next notSmall =>
    have positive : 0 < digits := by omega
    split
    next large =>
      have whole : (-exponent).toNat = 0 := by omega
      obtain ⟨n, n_eq⟩ : ∃ n, n = 2098 := ⟨_, rfl⟩
      have exceeds := two_pow_le n_eq rfl (show 400 ≤ exponent.toNat by omega)
      have exceeds : 2 ^ n * 1 ≤ digits * 10 ^ exponent.toNat * one := by
        rw [Nat.mul_one, Nat.mul_assoc]
        exact Nat.le_trans exceeds (Nat.le_mul_of_pos_left _ positive)
      rw [whole]
      exact congrArg (number negative)
        (Fin.ext (nearestRank_eq_top Nat.one_pos exceeds n_eq.ge).symm)
    next =>
      split
      next whole =>
        have none_ : (-exponent).toNat = 0 := by omega
        rw [none_]
        rfl
      next =>
        have none_ : exponent.toNat = 0 := by omega
        rw [none_, Nat.pow_zero, Nat.mul_one]
        rfl

/-- Zeros may be moved from the digits to the exponent. -/
theorem ofDecimal_mul_pow (negative : Bool) (digits zeros : Nat) (exponent : Int) :
    ofDecimal negative (digits * 10 ^ zeros) (exponent - zeros) =
      ofDecimal negative digits exponent := by
  rw [ofDecimal_eq, ofDecimal_eq]
  refine congrArg (number negative) (Fin.ext ?_)
  apply nearestRank_eq_of_mul_eq (Nat.pow_pos (by decide)) (Nat.pow_pos (by decide))
  have powers : zeros + (exponent - zeros).toNat + (-exponent).toNat =
      exponent.toNat + (-(exponent - zeros)).toNat := by omega
  calc digits * 10 ^ zeros * 10 ^ (exponent - zeros).toNat * one * 10 ^ (-exponent).toNat
      = digits * one * 10 ^ (zeros + (exponent - zeros).toNat + (-exponent).toNat) := by
        rw [Nat.pow_add, Nat.pow_add]
        ring
    _ = digits * 10 ^ exponent.toNat * one * 10 ^ (-(exponent - zeros)).toNat := by
        rw [powers, Nat.pow_add]
        ring

end Telemetry.Double
