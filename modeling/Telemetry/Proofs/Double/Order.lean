import Mathlib.Data.Nat.Log
import Telemetry.Proofs.Double.Rounding

/-!
# The order of doubles

Rounding keeps the order of quotients (`nearestRank_le_nearestRank`).  Two quotients of one
binade are compared by their digits, which are rounded alike.  Of two in different
binades the greater is rounded to the start of its binade at least, and the smaller to
the end of its own at most, which comes no later.

So all that is rounded once keeps the order: the double nearest to a natural number
(`ofNat_le_ofNat`), the quotient of two numbers (`div_le_div`), and the sum, which is
no less than either term (`le_add`).  The last two are about numbers that are not
negative, and they give such numbers again.
-/

namespace Telemetry.Double

/-! ## Rounding -/

theorem roundHalfEven_le (num den : Nat) : roundHalfEven num den ≤ num / den + 1 := by
  unfold roundHalfEven
  dsimp only
  split
  · omega
  · split <;> omega

theorem roundHalfEven_le_roundHalfEven {num num' den : Nat} (pos : 0 < den) (le : num ≤ num') :
    roundHalfEven num den ≤ roundHalfEven num' den := by
  rcases Nat.eq_or_lt_of_le (Nat.div_le_div_right le) with same | less
  · have parts := Nat.div_add_mod num den
    have parts' := Nat.div_add_mod num' den
    rw [← same] at parts'
    have remainders : num % den ≤ num' % den := by omega
    by_cases below : 2 * (num % den) < den
    · have down : roundHalfEven num den = num / den := if_pos below
      rw [down, same]
      exact le_roundHalfEven pos (Nat.div_mul_le_self _ _)
    · have notBelow : ¬ 2 * (num' % den) < den := by omega
      unfold roundHalfEven
      dsimp only
      rw [← same, if_neg below, if_neg notBelow]
      split <;> split <;> omega
  · calc roundHalfEven num den ≤ num / den + 1 := roundHalfEven_le num den
      _ ≤ num' / den := less
      _ ≤ roundHalfEven num' den := le_roundHalfEven pos (Nat.div_mul_le_self _ _)

/-- The digits that are left of a quotient are those of two binades at most. -/
theorem roundHalfEven_le_binade {num den shift : Nat} (log : (num / den).log2 ≤ shift + 52) :
    roundHalfEven num (den * 2 ^ shift) ≤ 2 * binade := by
  have quotient : num / (den * 2 ^ shift) < 2 ^ 53 := by
    rw [← Nat.div_div_eq_div_mul, Nat.div_lt_iff_lt_mul (Nat.two_pow_pos _), ← Nat.pow_add]
    exact Nat.lt_of_lt_of_le Nat.lt_log2_self (Nat.pow_le_pow_right (by decide) (by omega))
  calc roundHalfEven num (den * 2 ^ shift) ≤ num / (den * 2 ^ shift) + 1 := roundHalfEven_le _ _
    _ ≤ 2 ^ 53 := quotient
    _ = 2 * binade := by rw [binade_eq]; rfl

theorem nearestRank_le_nearestRank {num num' den : Nat} (pos : 0 < den) (le : num ≤ num') :
    nearestRank num den ≤ nearestRank num' den := by
  have logs : (num / den).log2 ≤ (num' / den).log2 := by
    rw [Nat.log2_eq_log_two, Nat.log2_eq_log_two]
    exact Nat.log_mono_right (Nat.div_le_div_right le)
  obtain ⟨shift, shift_eq⟩ : ∃ shift, shift = (num / den).log2 - 52 := ⟨_, rfl⟩
  obtain ⟨shift', shift_eq'⟩ : ∃ shift', shift' = (num' / den).log2 - 52 := ⟨_, rfl⟩
  unfold nearestRank
  dsimp only
  rw [← shift_eq, ← shift_eq', Nat.pow_eq, Nat.pow_eq]
  apply min_le_min_left
  have shifts : shift ≤ shift' := by omega
  rcases Nat.eq_or_lt_of_le shifts with rfl | less
  · exact Nat.add_le_add_left
      (roundHalfEven_le_roundHalfEven (Nat.mul_pos pos (Nat.two_pow_pos _)) le) _
  · have below : roundHalfEven num (den * 2 ^ shift) ≤ 2 * binade :=
      roundHalfEven_le_binade (by omega)
    have above : binade ≤ roundHalfEven num' (den * 2 ^ shift') :=
      binade_le_roundHalfEven pos (by omega)
    calc shift * binade + roundHalfEven num (den * 2 ^ shift)
        ≤ shift * binade + 2 * binade := Nat.add_le_add_left below _
      _ = (shift + 1) * binade + binade := by ring
      _ ≤ shift' * binade + roundHalfEven num' (den * 2 ^ shift') :=
          Nat.add_le_add (Nat.mul_le_mul_right _ less) above

/-- A greater rank stands for a greater number. -/
theorem unitsOfRank_le_unitsOfRank {a b : Nat} (le : a ≤ b) (finite : b ≤ top) :
    unitsOfRank a ≤ unitsOfRank b := by
  by_contra greater
  have back := nearestRank_le_nearestRank Nat.one_pos (Nat.le_of_not_le greater)
  rw [nearestRank_unitsOfRank finite, nearestRank_unitsOfRank (Nat.le_trans le finite)] at back
  exact greater (Nat.le_antisymm le back ▸ Nat.le_refl _)

theorem unitsOfRank_pos {a : Nat} (positive : 0 < a) (finite : a ≤ top) : 0 < unitsOfRank a := by
  have least : unitsOfRank 1 = 1 := by decide
  exact Nat.lt_of_lt_of_le (by rw [least]; decide) (unitsOfRank_le_unitsOfRank positive finite)

/-! ## Comparing by value -/

theorem le_def {a b : Double} : a ≤ b ↔ le a b = true := Iff.rfl

theorem le_trans {a b c : Double} (first : a ≤ b) (second : b ≤ c) : a ≤ c := by
  rw [le_def] at first second ⊢
  cases a with
  | nan s => cases first
  | number s a =>
      cases b with
      | nan t => cases first
      | number t b =>
          cases c with
          | nan u => cases second
          | number u c =>
              rw [le, decide_eq_true_eq] at first second ⊢
              exact Int.le_trans first second

theorem number_le_number {a b : Fin (top + 1)} : number false a ≤ number false b ↔ a ≤ b := by
  rw [le_def, le, decide_eq_true_eq, signedRank, signedRank]
  simp only [Bool.false_eq_true, if_false, Int.ofNat_le, Fin.le_def]

theorem ofNat_eq (n : Nat) :
    ofNat n = number false ⟨nearestRank (n * one) 1, nearestRank_lt (n * one) 1⟩ := rfl

theorem ofNat_le_ofNat {m n : Nat} (le : m ≤ n) : ofNat m ≤ ofNat n := by
  rw [ofNat_eq, ofNat_eq, number_le_number]
  exact nearestRank_le_nearestRank Nat.one_pos (Nat.mul_le_mul_right _ le)

/-! ## Numbers that are not negative -/

/-- Whether a double is a number and is not negative. -/
def Nonneg (x : Double) : Prop := ∃ rank, x = number false rank

theorem nonneg_zero : Nonneg zero := ⟨0, rfl⟩

theorem nonneg_ofNat (n : Nat) : Nonneg (ofNat n) := ⟨_, ofNat_eq n⟩

theorem Nonneg.le_refl {x : Double} (nonneg : Nonneg x) : x ≤ x := by
  obtain ⟨a, rfl⟩ := nonneg
  exact number_le_number.mpr (Nat.le_refl _)

theorem Nonneg.le_infinity {x : Double} (nonneg : Nonneg x) : x ≤ infinity false := by
  obtain ⟨a, rfl⟩ := nonneg
  exact number_le_number.mpr (Fin.le_last a)

theorem number_add (a b : Fin (top + 1)) :
    number false a + number false b =
      if a.val = top ∨ b.val = top then infinity false
      else if unitsOfRank a + unitsOfRank b = 0 then zero
      else round false (unitsOfRank a + unitsOfRank b) 1 := by
  change add _ _ = _
  rw [add]
  by_cases first : a.val = top
  · simp only [first, true_and, true_or, if_true, ite_self]
  · by_cases second : b.val = top
    · simp only [first, second, false_and, or_true, if_true, if_false]
    · have sum : signedUnits false a + signedUnits false b =
          ((unitsOfRank a + unitsOfRank b : Nat) : Int) := rfl
      simp only [first, second, false_and, or_false, if_false, sum, Int.natCast_eq_zero,
        Int.natAbs_natCast, Bool.and_self]
      split
      next => rfl
      next =>
        have positive : decide (((unitsOfRank a + unitsOfRank b : Nat) : Int) < 0) = false :=
          decide_eq_false (Int.not_lt.mpr (Int.natCast_nonneg _))
        rw [positive]

/-- A sum of numbers that are not negative is no less than the first of them. -/
theorem le_add {x y : Double} (nonneg : Nonneg x) (nonneg' : Nonneg y) :
    Nonneg (x + y) ∧ x ≤ x + y := by
  have bound := nonneg.le_infinity
  obtain ⟨a, rfl⟩ := nonneg
  obtain ⟨b, rfl⟩ := nonneg'
  have finite : a.val ≤ top := Nat.le_of_lt_succ a.isLt
  rw [number_add]
  split
  next => exact ⟨⟨_, rfl⟩, bound⟩
  next =>
    split
    next none_ =>
      have least : a.val = 0 := by
        by_contra nonzero
        have positive := unitsOfRank_pos (Nat.pos_of_ne_zero nonzero) finite
        omega
      refine ⟨nonneg_zero, number_le_number.mpr ?_⟩
      rw [Fin.le_def, least]
      exact Nat.zero_le _
    next =>
      refine ⟨⟨_, rfl⟩, number_le_number.mpr ?_⟩
      rw [Fin.le_def]
      calc a.val = nearestRank (unitsOfRank a) 1 := (nearestRank_unitsOfRank finite).symm
        _ ≤ nearestRank (unitsOfRank a + unitsOfRank b) 1 :=
            nearestRank_le_nearestRank Nat.one_pos (Nat.le_add_right _ _)

section Quotients

variable {c : Fin (top + 1)} (positive : 0 < c.val) (finite : c.val < top)
include positive finite

theorem number_div (a : Fin (top + 1)) :
    number false a / number false c =
      if a.val = top then infinity false
      else round false (unitsOfRank a * one) (unitsOfRank c) := by
  change div _ _ = _
  rw [div, if_neg (Nat.ne_of_lt finite), if_neg (Nat.ne_of_lt finite),
    if_neg (Nat.ne_of_gt positive)]
  rfl

theorem nonneg_div {x : Double} (nonneg : Nonneg x) : Nonneg (x / number false c) := by
  obtain ⟨a, rfl⟩ := nonneg
  rw [number_div positive finite]
  split <;> exact ⟨_, rfl⟩

/-- A quotient grows with what is divided. -/
theorem div_le_div {x y : Double} (nonneg : Nonneg x) (nonneg' : Nonneg y) (le : x ≤ y) :
    x / number false c ≤ y / number false c := by
  have quotient := nonneg_div positive finite nonneg
  obtain ⟨a, rfl⟩ := nonneg
  obtain ⟨b, rfl⟩ := nonneg'
  rw [number_le_number, Fin.le_def] at le
  rw [number_div positive finite b]
  split
  · exact quotient.le_infinity
  next small =>
    have small' : a.val ≠ top := by omega
    rw [number_div positive finite, if_neg small', round, round, number_le_number, Fin.le_def]
    refine nearestRank_le_nearestRank (unitsOfRank_pos positive (Nat.le_of_lt finite)) ?_
    exact Nat.mul_le_mul_right _ (unitsOfRank_le_unitsOfRank le (Nat.le_of_lt_succ b.isLt))

end Quotients

end Telemetry.Double
