import Telemetry.Proofs.Double.Rounding
import Telemetry.Proofs.Text.Cutting

/-!
# Doubles as text

The text of a double is read back as the double it was written from
(`read?_text`), save that what is not a number loses its sign: there is one text for
both signs.

The digits that are written read back to the rank by the way they are chosen, or
they are those of the exact value.  Positional notation adds zeros to the digits or
takes zeros away from their end, which moves them to the exponent, so that the
number that is read is the one that was written.
-/

namespace Telemetry

open Text (takeWhile_append_stop dropWhile_append_stop)

/-! ## Digits -/

theorem natOfDigits_eq (digits : List Char) : natOfDigits digits = Nat.ofDigitChars 10 digits 0 :=
  Nat.ofDigitChars_eq_foldl.symm

theorem natOfDigits_digitsOfNat (n : Nat) : natOfDigits (digitsOfNat n) = n := by
  rw [natOfDigits_eq]
  exact Nat.ofDigitChars_toDigits (by decide) (Nat.le_refl _)

theorem natOfDigits_zeros_append (zeros : Nat) (digits : List Char) :
    natOfDigits (List.replicate zeros '0' ++ digits) = natOfDigits digits := by
  rw [natOfDigits_eq, natOfDigits_eq, Nat.ofDigitChars_append, Nat.ofDigitChars_replicate_zero,
    Nat.mul_zero]

theorem natOfDigits_append_zeros (digits : List Char) (zeros : Nat) :
    natOfDigits (digits ++ List.replicate zeros '0') = natOfDigits digits * 10 ^ zeros := by
  rw [natOfDigits_eq, natOfDigits_eq, Nat.ofDigitChars_append, Nat.ofDigitChars_replicate_zero,
    Nat.mul_comm]

/-- The digits as characters. -/
def digitChars : List Char := ['0', '1', '2', '3', '4', '5', '6', '7', '8', '9']

theorem isDigit_iff_mem {c : Char} : isDigit c = true ↔ c ∈ digitChars := by
  constructor
  · intro digit
    rw [isDigit, Bool.and_eq_true, decide_eq_true_iff, decide_eq_true_iff] at digit
    have codes : ∀ n < 58, 48 ≤ n → Char.ofNat n ∈ digitChars := by decide
    have low : 48 ≤ c.toNat := digit.1
    have high : c.toNat ≤ 57 := digit.2
    rw [← Char.ofNat_toNat c]
    exact codes c.toNat (Nat.lt_succ_of_le high) low
  · exact (by decide : ∀ c ∈ digitChars, isDigit c = true) c

theorem isDigit_of_mem_digitsOfNat {n : Nat} {c : Char} (there : c ∈ digitsOfNat n) :
    isDigit c = true := by
  have digit := Nat.isDigit_of_mem_toDigits (by decide) (Nat.le_refl _) there
  rw [Char.isDigit, Bool.and_eq_true, decide_eq_true_iff, decide_eq_true_iff] at digit
  rw [isDigit, Bool.and_eq_true, decide_eq_true_iff, decide_eq_true_iff]
  exact digit

theorem isDigit_of_mem_replicate {n : Nat} {c : Char} (there : c ∈ List.replicate n '0') :
    isDigit c = true := by
  rw [List.eq_of_mem_replicate there]
  decide

/-- Digits without the zeros at their end. -/
def dropZeros (digits : List Char) : List Char := (digits.reverse.dropWhile (· = '0')).reverse

theorem dropZeros_append (digits : List Char) :
    ∃ zeros, dropZeros digits ++ List.replicate zeros '0' = digits := by
  have zeros : digits.reverse.takeWhile (· = '0')
      = List.replicate (digits.reverse.takeWhile (· = '0')).length '0' := by
    refine List.eq_replicate_of_mem fun c there => ?_
    have zero := List.all_eq_true.mp List.all_takeWhile c there
    exact of_decide_eq_true zero
  refine ⟨(digits.reverse.takeWhile (· = '0')).length, ?_⟩
  rw [dropZeros, ← List.reverse_replicate, ← zeros, ← List.reverse_append,
    List.takeWhile_append_dropWhile, List.reverse_reverse]

theorem mem_of_mem_dropZeros {digits : List Char} {c : Char} (there : c ∈ dropZeros digits) :
    c ∈ digits := by
  obtain ⟨zeros, equal⟩ := dropZeros_append digits
  rw [← equal]
  exact List.mem_append_left _ there

namespace Double

/-! ## Positional notation -/

/-- A fraction with the point before it, if there is one. -/
def pointed (fraction : List Char) : List Char :=
  if fraction.isEmpty then [] else '.' :: fraction

/-- Whether a text is some digits and a fraction, which may be empty. -/
structure IsPositional (s whole fraction : List Char) : Prop where
  /-- It is made of these two. -/
  text : s = whole ++ pointed fraction
  /-- There is a digit before the point. -/
  nonempty : whole ≠ []
  /-- There are only digits before the point. -/
  digits : ∀ c ∈ whole, isDigit c = true
  /-- There are only digits after the point. -/
  fractional : ∀ c ∈ fraction, isDigit c = true

theorem IsPositional.readDecimal? {s whole fraction : List Char}
    (h : IsPositional s whole fraction) (negative : Bool) :
    readDecimal? negative s =
      some (ofDecimal negative (natOfDigits (whole ++ fraction)) (0 - fraction.length)) := by
  obtain ⟨rfl, nonempty, digits, fractional⟩ := h
  have stop : (pointed fraction).head?.any isDigit = false := by
    cases fraction with
    | nil => rfl
    | cons c fraction => exact (by decide : isDigit '.' = false)
  have given : (whole ++ fraction).isEmpty = false := by
    cases whole with
    | nil => exact absurd rfl nonempty
    | cons c whole => rfl
  unfold Double.readDecimal?
  dsimp only
  rw [takeWhile_append_stop digits stop, dropWhile_append_stop digits stop]
  cases fraction with
  | nil =>
      have none_ : (pointed []).head? ≠ some '.' := nofun
      rw [if_neg none_, if_neg none_, given]
      rfl
  | cons c fraction =>
      have point : (pointed (c :: fraction)).head? = some '.' := rfl
      have tail : (pointed (c :: fraction)).tail = c :: fraction := rfl
      rw [if_pos point, if_pos point, tail, List.takeWhile_eq_self_iff.mpr fractional, given,
        List.drop_length]
      rfl

/-- The zeros at the end of a fraction do not count. -/
theorem ofDecimal_dropZeros (negative : Bool) (whole rest : List Char) :
    ofDecimal negative (natOfDigits (whole ++ dropZeros rest)) (0 - (dropZeros rest).length) =
      ofDecimal negative (natOfDigits (whole ++ rest)) (-rest.length) := by
  obtain ⟨zeros, equal⟩ := dropZeros_append rest
  have number :
      natOfDigits (whole ++ rest) = natOfDigits (whole ++ dropZeros rest) * 10 ^ zeros := by
    rw [← natOfDigits_append_zeros, List.append_assoc, equal]
  have length : rest.length = (dropZeros rest).length + zeros := by
    rw [← congrArg List.length equal, List.length_append, List.length_replicate]
  have places : -(rest.length : Int) = 0 - (dropZeros rest).length - zeros := by omega
  rw [number, places, ofDecimal_mul_pow]

/-- Whether a text is positional and stands for some digits with an exponent. -/
def StandsFor (s digits : List Char) (exponent : Int) : Prop :=
  ∃ whole fraction, IsPositional s whole fraction ∧
    ∀ negative, ofDecimal negative (natOfDigits (whole ++ fraction)) (0 - fraction.length) =
      ofDecimal negative (natOfDigits digits) exponent

section Digits

variable {digits : List Char} (all : ∀ c ∈ digits, isDigit c = true)
include all

theorem isDigit_of_mem_filled (n : Nat) : ∀ c ∈ List.replicate n '0' ++ digits, isDigit c = true := by
  intro c there
  rcases List.mem_append.mp there with there | there
  · exact isDigit_of_mem_replicate there
  · exact all c there

/-- Zeros after the digits. -/
theorem standsFor_whole (nonempty : digits ≠ []) (n : Nat) :
    StandsFor (digits ++ List.replicate n '0') digits n := by
  have places : (0 : Int) - ([] : List Char).length = (n : Int) - n := by simp
  refine ⟨digits ++ List.replicate n '0', [], ⟨?_, ?_, ?_, ?_⟩, fun negative => ?_⟩
  · exact (List.append_nil _).symm
  · exact List.append_ne_nil_of_left_ne_nil nonempty _
  · intro c there
    exact isDigit_of_mem_filled all n c (List.mem_append.mpr (List.mem_append.mp there).symm)
  · exact fun c there => nomatch there
  · rw [List.append_nil, natOfDigits_append_zeros, places, ofDecimal_mul_pow]

/-- A point among the digits. -/
theorem standsFor_inside (nonempty : digits ≠ []) (n : Nat) :
    StandsFor (digits.take (n + 1) ++ showFraction (digits.drop (n + 1))) digits
      (-(digits.drop (n + 1)).length) := by
  refine ⟨digits.take (n + 1), dropZeros (digits.drop (n + 1)), ⟨rfl, ?_, ?_, ?_⟩,
    fun negative => ?_⟩
  · cases digits with
    | nil => exact absurd rfl nonempty
    | cons c digits => exact List.cons_ne_nil _ _
  · exact fun c there => all c (List.mem_of_mem_take there)
  · exact fun c there => all c (List.mem_of_mem_drop (mem_of_mem_dropZeros there))
  · rw [ofDecimal_dropZeros, List.take_append_drop]

/-- Zeros between the point and the digits. -/
theorem standsFor_after (n : Nat) :
    StandsFor ('0' :: showFraction (List.replicate n '0' ++ digits)) digits
      (-(List.replicate n '0' ++ digits).length) := by
  have zeros : natOfDigits (['0'] ++ (List.replicate n '0' ++ digits)) = natOfDigits digits := by
    rw [← List.append_assoc]
    exact natOfDigits_zeros_append (n + 1) digits
  refine ⟨['0'], dropZeros (List.replicate n '0' ++ digits),
    ⟨rfl, List.cons_ne_nil _ _, by decide, ?_⟩, fun negative => ?_⟩
  · exact fun c there => isDigit_of_mem_filled all n c (mem_of_mem_dropZeros there)
  · rw [ofDecimal_dropZeros, zeros]

/-- Positional notation stands for the digits with their exponent. -/
theorem standsFor_showPositional (nonempty : digits ≠ []) (exponent : Int) :
    StandsFor (showPositional digits exponent) digits exponent := by
  unfold showPositional
  dsimp only
  split
  next whole =>
    have stands := standsFor_whole all nonempty exponent.toNat
    rwa [Int.toNat_of_nonneg whole] at stands
  next =>
    split
    next inside =>
      obtain ⟨n, point⟩ : ∃ n : Nat, (digits.length : Int) + exponent = n + 1 :=
        ⟨((digits.length : Int) + exponent - 1).toNat, by omega⟩
      have places : -((digits.drop (n + 1)).length : Int) = exponent := by
        rw [List.length_drop]
        omega
      have stands := standsFor_inside all nonempty n
      rw [places] at stands
      rwa [point, ← Int.natCast_succ, Int.toNat_natCast]
    next =>
      obtain ⟨n, point⟩ : ∃ n : Nat, -((digits.length : Int) + exponent) = n :=
        ⟨(-((digits.length : Int) + exponent)).toNat, by omega⟩
      have places : -((List.replicate n '0' ++ digits).length : Int) = exponent := by
        rw [List.length_append, List.length_replicate]
        omega
      have stands := standsFor_after all n
      rw [places] at stands
      rwa [point, Int.toNat_natCast]

end Digits

/-! ## Shortest digits -/

theorem one_eq {places : Nat} (all : places = 1074) : one = 2 ^ places := by
  delta one
  rw [← all]
  rfl

theorem shortest_eq {places : Nat} (all : places = 1074) (rank : Nat) :
    shortest rank =
      ((List.range 17).findSome? fun n =>
        (neighbours rank (n + 1)).find? fun d => readsBack rank d.1 d.2).getD
        (unitsOfRank rank * 5 ^ places, -(places : Int)) := by
  have exponent : (-1074 : Int) = -(places : Int) := by omega
  delta shortest
  rw [exponent, ← all]
  rfl

theorem ofDecimal_units {places : Nat} (all : places = 1074) (rank : Nat) :
    ofDecimal false (unitsOfRank rank * 5 ^ places) (-(places : Int)) =
      round false (unitsOfRank rank) 1 := by
  have whole : (-(places : Int)).toNat = 0 := by omega
  rw [ofDecimal_eq]
  refine congrArg (number false) (Fin.ext ?_)
  apply nearestRank_eq_of_mul_eq (Nat.pow_pos (by decide)) Nat.one_pos
  rw [whole, Nat.pow_zero, Nat.mul_one, Nat.mul_one, Nat.mul_assoc, one_eq all, ← Nat.mul_pow,
    Int.neg_neg, Int.toNat_natCast]

/-- The digits that are written for a rank read back to it. -/
theorem ofDecimal_shortest (rank : Nat) :
    ofDecimal false (shortest rank).1 (shortest rank).2 = round false (unitsOfRank rank) 1 := by
  obtain ⟨places, all⟩ : ∃ n, n = 1074 := ⟨_, rfl⟩
  rw [shortest_eq all]
  cases found : (List.range 17).findSome? fun n =>
      (neighbours rank (n + 1)).find? fun d => readsBack rank d.1 d.2 with
  | none => exact ofDecimal_units all rank
  | some d =>
      obtain ⟨n, -, found⟩ := List.exists_of_findSome?_eq_some found
      have read := List.find?_some found
      exact of_decide_eq_true read

theorem ofDecimal_negative {digits : Nat} {exponent : Int} {rank : Fin (top + 1)}
    (equal : ofDecimal false digits exponent = number false rank) (negative : Bool) :
    ofDecimal negative digits exponent = number negative rank := by
  rw [ofDecimal_eq] at equal ⊢
  exact congrArg (number negative) (Double.number.inj equal).2

theorem round_unitsOfRank (negative : Bool) (rank : Fin (top + 1)) :
    round negative (unitsOfRank rank) 1 = number negative rank :=
  congrArg (number negative) (Fin.ext (nearestRank_unitsOfRank (Nat.le_of_lt_succ rank.isLt)))

/-- The text of a rank stands for the rank, with either sign. -/
theorem isPositional_showRank (rank : Fin (top + 1)) :
    ∃ whole fraction, IsPositional (showRank rank) whole fraction ∧
      ∀ negative, ofDecimal negative (natOfDigits (whole ++ fraction)) (0 - fraction.length) =
        number negative rank := by
  unfold showRank
  split
  next zero =>
    have least : rank = 0 := Fin.ext zero
    subst least
    refine ⟨['0'], [], ⟨rfl, List.cons_ne_nil _ _, by decide, by decide⟩, fun negative => rfl⟩
  next =>
    have read := (ofDecimal_shortest rank).trans (round_unitsOfRank false rank)
    generalize shortest rank.val = d at read ⊢
    obtain ⟨digits, exponent⟩ := d
    have nonempty : digitsOfNat digits ≠ [] := Nat.toDigits_ne_nil
    obtain ⟨whole, fraction, positional, number⟩ := standsFor_showPositional
      (fun c there => isDigit_of_mem_digitsOfNat there) nonempty exponent
    refine ⟨whole, fraction, positional, fun negative => ?_⟩
    rw [number, natOfDigits_digitsOfNat]
    exact ofDecimal_negative read negative

/-! ## Texts -/

/-- What is read from the text of a double. -/
def reread : Double → Double
  | nan _ => nan false
  | number negative rank => number negative rank

/-- A text that starts with a digit is read as a decimal number, and so is one after a minus. -/
theorem read?_of_digit {c : Char} (digit : isDigit c = true) (s : List Char) :
    read? (c :: s) = Double.readDecimal? false (c :: s) ∧
      read? ('-' :: c :: s) = Double.readDecimal? true (c :: s) := by
  have facts : ∀ c ∈ digitChars, c ≠ '-' ∧ c ≠ '+' ∧ c.toLower ≠ 'i' ∧ c.toLower ≠ 'n' := by decide
  obtain ⟨minus, plus, i, n⟩ := facts c (isDigit_iff_mem.mp digit)
  have body : ∀ negative, (if (c :: s).map Char.toLower = "inf".toList ∨
        (c :: s).map Char.toLower = "infinity".toList then some (infinity negative)
      else if (c :: s).map Char.toLower = "nan".toList then some (nan negative)
      else Double.readDecimal? negative (c :: s)) = Double.readDecimal? negative (c :: s) := by
    intro negative
    rw [if_neg, if_neg]
    · exact fun equal => n (List.cons.inj equal).1
    · rintro (equal | equal)
      · exact i (List.cons.inj equal).1
      · exact i (List.cons.inj equal).1
  have sign : splitSign (c :: s) = (false, c :: s) := by
    unfold splitSign
    split
    next equal => exact absurd (List.cons.inj equal).1 minus
    next equal => exact absurd (List.cons.inj equal).1 plus
    next => rfl
  constructor
  · unfold read?
    rw [sign]
    exact body false
  · exact body true

/-- The text of a double is read back as the double, save for the sign of what is no number. -/
theorem read?_text (x : Double) : read? x.text = some x.reread := by
  cases x with
  | nan negative => exact (by decide : read? "NaN".toList = some (nan false))
  | number negative rank =>
      unfold text
      dsimp only
      split
      next infinite =>
        have last : rank = Fin.last top := Fin.ext infinite
        subst last
        cases negative <;> decide
      next =>
        obtain ⟨whole, fraction, positional, number⟩ := isPositional_showRank rank
        have read := fun negative => (positional.readDecimal? negative).trans
          (congrArg some (number negative))
        obtain ⟨equal, nonempty, digits, -⟩ := positional
        cases whole with
        | nil => exact absurd rfl nonempty
        | cons c whole =>
            obtain ⟨plain, minus⟩ := read?_of_digit (digits c List.mem_cons_self)
              (whole ++ pointed fraction)
            rw [equal] at read ⊢
            cases negative with
            | false => exact plain.trans (read false)
            | true => exact minus.trans (read true)

/-- The characters that texts of doubles are made of. -/
def textChars : List Char := digitChars ++ ['.', '-', '+', 'I', 'n', 'f', 'N', 'a']

theorem mem_textChars_of_mem_showRank {rank : Fin (top + 1)} {c : Char}
    (there : c ∈ showRank rank) : c ∈ textChars := by
  have digit : ∀ {c}, isDigit c = true → c ∈ textChars := fun h =>
    List.mem_append_left _ (isDigit_iff_mem.mp h)
  obtain ⟨whole, fraction, ⟨equal, -, digits, fractional⟩, -⟩ := isPositional_showRank rank
  rw [equal, List.mem_append] at there
  rcases there with there | there
  · exact digit (digits c there)
  · cases fraction with
    | nil => cases there
    | cons d fraction =>
        rcases List.mem_cons.mp there with rfl | there
        · decide
        · exact digit (fractional c there)

theorem mem_textChars_of_mem_text {x : Double} {c : Char} (there : c ∈ x.text) :
    c ∈ textChars := by
  cases x with
  | nan negative => exact (by decide : ∀ c ∈ "NaN".toList, c ∈ textChars) c there
  | number negative rank =>
      unfold text at there
      dsimp only at there
      split at there
      next =>
        cases negative with
        | false => exact (by decide : ∀ c ∈ "+Inf".toList, c ∈ textChars) c there
        | true => exact (by decide : ∀ c ∈ "-Inf".toList, c ∈ textChars) c there
      next =>
        cases negative with
        | false =>
            rw [if_neg Bool.false_ne_true] at there
            exact mem_textChars_of_mem_showRank there
        | true =>
            rw [if_pos rfl] at there
            rcases List.mem_cons.mp there with rfl | there
            · decide
            · exact mem_textChars_of_mem_showRank there

theorem read?_nil : read? [] = none := rfl

/-- No number starts with a brace. -/
theorem read?_brace (s : List Char) : read? ('{' :: s) = none := by
  have sign : splitSign ('{' :: s) = (false, '{' :: s) := rfl
  unfold read?
  rw [sign]
  dsimp only
  rw [if_neg, if_neg]
  · rfl
  · exact fun equal => absurd (List.cons.inj equal).1 (by decide)
  · rintro (equal | equal)
    · exact absurd (List.cons.inj equal).1 (by decide)
    · exact absurd (List.cons.inj equal).1 (by decide)

end Double

end Telemetry
