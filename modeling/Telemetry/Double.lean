/-!
# Doubles

A *double* is a number of the format binary64.  The numbers that are not negative
are counted from zero upwards: the *rank* of a number says how many lie below it.
Zero has rank `0`, the least positive number rank `1`, and infinity the rank
`Double.top`, which is the last.  A negative number is a rank with a sign, so there
are two zeros.  What is not a number keeps a sign and nothing else.

The ranks of one binade are equally spaced, and every finite number is a whole
number of *units*, a unit being `2 ^ -1074`.  So exact arithmetic on doubles is
arithmetic on whole numbers, and the one place where anything is lost is
`Double.nearestRank`, which rounds a quotient of whole numbers to the nearest
rank and takes the even one of two that are equally near.

There are two orders.  `Double.le` compares by value: the zeros are equal, and
nothing compares with what is not a number.  `Double.position` places
every double on a line, `-NaN` first and `NaN` last, with the negative zero below
the positive one.
-/

namespace Telemetry

/-- How many ranks there are from a power of two to the next: two to the power of 52. -/
def Double.binade : Nat := 4503599627370496

/-- The rank of infinity. -/
def Double.top : Nat := 2047 * Double.binade

/-- A number of the format binary64. -/
inductive Double where
  /-- Not a number, with the sign it carries. -/
  | nan (negative : Bool)
  /-- A number, from its sign and the rank of its absolute value. -/
  | number (negative : Bool) (rank : Fin (Double.top + 1))
  deriving DecidableEq

namespace Double

/-! ## Ranks and units -/

/-- The value of a finite rank in units of `2 ^ -1074`. -/
def unitsOfRank (rank : Nat) : Nat :=
  if rank < binade then rank else (binade + rank % binade) * Nat.pow 2 (rank / binade - 1)

/-- The quotient rounded to a whole number, a half going to the even neighbour. -/
def roundHalfEven (num den : Nat) : Nat :=
  let q := num / den
  let r := num % den
  if 2 * r < den then q else if den < 2 * r then q + 1 else q + q % 2

/-- The rank nearest to a quotient of units, the even one of two equally near. -/
def nearestRank (num den : Nat) : Nat :=
  let shift := (num / den).log2 - 52
  min top (shift * binade + roundHalfEven num (den * Nat.pow 2 shift))

theorem nearestRank_lt (num den : Nat) : nearestRank num den < top + 1 :=
  Nat.lt_succ_of_le (Nat.min_le_left _ _)

/-- The double nearest to a signed quotient of units. -/
def round (negative : Bool) (num den : Nat) : Double :=
  .number negative ⟨nearestRank num den, nearestRank_lt num den⟩

/-- How many units make one. -/
def one : Nat := Nat.pow 2 1074

/-! ## Constants and conversions -/

/-- The positive zero. -/
def zero : Double := .number false 0

/-- Infinity, with a sign. -/
def infinity (negative : Bool) : Double := .number negative (Fin.last top)

/-- The double nearest to a natural number. -/
def ofNat (n : Nat) : Double := round false (n * one) 1

/-- The double nearest to a whole number. -/
def ofInt (n : Int) : Double := round (n < 0) (n.natAbs * one) 1

/-- The double nearest to `digits * 10 ^ exponent`.  Exponents far outside the format are
decided without computing the power. -/
def ofDecimal (negative : Bool) (digits : Nat) (exponent : Int) : Double :=
  let places := (digits.log2 : Int) / 3 + 1 + exponent
  if digits = 0 ∨ places < -400 then .number negative 0
  else if 400 + (digits.log2 : Int) < places then infinity negative
  else if 0 ≤ exponent then round negative (digits * Nat.pow 10 exponent.toNat * one) 1
  else round negative (digits * one) (Nat.pow 10 (-exponent).toNat)

/-! ## Arithmetic -/

/-- The value of a number in units, with its sign. -/
def signedUnits (negative : Bool) (rank : Nat) : Int :=
  if negative then -(unitsOfRank rank : Int) else unitsOfRank rank

/-- The opposite sign. -/
def neg : Double → Double
  | .nan negative => .nan (!negative)
  | .number negative rank => .number (!negative) rank

/-- The sum, rounded once.  Two infinities of opposite signs have no sum, and a sum of zero is
positive unless both terms are negative. -/
def add : Double → Double → Double
  | .nan s, _ => .nan s
  | _, .nan s => .nan s
  | .number s a, .number t b =>
    if a.val = top ∧ b.val = top then if s = t then infinity s else .nan false
    else if a.val = top then infinity s
    else if b.val = top then infinity t
    else
      let sum := signedUnits s a + signedUnits t b
      if sum = 0 then .number (s && t) 0 else round (sum < 0) sum.natAbs 1

/-- The product, rounded once.  Zero times infinity is no number. -/
def mul : Double → Double → Double
  | .nan s, _ => .nan s
  | _, .nan s => .nan s
  | .number s a, .number t b =>
    if a.val = top ∨ b.val = top then
      if a.val = 0 ∨ b.val = 0 then .nan false else infinity (s != t)
    else round (s != t) (unitsOfRank a * unitsOfRank b) one

/-- The quotient, rounded once.  Zero by zero and infinity by infinity are no numbers. -/
def div : Double → Double → Double
  | .nan s, _ => .nan s
  | _, .nan s => .nan s
  | .number s a, .number t b =>
    if a.val = top then if b.val = top then .nan false else infinity (s != t)
    else if b.val = top then .number (s != t) 0
    else if b.val = 0 then if a.val = 0 then .nan false else infinity (s != t)
    else round (s != t) (unitsOfRank a * one) (unitsOfRank b)

instance : Add Double := ⟨add⟩
instance : Mul Double := ⟨mul⟩
instance : Div Double := ⟨div⟩
instance : Neg Double := ⟨neg⟩

/-! ## Orders -/

/-- A rank with its sign. -/
def signedRank (negative : Bool) (rank : Nat) : Int :=
  if negative then -(rank : Int) else rank

/-- Whether the first is at most the second by value. -/
def le : Double → Double → Bool
  | .number s a, .number t b => signedRank s a ≤ signedRank t b
  | _, _ => false

/-- Whether two doubles have one value. -/
def same : Double → Double → Bool
  | .number s a, .number t b => signedRank s a = signedRank t b
  | _, _ => false

instance : LE Double := ⟨fun a b => le a b = true⟩

instance (a b : Double) : Decidable (a ≤ b) := inferInstanceAs (Decidable (le a b = true))

/-- The place of a double on the line of all doubles. -/
def position : Double → Int
  | .nan true => -(top : Int) - 2
  | .number true rank => -(rank.val : Int) - 1
  | .number false rank => rank.val
  | .nan false => (top : Int) + 1

/-- Two doubles at one place are one. -/
theorem position_injective {a b : Double} (h : position a = position b) : a = b := by
  rcases a with (_ | _) | ⟨_ | _, a⟩ <;> rcases b with (_ | _) | ⟨_ | _, b⟩ <;>
    grind [position]

/-- Whether a double is plus infinity. -/
def isInfinite (x : Double) : Bool := x = infinity false

end Double

end Telemetry
