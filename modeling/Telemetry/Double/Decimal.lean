import Telemetry.Double

/-!
# Decimal text of doubles

A double is *written* with the fewest digits that read back to it.  Of two such
texts of one length the nearer one is taken, and the larger of two equally near.
There is never an exponent, and a fraction has no trailing zero, so a whole number
has no point.  What is not finite is written `+Inf`, `-Inf` or `NaN`.

`Double.read?` reads an optional sign and then `inf`, `infinity` or `nan` in any
case, or digits with an optional point and an optional exponent.  The value read
is the double nearest to the number written.
-/

namespace Telemetry

/-! ## Digits -/

/-- A decimal digit. -/
def isDigit (c : Char) : Bool := '0' ≤ c && c ≤ '9'

/-- The value of a digit. -/
def digitValue (c : Char) : Nat := c.toNat - '0'.toNat

/-- The number that some digits denote. -/
def natOfDigits (digits : List Char) : Nat := digits.foldl (fun n c => 10 * n + digitValue c) 0

/-- The digits of a number, without leading zeros. -/
def digitsOfNat (n : Nat) : List Char := Nat.toDigits 10 n

/-- A sign and what follows it. -/
def splitSign : List Char → Bool × List Char
  | '-' :: s => (true, s)
  | '+' :: s => (false, s)
  | s => (false, s)

/-- A number written with digits alone, at least one. -/
def readNat? (s : List Char) : Option Nat :=
  if !s.isEmpty && s.all isDigit then some (natOfDigits s) else none

/-- A whole number with an optional sign. -/
def readInt? (s : List Char) : Option Int :=
  let (negative, digits) := splitSign s
  (readNat? digits).map fun n => if negative then -(n : Int) else n

/-- The decimal text of a whole number. -/
def showInt (n : Int) : List Char :=
  if n < 0 then '-' :: digitsOfNat n.natAbs else digitsOfNat n.natAbs

/-- A number that fits in 64 bits, with an optional plus sign. -/
def readUInt64? (s : List Char) : Option UInt64 :=
  let digits := if s.head? = some '+' then s.tail else s
  (readNat? digits).bind fun n => if n < UInt64.size then some n.toUInt64 else none

/-- A whole number that fits in 64 bits with its sign. -/
def readInt64? (s : List Char) : Option Int64 :=
  (readInt? s).bind fun n => if Int64.minValue.toInt ≤ n ∧ n ≤ Int64.maxValue.toInt then some (Int64.ofInt n) else none

namespace Double

/-! ## Reading -/

/-- The exponent that ends a decimal number. -/
def readExponent? : List Char → Option Int
  | [] => some 0
  | c :: s => if c = 'e' ∨ c = 'E' then readInt? s else none

/-- Digits with an optional point and an optional exponent. -/
def readDecimal? (negative : Bool) (s : List Char) : Option Double :=
  let whole := s.takeWhile isDigit
  let rest := s.dropWhile isDigit
  let tail := if rest.head? = some '.' then rest.tail else rest
  let fraction := if rest.head? = some '.' then tail.takeWhile isDigit else []
  let digits := whole ++ fraction
  if digits.isEmpty then none
  else (readExponent? (tail.drop fraction.length)).map fun exponent =>
    ofDecimal negative (natOfDigits digits) (exponent - fraction.length)

/-- The double that a text denotes. -/
def read? (s : List Char) : Option Double :=
  let (negative, body) := splitSign s
  let lower := body.map Char.toLower
  if lower = "inf".toList ∨ lower = "infinity".toList then some (infinity negative)
  else if lower = "nan".toList then some (nan negative)
  else readDecimal? negative body

/-! ## Writing -/

/-- Decimal places enough for a leading digit of every double. -/
def depth : Nat := 400

/-- Whether `digits * 10 ^ exponent` reads back to a rank. -/
def readsBack (rank digits : Nat) (exponent : Int) : Bool :=
  ofDecimal false digits exponent = round false (unitsOfRank rank) 1

/-- The two neighbours of a value among the numbers with `count` digits, the nearer first. -/
def neighbours (rank count : Nat) : List (Nat × Int) :=
  let scaled := unitsOfRank rank * Nat.pow 10 depth
  let places := (digitsOfNat (scaled / one)).length
  let step := Nat.pow 10 (places - count) * one
  let lower := scaled / step
  let exponent := (places : Int) - count - depth
  if 2 * (scaled % step) < step then [(lower, exponent), (lower + 1, exponent)]
  else [(lower + 1, exponent), (lower, exponent)]

/-- The fewest digits that read back to a rank, with their exponent.  Seventeen always suffice,
and the digits of the exact value stand in for them. -/
def shortest (rank : Nat) : Nat × Int :=
  let found := (List.range 17).findSome? fun n =>
    (neighbours rank (n + 1)).find? fun d => readsBack rank d.1 d.2
  found.getD (unitsOfRank rank * Nat.pow 5 1074, -1074)

/-- The fraction after the point, which is left out with it if it is zero. -/
def showFraction (digits : List Char) : List Char :=
  let kept := (digits.reverse.dropWhile (· = '0')).reverse
  if kept.isEmpty then [] else '.' :: kept

/-- Digits and an exponent in positional notation. -/
def showPositional (digits : List Char) (exponent : Int) : List Char :=
  let point := (digits.length : Int) + exponent
  if 0 ≤ exponent then digits ++ List.replicate exponent.toNat '0'
  else if 0 < point then digits.take point.toNat ++ showFraction (digits.drop point.toNat)
  else '0' :: showFraction (List.replicate (-point).toNat '0' ++ digits)

/-- The text of an absolute value. -/
def showRank (rank : Nat) : List Char :=
  if rank = 0 then ['0'] else
    let (digits, exponent) := shortest rank
    showPositional (digitsOfNat digits) exponent

/-- The text of a double. -/
def text : Double → List Char
  | .nan _ => "NaN".toList
  | .number negative rank =>
    if rank.val = top then if negative then "-Inf".toList else "+Inf".toList
    else if negative then '-' :: showRank rank else showRank rank

end Double

end Telemetry
