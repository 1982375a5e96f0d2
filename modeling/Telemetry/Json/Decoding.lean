import Telemetry.Json
import Telemetry.Dict
import Telemetry.Double.Decimal

/-!
# Decoding values

A value is decoded to what a reader expects, and `none` stands for a value of
another shape.

A whole number must be written without point and exponent, must fit, and may not
be a negative zero.  A number of any form is a double.  It is not the nearest one:
the digits that fit in 64 bits are kept, and the power of ten is applied to them by
one multiplication or division, in steps of `10 ^ 308` downwards.  A number that
would become infinite is refused.

A *record* has named fields and is written as an object or as an array of its
fields in order.  An object may not repeat a field, and fields of other names are
passed over.  An array may stop early and may not be too long.
-/

namespace Telemetry

namespace Numeral

/-- Whether the number is written without point and exponent. -/
def isWhole (n : Numeral) : Bool := n.fraction.isEmpty && n.exponent.isNone

/-- One more than the largest number of 64 bits. -/
def limit : Nat := UInt64.size

/-- How far below zero numbers of 64 bits with a sign go. -/
def signedLimit : Nat := limit / 2

/-- The number of 64 bits that is written. -/
def toUInt64? (n : Numeral) : Option UInt64 :=
  let value := natOfDigits n.whole
  if n.isWhole ∧ ¬n.negative ∧ value < limit then some value.toUInt64 else none

/-- The number of 64 bits with a sign that is written. -/
def toInt64? (n : Numeral) : Option Int64 :=
  let value := natOfDigits n.whole
  if ¬n.isWhole then none
  else if n.negative then
    if 0 < value ∧ value ≤ signedLimit then some (Int64.ofInt (-(value : Int))) else none
  else if value < signedLimit then some (Int64.ofInt value) else none

/-- Adds digits to a number while it fits, and returns the digits that did not. -/
def significand (n : Nat) : List Char → Nat × List Char
  | [] => (n, [])
  | c :: s =>
    let next := 10 * n + digitValue c
    if next < limit then significand next s else (n, c :: s)

/-- A number divided by a power of ten, in steps that a double can hold. -/
def divide (x : Double) (places : Nat) : Double :=
  if places ≤ 308 then x / .ofDecimal false 1 places
  else if x.same .zero then x
  else divide (x / .ofDecimal false 1 308) (places - 308)
termination_by places

/-- A number times a power of ten, unless that is infinite. -/
def scale? (x : Double) (exponent : Int) : Option Double :=
  if exponent < 0 then some (divide x (-exponent).toNat)
  else if x.same .zero then some x
  else if 308 < exponent then none
  else
    let y := x * .ofDecimal false 1 exponent
    if y.isInfinite then none else some y

/-- The double that a number is taken for. -/
def toDouble? (n : Numeral) : Option Double :=
  let (kept, dropped) := significand 0 n.whole
  let (digits, rest) := significand kept n.fraction
  let places := (dropped.length : Int) - (n.fraction.length - rest.length)
  (scale? (.ofNat digits) (places + n.exponent.getD 0)).map fun x => if n.negative then -x else x

end Numeral

namespace Json

/-- A text. -/
def text? : Json → Option String
  | .text s => s
  | _ => none

/-- A number of 64 bits. -/
def uint64? : Json → Option UInt64
  | .number n => n.toUInt64?
  | _ => none

/-- A number of 64 bits with a sign. -/
def int64? : Json → Option Int64
  | .number n => n.toInt64?
  | _ => none

/-- A double. -/
def double? : Json → Option Double
  | .number n => n.toDouble?
  | _ => none

/-- A value that may be null. -/
def nullable? {α : Type} (decode : Json → Option α) : Json → Option (Option α)
  | .null => some none
  | j => (decode j).map some

/-- The fields of an object, if all keys are texts. -/
def namedFields? (fields : List (Option String × Json)) : Option (List (String × Json)) :=
  fields.mapM fun f => f.1.map (·, f.2)

/-- A dictionary.  Of two fields with one key the later one counts. -/
def dict? {α : Type} (decode : Json → Option α) : Json → Option (Dict α)
  | .object fields => do
    let named ← namedFields? fields
    let decoded ← named.mapM fun f => (decode f.2).map (f.1, ·)
    return .ofList decoded
  | _ => none

/-- The fields of a record, by the names it declares.  A field that is not written is `none`. -/
def record? (names : List String) : Json → Option (Dict Json)
  | .object fields => do
    let named ← namedFields? fields
    let known := named.filter (names.contains ·.1)
    if (known.map (·.1)).Nodup then some (.ofList known) else none
  | .array items => if items.length ≤ names.length then some (.ofList (names.zip items)) else none
  | _ => none

/-- A field that must be written. -/
def required {α : Type} (fields : Dict Json) (name : String) (decode : Json → Option α) :
    Option α :=
  (fields.get? name).bind decode

/-- A field with a value to fall back on. -/
def optional {α : Type} (fields : Dict Json) (name : String) (fallback : α)
    (decode : Json → Option α) : Option α :=
  match fields.get? name with
  | none => some fallback
  | some j => decode j

end Json

end Telemetry
