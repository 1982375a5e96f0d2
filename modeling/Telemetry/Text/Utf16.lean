/-!
# UTF-16

Bytes are taken in pairs, each of which is a code unit with its more significant byte
first or last.  A unit that belongs to no character, and a byte that is left over,
stand for U+FFFD.
-/

namespace Telemetry.Text

/-- The code units of some bytes.  A byte that is left over makes a unit that is none. -/
def units16 (bigEndian : Bool) : List UInt8 → List (Option Nat)
  | a :: b :: bytes =>
    some (if bigEndian then 256 * a.toNat + b.toNat else 256 * b.toNat + a.toNat)
      :: units16 bigEndian bytes
  | [_] => [none]
  | [] => []

/-- Whether a unit is the first of two. -/
def isLeadUnit (unit : Nat) : Bool := 0xd800 ≤ unit && unit < 0xdc00

/-- Whether a unit is the second of two. -/
def isTrailUnit (unit : Nat) : Bool := 0xdc00 ≤ unit && unit < 0xe000

/-- The character of two units. -/
def pairChar (lead trail : Nat) : Char :=
  Char.ofNat (0x10000 + (lead - 0xd800) * 0x400 + (trail - 0xdc00))

/-- The text of some units. -/
def charsOfUnits : List (Option Nat) → List Char
  | [] => []
  | none :: units => '\ufffd' :: charsOfUnits units
  | [some unit] => [if isLeadUnit unit || isTrailUnit unit then '\ufffd' else Char.ofNat unit]
  | some unit :: some next :: units =>
    if isLeadUnit unit then
      if isTrailUnit next then pairChar unit next :: charsOfUnits units
      else '\ufffd' :: charsOfUnits (some next :: units)
    else
      (if isTrailUnit unit then '\ufffd' else Char.ofNat unit) :: charsOfUnits (some next :: units)
  | some unit :: none :: units =>
    if isLeadUnit unit then charsOfUnits (none :: units)
    else
      (if isTrailUnit unit then '\ufffd' else Char.ofNat unit) :: charsOfUnits (none :: units)
termination_by units => units.length

/-- The text of any bytes, with U+FFFD where they are not valid. -/
def utf16Lenient (bigEndian : Bool) (bytes : List UInt8) : List Char :=
  charsOfUnits (units16 bigEndian bytes)

end Telemetry.Text
