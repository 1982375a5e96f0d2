import Telemetry.Text.Hex

/-!
# Percent signs

A byte that cannot stand for itself is written as a percent sign with two hexadecimal
digits.  Reading takes a percent sign that two digits do not follow for itself.
-/

namespace Telemetry.Text

/-- The value of a hexadecimal digit given by its byte. -/
def hexOfByte? (b : UInt8) : Option Nat := hexValue? (Char.ofNat b.toNat)

/-- The byte of the percent sign. -/
def percent : UInt8 := 0x25

/-- The bytes that some written bytes stand for. -/
def percentDecode : List UInt8 → List UInt8
  | a :: b :: c :: bytes =>
    if a = percent then
      match hexOfByte? b, hexOfByte? c with
      | some x, some y => (16 * x + y).toUInt8 :: percentDecode bytes
      | _, _ => a :: percentDecode (b :: c :: bytes)
    else a :: percentDecode (b :: c :: bytes)
  | bytes => bytes

/-- A byte written with a percent sign. -/
def percentByte (b : UInt8) : List Char :=
  ['%', hexDigit (b.toNat / 16), hexDigit (b.toNat % 16)]

/-- A text in which every character that cannot stand for itself is written byte by byte. -/
def percentEncode (plain : Char → Bool) (s : List Char) : List Char :=
  s.flatMap fun c => if plain c then [c] else (String.singleton c).toUTF8.toList.flatMap percentByte

end Telemetry.Text
