/-!
# Base 64

Three bytes are written as four characters of six bits each.  What is left at the
end is filled up with equals signs.  Reading passes over blanks, and takes nothing
that could not have been written, save that the equals signs may be missing.
-/

namespace Telemetry.Text

/-- The character of six bits. -/
def sextetChar (n : Nat) : Char :=
  if n < 26 then Char.ofNat ('A'.toNat + n)
  else if n < 52 then Char.ofNat ('a'.toNat + (n - 26))
  else if n < 62 then Char.ofNat ('0'.toNat + (n - 52))
  else if n = 62 then '+' else '/'

/-- Bytes in base 64. -/
def base64 : List UInt8 → List Char
  | [] => []
  | [a] => [sextetChar (a.toNat / 4), sextetChar (a.toNat % 4 * 16), '=', '=']
  | [a, b] =>
    [sextetChar (a.toNat / 4), sextetChar (a.toNat % 4 * 16 + b.toNat / 16),
      sextetChar (b.toNat % 16 * 4), '=']
  | a :: b :: c :: rest =>
    sextetChar (a.toNat / 4) :: sextetChar (a.toNat % 4 * 16 + b.toNat / 16)
      :: sextetChar (b.toNat % 16 * 4 + c.toNat / 64) :: sextetChar (c.toNat % 64) :: base64 rest

/-- A text in base 64, by the bytes of its UTF-8 form. -/
def base64OfString (s : String) : String := String.ofList (base64 s.toUTF8.toList)

/-- The six bits of a character. -/
def sextetOf? (c : Char) : Option Nat :=
  if 'A' ≤ c ∧ c ≤ 'Z' then some (c.toNat - 'A'.toNat)
  else if 'a' ≤ c ∧ c ≤ 'z' then some (c.toNat - 'a'.toNat + 26)
  else if '0' ≤ c ∧ c ≤ '9' then some (c.toNat - '0'.toNat + 52)
  else if c = '+' then some 62
  else if c = '/' then some 63
  else none

/-- The bytes of some groups of six bits. -/
def bytesOfSextets? : List Nat → Option (List UInt8)
  | [] => some []
  | [_] => none
  | [a, b] => if b % 16 = 0 then some [(a * 4 + b / 16).toUInt8] else none
  | [a, b, c] =>
    if c % 4 = 0 then some [(a * 4 + b / 16).toUInt8, (b % 16 * 16 + c / 4).toUInt8] else none
  | a :: b :: c :: d :: rest => do
    let bytes ← bytesOfSextets? rest
    return (a * 4 + b / 16).toUInt8 :: (b % 16 * 16 + c / 4).toUInt8
      :: (c % 4 * 64 + d).toUInt8 :: bytes

/-- The bytes that a text in base 64 stands for. -/
def bytesOfBase64? (s : List Char) : Option (List UInt8) :=
  let s := s.filter fun c => !c.isWhitespace
  let body := s.takeWhile (· ≠ '=')
  let filling := s.drop body.length
  if filling.all (· = '=') ∧ (filling.isEmpty ∨ filling.length ≤ 2 ∧ s.length % 4 = 0) then do
    bytesOfSextets? (← body.mapM sextetOf?)
  else none

end Telemetry.Text
