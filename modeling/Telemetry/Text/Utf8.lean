/-!
# UTF-8

Bytes are cut into pieces, each of which is the code of a character or the longest
start of one that does not go on.  A byte that starts no character is a piece of its
own.  Bytes are *valid* if every piece is a character, and the *lenient* reading puts
U+FFFD for every piece that is not.
-/

namespace Telemetry.Text

/-- How many bytes follow a byte that starts a character, and the range of the next one. -/
def sequel? (a : UInt8) : Option (Nat × UInt8 × UInt8) :=
  if a < 0xc2 then none
  else if a < 0xe0 then some (1, 0x80, 0xbf)
  else if a = 0xe0 then some (2, 0xa0, 0xbf)
  else if a = 0xed then some (2, 0x80, 0x9f)
  else if a < 0xf0 then some (2, 0x80, 0xbf)
  else if a = 0xf0 then some (3, 0x90, 0xbf)
  else if a < 0xf4 then some (3, 0x80, 0xbf)
  else if a = 0xf4 then some (3, 0x80, 0x8f)
  else none

/-- The bits that a first byte gives to its character, if some bytes follow. -/
def leadBits (a : UInt8) (following : Nat) : Nat := a.toNat % Nat.pow 2 (6 - following)

/-- The bits of a character with those of one more byte. -/
def pushBits (bits : Nat) (b : UInt8) : Nat := bits * 64 + b.toNat % 64

/-- What is being read: the bits so far, how many bytes are missing, and the range of the next. -/
structure Partial where
  /-- The bits. -/
  bits : Nat
  /-- How many bytes are missing. -/
  missing : Nat
  /-- The least byte that goes on. -/
  low : UInt8
  /-- The greatest byte that goes on. -/
  high : UInt8

/-- Reads a byte that starts something: the pieces it completes, and what it leaves open. -/
def startByte (a : UInt8) : List (Option Char) × Option Partial :=
  if a < 0x80 then ([some (Char.ofNat a.toNat)], none)
  else
    match sequel? a with
    | none => ([none], none)
    | some (missing, low, high) => ([], some ⟨leadBits a missing, missing, low, high⟩)

/-- Reads a byte after what is left open. -/
def goOn (p : Partial) (b : UInt8) : List (Option Char) × Option Partial :=
  if p.low ≤ b ∧ b ≤ p.high then
    let bits := pushBits p.bits b
    if p.missing = 1 then ([some (Char.ofNat bits)], none)
    else ([], some ⟨bits, p.missing - 1, 0x80, 0xbf⟩)
  else
    let (pieces, rest) := startByte b
    (none :: pieces, rest)

/-- The pieces of some bytes after what is left open. -/
def utf8Pieces : Option Partial → List UInt8 → List (Option Char)
  | none, [] => []
  | some _, [] => [none]
  | none, b :: bytes =>
    let (pieces, rest) := startByte b
    pieces ++ utf8Pieces rest bytes
  | some p, b :: bytes =>
    let (pieces, rest) := goOn p b
    pieces ++ utf8Pieces rest bytes

/-- The text of valid bytes. -/
def utf8? (bytes : List UInt8) : Option (List Char) := (utf8Pieces none bytes).mapM id

/-- The text of any bytes, with U+FFFD where they are not valid. -/
def utf8Lenient (bytes : List UInt8) : List Char :=
  (utf8Pieces none bytes).map (·.getD '\ufffd')

end Telemetry.Text
