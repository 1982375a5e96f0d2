import Telemetry.Double.Decimal
import Telemetry.Text.Hex

/-!
# Socket addresses

A socket address is an address of a host with a port: `127.0.0.1:80` or `[::1]:80`.
An address of four bytes is written with points, and one of eight groups with
colons.  Two colons stand for one or more groups of zero, and the last two groups
may be written as four bytes.  In brackets a number after a percent sign tells the
zone.

An address of groups is written in lower case without leading zeros, the first of
its longest runs of zeros, if that is longer than one, as two colons, and an address
that holds four bytes with those as bytes.
-/

namespace Telemetry

/-- An address of a host. -/
inductive HostAddress where
  /-- Four bytes. -/
  | v4 (bytes : List Nat)
  /-- Eight groups of sixteen bits, and a zone. -/
  | v6 (groups : List Nat) (zone : Nat)
  deriving DecidableEq

/-- An address with a port. -/
structure SocketAddress where
  /-- The host. -/
  host : HostAddress
  /-- The port. -/
  port : Nat
  deriving DecidableEq

/-- Why a text is no socket address. -/
inductive AddressError where
  /-- There is no colon. -/
  | noPort
  /-- What follows the last colon is no port. -/
  | badPort
  /-- The host is a name that is not known. -/
  | unknownHost
  deriving DecidableEq

namespace SocketAddress

/-! ## Reading -/

/-- The value of a digit of a base. -/
def digitOf? (base : Nat) (c : Char) : Option Nat :=
  (Text.hexValue? c).bind fun d => if d < base then some d else none

/-- The number of the digits at the front, at most some number of them, and what follows. -/
def number? (base maxDigits limit : Nat) (zeros : Bool) (s : List Char) :
    Option (Nat × List Char) :=
  let digits := s.takeWhile fun c => (digitOf? base c).isSome
  let value := (digits.filterMap (digitOf? base)).foldl (fun n d => base * n + d) 0
  if digits.isEmpty ∨ maxDigits < digits.length ∨ limit ≤ value
    ∨ (!zeros ∧ digits.head? = some '0' ∧ 1 < digits.length) then none
  else some (value, s.drop digits.length)

/-- What follows a character. -/
def skip? (c : Char) : List Char → Option (List Char)
  | [] => none
  | d :: s => if d = c then some s else none

/-- Four bytes with points between them, and what follows. -/
def v4? (s : List Char) : Option (List Nat × List Char) := do
  let (a, s) ← number? 10 3 256 false s
  let (b, s) ← number? 10 3 256 false (← skip? '.' s)
  let (c, s) ← number? 10 3 256 false (← skip? '.' s)
  let (d, s) ← number? 10 3 256 false (← skip? '.' s)
  return ([a, b, c, d], s)

/-- Two groups from four bytes. -/
def groupsOfBytes : List Nat → List Nat
  | [a, b, c, d] => [256 * a + b, 256 * c + d]
  | _ => []

/-- At most some number of groups with colons between them, whether they end in four bytes, and
what follows. -/
def groups (isFirst : Bool) : (room : Nat) → List Char → List Nat × Bool × List Char
  | 0, s => ([], false, s)
  | room + 1, s =>
    let entry? := if isFirst then some s else skip? ':' s
    let bytes? := if room = 0 then none else entry?.bind v4?
    match bytes? with
    | some (bytes, rest) => (groupsOfBytes bytes, true, rest)
    | none =>
      match entry?.bind (number? 16 4 65536 true) with
      | none => ([], false, s)
      | some (group, rest) =>
        let (more, bytes, rest) := groups false room rest
        (group :: more, bytes, rest)

/-- Eight groups, and what follows. -/
def v6? (s : List Char) : Option (List Nat × List Char) := do
  let (head, bytes, rest) := groups true 8 s
  if head.length = 8 then return (head, rest)
  else if bytes then none
  else
    let rest ← skip? ':' (← skip? ':' rest)
    let (tail, _, rest) := groups true (7 - head.length) rest
    return (head ++ List.replicate (8 - head.length - tail.length) 0 ++ tail, rest)

/-- The zone after a percent sign, if there is one, and what follows. -/
def zone? (s : List Char) : Option (Nat × List Char) :=
  match s with
  | '%' :: rest => number? 10 rest.length UInt32.size true rest
  | _ => some (0, s)

/-- A port after a colon, at the end. -/
def port? (s : List Char) : Option Nat := do
  let rest ← skip? ':' s
  let (port, rest) ← number? 10 rest.length 65536 true rest
  if rest.isEmpty then return port else none

/-- A socket address of numbers. -/
def numeric? (s : List Char) : Option SocketAddress :=
  (do
    let (bytes, rest) ← v4? s
    return ⟨.v4 bytes, ← port? rest⟩)
  <|> (do
    let (groups, rest) ← v6? (← skip? '[' s)
    let (zone, rest) ← zone? rest
    return ⟨.v6 groups zone, ← port? (← skip? ']' rest)⟩)

/-- The text after the last colon. -/
def afterLastColon? (s : List Char) : Option (List Char) :=
  if s.contains ':' then some (s.reverse.takeWhile (· ≠ ':')).reverse else none

/-- A port, with an optional plus sign. -/
def isPort (s : List Char) : Bool :=
  let digits := if s.head? = some '+' then s.tail else s
  (readNat? digits).any (· < 65536)

/-- A socket address.  Names of hosts are not known. -/
def read (s : List Char) : Except AddressError SocketAddress :=
  match numeric? s with
  | some address => .ok address
  | none =>
    match afterLastColon? s with
    | none => .error .noPort
    | some port => if isPort port then .error .unknownHost else .error .badPort

/-! ## Writing -/

/-- Four bytes with points between them. -/
def bytesText (bytes : List Nat) : String := ".".intercalate (bytes.map toString)

/-- A number in hexadecimal digits. -/
def hexText (n : Nat) : String := String.ofList (Nat.toDigits 16 n)

/-- Groups with colons between them. -/
def groupsText (groups : List Nat) : String := ":".intercalate (groups.map hexText)

/-- How many zeros stand at the front. -/
def leadingZeros (groups : List Nat) : Nat := (groups.takeWhile (· = 0)).length

/-- The start and the length of the first of the longest runs of zeros. -/
def longestZeros : List Nat → Nat × Nat
  | [] => (0, 0)
  | g :: gs =>
    let here := leadingZeros (g :: gs)
    let (start, length) := longestZeros gs
    if length ≤ here then (0, here) else (start + 1, length)

/-- The text of eight groups. -/
def v6Text (groups : List Nat) : String :=
  match groups with
  | [0, 0, 0, 0, 0, 0xffff, a, b] =>
    "::ffff:" ++ bytesText [a / 256, a % 256, b / 256, b % 256]
  | _ =>
    let (start, length) := longestZeros groups
    if length ≤ 1 then groupsText groups
    else groupsText (groups.take start) ++ "::" ++ groupsText (groups.drop (start + length))

/-- The text of a socket address. -/
def text (a : SocketAddress) : String :=
  match a.host with
  | .v4 bytes => bytesText bytes ++ ":" ++ toString a.port
  | .v6 groups zone =>
    let zoneText := if zone = 0 then "" else "%" ++ toString zone
    "[" ++ v6Text groups ++ zoneText ++ "]:" ++ toString a.port

end SocketAddress

end Telemetry
