import Telemetry.Double.Decimal
import Telemetry.Text.Blank

/-!
# Durations

A duration is written as amounts with units, such as `2h 37min` or `4.2s`, and is
read into whole nanoseconds.  An amount is made of digits, among which blanks may
stand, and may have a fraction.  Its unit is a run of letters, and is followed by a
blank, by the next amount or by the end.  A bare `0` needs no unit.

The reading goes through the characters once and keeps an offset in bytes, which
errors tell.  Amounts and fractions must fit in 64 bits on the way, an amount with a
fraction must come out in whole nanoseconds, or in whole seconds from the hour on,
and the seconds of the sum must fit in 64 bits.
-/

namespace Telemetry

/-- Why a text is no duration. -/
inductive DurationError where
  /-- There is nothing but blanks. -/
  | empty
  /-- An amount should start at this offset. -/
  | expectedNumber (offset : Nat)
  /-- There is something else than a digit or a letter at this offset. -/
  | invalidCharacter (offset : Nat)
  /-- The amount has no unit. -/
  | missingUnit (amount : Nat)
  /-- There is no such unit. -/
  | unknownUnit (unit : String)
  /-- A number does not fit, or is not whole. -/
  | overflow
  deriving DecidableEq

/-- The error in words. -/
def DurationError.message : DurationError → String
  | .empty => "value was empty"
  | .expectedNumber offset => "expected number at " ++ toString offset
  | .invalidCharacter offset => "invalid character at " ++ toString offset
  | .missingUnit amount =>
    "time unit needed, for example " ++ toString amount ++ "sec or " ++ toString amount ++ "ms"
  | .unknownUnit unit =>
    "unknown time unit \"" ++ unit ++ "\", supported units: ns, us/µs, ms, sec, min, hours, days, "
      ++ "weeks, months, years (and few variations)"
  | .overflow =>
    "number is too large or cannot be represented without a lack of precision "
      ++ "(values below 1ns are not supported)"

/-! ## Units -/

/-- A unit of time. -/
inductive TimeUnit where
  | nanosecond
  | microsecond
  | millisecond
  | second
  | minute
  | hour
  | day
  | week
  | month
  | year
  deriving DecidableEq

namespace TimeUnit

/-- The words for each unit. -/
def words : List (TimeUnit × List String) := [
  (nanosecond, ["nanos", "nsec", "ns"]),
  (microsecond, ["usec", "us", "µs"]),
  (millisecond, ["millis", "msec", "ms"]),
  (second, ["seconds", "second", "secs", "sec", "s"]),
  (minute, ["minutes", "minute", "min", "mins", "m"]),
  (hour, ["hours", "hour", "hrs", "hr", "h"]),
  (day, ["days", "day", "d"]),
  (week, ["weeks", "week", "wks", "wk", "w"]),
  (month, ["months", "month", "M"]),
  (year, ["years", "year", "yrs", "yr", "y"])]

/-- The unit of a word. -/
def ofWord? (word : String) : Option TimeUnit :=
  (words.find? fun u => u.2.contains word).map (·.1)

/-- The nanoseconds in a second. -/
def perSecond : Nat := 1000000000

/-- The nanoseconds in a unit. -/
def nanoseconds : TimeUnit → Nat
  | nanosecond => 1
  | microsecond => 1000
  | millisecond => 1000000
  | second => perSecond
  | minute => 60 * perSecond
  | hour => 3600 * perSecond
  | day => 86400 * perSecond
  | week => 604800 * perSecond
  | month => 2630016 * perSecond
  | year => 31557600 * perSecond

/-- What an amount of the unit is counted in: seconds for the larger units, else nanoseconds. -/
def grain : TimeUnit → Nat
  | nanosecond | microsecond | millisecond => 1
  | _ => perSecond

/-- What a fraction of the unit is counted in: seconds from the hour on, else nanoseconds. -/
def fractionGrain : TimeUnit → Nat
  | nanosecond | microsecond | millisecond | second | minute => 1
  | _ => perSecond

end TimeUnit

/-! ## Amounts -/

/-- A number that fits in 64 bits. -/
def fit (n : Nat) : Except DurationError Nat := if n < UInt64.size then .ok n else .error .overflow

/-- The digits after a point, as a number and the power of ten below it. -/
structure Fraction where
  /-- The number. -/
  numerator : Nat
  /-- The power of ten. -/
  denominator : Nat
  deriving DecidableEq

/-- A fraction with one more digit. -/
def Fraction.push (f : Fraction) (digit : Nat) : Except DurationError Fraction := do
  let denominator ← fit (f.denominator * 10)
  let numerator ← fit (f.numerator * 10 + digit)
  return ⟨numerator, denominator⟩

/-- The nanoseconds of a fraction of a unit. -/
def Fraction.nanoseconds (f : Fraction) (unit : TimeUnit) : Except DurationError Nat :=
  if unit = .nanosecond then .error .overflow
  else do
    let scaled ← fit (f.numerator * (unit.nanoseconds / unit.fractionGrain))
    if scaled % f.denominator = 0 then return scaled / f.denominator * unit.fractionGrain
    else .error .overflow

/-- A sum of nanoseconds with some more. -/
def addNanoseconds (sum more : Nat) : Except DurationError Nat :=
  let next := sum + more
  if next / TimeUnit.perSecond < UInt64.size then .ok next else .error .overflow

/-- A sum with an amount of a unit added. -/
def addAmount (sum amount : Nat) (fraction : Option Fraction) (word : List Char) :
    Except DurationError Nat :=
  if word.isEmpty then .error (.missingUnit amount)
  else
    match TimeUnit.ofWord? (String.ofList word) with
    | none => .error (.unknownUnit (String.ofList word))
    | some unit => do
      let counted ← fit (amount * (unit.nanoseconds / unit.grain))
      if unit.grain = 1 then discard <| fit (sum % TimeUnit.perSecond + counted)
      let sum ← addNanoseconds sum (counted * unit.grain)
      match fraction with
      | none => return sum
      | some f =>
        let more ← f.nanoseconds unit
        addNanoseconds sum more

/-! ## Reading -/

/-- Where a reading is. -/
inductive DurationState where
  /-- Before an amount, from an offset on. -/
  | before (isFirst : Bool) (offset : Nat)
  /-- In the digits of an amount. -/
  | whole (amount : Nat)
  /-- In the digits after a point, the last of which ends at an offset. -/
  | fraction (amount : Nat) (fraction : Fraction) (offset : Nat)
  /-- In a unit, with its letters in reverse. -/
  | unit (amount : Nat) (fraction : Option Fraction) (letters : List Char)

/-- A letter of a unit. -/
def isUnitChar (c : Char) : Bool := c.isAlpha || c = 'µ'

namespace DurationState

/-- Takes a character at an offset. -/
def step (state : DurationState) (sum : Nat) (c : Char) (offset : Nat) :
    Except DurationError (DurationState × Nat) :=
  let next := offset + c.utf8Size
  match state with
  | before isFirst entered =>
    if isDigit c then .ok (whole (digitValue c), sum)
    else if Text.isBlank c then .ok (before isFirst entered, sum)
    else .error (.expectedNumber entered)
  | whole n =>
    if isDigit c then do return (whole (← fit (n * 10 + digitValue c)), sum)
    else if Text.isBlank c then .ok (whole n, sum)
    else if isUnitChar c then .ok (unit n none [c], sum)
    else if c = '.' then .ok (fraction n ⟨0, 1⟩ offset, sum)
    else .error (.invalidCharacter offset)
  | fraction n f last =>
    if isDigit c then do return (fraction n (← f.push (digitValue c)) next, sum)
    else if Text.isBlank c then .ok (fraction n f next, sum)
    else if isUnitChar c ∧ f.denominator ≠ 1 then .ok (unit n (some f) [c], sum)
    else .error (.invalidCharacter last)
  | unit n f letters =>
    if isDigit c then do return (whole (digitValue c), ← addAmount sum n f letters.reverse)
    else if Text.isBlank c then do return (before false next, ← addAmount sum n f letters.reverse)
    else if isUnitChar c then .ok (unit n f (c :: letters), sum)
    else .error (.invalidCharacter offset)

/-- What has been read when the text ends. -/
def finish (state : DurationState) (sum : Nat) : Except DurationError Nat :=
  match state with
  | before isFirst _ => if isFirst then .error .empty else .ok sum
  | whole n => addAmount sum n none []
  | fraction n f last =>
    if f.denominator = 1 then .error (.invalidCharacter last) else addAmount sum n (some f) []
  | unit n f letters => addAmount sum n f letters.reverse

/-- Reads a text from a state on. -/
def run (state : DurationState) (sum : Nat) : (offset : Nat) → List Char → Except DurationError Nat
  | _, [] => finish state sum
  | offset, c :: s => do
    let (state, sum) ← step state sum c offset
    run state sum (offset + c.utf8Size) s

end DurationState

/-- The nanoseconds of a duration. -/
def readDuration (s : List Char) : Except DurationError Nat :=
  if s = ['0'] then .ok 0 else DurationState.run (.before true 0) 0 0 s

end Telemetry
