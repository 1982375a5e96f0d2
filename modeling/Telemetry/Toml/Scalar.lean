import Telemetry.Toml
import Telemetry.Double.Decimal
import Telemetry.Text.Blank
import Telemetry.Text.Hex

/-!
# Texts, numbers and keys

The four forms of a quoted text, whole numbers and truth values, and the keys that
name them.  Each reader returns what it has read and what follows it.

A control character other than the tab may not stand in a text, save that the long
forms hold line ends.  A long text drops a line end right after its opening quotes,
and may end in up to two quotes of its own.
-/

namespace Telemetry.Toml

open Text (hexValue?)

/-- A character that may not stand as it is. -/
def isForbidden (c : Char) : Bool := (c < ' ' && c ≠ '\t') || c = '\x7f'

/-- A space or a tab. -/
def isSpace (c : Char) : Bool := c = ' ' || c = '\t'

/-- The character of some hexadecimal digits, unless it is half of one. -/
def charOfHex? (digits : List Char) : Option Char := do
  let values ← digits.mapM hexValue?
  let code := values.foldl (fun n d => 16 * n + d) 0
  if code.isValidChar then return Char.ofNat code else none

/-- The character of an escape with one letter. -/
def escape? : Char → Option Char
  | 'b' => some '\x08'
  | 't' => some '\t'
  | 'n' => some '\n'
  | 'f' => some '\x0c'
  | 'r' => some '\r'
  | 'e' => some '\x1b'
  | '"' => some '"'
  | '\\' => some '\\'
  | _ => none

/-- Puts a character in front of a text that has been read. -/
def push (c : Char) (read : Option (List Char × List Char)) : Option (List Char × List Char) :=
  read.map fun (chars, rest) => (c :: chars, rest)

/-- A text up to its double quote. -/
def basic? : List Char → Option (List Char × List Char)
  | [] => none
  | '"' :: s => some ([], s)
  | '\\' :: 'x' :: a :: b :: s => do push (← charOfHex? [a, b]) (basic? s)
  | '\\' :: 'u' :: a :: b :: c :: d :: s => do push (← charOfHex? [a, b, c, d]) (basic? s)
  | '\\' :: 'U' :: a :: b :: c :: d :: e :: f :: g :: h :: s => do
    push (← charOfHex? [a, b, c, d, e, f, g, h]) (basic? s)
  | '\\' :: e :: s => do push (← escape? e) (basic? s)
  | c :: s => if isForbidden c || c = '\\' then none else push c (basic? s)

/-- A text up to its single quote. -/
def literal? : List Char → Option (List Char × List Char)
  | [] => none
  | '\'' :: s => some ([], s)
  | c :: s => if isForbidden c then none else push c (literal? s)

/-- Where a reader is in a long text. -/
inductive LongState where
  /-- In the text. -/
  | text
  /-- After a backslash and spaces, before the line end they need. -/
  | beforeLineEnd
  /-- After that line end, where spaces and line ends are dropped. -/
  | afterLineEnd
  deriving DecidableEq

/-- A long text up to its three double quotes. -/
def longBasic? : LongState → List Char → Option (List Char × List Char)
  | _, [] => none
  | .beforeLineEnd, '\n' :: s => longBasic? .afterLineEnd s
  | .beforeLineEnd, '\r' :: '\n' :: s => longBasic? .afterLineEnd s
  | .beforeLineEnd, c :: s => if isSpace c then longBasic? .beforeLineEnd s else none
  | .afterLineEnd, '\n' :: s => longBasic? .afterLineEnd s
  | .afterLineEnd, '\r' :: '\n' :: s => longBasic? .afterLineEnd s
  | .afterLineEnd, ' ' :: s => longBasic? .afterLineEnd s
  | .afterLineEnd, '\t' :: s => longBasic? .afterLineEnd s
  | _, '"' :: '"' :: '"' :: '"' :: '"' :: s => some (['"', '"'], s)
  | _, '"' :: '"' :: '"' :: '"' :: s => some (['"'], s)
  | _, '"' :: '"' :: '"' :: s => some ([], s)
  | _, '\n' :: s => push '\n' (longBasic? .text s)
  | _, '\r' :: '\n' :: s => push '\r' (push '\n' (longBasic? .text s))
  | _, '\\' :: '\n' :: s => longBasic? .afterLineEnd s
  | _, '\\' :: '\r' :: '\n' :: s => longBasic? .afterLineEnd s
  | _, '\\' :: ' ' :: s => longBasic? .beforeLineEnd s
  | _, '\\' :: '\t' :: s => longBasic? .beforeLineEnd s
  | _, '\\' :: 'x' :: a :: b :: s => do push (← charOfHex? [a, b]) (longBasic? .text s)
  | _, '\\' :: 'u' :: a :: b :: c :: d :: s => do
    push (← charOfHex? [a, b, c, d]) (longBasic? .text s)
  | _, '\\' :: 'U' :: a :: b :: c :: d :: e :: f :: g :: h :: s => do
    push (← charOfHex? [a, b, c, d, e, f, g, h]) (longBasic? .text s)
  | _, '\\' :: e :: s => do push (← escape? e) (longBasic? .text s)
  | _, c :: s => if isForbidden c || c = '\\' then none else push c (longBasic? .text s)

/-- A long text up to its three single quotes. -/
def longLiteral? : List Char → Option (List Char × List Char)
  | [] => none
  | '\'' :: '\'' :: '\'' :: '\'' :: '\'' :: s => some (['\'', '\''], s)
  | '\'' :: '\'' :: '\'' :: '\'' :: s => some (['\''], s)
  | '\'' :: '\'' :: '\'' :: s => some ([], s)
  | '\n' :: s => push '\n' (longLiteral? s)
  | '\r' :: '\n' :: s => push '\r' (push '\n' (longLiteral? s))
  | c :: s => if isForbidden c then none else push c (longLiteral? s)

/-- What follows a line end at the front, if there is one. -/
def dropLineEnd : List Char → List Char
  | '\n' :: s => s
  | '\r' :: '\n' :: s => s
  | s => s

/-- A quoted text of any form. -/
def quoted? : List Char → Option (List Char × List Char)
  | '"' :: '"' :: '"' :: s => longBasic? .text (dropLineEnd s)
  | '\'' :: '\'' :: '\'' :: s => longLiteral? (dropLineEnd s)
  | '"' :: s => basic? s
  | '\'' :: s => literal? s
  | _ => none

/-! ## Numbers and truth values -/

/-- Digits of a base with single underscores between them, as a number. -/
def digits? (value? : Char → Option Nat) (base : Nat) (s : List Char) : Option Nat :=
  let groups := Telemetry.Text.splitAt (· = '_') s
  if groups.any (·.isEmpty) then none
  else (groups.flatten.mapM value?).map fun ds => ds.foldl (fun n d => base * n + d) 0

/-- The value of a digit of a small base. -/
def digitBelow? (base : Nat) (c : Char) : Option Nat :=
  (hexValue? c).bind fun d => if d < base then some d else none

/-- A decimal number, which starts with zero only if it is zero. -/
def decimal? (s : List Char) : Option Nat :=
  if s.length > 1 ∧ s.head? = some '0' then none else digits? (digitBelow? 10) 10 s

/-- A whole number. -/
def integer? (s : List Char) : Option Int :=
  match s with
  | '0' :: 'x' :: ds => (digits? hexValue? 16 ds).map Int.ofNat
  | '0' :: 'o' :: ds => (digits? (digitBelow? 8) 8 ds).map Int.ofNat
  | '0' :: 'b' :: ds => (digits? (digitBelow? 2) 2 ds).map Int.ofNat
  | '-' :: ds => (decimal? ds).map fun n => -(n : Int)
  | '+' :: ds => (decimal? ds).map Int.ofNat
  | ds => (decimal? ds).map Int.ofNat

/-- A character of a word that is no text. -/
def isWordChar (c : Char) : Bool :=
  c.isAlphanum || c = '_' || c = '-' || c = '+' || c = '.' || c = ':'

/-- A truth value or a whole number. -/
def word? (s : List Char) : Option (Toml × List Char) :=
  let word := s.takeWhile isWordChar
  let rest := s.dropWhile isWordChar
  if word = "true".toList then some (.bool true, rest)
  else if word = "false".toList then some (.bool false, rest)
  else (integer? word).map fun n => (.integer n, rest)

/-! ## Keys -/

/-- A character of a key without quotes. -/
def isKeyChar (c : Char) : Bool := c.isAlphanum || c = '_' || c = '-'

/-- One key. -/
def key? (s : List Char) : Option (String × List Char) :=
  match s with
  | '"' :: t => (basic? t).map fun (key, rest) => (String.ofList key, rest)
  | '\'' :: t => (literal? t).map fun (key, rest) => (String.ofList key, rest)
  | _ =>
    let key := s.takeWhile isKeyChar
    if key.isEmpty then none else some (String.ofList key, s.dropWhile isKeyChar)

/-- Keys with points between them, the last one apart, in at most a number of steps. -/
def keysWithin? : Nat → List Char → Option (List String × String × List Char)
  | 0, _ => none
  | steps + 1, s => do
    let (key, rest) ← key? (s.dropWhile isSpace)
    match rest.dropWhile isSpace with
    | '.' :: rest =>
      let (path, last, rest) ← keysWithin? steps rest
      return (key :: path, last, rest)
    | rest => return ([], key, rest)

/-- Keys with points between them, the last one apart. -/
def keys? (s : List Char) : Option (List String × String × List Char) :=
  keysWithin? s.length s

end Telemetry.Toml
