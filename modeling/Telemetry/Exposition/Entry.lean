import Telemetry.Family
import Telemetry.Text.Blank
import Telemetry.Text.Word

/-!
# Entries

An *entry* is what a line of an exposition tells the reader: the help of a name,
the kind of a name, or a sample with its labels and its number still as text.  A
line that tells nothing is passed over.

    # HELP name text
    # TYPE name kind
    name{labels} number

The parts are separated by blanks, and names are made of word characters.  Labels
stand directly after the name, end at the first closing brace and are not empty.
They are cut at commas and then at equals signs, and a piece that does not give
two parts, the first of them not empty, is dropped.  The quotes at the ends of a
value are taken off, and nothing else is changed in it.
-/

namespace Telemetry

open Text (isBlank isWord trim trimStart)

/-- What a line of an exposition tells. -/
inductive Entry where
  /-- The help of a name. -/
  | help (name text : String)
  /-- The kind of a name. -/
  | type (name : String) (kind : Kind)
  /-- A sample, with the text of its labels if it has any and the text of its number. -/
  | sample (name : String) (labels : Option (List Char)) (number : List Char)

namespace Entry

/-- What follows some blanks, at least one. -/
def afterBlanks? (s : List Char) : Option (List Char) :=
  if s.head?.any isBlank then some (trimStart s) else none

/-- The longest run of characters of a class, at least one, and what follows it. -/
def run? (allowed : Char → Bool) (s : List Char) : Option (String × List Char) :=
  let run := s.takeWhile allowed
  if run.isEmpty then none else some (String.ofList run, s.dropWhile allowed)

/-- What follows a mark, a keyword and the blanks around it. -/
def afterKeyword? (keyword : String) (s : List Char) : Option (List Char) :=
  match s with
  | '#' :: rest => do
    let rest ← afterBlanks? rest
    if keyword.toList.isPrefixOf rest then afterBlanks? (rest.drop keyword.length) else none
  | _ => none

/-- A name, and what follows the blanks after it. -/
def nameThen? (s : List Char) : Option (String × List Char) := do
  let (name, rest) ← run? isWord s
  let rest ← afterBlanks? rest
  return (name, rest)

/-- The kind that a word stands for.  A word that stands for none means that nothing is known. -/
def kindOfWord (word : String) : Kind :=
  ([.counter, .gauge, .histogram, .summary].find? fun k => k.word = word).getD .untyped

/-- The help of a name. -/
def help? (line : List Char) : Option Entry := do
  let (name, text) ← nameThen? (← afterKeyword? "HELP" line)
  if text.isEmpty then none else return .help name (String.ofList text)

/-- The kind of a name. -/
def type? (line : List Char) : Option Entry := do
  let (name, rest) ← nameThen? (← afterKeyword? "TYPE" line)
  let (word, _) ← run? isWord rest
  return .type name (kindOfWord word)

/-- The text between braces, and what follows them. -/
def braces? (s : List Char) : Option (List Char × List Char) :=
  match s with
  | '{' :: rest =>
    let inner := rest.takeWhile (· ≠ '}')
    let tail := rest.dropWhile (· ≠ '}')
    if inner.isEmpty || tail.isEmpty then none else some (inner, tail.tail)
  | _ => none

/-- A sample. -/
def sample? (line : List Char) : Option Entry := do
  let (name, rest) ← run? isWord line
  let (labels, rest) := match braces? rest with
    | some (labels, rest) => (some labels, rest)
    | none => (none, rest)
  let (number, _) ← run? (!isBlank ·) (← afterBlanks? rest)
  return .sample name labels number.toList

/-- What a line tells, if anything. -/
def ofLine? (line : List Char) : Option Entry :=
  let line := trim line
  help? line <|> type? line <|> sample? line

/-! ## Labels -/

/-- A text without the quotes at its ends. -/
def unquote (s : List Char) : List Char :=
  ((s.dropWhile (· = '"')).reverse.dropWhile (· = '"')).reverse

/-- The label that a piece between commas gives, if it gives one. -/
def label? (piece : List Char) : Option (String × String) :=
  match Text.splitAt (· = '=') piece with
  | [key, value] =>
    if key.isEmpty then none else some (String.ofList key, String.ofList (unquote value))
  | _ => none

/-- The labels that a text between braces gives. -/
def labels (text : List Char) : Labels :=
  Dict.ofList ((Text.splitAt (· = ',') text).filterMap label?)

end Entry

end Telemetry
