import Telemetry.Toml.Scalar

/-!
# Documents

A document is a sequence of lines.  A line in brackets opens a table, one in double
brackets adds a table to an array, and any other line gives a value to a key of the
table opened last.  Blanks, line ends and comments may stand between lines, and
within arrays and tables in braces, where a comma may follow the last item.

Values may be nested, so they are read with a number of steps that is taken from
the length of the text: every step but one takes a character away.
-/

namespace Telemetry.Toml

/-! ## Blanks and comments -/

/-- What follows blanks, line ends and comments. -/
def skip? : (inComment : Bool) → List Char → Option (List Char)
  | _, [] => some []
  | _, '\n' :: s => skip? false s
  | _, '\r' :: '\n' :: s => skip? false s
  | true, c :: s => if isForbidden c then none else skip? true s
  | false, c :: s =>
    if isSpace c then skip? false s else if c = '#' then skip? true s else some (c :: s)

/-- What follows the end of a line, before which only a comment may stand. -/
def endLine? : (inComment : Bool) → List Char → Option (List Char)
  | _, [] => some []
  | _, '\n' :: s => some s
  | _, '\r' :: '\n' :: s => some s
  | true, c :: s => if isForbidden c then none else endLine? true s
  | false, c :: s =>
    if isSpace c then endLine? false s else if c = '#' then endLine? true s else none

/-! ## Values -/

/-- A key with its equals sign. -/
def keyOf? (s : List Char) : Option (List String × String × List Char) := do
  let (path, key, rest) ← keys? s
  match rest with
  | '=' :: rest => return (path, key, rest)
  | _ => none

mutual

/-- A value. -/
def valueWithin? : Nat → List Char → Option (Toml × List Char)
  | 0, _ => none
  | steps + 1, s =>
    match s.dropWhile isSpace with
    | '[' :: rest => do
      let (items, rest) ← itemsWithin? steps rest
      return (.array false items, rest)
    | '\x7b' :: rest => do
      let (entries, rest) ← entriesWithin? steps [] rest
      return (.table .inline entries, rest)
    | t =>
      match quoted? t with
      | some (chars, rest) => some (.text (String.ofList chars), rest)
      | none => word? t

/-- The items of an array up to its end. -/
def itemsWithin? : Nat → List Char → Option (List Toml × List Char)
  | 0, _ => none
  | steps + 1, s => do
    match ← skip? false s with
    | ']' :: rest => return ([], rest)
    | t =>
      let (item, rest) ← valueWithin? steps t
      match ← skip? false rest with
      | ',' :: rest =>
        let (items, rest) ← itemsWithin? steps rest
        return (item :: items, rest)
      | ']' :: rest => return ([item], rest)
      | _ => none

/-- The entries of a table in braces up to its end. -/
def entriesWithin? : Nat → TomlEntries → List Char → Option (TomlEntries × List Char)
  | 0, _, _ => none
  | steps + 1, entries, s => do
    match ← skip? false s with
    | '\x7d' :: rest => return (entries, rest)
    | t =>
      let (path, key, rest) ← keyOf? t
      let (value, rest) ← valueWithin? steps rest
      let entries ← assign .inline path key value entries
      match ← skip? false rest with
      | ',' :: rest => entriesWithin? steps entries rest
      | '\x7d' :: rest => return (entries, rest)
      | _ => none

end

/-- A value. -/
def value? (s : List Char) : Option (Toml × List Char) := valueWithin? (2 * s.length + 2) s

/-! ## Lines -/

/-- A line of a document. -/
inductive Statement where
  /-- Opens a table. -/
  | table (path : List String) (key : String)
  /-- Adds a table to an array. -/
  | item (path : List String) (key : String)
  /-- Gives a value to a key. -/
  | assign (path : List String) (key : String) (value : Toml)

/-- What follows closing brackets. -/
def afterBrackets? (brackets : List Char) (s : List Char) : Option (List Char) :=
  if brackets.isPrefixOf s then endLine? false (s.drop brackets.length) else none

/-- The statement at the front, and what follows its line. -/
def statement? (s : List Char) : Option (Statement × List Char) :=
  match s with
  | '[' :: '[' :: rest => do
    let (path, key, rest) ← keys? rest
    return (.item path key, ← afterBrackets? [']', ']'] rest)
  | '[' :: rest => do
    let (path, key, rest) ← keys? rest
    return (.table path key, ← afterBrackets? [']'] rest)
  | _ => do
    let (path, key, rest) ← keyOf? s
    let (value, rest) ← value? rest
    return (.assign path key value, ← endLine? false rest)

/-- The statements of a text, in at most a number of steps. -/
def statementsWithin? : Nat → List Char → Option (List Statement)
  | 0, _ => none
  | steps + 1, s => do
    match ← skip? false s with
    | [] => return []
    | t =>
      let (statement, rest) ← statement? t
      return statement :: (← statementsWithin? steps rest)

/-- The statements of a text. -/
def statements? (s : List Char) : Option (List Statement) := statementsWithin? (s.length + 1) s

/-- A document while it is read: its entries, and the path of the table opened last. -/
structure Draft where
  /-- The entries. -/
  entries : TomlEntries
  /-- The path of the open table. -/
  path : List String

/-- Carries out a statement. -/
def Draft.perform? (d : Draft) : Statement → Option Draft
  | .table path key => (openTable path key d.entries).map (⟨·, path ++ [key]⟩)
  | .item path key => (openItem path key d.entries).map (⟨·, path ++ [key]⟩)
  | .assign path key value =>
    (descendHeader d.path (fun _ below => assign .header path key value below) d.entries).map
      (⟨·, d.path⟩)

/-- A text without a byte order mark at the front. -/
def dropMark : List Char → List Char
  | '\ufeff' :: s => s
  | s => s

/-- The entries of a document. -/
def read? (s : List Char) : Option TomlEntries := do
  let statements ← statements? (dropMark s)
  let draft ← statements.foldlM Draft.perform? ⟨[], []⟩
  return draft.entries

end Telemetry.Toml
