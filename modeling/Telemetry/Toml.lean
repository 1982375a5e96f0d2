/-!
# TOML values

A configuration is made of texts, whole numbers, truth values, arrays and tables.
A table remembers how it came about, because that decides what may still be added
to it, and an array remembers whether it grows by headers.
-/

namespace Telemetry

/-- How a table came about. -/
inductive TableOrigin where
  /-- It was written in braces, and is complete. -/
  | inline
  /-- It has a header of its own. -/
  | header
  /-- It lies on the path of a header. -/
  | path
  /-- It lies on the path of a dotted key. -/
  | dotted
  deriving DecidableEq

/-- A value. -/
inductive Toml where
  | text (value : String)
  | integer (value : Int)
  | bool (value : Bool)
  | array (growing : Bool) (items : List Toml)
  | table (origin : TableOrigin) (entries : List (String × Toml))

/-- The entries of a table. -/
abbrev TomlEntries := List (String × Toml)

namespace Toml

/-- Puts a value in the place of another one. -/
def replace (key : String) (value : Toml) (entries : TomlEntries) : TomlEntries :=
  entries.map fun e => if e.1 = key then (key, value) else e

/-- The way into the entries of a table below others.  A table that is not there is made with an
origin, and one that is there must have an origin that lets others in.  The way into a growing
array leads into its last table. -/
def descend (make : TableOrigin) (open_ : TableOrigin → Bool) :
    List String → TableOrigin → (TableOrigin → TomlEntries → Option TomlEntries) →
      TomlEntries → Option TomlEntries
  | [], origin, f, entries => f origin entries
  | key :: path, _, f, entries =>
    match entries.lookup key with
    | none => do
      let below ← descend make open_ path make f []
      return entries ++ [(key, .table make below)]
    | some (.table origin below) =>
      if open_ origin then do
        let below ← descend make open_ path origin f below
        return replace key (.table origin below) entries
      else none
    | some (.array true items) =>
      match items.getLast? with
      | some (.table origin below) => do
        let below ← descend make open_ path origin f below
        return replace key (.array true (items.dropLast ++ [.table origin below])) entries
      | _ => none
    | some _ => none

/-- The way of a header, which leads into every table that is not complete. -/
def descendHeader : List String → (TableOrigin → TomlEntries → Option TomlEntries) →
    TomlEntries → Option TomlEntries :=
  fun path f => descend .path (· ≠ .inline) path .header f

/-- The way of a dotted key, which leads into tables without a header. -/
def descendDotted (origin : TableOrigin) (path : List String)
    (f : TableOrigin → TomlEntries → Option TomlEntries) (entries : TomlEntries) :
    Option TomlEntries :=
  descend .dotted (fun o => o = .path || o = .dotted) path origin f entries

/-- Adds a value under a key that may be dotted.  The key must be new, and the tables on its path
must all be of dotted keys where it ends. -/
def assign (origin : TableOrigin) (path : List String) (key : String) (value : Toml)
    (entries : TomlEntries) : Option TomlEntries :=
  descendDotted origin path (fun o below =>
    if (below.lookup key).isSome || (!path.isEmpty && o ≠ .dotted) then none
    else some (below ++ [(key, value)])) entries

/-- Opens the table of a header.  A table that so far only lay on the path of a header may be
opened once. -/
def openTable (path : List String) (key : String) (entries : TomlEntries) : Option TomlEntries :=
  descendHeader path (fun _ below =>
    match below.lookup key with
    | none => some (below ++ [(key, .table .header [])])
    | some (.table .path inner) => some (replace key (.table .header inner) below)
    | some _ => none) entries

/-- Adds a table to a growing array. -/
def openItem (path : List String) (key : String) (entries : TomlEntries) : Option TomlEntries :=
  descendHeader path (fun _ below =>
    match below.lookup key with
    | none => some (below ++ [(key, .array true [.table .header []])])
    | some (.array true items) =>
      some (replace key (.array true (items ++ [.table .header []])) below)
    | some _ => none) entries

end Toml

end Telemetry
