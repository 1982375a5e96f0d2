/-!
# Tables

A table gives values to keys that can only be told apart.  Its entries are kept in
the order in which their keys first came in, and no two have one key.  What can be
found in a table is said by `Table.get?`.
-/

namespace Telemetry

/-- A finite map in order of insertion. -/
structure Table (κ ν : Type) where
  /-- The keys with their values. -/
  entries : List (κ × ν)
  /-- No key stands twice. -/
  nodup : (entries.map Prod.fst).Nodup
  deriving DecidableEq

namespace Table

variable {κ ν : Type} [DecidableEq κ]

/-- Puts a value at the entry of its key, or an entry at the end if there is none. -/
def insertEntry (key : κ) (value : ν) : List (κ × ν) → List (κ × ν)
  | [] => [(key, value)]
  | e :: es => if e.1 = key then (key, value) :: es else e :: insertEntry key value es

theorem mem_keys_insertEntry {key k : κ} {value : ν} {es : List (κ × ν)} :
    k ∈ (insertEntry key value es).map Prod.fst ↔ k = key ∨ k ∈ es.map Prod.fst := by
  induction es with
  | nil => simp [insertEntry]
  | cons e es ih =>
    unfold insertEntry
    split
    · rename_i heq
      simp [heq]
    · simp only [List.map_cons, List.mem_cons, ih]
      exact or_left_comm

theorem nodup_insertEntry {key : κ} {value : ν} {es : List (κ × ν)}
    (h : (es.map Prod.fst).Nodup) : ((insertEntry key value es).map Prod.fst).Nodup := by
  induction es with
  | nil => simp [insertEntry]
  | cons e es ih =>
    have ⟨hhead, htail⟩ := List.nodup_cons.1 h
    unfold insertEntry
    split
    · rename_i heq
      rw [List.map_cons, List.nodup_cons]
      exact ⟨heq ▸ hhead, htail⟩
    · rename_i hne
      rw [List.map_cons, List.nodup_cons, mem_keys_insertEntry]
      exact ⟨fun hor => hor.elim hne hhead, ih htail⟩

/-- The table without entries. -/
def empty : Table κ ν := ⟨[], List.nodup_nil⟩

/-- The value of a key. -/
def get? (t : Table κ ν) (key : κ) : Option ν := t.entries.lookup key

/-- Gives a value to a key, over the one it may have. -/
def insert (t : Table κ ν) (key : κ) (value : ν) : Table κ ν :=
  ⟨insertEntry key value t.entries, nodup_insertEntry t.nodup⟩

/-- The entries that satisfy a test. -/
def filter (t : Table κ ν) (keep : κ × ν → Bool) : Table κ ν :=
  ⟨t.entries.filter keep, (List.filter_sublist.map _).nodup t.nodup⟩

/-- Takes a key away. -/
def erase (t : Table κ ν) (key : κ) : Table κ ν := t.filter fun e => e.1 ≠ key

/-- The values, in order of insertion. -/
def values (t : Table κ ν) : List ν := t.entries.map Prod.snd

/-- The number of entries. -/
def size (t : Table κ ν) : Nat := t.entries.length

end Table

end Telemetry
