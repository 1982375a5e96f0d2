/-!
# Dictionaries

A dictionary gives values to texts.  Its entries are kept with ascending keys, so
a dictionary is determined by what `Dict.get?` finds in it, and its entries come
out sorted.  Texts are ordered by the code points of their characters.

`Dict.ofList` takes pairs in any order, and of two pairs with one key the later
one counts.
-/

namespace Telemetry

/-- Entries with ascending keys. -/
def Ascending {α : Type} (entries : List (String × α)) : Prop :=
  entries.Pairwise fun a b => a.1 < b.1

/-- A finite map from texts to values. -/
structure Dict (α : Type) where
  /-- The keys with their values. -/
  entries : List (String × α)
  /-- The keys ascend. -/
  ascending : Ascending entries := by exact List.Pairwise.nil
  deriving DecidableEq

/-- A set of labels. -/
abbrev Labels := Dict String

namespace Dict

variable {α β : Type}

/-! ## Entries -/

/-- Puts an entry at its place among ascending entries, over an entry of the same key. -/
def insertEntry (key : String) (value : α) : List (String × α) → List (String × α)
  | [] => [(key, value)]
  | e :: es =>
    if key < e.1 then (key, value) :: e :: es
    else if key = e.1 then (key, value) :: es
    else e :: insertEntry key value es

theorem mem_of_mem_insertEntry {key : String} {value : α} {x : String × α}
    {es : List (String × α)} (h : x ∈ insertEntry key value es) : x = (key, value) ∨ x ∈ es := by
  induction es with
  | nil => exact .inl (List.mem_singleton.1 h)
  | cons e es ih =>
    unfold insertEntry at h
    split at h
    · exact (List.mem_cons.1 h)
    · split at h
      · exact (List.mem_cons.1 h).imp_right (List.mem_cons_of_mem _)
      · rcases List.mem_cons.1 h with rfl | h
        · exact .inr List.mem_cons_self
        · exact (ih h).imp_right (List.mem_cons_of_mem _)

theorem ascending_insertEntry {key : String} {value : α} {es : List (String × α)}
    (h : Ascending es) : Ascending (insertEntry key value es) := by
  induction es with
  | nil => exact List.pairwise_singleton _ _
  | cons e es ih =>
    have ⟨hhead, htail⟩ := List.pairwise_cons.1 h
    unfold insertEntry
    split
    · rename_i hlt
      refine List.pairwise_cons.2 ⟨fun x hx => ?_, h⟩
      rcases List.mem_cons.1 hx with rfl | hx
      · exact hlt
      · exact String.lt_trans hlt (hhead x hx)
    · rename_i hnlt
      split
      · rename_i heq
        exact List.pairwise_cons.2 ⟨fun x hx => heq ▸ hhead x hx, htail⟩
      · rename_i hne
        have hgt : e.1 < key := Std.lt_of_le_of_ne (String.not_lt.1 hnlt) (Ne.symm hne)
        refine List.pairwise_cons.2 ⟨fun x hx => ?_, ih htail⟩
        rcases mem_of_mem_insertEntry hx with rfl | hx
        · exact hgt
        · exact hhead x hx

theorem ascending_map {f : α → β} {es : List (String × α)} (h : Ascending es) :
    Ascending (es.map fun e => (e.1, f e.2)) :=
  List.pairwise_map.2 h

/-! ## Operations -/

/-- The dictionary without entries. -/
def empty : Dict α := ⟨[], List.Pairwise.nil⟩

/-- The value of a key. -/
def get? (d : Dict α) (key : String) : Option α := d.entries.lookup key

/-- Whether a key has a value. -/
def contains (d : Dict α) (key : String) : Bool := (d.get? key).isSome

/-- Gives a value to a key, over the one it may have. -/
def insert (d : Dict α) (key : String) (value : α) : Dict α :=
  ⟨insertEntry key value d.entries, ascending_insertEntry d.ascending⟩

/-- Gives a value to a key that has none. -/
def insertNew (d : Dict α) (key : String) (value : α) : Dict α :=
  if d.contains key then d else d.insert key value

/-- Takes a key away. -/
def erase (d : Dict α) (key : String) : Dict α :=
  ⟨d.entries.filter (·.1 != key), d.ascending.filter _⟩

/-- The entries that satisfy a test of key and value. -/
def filter (d : Dict α) (keep : String → α → Bool) : Dict α :=
  ⟨d.entries.filter fun e => keep e.1 e.2, d.ascending.filter _⟩

/-- The same keys with other values. -/
def map (f : α → β) (d : Dict α) : Dict β :=
  ⟨d.entries.map fun e => (e.1, f e.2), ascending_map d.ascending⟩

/-- The dictionary of some pairs, a later pair over an earlier one of its key. -/
def ofList (pairs : List (String × α)) : Dict α :=
  pairs.foldl (fun d p => d.insert p.1 p.2) empty

/-- The entries with ascending keys. -/
def toList (d : Dict α) : List (String × α) := d.entries

/-- The keys, ascending. -/
def keys (d : Dict α) : List String := d.entries.map (·.1)

/-- The values, by ascending key. -/
def values (d : Dict α) : List α := d.entries.map (·.2)

/-- The number of entries. -/
def size (d : Dict α) : Nat := d.entries.length

end Dict

end Telemetry
