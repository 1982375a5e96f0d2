import Mathlib.Data.List.Nodup
import Telemetry.Dict
import Telemetry.Table

/-!
# What is found in dictionaries and tables

A dictionary and a table are both lists of entries in which no key stands twice.
So an entry is found exactly if it is there (`lookup_eq_some_iff_mem`), and every
operation is known by what can be found after it: one lemma says so for each of
`insert`, `filter`, `map` and `erase`.  A dictionary is known by what can be found
in it at all (`Dict.ext_get?`), since its entries are in the order of their keys.
-/

namespace Telemetry

/-! ## Entries without a repeated key -/

section Entries

variable {κ ν : Type} [DecidableEq κ]

theorem lookup_cons_eq (e : κ × ν) (es : List (κ × ν)) (key : κ) :
    (e :: es).lookup key = if key = e.1 then some e.2 else es.lookup key := by
  rw [List.lookup_cons]
  by_cases same : key = e.1
  · rw [if_pos same, beq_iff_eq.mpr same]
  · rw [if_neg same, beq_eq_false_iff_ne.mpr same]

/-- In entries without a repeated key, what is found is what is there. -/
theorem lookup_eq_some_iff_mem {es : List (κ × ν)} (nodup : (es.map Prod.fst).Nodup)
    {key : κ} {value : ν} : es.lookup key = some value ↔ (key, value) ∈ es := by
  induction es with
  | nil => simp
  | cons e es ih =>
      obtain ⟨head, tail⟩ := List.nodup_cons.mp nodup
      rw [lookup_cons_eq, List.mem_cons]
      split
      next same =>
        have absent : (key, value) ∉ es := fun there =>
          head (same ▸ List.mem_map_of_mem (f := Prod.fst) there)
        constructor
        · intro equal
          cases equal
          exact Or.inl (Prod.ext same rfl)
        · rintro (there | there)
          · rw [← there]
          · exact absurd there absent
      next different =>
        rw [ih tail]
        constructor
        · exact Or.inr
        · rintro (there | there)
          · exact absurd (congrArg Prod.fst there) different
          · exact there

/-- A test that lets entries through as a whole lets what is found through. -/
theorem lookup_filter {es : List (κ × ν)} (nodup : (es.map Prod.fst).Nodup)
    (keep : κ × ν → Bool) (key : κ) :
    (es.filter keep).lookup key = (es.lookup key).filter fun value => keep (key, value) := by
  have filtered : ((es.filter keep).map Prod.fst).Nodup :=
    (List.filter_sublist.map _).nodup nodup
  ext value
  rw [lookup_eq_some_iff_mem filtered, List.mem_filter, Option.filter_eq_some_iff,
    lookup_eq_some_iff_mem nodup]

/-- Other values under the same keys. -/
theorem lookup_map {ω : Type} (f : ν → ω) (key : κ) :
    ∀ es : List (κ × ν), (es.map fun e => (e.1, f e.2)).lookup key = (es.lookup key).map f
  | [] => rfl
  | e :: es => by
      rw [List.map_cons, lookup_cons_eq, lookup_cons_eq, lookup_map f key es]
      split <;> rfl

end Entries

/-! ## Dictionaries -/

namespace Dict

variable {α β : Type}

theorem keys_nodup (d : Dict α) : (d.entries.map Prod.fst).Nodup :=
  List.pairwise_map.mpr (d.ascending.imp String.ne_of_lt)

theorem get?_eq_some_iff {d : Dict α} {key : String} {value : α} :
    d.get? key = some value ↔ (key, value) ∈ d.entries :=
  lookup_eq_some_iff_mem d.keys_nodup

theorem mem_toList_iff {d : Dict α} {entry : String × α} :
    entry ∈ d.toList ↔ d.get? entry.1 = some entry.2 :=
  get?_eq_some_iff.symm

theorem mem_keys_iff {d : Dict α} {key : String} :
    key ∈ d.keys ↔ ∃ value, d.get? key = some value := by
  simp [keys, get?_eq_some_iff]

theorem mem_values_iff {d : Dict α} {value : α} :
    value ∈ d.values ↔ ∃ key, d.get? key = some value := by
  simp only [values, List.mem_map, get?_eq_some_iff]
  constructor
  · rintro ⟨e, there, rfl⟩
    exact ⟨e.1, there⟩
  · rintro ⟨key, there⟩
    exact ⟨_, there, rfl⟩

@[simp] theorem get?_empty (key : String) : (empty : Dict α).get? key = none := rfl

theorem lookup_insertEntry (key : String) (value : α) (k : String) :
    ∀ es : List (String × α),
      (insertEntry key value es).lookup k = if k = key then some value else es.lookup k
  | [] => lookup_cons_eq _ _ _
  | e :: es => by
      unfold insertEntry
      split
      · exact lookup_cons_eq _ _ _
      · split
        next equal =>
          subst equal
          rw [lookup_cons_eq, lookup_cons_eq]
          split <;> rfl
        next different =>
          rw [lookup_cons_eq, lookup_insertEntry key value k es, lookup_cons_eq]
          by_cases same : k = e.1
          · have other : k ≠ key := fun equal => different (equal ▸ same)
            rw [if_pos same, if_neg other, if_pos same]
          · rw [if_neg same, if_neg same]

@[simp] theorem get?_insert (d : Dict α) (key : String) (value : α) (k : String) :
    (d.insert key value).get? k = if k = key then some value else d.get? k :=
  lookup_insertEntry key value k d.entries

@[simp] theorem get?_filter (d : Dict α) (keep : String → α → Bool) (key : String) :
    (d.filter keep).get? key = (d.get? key).filter (keep key) :=
  lookup_filter d.keys_nodup _ key

@[simp] theorem get?_map (f : α → β) (d : Dict α) (key : String) :
    (d.map f).get? key = (d.get? key).map f :=
  lookup_map f key d.entries

@[simp] theorem get?_erase (d : Dict α) (key k : String) :
    (d.erase key).get? k = if k = key then none else d.get? k := by
  have found : (d.erase key).get? k = (d.get? k).filter fun _ => k != key :=
    lookup_filter d.keys_nodup _ k
  rw [found]
  by_cases same : k = key <;> cases d.get? k <;> simp [same]

theorem contains_iff {d : Dict α} {key : String} :
    d.contains key = true ↔ ∃ value, d.get? key = some value :=
  Option.isSome_iff_exists

theorem get?_insertNew (d : Dict α) (key : String) (value : α) (k : String) :
    (d.insertNew key value).get? k =
      if k = key then some ((d.get? key).getD value) else d.get? k := by
  unfold insertNew contains
  by_cases same : k = key
  · subst same
    cases found : d.get? k <;> simp [found]
  · cases found : d.get? key <;> simp [same]

theorem entries_injective {d d' : Dict α} (equal : d.entries = d'.entries) : d = d' := by
  cases d
  cases d'
  cases equal
  rfl

/-- Ascending entries with the same members are the same. -/
theorem ext_entries {d d' : Dict α} (h : ∀ e, e ∈ d.entries ↔ e ∈ d'.entries) : d = d' := by
  have perm : d.entries.Perm d'.entries :=
    (List.perm_ext_iff_of_nodup (d.keys_nodup.of_map _) (d'.keys_nodup.of_map _)).mpr h
  apply entries_injective
  exact perm.eq_of_pairwise
    (fun a b _ _ before after => absurd (String.lt_trans before after) (String.lt_irrefl a.1))
    d.ascending d'.ascending

/-- A dictionary is what can be found in it. -/
theorem ext_get? {d d' : Dict α} (h : ∀ key, d.get? key = d'.get? key) : d = d' := by
  apply ext_entries
  rintro ⟨key, value⟩
  rw [← get?_eq_some_iff, ← get?_eq_some_iff, h key]

theorem erase_insert {d : Dict α} {key : String} (absent : d.get? key = none) (value : α) :
    (d.insert key value).erase key = d := by
  apply ext_get?
  intro k
  by_cases same : k = key
  · simp [same, absent]
  · simp [same]

theorem get?_foldl_insert {pairs : List (String × α)} (nodup : (pairs.map Prod.fst).Nodup)
    (d : Dict α) (key : String) :
    (pairs.foldl (fun d p => d.insert p.1 p.2) d).get? key =
      (pairs.lookup key <|> d.get? key) := by
  induction pairs generalizing d with
  | nil => simp
  | cons p pairs ih =>
      obtain ⟨new, distinct⟩ := List.nodup_cons.mp nodup
      rw [List.foldl_cons, ih distinct, get?_insert, lookup_cons_eq]
      by_cases same : key = p.1
      · have absent : pairs.lookup key = none := by
          rw [List.lookup_eq_none_iff]
          intro q there
          rw [bne_iff_ne]
          intro equal
          exact new (same ▸ equal ▸ List.mem_map_of_mem there)
        simp [same, same ▸ absent]
      · simp [same]

/-- Of pairs with different keys, each is found. -/
theorem get?_ofList_eq_some_iff {pairs : List (String × α)} (nodup : (pairs.map Prod.fst).Nodup)
    {key : String} {value : α} :
    (ofList pairs).get? key = some value ↔ (key, value) ∈ pairs := by
  rw [ofList, get?_foldl_insert nodup, get?_empty, Option.orElse_eq_orElse, Option.orElse_eq_or,
    Option.or_none, lookup_eq_some_iff_mem nodup]

/-- Pairs with different keys are the entries of a dictionary. -/
theorem toList_ofList_perm {pairs : List (String × α)}
    (distinct : (pairs.map Prod.fst).Nodup) : (ofList pairs).toList.Perm pairs := by
  refine (List.perm_ext_iff_of_nodup ((keys_nodup _).of_map _) (distinct.of_map _)).mpr ?_
  rintro ⟨key, value⟩
  exact mem_toList_iff.trans (get?_ofList_eq_some_iff distinct)

/-- A dictionary is made again of its entries. -/
theorem ofList_toList (d : Dict α) : ofList d.toList = d := by
  apply ext_get?
  intro key
  rw [ofList, toList, get?_foldl_insert d.keys_nodup, get?_empty]
  simp [get?]

theorem ofList_append_singleton (d : Dict α) (key : String) (value : α) :
    ofList (d.toList ++ [(key, value)]) = d.insert key value := by
  rw [ofList, List.foldl_append, List.foldl_cons, List.foldl_nil]
  exact congrArg (·.insert key value) (ofList_toList d)

end Dict

/-! ## Two dictionaries -/

/-- Ascending entries that are related key by key are related one by one. -/
theorem forall₂_of_lookup {α β : Type} {R : α → β → Prop} :
    ∀ {es : List (String × α)} {es' : List (String × β)}, Ascending es → Ascending es' →
      (∀ key, Option.Rel R (es.lookup key) (es'.lookup key)) →
        List.Forall₂ R (es.map Prod.snd) (es'.map Prod.snd)
  | [], [], _, _, _ => .nil
  | [], e' :: es', _, _, related => by
      have first := related e'.1
      rw [lookup_cons_eq, if_pos rfl] at first
      cases first
  | e :: es, [], _, _, related => by
      have first := related e.1
      rw [lookup_cons_eq, if_pos rfl] at first
      cases first
  | e :: es, e' :: es', up, up', related => by
      obtain ⟨least, up⟩ := List.pairwise_cons.mp up
      obtain ⟨least', up'⟩ := List.pairwise_cons.mp up'
      have none_of_least {γ : Type} {key : String} {gs : List (String × γ)}
          (before : ∀ g ∈ gs, key < g.1) : gs.lookup key = none :=
        List.lookup_eq_none_iff.mpr fun g there =>
          bne_iff_ne.mpr (String.ne_of_lt (before g there))
      have first := related e.1
      have first' := related e'.1
      simp only [lookup_cons_eq, if_true] at first first'
      have same : e.1 = e'.1 := by
        by_contra different
        rw [if_neg different] at first
        rw [if_neg (Ne.symm different)] at first'
        by_cases lt : e.1 < e'.1
        · rw [none_of_least fun g there => String.lt_trans lt (least' g there)] at first
          cases first
        · have gt : e'.1 < e.1 := Std.lt_of_le_of_ne (String.not_lt.mp lt) (Ne.symm different)
          rw [none_of_least fun g there => String.lt_trans gt (least g there)] at first'
          cases first'
      rw [if_pos same] at first
      cases first with
      | some values =>
          refine .cons values (forall₂_of_lookup up up' fun key => ?_)
          by_cases here : key = e.1
          · rw [here, none_of_least least, same, none_of_least least']
            exact .none
          · have rest := related key
            rwa [lookup_cons_eq, lookup_cons_eq, if_neg here, if_neg (same ▸ here)] at rest

theorem Dict.forall₂_values {α β : Type} {R : α → β → Prop} {d : Dict α} {d' : Dict β}
    (related : ∀ key, Option.Rel R (d.get? key) (d'.get? key)) :
    List.Forall₂ R d.values d'.values :=
  forall₂_of_lookup d.ascending d'.ascending related

/-! ## Tables -/

namespace Table

variable {κ ν : Type} [DecidableEq κ]

theorem get?_eq_some_iff {t : Table κ ν} {key : κ} {value : ν} :
    t.get? key = some value ↔ (key, value) ∈ t.entries :=
  lookup_eq_some_iff_mem t.nodup

theorem mem_values_iff {t : Table κ ν} {value : ν} :
    value ∈ t.values ↔ ∃ key, t.get? key = some value := by
  simp only [values, List.mem_map, get?_eq_some_iff]
  constructor
  · rintro ⟨e, there, rfl⟩
    exact ⟨e.1, there⟩
  · rintro ⟨key, there⟩
    exact ⟨_, there, rfl⟩

@[simp] theorem get?_empty (key : κ) : (empty : Table κ ν).get? key = none := rfl

theorem lookup_insertEntry (key : κ) (value : ν) (k : κ) :
    ∀ es : List (κ × ν),
      (insertEntry key value es).lookup k = if k = key then some value else es.lookup k
  | [] => lookup_cons_eq _ _ _
  | e :: es => by
      unfold insertEntry
      split
      next equal =>
        subst equal
        rw [lookup_cons_eq, lookup_cons_eq]
        split <;> rfl
      next different =>
        rw [lookup_cons_eq, lookup_insertEntry key value k es, lookup_cons_eq]
        by_cases same : k = e.1
        · have other : k ≠ key := fun equal => different (same.symm.trans equal)
          rw [if_pos same, if_neg other, if_pos same]
        · rw [if_neg same, if_neg same]

@[simp] theorem get?_insert (t : Table κ ν) (key : κ) (value : ν) (k : κ) :
    (t.insert key value).get? k = if k = key then some value else t.get? k :=
  lookup_insertEntry key value k t.entries

omit [DecidableEq κ] in
theorem entries_injective {t t' : Table κ ν} (equal : t.entries = t'.entries) : t = t' := by
  obtain ⟨_, _⟩ := t
  obtain ⟨_, _⟩ := t'
  cases equal
  rfl

/-- A key that is new gets an entry behind the others. -/
theorem entries_insert_of_absent {t : Table κ ν} {key : κ} (absent : t.get? key = none)
    (value : ν) : (t.insert key value).entries = t.entries ++ [(key, value)] := by
  have entries : ∀ es : List (κ × ν), es.lookup key = none →
      insertEntry key value es = es ++ [(key, value)] := by
    intro es
    induction es with
    | nil => exact fun _ => rfl
    | cons e es ih =>
        intro absent
        rw [lookup_cons_eq] at absent
        unfold insertEntry
        split at absent
        next same => cases absent
        next different =>
          rw [if_neg fun same => different same.symm, ih absent, List.cons_append]
  exact entries t.entries absent

/-- A key that is there keeps the place of its entry. -/
theorem entries_insert_of_getElem? {t : Table κ ν} {key : κ} {old : ν} {place : Nat}
    (there : t.entries[place]? = some (key, old)) (value : ν) :
    (t.insert key value).entries = t.entries.set place (key, value) := by
  have entries : ∀ (es : List (κ × ν)) (place : Nat), (es.map Prod.fst).Nodup →
      es[place]? = some (key, old) →
      insertEntry key value es = es.set place (key, value) := by
    intro es
    induction es with
    | nil => exact fun _ _ there => nomatch there
    | cons e es ih =>
        intro place nodup there
        obtain ⟨new, nodup⟩ := List.nodup_cons.mp nodup
        unfold insertEntry
        cases place with
        | zero =>
            cases there
            rw [if_pos rfl, List.set_cons_zero]
        | succ place =>
            have later : (key, old) ∈ es := List.mem_of_getElem? there
            have different : e.1 ≠ key := fun same => new (same ▸ List.mem_map_of_mem later)
            rw [if_neg different, List.set_cons_succ, ih place nodup there]
  exact entries t.entries place t.nodup there

/-- A value that is there may be inserted again. -/
theorem insert_of_get? {t : Table κ ν} {key : κ} {value : ν} (found : t.get? key = some value) :
    t.insert key value = t := by
  obtain ⟨place, there⟩ := List.getElem?_of_mem (get?_eq_some_iff.mp found)
  obtain ⟨inside, equal⟩ := List.getElem?_eq_some_iff.mp there
  apply entries_injective
  rw [entries_insert_of_getElem? there, ← equal]
  exact List.set_getElem_self inside

@[simp] theorem get?_filter (t : Table κ ν) (keep : κ × ν → Bool) (key : κ) :
    (t.filter keep).get? key = (t.get? key).filter fun value => keep (key, value) :=
  lookup_filter t.nodup keep key

end Table

end Telemetry
