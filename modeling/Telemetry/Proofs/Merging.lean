import Telemetry.Family.Merge
import Telemetry.Proofs.Lookup

/-!
# Merged families

Merging is understood name by name.  What becomes of a name depends on the
families of that name alone (`get?_foldl_mergeInto`): the first of them, which
takes the others in.  Taking families in one after the other keeps name and kind,
appends the metrics of those of the same kind, and takes the first help there is
(`foldl_absorb`).

Merging what has been merged before is not the same as merging once, since a family of
another kind may have been left out too early.  Families of different names are only
put in order (`merge_perm`), so parts that consist of such families may be merged
first (`merge_flatMap_of_perm`).

A metric that some family shows is shown by what they are merged into just in case the
first family of that name has the same kind (`shows_merge_iff`).  So what is merged
last is shown unless its name is taken before, for another kind.
-/

namespace Telemetry.Family

/-- A family after it has taken other families in. -/
def absorbAll (family : Family) (others : List Family) : Family :=
  { family with
    help := (family :: others.filter (family.kind = ·.kind)).findSome? (·.help)
    metrics := family.metrics ++ (others.filter (family.kind = ·.kind)).flatMap (·.metrics) }

theorem absorbAll_nil (family : Family) : family.absorbAll [] = family := by
  obtain ⟨name, help, kind, metrics⟩ := family
  cases help <;> simp [absorbAll]

/-- A family that is taken in first might as well be taken in with the others. -/
theorem absorbAll_absorb (family other : Family) (others : List Family) :
    (family.absorb other).absorbAll others = family.absorbAll (other :: others) := by
  obtain ⟨name, help, kind, metrics⟩ := family
  obtain ⟨_, help', kind', metrics'⟩ := other
  unfold absorb
  split
  next same =>
    cases same
    cases help <;> simp [absorbAll, List.findSome?_cons]
  next different => simp [absorbAll, different]

theorem foldl_absorb :
    ∀ (others : List Family) (family : Family), others.foldl absorb family = family.absorbAll others
  | [], family => (absorbAll_nil family).symm
  | other :: others, family => by
      rw [List.foldl_cons, foldl_absorb others, absorbAll_absorb]

/-- What some families of one name become together with what they are merged into. -/
def absorbed : Option Family → List Family → Option Family
  | none, [] => none
  | none, family :: others => some (family.absorbAll others)
  | some family, others => some (family.absorbAll others)

theorem get?_mergeInto (merged : Dict Family) (family : Family) (name : String) :
    (mergeInto merged family).get? name =
      if name = family.name then some (((merged.get? name).map (·.absorb family)).getD family)
      else merged.get? name := by
  unfold mergeInto
  split
  next absent =>
    rw [Dict.get?_insert]
    split
    next same => rw [same, absent]; rfl
    next => rfl
  next existing found =>
    rw [Dict.get?_insert]
    split
    next same => rw [same, found]; rfl
    next => rfl

/-- What becomes of a name is made of the families of that name, in order. -/
theorem get?_foldl_mergeInto (name : String) :
    ∀ (families : List Family) (merged : Dict Family),
      (families.foldl mergeInto merged).get? name =
        absorbed (merged.get? name) (families.filter (·.name = name))
  | [], merged => by
      cases found : merged.get? name <;> simp [absorbed, found, absorbAll_nil]
  | family :: families, merged => by
      rw [List.foldl_cons, get?_foldl_mergeInto name families, get?_mergeInto]
      by_cases same : name = family.name
      · subst same
        simp only [if_true, List.filter_cons, decide_true]
        cases merged.get? family.name with
        | none => rfl
        | some existing => exact congrArg some (absorbAll_absorb existing family _)
      · have elsewhere : family.name ≠ name := fun equal => same equal.symm
        simp only [same, elsewhere, if_false, List.filter_cons, decide_false, Bool.false_eq_true]

theorem named_of_filter {families others : List Family} {name : String} {first : Family}
    (equal : families.filter (·.name = name) = first :: others) : first.name = name := by
  have there : first ∈ families.filter (·.name = name) := equal ▸ List.mem_cons_self
  simpa using (List.mem_filter.mp there).2

/-- A family of the result is the first of its name, with the others of its name taken in. -/
theorem mem_merge_iff {families : List Family} {family : Family} :
    family ∈ merge families ↔
      ∃ first others, families.filter (·.name = family.name) = first :: others ∧
        family = first.absorbAll others := by
  rw [merge, Dict.mem_values_iff]
  simp only [get?_foldl_mergeInto, Dict.get?_empty]
  constructor
  · rintro ⟨name, found⟩
    cases equal : families.filter (·.name = name) with
    | nil =>
        rw [equal] at found
        cases found
    | cons first others =>
        rw [equal] at found
        cases found
        have same : first.name = name := named_of_filter equal
        exact ⟨first, others, by rw [← equal, ← same]; rfl, rfl⟩
  · rintro ⟨first, others, equal, rfl⟩
    exact ⟨_, by rw [equal]; rfl⟩

/-- The families of the result stand under their own names. -/
theorem name_of_mem_foldl_mergeInto {families : List Family} {name : String} {family : Family}
    (there : (name, family) ∈ (families.foldl mergeInto .empty).entries) : family.name = name := by
  have found := Dict.get?_eq_some_iff.mpr there
  rw [get?_foldl_mergeInto, Dict.get?_empty] at found
  cases equal : families.filter (·.name = name) with
  | nil =>
      rw [equal] at found
      cases found
  | cons first others =>
      rw [equal] at found
      cases found
      have named : first.name = name := named_of_filter equal
      exact named

/-- The result is sorted by name. -/
theorem names_merge_ascending (families : List Family) :
    ((merge families).map (·.name)).Pairwise (· < ·) := by
  have keys : (merge families).map (·.name)
      = (families.foldl mergeInto .empty).entries.map Prod.fst := by
    rw [merge, Dict.values, List.map_map]
    refine List.map_congr_left ?_
    rintro ⟨name, family⟩ there
    exact name_of_mem_foldl_mergeInto there
  rw [keys]
  exact List.pairwise_map.mpr (families.foldl mergeInto .empty).ascending

/-- No two families of the result have one name. -/
theorem names_merge_nodup (families : List Family) : ((merge families).map (·.name)).Nodup :=
  (names_merge_ascending families).imp String.ne_of_lt

/-- A family of the result has the metrics of all families of its name and kind, in order. -/
theorem metrics_of_mem_merge {families : List Family} {family : Family}
    (there : family ∈ merge families) :
    family.metrics =
      (families.filter fun f => f.name = family.name ∧ family.kind = f.kind).flatMap
        (·.metrics) := by
  obtain ⟨first, others, equal, same⟩ := mem_merge_iff.mp there
  have kind : family.kind = first.kind := by rw [same]; rfl
  have both : (families.filter fun f => f.name = family.name ∧ family.kind = f.kind)
      = (families.filter (·.name = family.name)).filter (family.kind = ·.kind) := by
    rw [List.filter_filter]
    simp only [Bool.decide_and, Bool.and_comm]
  rw [both, equal, List.filter_cons_of_pos (by simpa using kind), kind, List.flatMap_cons, same]
  rfl

/-- Where all families have metrics of their own kind only, so has the result. -/
theorem kinds_merge {families : List Family}
    (kinds : ∀ f ∈ families, ∀ m ∈ f.metrics, m.value.kind = f.kind) :
    ∀ f ∈ merge families, ∀ m ∈ f.metrics, m.value.kind = f.kind := by
  intro f there m metric
  rw [metrics_of_mem_merge there, List.mem_flatMap] at metric
  obtain ⟨g, among, metric⟩ := metric
  rw [List.mem_filter, decide_eq_true_iff] at among
  exact (kinds g among.1 m metric).trans among.2.2.symm

/-! ## Families of different names -/

/-- Of families of different names, a name has one at most. -/
theorem pairwise_filter_name {families : List Family} (distinct : (families.map (·.name)).Nodup)
    (name : String) : (families.filter (·.name = name)).Pairwise fun _ _ => False := by
  rw [List.pairwise_filter]
  refine (List.pairwise_map.mp distinct).imp fun different left right => different ?_
  rw [of_decide_eq_true left, of_decide_eq_true right]

theorem filter_name_of_mem {families : List Family} (distinct : (families.map (·.name)).Nodup)
    {family : Family} (there : family ∈ families) :
    families.filter (·.name = family.name) = [family] := by
  have kept : family ∈ families.filter (·.name = family.name) := by simp [there]
  have one := pairwise_filter_name distinct family.name
  cases equal : families.filter (·.name = family.name) with
  | nil =>
      rw [equal] at kept
      cases kept
  | cons first others =>
      rw [equal] at kept one
      cases others with
      | nil => rw [List.mem_singleton.mp kept]
      | cons second others => exact (List.rel_of_pairwise_cons one List.mem_cons_self).elim

/-- Families of different names that stand in another order are the same, name by name. -/
theorem filter_name_of_perm {families others : List Family}
    (distinct : (families.map (·.name)).Nodup) (perm : others.Perm families) (name : String) :
    others.filter (·.name = name) = families.filter (·.name = name) := by
  have distinct' : (others.map (·.name)).Nodup := (perm.map _).nodup_iff.mpr distinct
  exact (perm.filter _).eq_of_pairwise (fun _ _ _ _ absurd => absurd.elim)
    (pairwise_filter_name distinct' name) (pairwise_filter_name distinct name)

/-- Merging only puts families of different names in order. -/
theorem merge_perm {families : List Family} (distinct : (families.map (·.name)).Nodup) :
    (merge families).Perm families := by
  refine (List.perm_ext_iff_of_nodup ((names_merge_nodup families).of_map _)
    (distinct.of_map _)).mpr fun family => ?_
  rw [mem_merge_iff]
  constructor
  · rintro ⟨first, others, equal, same⟩
    have there : first ∈ families.filter (·.name = family.name) := equal ▸ List.mem_cons_self
    have among := (List.mem_filter.mp there).1
    have one := filter_name_of_mem distinct among
    rw [named_of_filter equal, equal] at one
    rw [same, (List.cons.inj one).2, absorbAll_nil]
    exact among
  · intro there
    exact ⟨family, [], filter_name_of_mem distinct there, (absorbAll_nil family).symm⟩

/-! ## Merging parts -/

/-- What families are merged into is known by what becomes of each name. -/
theorem merge_ext {families others : List Family}
    (same : ∀ name, absorbed none (others.filter (·.name = name)) =
      absorbed none (families.filter (·.name = name))) :
    merge others = merge families := by
  have equal : others.foldl mergeInto .empty = families.foldl mergeInto .empty := by
    apply Dict.ext_get?
    intro name
    rw [get?_foldl_mergeInto, get?_foldl_mergeInto, Dict.get?_empty, same]
  rw [merge, equal, merge]

/-- What families are merged into is known by the families of each name. -/
theorem merge_congr {families others : List Family}
    (same : ∀ name, others.filter (·.name = name) = families.filter (·.name = name)) :
    merge others = merge families :=
  merge_ext fun name => congrArg (absorbed none) (same name)

/-- Parts without two families of one name may each be put in another order before all of them
are merged. -/
theorem merge_flatMap_of_perm {α : Type} {parts : List α} {f g : α → List Family}
    (distinct : ∀ a ∈ parts, ((f a).map (·.name)).Nodup) (perm : ∀ a ∈ parts, (g a).Perm (f a)) :
    merge (parts.flatMap g) = merge (parts.flatMap f) := by
  apply merge_congr
  intro name
  rw [List.filter_flatMap, List.filter_flatMap]
  exact List.flatMap_congr fun a there => filter_name_of_perm (distinct a there) (perm a there) name

/-! ## What is shown -/

/-- Whether some families show a metric under a name and a kind. -/
def Shows (families : List Family) (name : String) (kind : Kind) (m : Metric) : Prop :=
  ∃ f ∈ families, f.name = name ∧ f.kind = kind ∧ m ∈ f.metrics

instance (families : List Family) (name : String) (kind : Kind) (m : Metric) :
    Decidable (Shows families name kind m) :=
  inferInstanceAs (Decidable (∃ f ∈ families, _))

theorem find?_name_eq_some_iff {families : List Family} {name : String} {first : Family} :
    families.find? (·.name = name) = some first ↔
      ∃ others, families.filter (·.name = name) = first :: others := by
  rw [← List.head?_filter, List.head?_eq_some_iff]

/-- What is merged still shows a metric, unless the first family of its name has another kind. -/
theorem shows_merge_iff {families : List Family} {name : String} {kind : Kind} {m : Metric} :
    Shows (merge families) name kind m ↔
      (∀ first, families.find? (·.name = name) = some first → first.kind = kind) ∧
        Shows families name kind m := by
  constructor
  · rintro ⟨f, merged, rfl, rfl, there⟩
    obtain ⟨first, others, equal, same⟩ := mem_merge_iff.mp merged
    have kind : f.kind = first.kind := by rw [same]; rfl
    refine ⟨fun first' found => ?_, ?_⟩
    · obtain ⟨_, equal'⟩ := find?_name_eq_some_iff.mp found
      rw [equal] at equal'
      rw [kind, (List.cons.inj equal').1]
    · rw [metrics_of_mem_merge merged, List.mem_flatMap] at there
      obtain ⟨g, kept, there⟩ := there
      have ⟨among, alike⟩ := List.mem_filter.mp kept
      obtain ⟨named, kind⟩ := of_decide_eq_true alike
      exact ⟨g, among, named, kind.symm, there⟩
  · rintro ⟨first, g, among, rfl, rfl, there⟩
    have kept : g ∈ families.filter (·.name = g.name) := by simp [among]
    cases equal : families.filter (·.name = g.name) with
    | nil =>
        rw [equal] at kept
        cases kept
    | cons f others =>
        have named : f.name = g.name := named_of_filter equal
        have kind : f.kind = g.kind := first f (find?_name_eq_some_iff.mpr ⟨others, equal⟩)
        have merged : f.absorbAll others ∈ merge families :=
          mem_merge_iff.mpr ⟨f, others, by rw [← equal, ← named]; rfl, rfl⟩
        refine ⟨f.absorbAll others, merged, named, kind, ?_⟩
        rw [metrics_of_mem_merge merged, List.mem_flatMap]
        exact ⟨g, by simp [among, named, kind, absorbAll], there⟩

/-- What is merged last is shown unless the name is taken before, for another kind. -/
theorem shows_merge_append_iff {before after : List Family} {name : String} {kind : Kind}
    {m : Metric} (alike : ∀ f ∈ after, f.name = name → f.kind = kind)
    (shown : Shows after name kind m) :
    Shows (merge (before ++ after)) name kind m ↔
      ∀ first, before.find? (·.name = name) = some first → first.kind = kind := by
  have shown' : Shows (before ++ after) name kind m := by
    obtain ⟨f, among, facts⟩ := shown
    exact ⟨f, List.mem_append_right _ among, facts⟩
  simp only [shows_merge_iff, shown', and_true, List.find?_append]
  cases found : before.find? (·.name = name) with
  | some first => simp
  | none =>
      refine ⟨fun _ => nofun, fun _ first found => alike first (List.mem_of_find?_eq_some found) ?_⟩
      simpa using List.find?_some found

end Telemetry.Family
