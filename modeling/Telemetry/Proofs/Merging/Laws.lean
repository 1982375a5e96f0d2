import Telemetry.Proofs.Merging

/-!
# Laws of merging

Merging tells what becomes of each name: `absorbed` takes the families of a name in, and
taking in some and then others is taking in all of them (`absorbed_append`).  So what has
been merged may stand for what it was merged of, as long as it comes first.

Behind other families it may not.  A family of a second kind has then been left out for
the sake of the first one of its name, although there may be an earlier family of just that
kind, into which it ought to go.  This cannot happen where the families of each name have
one kind, for then all of them go in, or none (`absorbed_toList_absorbed`).
-/

namespace Telemetry.Family

/-! ## Taking in by parts -/

/-- Families that are taken in one list after the other are taken in at once. -/
theorem absorbAll_append (family : Family) (others more : List Family) :
    (family.absorbAll others).absorbAll more = family.absorbAll (others ++ more) := by
  rw [← foldl_absorb, ← foldl_absorb, ← foldl_absorb, List.foldl_append]

theorem absorbed_append (first : Option Family) (others more : List Family) :
    absorbed (absorbed first others) more = absorbed first (others ++ more) := by
  cases first with
  | some family => exact congrArg some (absorbAll_append family others more)
  | none =>
      cases others with
      | nil => rfl
      | cons family others => exact congrArg some (absorbAll_append family others more)

/-- What comes first might as well be there before. -/
theorem absorbed_toList_append (first : Option Family) (others : List Family) :
    absorbed none (first.toList ++ others) = absorbed first others := by
  cases first with
  | none => rfl
  | some family => rfl

/-- Only the help and the metrics of what is taken in matter. -/
theorem absorbAll_congr {family : Family} {others others' : List Family}
    (help : (others.filter (family.kind = ·.kind)).findSome? (·.help) =
      (others'.filter (family.kind = ·.kind)).findSome? (·.help))
    (metrics : (others.filter (family.kind = ·.kind)).flatMap (·.metrics) =
      (others'.filter (family.kind = ·.kind)).flatMap (·.metrics)) :
    family.absorbAll others = family.absorbAll others' := by
  rw [absorbAll, absorbAll, List.findSome?_cons, List.findSome?_cons, help, metrics]

/-- Families of one kind may be put together before they are taken in. -/
theorem absorbAll_singleton_absorbAll {family first : Family} {others : List Family}
    (alike : ∀ other ∈ others, other.kind = first.kind) :
    family.absorbAll [first.absorbAll others] = family.absorbAll (first :: others) := by
  have whole : others.filter (first.kind = ·.kind) = others :=
    List.filter_eq_self.mpr fun other there => decide_eq_true (alike other there).symm
  by_cases same : family.kind = first.kind
  · -- All of them go in.
    have taken : (first :: others).filter (family.kind = ·.kind) = first :: others := by
      rw [same, List.filter_cons_of_pos (by simp), whole]
    have one : [first.absorbAll others].filter (family.kind = ·.kind) =
        [first.absorbAll others] := List.filter_cons_of_pos (decide_eq_true same)
    apply absorbAll_congr
    · rw [taken, one, List.findSome?_singleton, absorbAll, whole]
    · rw [taken, one, List.flatMap_singleton, absorbAll, whole, List.flatMap_cons]
  · -- None of them does.
    have left : (first :: others).filter (family.kind = ·.kind) = [] := by
      refine List.filter_eq_nil_iff.mpr fun other there equal => same ?_
      rcases List.mem_cons.mp there with rfl | there
      · exact of_decide_eq_true equal
      · exact (of_decide_eq_true equal).trans (alike other there)
    have nothing : [first.absorbAll others].filter (family.kind = ·.kind) = [] :=
      List.filter_cons_of_neg fun equal => same (of_decide_eq_true equal)
    apply absorbAll_congr <;> rw [left, nothing]

theorem absorbed_toList_absorbed {families : List Family}
    (alike : ∀ f ∈ families, ∀ g ∈ families, f.kind = g.kind) (before : Option Family) :
    absorbed before (absorbed none families).toList = absorbed before families := by
  cases families with
  | nil => rfl
  | cons first others =>
      cases before with
      | none => exact congrArg some (absorbAll_nil _)
      | some family =>
          exact congrArg some (absorbAll_singleton_absorbAll fun other there =>
            alike other (List.mem_cons_of_mem _ there) first List.mem_cons_self)

/-! ## Merging by parts -/

/-- Of the result, a name has what has become of its families. -/
theorem filter_name_merge (families : List Family) (name : String) :
    (merge families).filter (·.name = name) =
      (absorbed none (families.filter (·.name = name))).toList := by
  cases equal : families.filter (·.name = name) with
  | nil =>
      refine List.filter_eq_nil_iff.mpr fun family there named => ?_
      obtain ⟨first, others, equal', -⟩ := mem_merge_iff.mp there
      rw [of_decide_eq_true named, equal] at equal'
      cases equal'
  | cons first others =>
      have named : first.name = name := named_of_filter equal
      have there : first.absorbAll others ∈ merge families :=
        mem_merge_iff.mpr ⟨first, others, by rw [← equal, ← named]; rfl, rfl⟩
      have one := filter_name_of_mem (names_merge_nodup families) there
      rw [← named]
      exact one

/-- What has been merged may come first. -/
theorem merge_merge_append (families others : List Family) :
    merge (merge families ++ others) = merge (families ++ others) := by
  apply merge_ext
  intro name
  rw [List.filter_append, List.filter_append, filter_name_merge, absorbed_toList_append,
    absorbed_append]

/-- Whether families of one name have one kind. -/
def Alike (families : List Family) : Prop :=
  ∀ f ∈ families, ∀ g ∈ families, f.name = g.name → f.kind = g.kind

instance (families : List Family) : Decidable (Alike families) :=
  inferInstanceAs (Decidable (∀ f ∈ families, ∀ g ∈ families, _ → _))

/-- What has been merged may come last if the families of each name had one kind. -/
theorem merge_append_merge {others : List Family} (alike : Alike others)
    (families : List Family) :
    merge (families ++ merge others) = merge (families ++ others) := by
  apply merge_ext
  intro name
  have one : ∀ f ∈ others.filter (·.name = name), ∀ g ∈ others.filter (·.name = name),
      f.kind = g.kind := by
    intro f kept g kept'
    obtain ⟨there, named⟩ := List.mem_filter.mp kept
    obtain ⟨there', named'⟩ := List.mem_filter.mp kept'
    exact alike f there g there' ((of_decide_eq_true named).trans (of_decide_eq_true named').symm)
  rw [List.filter_append, List.filter_append, filter_name_merge, ← absorbed_append,
    absorbed_toList_absorbed one, absorbed_append]

/-- A name is there before merging just in case it is there after. -/
theorem mem_names_merge_iff {families : List Family} {name : String} :
    name ∈ (merge families).map (·.name) ↔ name ∈ families.map (·.name) := by
  constructor
  · intro there
    obtain ⟨family, among, rfl⟩ := List.mem_map.mp there
    obtain ⟨first, others, equal, -⟩ := mem_merge_iff.mp among
    have kept : first ∈ families.filter (·.name = family.name) := equal ▸ List.mem_cons_self
    exact List.mem_map.mpr ⟨first, (List.mem_filter.mp kept).1, named_of_filter equal⟩
  · intro there
    obtain ⟨family, among, rfl⟩ := List.mem_map.mp there
    have kept : family ∈ families.filter (·.name = family.name) := by simp [among]
    cases equal : families.filter (·.name = family.name) with
    | nil =>
        rw [equal] at kept
        cases kept
    | cons first others =>
        have named : first.name = family.name := named_of_filter equal
        have there : first.absorbAll others ∈ merge families :=
          mem_merge_iff.mpr ⟨first, others, by rw [← equal, ← named]; rfl, rfl⟩
        exact List.mem_map.mpr ⟨_, there, named⟩

/-! ## Nothing left out -/

/-- What is sorted into all the names that it has is only put in another order. -/
theorem flatMap_filter_perm {α : Type} (name : α → String) {names : List String}
    (distinct : names.Nodup) {xs : List α} (known : ∀ x ∈ xs, name x ∈ names) :
    (names.flatMap fun n => xs.filter (name · = n)).Perm xs := by
  induction names generalizing xs with
  | nil =>
      cases xs with
      | nil => exact .refl _
      | cons x xs => exact nomatch known x List.mem_cons_self
  | cons n names ih =>
      obtain ⟨new, distinct⟩ := List.nodup_cons.mp distinct
      have others : (names.flatMap fun m => xs.filter (name · = m)) =
          names.flatMap fun m => (xs.filter fun x => !decide (name x = n)).filter (name · = m) := by
        refine List.flatMap_congr fun m there => ?_
        rw [List.filter_filter]
        refine List.filter_congr fun x _ => ?_
        by_cases same : name x = m
        · have other : name x ≠ n := fun equal => new (equal ▸ same ▸ there)
          simp [same, same ▸ other]
        · simp [same]
      have elsewhere : ∀ x ∈ xs.filter fun x => !decide (name x = n), name x ∈ names := by
        intro x there
        obtain ⟨among, other⟩ := List.mem_filter.mp there
        exact List.mem_of_ne_of_mem (by simpa using other) (known x among)
      have rest := ih distinct elsewhere
      rw [List.flatMap_cons, others]
      exact (rest.append_left _).trans (List.filter_append_perm _ xs)

/-- The metrics of a family, each with its name. -/
def named (family : Family) : List (String × Metric) := family.metrics.map (family.name, ·)

/-- Where the families of each name have one kind, merging leaves no metric out and brings none
in. -/
theorem named_merge_perm {families : List Family} (alike : Alike families) :
    ((merge families).flatMap named).Perm (families.flatMap named) := by
  have each : ∀ family ∈ merge families,
      named family = (families.filter (·.name = family.name)).flatMap named := by
    intro family there
    obtain ⟨first, others, equal, same⟩ := mem_merge_iff.mp there
    have among : first ∈ families.filter (·.name = family.name) := equal ▸ List.mem_cons_self
    obtain ⟨among, -⟩ := List.mem_filter.mp among
    have kind : family.kind = first.kind := by rw [same]; rfl
    have kinds : (families.filter fun f => f.name = family.name ∧ family.kind = f.kind) =
        families.filter (·.name = family.name) := by
      refine List.filter_congr fun f there => decide_eq_decide.mpr ?_
      refine ⟨And.left, fun name => ⟨name, ?_⟩⟩
      rw [kind]
      exact alike first among f there (by rw [name, same]; rfl)
    rw [named, metrics_of_mem_merge there, kinds, List.map_flatMap]
    refine List.flatMap_congr fun f there => ?_
    rw [named, of_decide_eq_true (List.mem_filter.mp there).2]
  have names : ∀ family ∈ families, family.name ∈ (merge families).map (·.name) :=
    fun family there => mem_names_merge_iff.mpr (List.mem_map_of_mem there)
  have sorted : (merge families).flatMap named =
      (((merge families).map (·.name)).flatMap fun name =>
        families.filter (·.name = name)).flatMap named := by
    rw [List.flatMap_congr each, List.flatMap_assoc, List.flatMap_map]
  rw [sorted]
  exact (flatMap_filter_perm (·.name) (names_merge_nodup families) names).flatMap_right named

/-! ## All laws -/

/-- Whether a family is what some families of its name are merged into. -/
structure IsMergedOf (family : Family) (families : List Family) : Prop where
  /-- It has the kind of the first of them. -/
  kind : (families.find? (·.name = family.name)).map (·.kind) = some family.kind
  /-- It has the metrics of those that have this kind, in order. -/
  metrics : family.metrics =
    (families.filter fun f => f.name = family.name ∧ f.kind = family.kind).flatMap (·.metrics)
  /-- It has the first help that one of these gives. -/
  help : family.help =
    (families.filter fun f => f.name = family.name ∧ f.kind = family.kind).findSome? (·.help)

theorem isMergedOf_of_mem {families : List Family} {family : Family}
    (there : family ∈ merge families) : family.IsMergedOf families := by
  obtain ⟨first, others, equal, same⟩ := mem_merge_iff.mp there
  have kind : family.kind = first.kind := by rw [same]; rfl
  have both : (families.filter fun f => f.name = family.name ∧ f.kind = family.kind)
      = first :: others.filter (first.kind = ·.kind) := by
    have split : (families.filter fun f => f.name = family.name ∧ f.kind = family.kind)
        = (families.filter (·.name = family.name)).filter (family.kind = ·.kind) := by
      rw [List.filter_filter]
      refine List.filter_congr fun f _ => ?_
      rw [Bool.decide_and, Bool.and_comm]
      exact congrArg (· && _) (decide_eq_decide.mpr eq_comm)
    rw [split, equal, List.filter_cons_of_pos (by simpa using kind), kind]
  refine ⟨?_, ?_, ?_⟩
  · rw [find?_name_eq_some_iff.mpr ⟨others, equal⟩, kind]
    rfl
  · rw [both, List.flatMap_cons, same]
    rfl
  · rw [both, same]
    rfl

/-- What merging makes of some families, and of what has been merged before. -/
structure MergingLaws (families others : List Family) : Prop where
  /-- The names ascend, so each stands once. -/
  ascending : ((merge families).map (·.name)).Pairwise (· < ·)
  /-- They are the names of the families. -/
  names : ∀ name, name ∈ (merge families).map (·.name) ↔ name ∈ families.map (·.name)
  /-- Under each name there is what the families of this name are merged into. -/
  merged : ∀ family ∈ merge families, family.IsMergedOf families
  /-- What has been merged may come first. -/
  first : merge (merge families ++ others) = merge (families ++ others)
  /-- Merging again changes nothing. -/
  again : merge (merge families) = merge families
  /-- What has been merged may come last if its families of each name had one kind. -/
  last : Alike others → merge (families ++ merge others) = merge (families ++ others)

theorem merging_laws (families others : List Family) : MergingLaws families others where
  ascending := names_merge_ascending families
  names _ := mem_names_merge_iff
  merged _ there := isMergedOf_of_mem there
  first := merge_merge_append families others
  again := by simpa using merge_merge_append families []
  last alike := merge_append_merge alike families

/-- A gauge of requests. -/
def gaugeOf (n : Nat) : Family := .singleton "requests" none ⟨.empty, .gauge (.ofNat n)⟩

/-- A counter of requests, with help. -/
def counterOf (n : Nat) : Family :=
  .singleton "requests" (some "Requests so far") ⟨.empty, .counter (.ofNat n)⟩

/-- Two counters that are merged first go the same way as they would alone: into a counter, and
nowhere if a gauge comes before. -/
theorem merging_twoCounters :
    Alike [counterOf 3, counterOf 4] ∧
      (∀ before ∈ [counterOf 2, gaugeOf 2],
        merge ([before] ++ merge [counterOf 3, counterOf 4]) =
          merge ([before] ++ [counterOf 3, counterOf 4])) ∧
      (merge [counterOf 2, gaugeOf 5, counterOf 3, counterOf 4]).map (·.metrics.length) = [3] := by
  have alike : Alike [counterOf 3, counterOf 4] := by decide
  refine ⟨alike, fun before _ => ?_, by decide +kernel⟩
  exact (merging_laws [before] [counterOf 3, counterOf 4]).last alike

-- Where a name has two kinds, what is merged first may have lost a metric that would be kept.
example : merge ([gaugeOf 1] ++ merge [counterOf 2, gaugeOf 3]) ≠
    merge ([gaugeOf 1] ++ [counterOf 2, gaugeOf 3]) := by
  decide +kernel

end Telemetry.Family
