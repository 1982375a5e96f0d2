import Mathlib.Data.List.Forall2
import Mathlib.Data.List.Perm.Basic
import Telemetry.Exposition.Reading
import Telemetry.Proofs.Merging

/-!
# Merging families with metrics in another order

Families may be the same but for the order of their histograms or of their summaries
(`Family.Reordered`).  What they are merged into is the same too, but for this order
(`forall₂_merge`), since merging puts metrics after one another and looks at nothing but
names, kinds and helps.
-/

namespace Telemetry.Family

/-- Whether families are the same but for the order of histograms or of summaries. -/
structure Reordered (f f' : Family) : Prop where
  /-- They have the same name. -/
  name : f'.name = f.name
  /-- They tell the same in words. -/
  help : f'.help = f.help
  /-- They have the same kind. -/
  kind : f'.kind = f.kind
  /-- They have the same metrics. -/
  perm : f.metrics.Perm f'.metrics
  /-- Metrics that are neither histograms nor summaries are in the same order. -/
  scalar : Exposition.hasTotals f.kind = false → f'.metrics = f.metrics

/-! ## Lists of families -/

section Lists

variable {families families' : List Family} (same : List.Forall₂ Reordered families families')
include same

theorem forall₂_filter_name (name : String) :
    List.Forall₂ Reordered (families.filter (·.name = name)) (families'.filter (·.name = name)) :=
  List.rel_filter (fun f f' same => by simp [same.name]) same

theorem forall₂_filter_kind (kind : Kind) :
    List.Forall₂ Reordered (families.filter (kind = ·.kind)) (families'.filter (kind = ·.kind)) :=
  List.rel_filter (fun f f' same => by simp [same.kind]) same

theorem flatMap_metrics_perm :
    (families.flatMap (·.metrics)).Perm (families'.flatMap (·.metrics)) := by
  rw [List.flatMap_def, List.flatMap_def]
  refine List.Perm.flatten_congr ?_
  rw [List.forall₂_map_left_iff, List.forall₂_map_right_iff]
  exact same.imp fun _ _ => Reordered.perm

theorem flatMap_metrics_eq (scalar : ∀ f ∈ families, Exposition.hasTotals f.kind = false) :
    families'.flatMap (·.metrics) = families.flatMap (·.metrics) := by
  induction same with
  | nil => rfl
  | @cons f f' _ _ first _ ih =>
      rw [List.flatMap_cons, List.flatMap_cons, first.scalar (scalar f List.mem_cons_self),
        ih fun g there => scalar g (List.mem_cons_of_mem f there)]

theorem map_kinds_eq :
    families'.map (fun f => (f.name, f.kind)) = families.map fun f => (f.name, f.kind) := by
  induction same with
  | nil => rfl
  | cons first _ ih => rw [List.map_cons, List.map_cons, first.name, first.kind, ih]

theorem findSome?_help_eq : families'.findSome? (·.help) = families.findSome? (·.help) := by
  induction same with
  | nil => rfl
  | cons first _ ih => rw [List.findSome?_cons, List.findSome?_cons, first.help, ih]

/-! ## Merging -/

theorem Reordered.absorbAll {f f' : Family} (first : Reordered f f') :
    Reordered (f.absorbAll families) (f'.absorbAll families') := by
  have taken := forall₂_filter_kind same f.kind
  constructor
  case name => exact first.name
  case kind => exact first.kind
  case help =>
    simp only [Family.absorbAll, first.kind]
    exact findSome?_help_eq (.cons first taken)
  case perm =>
    simp only [Family.absorbAll, first.kind]
    exact first.perm.append (flatMap_metrics_perm taken)
  case scalar =>
    intro scalar
    have kinds : ∀ g ∈ families.filter (f.kind = ·.kind), Exposition.hasTotals g.kind = false :=
      fun g there => of_decide_eq_true (List.mem_filter.mp there).2 ▸ scalar
    simp only [Family.absorbAll, first.kind]
    rw [first.scalar scalar, flatMap_metrics_eq taken kinds]

/-- What families are merged into depends on the order of their metrics in nothing but that. -/
theorem forall₂_merge : List.Forall₂ Reordered (merge families) (merge families') := by
  rw [merge, merge]
  refine Dict.forall₂_values fun name => ?_
  rw [get?_foldl_mergeInto, get?_foldl_mergeInto, Dict.get?_empty]
  have named := forall₂_filter_name same name
  generalize families.filter (·.name = name) = own, families'.filter (·.name = name) = own' at named ⊢
  cases named with
  | nil => exact .none
  | cons first others => exact .some (first.absorbAll others)

end Lists

end Telemetry.Family
