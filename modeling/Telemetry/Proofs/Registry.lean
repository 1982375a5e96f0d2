import Telemetry.Proofs.Merging.Laws
import Telemetry.Registry

/-!
# Counters of the registry

A counter is made where there is none, behind those that are there
(`Registry.entries_create_of_absent`), and where there is one it is not made again
(`Registry.create_of_get?`).  What is added goes to the counter, which stays at its place
(`Registry.entries_add_of_there`).

All counters are listed together with the tally.  Both have counters only, so merging puts
them in order and leaves none out (`lists_familiesIn`).  Nothing is said of the order in
which the counters are come upon, and the tally may give some of its counts only.
-/

namespace Telemetry

/-! ## Making and adding -/

namespace Registry

variable {r : Registry} {name help : String} {labels : List (String × String)} {c : Counter}

theorem get?_add (r : Registry) (name help : String) (labels : List (String × String))
    (n : UInt64) (id : Identity) :
    (r.add name help labels n).get? id =
      if id = .of name labels then
        some { r.counter name help labels with
          value := (r.counter name help labels).value + n }
      else r.get? id := by
  rw [add, Table.get?_insert]

/-- A counter that is there is not made again. -/
theorem create_of_get? (there : r.get? (.of name labels) = some c) :
    r.create name help labels = r := by
  rw [create, add, counter, there, Option.getD_some, UInt64.add_zero]
  exact Table.insert_of_get? there

/-- A counter that is made stands behind the others. -/
theorem entries_create_of_absent (absent : r.get? (.of name labels) = none) :
    (r.create name help labels).entries =
      r.entries ++ [(.of name labels, ⟨name, help, .ofList labels, 0⟩)] := by
  rw [create, add, Table.entries_insert_of_absent absent, counter, absent]
  rfl

/-- What is added goes to the counter, which stays at its place. -/
theorem entries_add_of_there {place : Nat} (there : r.entries[place]? = some (.of name labels, c))
    (n : UInt64) :
    (r.add name help labels n).entries =
      r.entries.set place (.of name labels, { c with value := c.value + n }) := by
  have found : r.get? (.of name labels) = some c :=
    Table.get?_eq_some_iff.mpr (List.mem_of_getElem? there)
  rw [add, Table.entries_insert_of_getElem? there, counter, found, Option.getD_some]

end Registry

/-! ## All counters, listed -/

/-- The metric of a counter. -/
def Counter.metric (c : Counter) : Metric := ⟨c.labels, .counter (.ofNat c.value.toNat)⟩

/-- The metric of an event. -/
def Tally.metric (t : Tally) (e : Event) : Metric :=
  ⟨e.labels, .counter (.ofNat (t.count e).toNat)⟩

/-- The counts of some events as families. -/
def Tally.familiesOf (t : Tally) (events : List Event) : List Family :=
  events.map fun e => .singleton e.name (some e.help) (t.metric e)

namespace Registry

/-- The families of counters in the order in which they are come upon, and then of some events,
merged. -/
def familiesIn (visited : List Counter) (events : List Event) (tally : Tally) : List Family :=
  Family.merge (visited.map Counter.family ++ tally.familiesOf events)

/-- The registry comes upon its counters in the order in which they were made, and the tally
gives all its counts. -/
theorem families_eq_familiesIn (r : Registry) (tally : Tally) :
    r.families tally = familiesIn r.values Event.all tally := rfl

/-- Whether families list some counters and the counts of some events. -/
structure Lists (shown : List Family) (counters : List Counter) (events : List Event)
    (tally : Tally) : Prop where
  /-- The names ascend, so each stands once. -/
  ascending : (shown.map (·.name)).Pairwise (· < ·)
  /-- All are counters. -/
  kinds : ∀ family ∈ shown, family.kind = .counter
  /-- Each counter and each count stands once, under its name, and nothing else does. -/
  each : (shown.flatMap Family.named).Perm
    (counters.map (fun c => (c.name, c.metric)) ++ events.map fun e => (e.name, tally.metric e))
  /-- The help is that of a counter or an event of the name. -/
  help : ∀ family ∈ shown,
    (∃ c ∈ counters, c.name = family.name ∧ some c.help = family.help) ∨
      ∃ e ∈ events, e.name = family.name ∧ some e.help = family.help

theorem lists_familiesIn (counters : List Counter) (events : List Event) (tally : Tally) :
    Lists (familiesIn counters events tally) counters events tally := by
  have cases : ∀ family ∈ counters.map Counter.family ++ tally.familiesOf events,
      (∃ c ∈ counters, c.family = family) ∨
        ∃ e ∈ events, Family.singleton e.name (some e.help) (tally.metric e) = family := by
    intro family there
    rcases List.mem_append.mp there with counter | event
    · exact .inl (List.mem_map.mp counter)
    · exact .inr (List.mem_map.mp event)
  have kinds : ∀ family ∈ counters.map Counter.family ++ tally.familiesOf events,
      family.kind = .counter := by
    intro family there
    rcases cases family there with ⟨c, -, rfl⟩ | ⟨e, -, rfl⟩ <;> rfl
  have alike : Family.Alike (counters.map Counter.family ++ tally.familiesOf events) :=
    fun f there g there' _ => (kinds f there).trans (kinds g there').symm
  constructor
  case ascending => exact Family.names_merge_ascending _
  case kinds =>
    intro family there
    obtain ⟨first, others, equal, rfl⟩ := Family.mem_merge_iff.mp there
    have kept := equal ▸ List.mem_cons_self (a := first) (l := others)
    exact kinds first (List.mem_filter.mp kept).1
  case each =>
    refine (Family.named_merge_perm alike).trans (.of_eq ?_)
    rw [List.flatMap_append, Tally.familiesOf, List.flatMap_map, List.flatMap_map,
      List.map_eq_flatMap, List.map_eq_flatMap]
    rfl
  case help =>
    intro family there
    obtain ⟨first, others, equal, rfl⟩ := Family.mem_merge_iff.mp there
    have kept := equal ▸ List.mem_cons_self (a := first) (l := others)
    rcases cases first (List.mem_filter.mp kept).1 with
      ⟨c, among, rfl⟩ | ⟨e, among, rfl⟩
    · exact .inl ⟨c, among, rfl, rfl⟩
    · exact .inr ⟨e, among, rfl, rfl⟩

/-- A counter that is listed is shown with its value. -/
theorem Lists.shows {shown : List Family} {counters : List Counter} {events : List Event}
    {tally : Tally} (lists : Lists shown counters events tally) {c : Counter}
    (there : c ∈ counters) : Family.Shows shown c.name .counter c.metric := by
  have named : (c.name, c.metric) ∈ shown.flatMap Family.named :=
    lists.each.mem_iff.mpr (List.mem_append_left _ (List.mem_map_of_mem there))
  obtain ⟨family, among, named⟩ := List.mem_flatMap.mp named
  obtain ⟨m, there, equal⟩ := List.mem_map.mp named
  obtain ⟨name, rfl⟩ := Prod.mk.inj equal
  exact ⟨family, among, name, lists.kinds family among, there⟩

/-- In which order the counters are come upon does not matter. -/
theorem lists_of_perm {visited counters : List Counter} (perm : visited.Perm counters)
    (events : List Event) (tally : Tally) :
    Lists (familiesIn visited events tally) counters events tally := by
  have lists := lists_familiesIn visited events tally
  constructor
  case ascending => exact lists.ascending
  case kinds => exact lists.kinds
  case each => exact lists.each.trans ((perm.map _).append_right _)
  case help => simpa only [perm.mem_iff] using lists.help

end Registry

end Telemetry
