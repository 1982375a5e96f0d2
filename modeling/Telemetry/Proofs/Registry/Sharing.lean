import Mathlib.Algebra.GroupWithZero.Nat
import Mathlib.Data.Set.Function
import Mathlib.Logic.Function.Basic
import Telemetry.Proofs.Identity
import Telemetry.Proofs.Registry

/-!
# Counters shared by threads

Any number of threads ask for counters and add to them.  A counter is looked up first, and
only a thread that has not found it comes back to make it.  In the meantime another thread
may have done so, and then the counter that is there is taken (`Deed.meet`).  Once a thread
has a handle, it adds to the counter without looking it up again.

A counter is found by a key of its identity, which is not the whole of it.  Where the key
tells apart what is asked for, at all times the counters are those of a registry that does
one thing after the other (`Kept.counters`).  Such a registry has no two counters of one
identity, so neither have the threads, and each addition goes to the one counter there is
(`Shared.lossless`).
-/

namespace Telemetry

namespace Shared

/-! ## What is asked for -/

/-- What a counter is asked for with. -/
structure Request where
  /-- The name. -/
  name : String
  /-- What the counter tells. -/
  help : String
  /-- The labels. -/
  labels : List (String × String)
  deriving DecidableEq

namespace Request

/-- Whether two requests ask for one counter, by name and by labels in any order. -/
def Alike (q q' : Request) : Prop := q.name = q'.name ∧ q.labels.Perm q'.labels

instance (q q' : Request) : Decidable (q.Alike q') := inferInstanceAs (Decidable (_ ∧ _))

/-- The identity of the counter. -/
def identity (q : Request) : Identity := .of q.name q.labels

/-- The counter that is made for a request, when it shows a number. -/
def counter (q : Request) (value : UInt64) : Counter := ⟨q.name, q.help, .ofList q.labels, value⟩

theorem alike_iff {q q' : Request} : q.Alike q' ↔ q.identity = q'.identity :=
  Identity.of_eq_iff.symm

end Request

/-! ## Threads at work -/

/-- What a thread does at once. -/
inductive Deed where
  /-- It looks a counter up and finds it. -/
  | find (q : Request)
  /-- It looks a counter up and does not find it. -/
  | miss (q : Request)
  /-- It comes back to make the counter that it has not found. -/
  | make (q : Request)
  /-- It comes back and meets the counter, which another thread has made. -/
  | meet (q : Request)
  /-- It adds to a counter that it has asked for. -/
  | add (q : Request) (n : UInt64)
  deriving DecidableEq

namespace Deed

/-- What a deed is about. -/
def request : Deed → Request
  | find q | miss q | make q | meet q | add q _ => q

/-- The request for which a counter is made. -/
def made? : Deed → Option Request
  | make q => some q
  | _ => none

/-- What is added to the counter of a request. -/
def amount (q : Request) : Deed → Nat
  | add q' n => if q'.Alike q then n.toNat else 0
  | _ => 0

/-- What a registry makes of a deed, if it does one thing after the other. -/
def perform (r : Registry) : Deed → Registry
  | find q | make q | meet q => r.create q.name q.help q.labels
  | miss _ => r
  | add q n => r.add q.name q.help q.labels n

end Deed

/-- All that is asked for. -/
def asked (deeds : List Deed) : List Request := deeds.map Deed.request

/-- The requests for which counters are made, in order. -/
def makers (deeds : List Deed) : List Request := deeds.filterMap Deed.made?

/-- All that is added to the counter of a request. -/
def added (deeds : List Deed) (q : Request) : Nat := (deeds.map (Deed.amount q)).sum

/-- The registry that does one deed after the other. -/
def registryOf (deeds : List Deed) : Registry := deeds.foldl Deed.perform .empty

end Shared

open Shared in
/-- What threads share. -/
structure Shared (κ τ : Type) where
  /-- All counters that were ever made. -/
  counters : List Counter
  /-- Where among them the counter of a key is found. -/
  places : Table κ Nat
  /-- What a thread has looked up in vain, before it comes back. -/
  missed : τ → Option Request
  /-- The handles that were given out: what was asked for, and the place of the counter. -/
  handles : List (Request × Nat)

namespace Shared

section Steps

variable {κ τ : Type} [DecidableEq κ] [DecidableEq τ]

/-- Nothing has been asked for. -/
def start : Shared κ τ := ⟨[], .empty, fun _ => none, []⟩

/-- One deed of some thread.  Looking up and coming back to make a counter are done at once, each
by itself. -/
inductive Step (key : Identity → κ) (s : Shared κ τ) : Deed → Shared κ τ → Prop where
  /-- What is found is given out. -/
  | find {t : τ} {q : Request} {p : Nat} (free : s.missed t = none)
      (there : s.places.get? (key q.identity) = some p) :
      Step key s (.find q) { s with handles := (q, p) :: s.handles }
  /-- The thread has to come back for what it does not find. -/
  | miss {t : τ} {q : Request} (free : s.missed t = none)
      (absent : s.places.get? (key q.identity) = none) :
      Step key s (.miss q) { s with missed := Function.update s.missed t (some q) }
  /-- It is still not there, and is made, and given out. -/
  | make {t : τ} {q : Request} (back : s.missed t = some q)
      (absent : s.places.get? (key q.identity) = none) :
      Step key s (.make q)
        { counters := s.counters ++ [q.counter 0]
          places := s.places.insert (key q.identity) s.counters.length
          missed := Function.update s.missed t none
          handles := (q, s.counters.length) :: s.handles }
  /-- It is there by now, and given out. -/
  | meet {t : τ} {q : Request} {p : Nat} (back : s.missed t = some q)
      (there : s.places.get? (key q.identity) = some p) :
      Step key s (.meet q)
        { s with missed := Function.update s.missed t none, handles := (q, p) :: s.handles }
  /-- Something is added by way of a handle, without looking the counter up. -/
  | add {q : Request} {p : Nat} (held : (q, p) ∈ s.handles) (n : UInt64) :
      Step key s (.add q n)
        { s with counters := s.counters.modify p fun c => { c with value := c.value + n } }

/-- What can come of deeds of any threads, in the order in which they are done. -/
inductive Reachable (key : Identity → κ) : List Deed → Shared κ τ → Prop where
  /-- Nothing has been done. -/
  | start : Reachable key [] start
  /-- One more deed is done. -/
  | step {deeds : List Deed} {d : Deed} {s s' : Shared κ τ} (reachable : Reachable key deeds s)
      (step : Step key s d s') : Reachable key (deeds ++ [d]) s'

end Steps

/-! ## One more deed -/

section Histories

variable {deeds : List Deed} {d : Deed}

theorem makers_append_singleton (deeds : List Deed) (d : Deed) :
    makers (deeds ++ [d]) = makers deeds ++ d.made?.toList := by
  rw [makers, List.filterMap_append, ← makers]
  cases d <;> rfl

theorem added_append_singleton (deeds : List Deed) (d : Deed) (q : Request) :
    added (deeds ++ [d]) q = added deeds q + d.amount q := by
  simp only [added, List.map_append, List.sum_append, List.map_singleton, List.sum_singleton]

theorem registryOf_append_singleton (deeds : List Deed) (d : Deed) :
    registryOf (deeds ++ [d]) = d.perform (registryOf deeds) := by
  simp only [registryOf, List.foldl_append, List.foldl_cons, List.foldl_nil]

theorem mem_asked_of_mem_makers {q : Request} (there : q ∈ makers deeds) : q ∈ asked deeds := by
  obtain ⟨d, among, made⟩ := List.mem_filterMap.mp there
  cases d with
  | make q' =>
      cases made
      exact List.mem_map_of_mem among
  | _ => exact nomatch made

/-- What tells apart the identities that are asked for. -/
def Tells {κ : Type} (key : Identity → κ) (deeds : List Deed) : Prop :=
  Set.InjOn key {id | ∃ q ∈ asked deeds, q.identity = id}

theorem Tells.before {κ : Type} {key : Identity → κ} (tells : Tells key (deeds ++ [d])) :
    Tells key deeds := by
  refine tells.mono ?_
  rintro _ ⟨q, there, rfl⟩
  exact ⟨q, by rw [asked, List.map_append]; exact List.mem_append_left _ there, rfl⟩

/-- A key tells whether the last deed is about a counter that was there before. -/
theorem Tells.last {κ : Type} {key : Identity → κ} (tells : Tells key (deeds ++ [d]))
    {m : Request} (made : m ∈ makers deeds) (same : key m.identity = key d.request.identity) :
    m.identity = d.request.identity := by
  have all : asked (deeds ++ [d]) = asked deeds ++ [d.request] := List.map_append
  refine tells ⟨m, ?_, rfl⟩ ⟨d.request, ?_, rfl⟩ same
  · rw [all]
    exact List.mem_append_left _ (mem_asked_of_mem_makers made)
  · rw [all]
    exact List.mem_append_right _ List.mem_cons_self

end Histories

theorem getElem?_append_singleton_eq_some_iff {α : Type} {xs : List α} {x y : α} {i : Nat} :
    (xs ++ [x])[i]? = some y ↔ xs[i]? = some y ∨ i = xs.length ∧ y = x := by
  rcases Nat.lt_trichotomy i xs.length with inside | rfl | outside
  · rw [List.getElem?_append_left inside]
    simp [Nat.ne_of_lt inside]
  · simp [eq_comm]
  · have none : xs[i]? = none := List.getElem?_eq_none (Nat.le_of_lt outside)
    have none' : (xs ++ [x])[i]? = Option.none := List.getElem?_eq_none (by simp; omega)
    rw [none, none']
    simp [Nat.ne_of_gt outside]

/-! ## What every deed keeps -/

section Keeping

variable {κ τ : Type} [DecidableEq κ] {key : Identity → κ} {deeds : List Deed} {d : Deed}
variable {s s' : Shared κ τ}

/-- The counters are those of the registry that does one deed after the other, and they can be
found. -/
structure Kept (key : Identity → κ) (deeds : List Deed) (s : Shared κ τ) : Prop where
  /-- The registry has a counter for each request for which one was made. -/
  entries : (registryOf deeds).entries =
    (makers deeds).map fun m => (m.identity, m.counter (.ofNat (added deeds m)))
  /-- Nothing has been added to counters that are not there. -/
  nothing : ∀ q : Request, (∀ m ∈ makers deeds, m.identity ≠ q.identity) → added deeds q = 0
  /-- The counters are those of the registry. -/
  counters : s.counters = (registryOf deeds).values
  /-- A key leads to the counter that was made for it. -/
  places : ∀ k p, s.places.get? k = some p ↔ ∃ m, (makers deeds)[p]? = some m ∧ key m.identity = k
  /-- A handle leads to the counter that was made for its name and labels. -/
  handles : ∀ q p, (q, p) ∈ s.handles → ∃ m, (makers deeds)[p]? = some m ∧ m.Alike q

theorem kept_start : Kept key [] (start : Shared κ τ) :=
  ⟨rfl, fun _ _ => rfl, rfl, fun _ _ => by simp [start, makers], fun _ _ there => nomatch there⟩

/-- No two counters were made for one identity, since the registry has no two of one. -/
theorem Kept.nodup (kept : Kept key deeds s) : ((makers deeds).map Request.identity).Nodup := by
  have nodup := (registryOf deeds).nodup
  rwa [kept.entries, List.map_map] at nodup

/-- So each identity has one place. -/
theorem Kept.one (kept : Kept key deeds s) {i j : Nat} {m m' : Request}
    (made : (makers deeds)[i]? = some m) (made' : (makers deeds)[j]? = some m')
    (same : m.identity = m'.identity) : i = j := by
  have inside : i < ((makers deeds).map Request.identity).length := by
    rw [List.length_map]
    exact (List.getElem?_eq_some_iff.mp made).1
  refine (List.getElem?_inj inside kept.nodup).mp ?_
  rw [List.getElem?_map, List.getElem?_map, made, made', Option.map_some, Option.map_some, same]

theorem Kept.length (kept : Kept key deeds s) : s.counters.length = (makers deeds).length := by
  rw [kept.counters, Table.values, kept.entries, List.map_map, List.length_map]

/-- What the last deed finds is the counter of its request. -/
theorem Kept.found (kept : Kept key deeds s) (tells : Tells key (deeds ++ [d])) {p : Nat}
    (there : s.places.get? (key d.request.identity) = some p) :
    ∃ m, (makers deeds)[p]? = some m ∧ m.Alike d.request := by
  obtain ⟨m, made, same⟩ := (kept.places _ _).mp there
  exact ⟨m, made, Request.alike_iff.mpr (tells.last (List.mem_of_getElem? made) same)⟩

/-- The registry has the counter at the same place. -/
theorem Kept.entry (kept : Kept key deeds s) {q m : Request} {p : Nat}
    (made : (makers deeds)[p]? = some m) (alike : m.Alike q) :
    (registryOf deeds).entries[p]? = some (q.identity, m.counter (.ofNat (added deeds m))) := by
  rw [kept.entries, List.getElem?_map, made, Option.map_some, Request.alike_iff.mp alike]

/-- A counter that is there is not made again. -/
theorem Kept.again (kept : Kept key deeds s) {q m : Request} {p : Nat}
    (made : (makers deeds)[p]? = some m) (alike : m.Alike q) :
    (registryOf deeds).create q.name q.help q.labels = registryOf deeds :=
  Registry.create_of_get?
    (Table.get?_eq_some_iff.mpr (List.mem_of_getElem? (kept.entry made alike)))

/-- What is not found is not in the registry. -/
theorem Kept.absent (kept : Kept key deeds s) {q : Request}
    (absent : s.places.get? (key q.identity) = none) :
    ∀ m ∈ makers deeds, m.identity ≠ q.identity := by
  intro m made same
  obtain ⟨p, made⟩ := List.getElem?_of_mem made
  rw [(kept.places _ p).mpr ⟨m, made, congrArg key same⟩] at absent
  cases absent

/-- A deed that makes nothing and adds nothing changes nothing. -/
theorem Kept.idle (kept : Kept key deeds s) (made : d.made? = none)
    (amount : ∀ q, d.amount q = 0) (same : d.perform (registryOf deeds) = registryOf deeds)
    (counters : s'.counters = s.counters) (places : s'.places = s.places)
    (handles : ∀ q p, (q, p) ∈ s'.handles → ∃ m, (makers deeds)[p]? = some m ∧ m.Alike q) :
    Kept key (deeds ++ [d]) s' := by
  have makers : makers (deeds ++ [d]) = makers deeds := by
    rw [makers_append_singleton, made, Option.toList_none, List.append_nil]
  have added : ∀ q, added (deeds ++ [d]) q = added deeds q := fun q => by
    rw [added_append_singleton, amount, Nat.add_zero]
  have registry : registryOf (deeds ++ [d]) = registryOf deeds := by
    rw [registryOf_append_singleton, same]
  constructor
  case entries => simpa only [registry, makers, added] using kept.entries
  case nothing => simpa only [makers, added] using kept.nothing
  case counters => rw [counters, registry, kept.counters]
  case places => simpa only [places, makers] using kept.places
  case handles => simpa only [makers] using handles

/-- A handle that is given out leads to the counter, as the others do. -/
theorem Kept.handed (kept : Kept key deeds s) {q m : Request} {p : Nat}
    (made : (makers deeds)[p]? = some m) (alike : m.Alike q) :
    ∀ q' p', (q', p') ∈ (q, p) :: s.handles → ∃ m, (makers deeds)[p']? = some m ∧ m.Alike q' := by
  intro q' p' held
  rcases List.mem_cons.mp held with equal | held
  · cases equal
    exact ⟨m, made, alike⟩
  · exact kept.handles q' p' held

/-- A counter that is made can be found, like those that were there. -/
theorem Kept.places_make (kept : Kept key deeds s) {q : Request}
    (absent : s.places.get? (key q.identity) = none) (k : κ) (p : Nat) :
    (s.places.insert (key q.identity) s.counters.length).get? k = some p ↔
      ∃ m, (makers deeds ++ [q])[p]? = some m ∧ key m.identity = k := by
  have either : (∃ m, (makers deeds ++ [q])[p]? = some m ∧ key m.identity = k) ↔
      s.places.get? k = some p ∨ p = s.counters.length ∧ key q.identity = k := by
    simp only [getElem?_append_singleton_eq_some_iff, kept.places, kept.length, or_and_right,
      exists_or, and_assoc]
    refine or_congr_right ⟨?_, ?_⟩
    · rintro ⟨_, last, rfl, same⟩
      exact ⟨last, same⟩
    · rintro ⟨last, same⟩
      exact ⟨q, last, rfl, same⟩
  rw [either, Table.get?_insert]
  by_cases same : k = key q.identity
  · -- No counter was there for this key, so the one that is made now is the only one.
    rw [if_pos same, same, absent]
    simp [eq_comm]
  · rw [if_neg same]
    simp [Ne.symm same]

theorem Kept.make (kept : Kept key deeds s) {q : Request}
    (absent : s.places.get? (key q.identity) = none) (missed : τ → Option Request) :
    Kept key (deeds ++ [.make q])
      { counters := s.counters ++ [q.counter 0]
        places := s.places.insert (key q.identity) s.counters.length
        missed
        handles := (q, s.counters.length) :: s.handles } := by
  have new := kept.absent absent
  have makers : makers (deeds ++ [.make q]) = makers deeds ++ [q] := makers_append_singleton _ _
  have added : ∀ m, added (deeds ++ [.make q]) m = added deeds m := added_append_singleton _ _
  have unknown : (registryOf deeds).get? (.of q.name q.labels) = none := by
    refine Option.eq_none_iff_forall_ne_some.mpr fun c found => ?_
    rw [Table.get?_eq_some_iff, kept.entries] at found
    obtain ⟨m, made, equal⟩ := List.mem_map.mp found
    exact new m made (Prod.mk.inj equal).1
  have entries : (registryOf (deeds ++ [.make q])).entries =
      (registryOf deeds).entries ++ [(q.identity, q.counter 0)] := by
    rw [registryOf_append_singleton]
    exact Registry.entries_create_of_absent unknown
  constructor
  case entries =>
    rw [entries, makers, kept.entries, List.map_append, List.map_singleton, added,
      kept.nothing q new]
    simp only [added]
    rfl
  case nothing =>
    intro q' other
    rw [makers] at other
    rw [added]
    exact kept.nothing q' fun m made => other m (List.mem_append_left _ made)
  case counters => rw [Table.values, entries, List.map_append, kept.counters]; rfl
  case places =>
    intro k p
    rw [makers]
    exact kept.places_make absent k p
  case handles =>
    intro q' p held
    simp only [makers, getElem?_append_singleton_eq_some_iff]
    rcases List.mem_cons.mp held with equal | held
    · cases equal
      exact ⟨q, .inr ⟨kept.length, rfl⟩, rfl, .refl _⟩
    · obtain ⟨m, made, alike⟩ := kept.handles q' p held
      exact ⟨m, .inl made, alike⟩

theorem Kept.add (kept : Kept key deeds s) {q : Request} {p : Nat} (held : (q, p) ∈ s.handles)
    (n : UInt64) :
    Kept key (deeds ++ [.add q n])
      { s with counters := s.counters.modify p fun c => { c with value := c.value + n } } := by
  obtain ⟨m, made, alike⟩ := kept.handles q p held
  have entry := kept.entry made alike
  have same := Request.alike_iff.mp alike
  have makers : makers (deeds ++ [.add q n]) = makers deeds := by
    rw [makers_append_singleton]
    exact List.append_nil _
  have added : ∀ q', added (deeds ++ [.add q n]) q' =
      added deeds q' + if q.Alike q' then n.toNat else 0 := added_append_singleton _ _
  have entries : (registryOf (deeds ++ [.add q n])).entries = (registryOf deeds).entries.set p
      (q.identity, m.counter (.ofNat (Shared.added deeds m) + n)) := by
    rw [registryOf_append_singleton]
    exact Registry.entries_add_of_there entry n
  have inside : p < (registryOf deeds).entries.length := (List.getElem?_eq_some_iff.mp entry).1
  constructor
  case entries =>
    rw [entries, makers]
    refine List.ext_getElem? fun i => ?_
    by_cases here : p = i
    · subst here
      rw [List.getElem?_set_self inside, List.getElem?_map, made, Option.map_some, added,
        if_pos (Request.alike_iff.mpr same.symm), UInt64.ofNat_add, UInt64.ofNat_toNat, same]
    · rw [List.getElem?_set_ne here, kept.entries, List.getElem?_map, List.getElem?_map]
      refine Option.map_congr fun m' made' => ?_
      -- The counter of another place has another identity, so nothing is added to it.
      have other : ¬q.Alike m' := fun alike =>
        here (kept.one made made' (same.trans (Request.alike_iff.mp alike)))
      rw [added, if_neg other, Nat.add_zero]
  case nothing =>
    intro q' other
    rw [makers] at other
    have different : ¬q.Alike q' := fun alike =>
      other m (List.mem_of_getElem? made) (same.trans (Request.alike_iff.mp alike))
    rw [added, if_neg different, kept.nothing q' other]
  case counters =>
    refine List.ext_getElem? fun i => ?_
    rw [Table.values, entries, List.getElem?_modify, kept.counters, Table.values,
      List.getElem?_map, List.getElem?_map]
    by_cases here : p = i
    · subst here
      rw [List.getElem?_set_self inside, entry]
      simp only [if_true, Option.map_some]
      rfl
    · rw [List.getElem?_set_ne here]
      simp only [here, if_false, id_map']
  case places => simpa only [makers] using kept.places
  case handles => simpa only [makers] using kept.handles

variable [DecidableEq τ]

theorem Kept.step (kept : Kept key deeds s) (step : Step key s d s')
    (tells : Tells key (deeds ++ [d])) : Kept key (deeds ++ [d]) s' := by
  cases step with
  | find free there =>
      obtain ⟨m, made, alike⟩ := kept.found tells there
      exact kept.idle rfl (fun _ => rfl) (kept.again made alike) rfl rfl (kept.handed made alike)
  | miss free absent => exact kept.idle rfl (fun _ => rfl) rfl rfl rfl kept.handles
  | make back absent => exact kept.make absent _
  | meet back there =>
      obtain ⟨m, made, alike⟩ := kept.found tells there
      exact kept.idle rfl (fun _ => rfl) (kept.again made alike) rfl rfl (kept.handed made alike)
  | add held n => exact kept.add held n

theorem Reachable.kept (reachable : Reachable key deeds s) (tells : Tells key deeds) :
    Kept key deeds s := by
  induction reachable with
  | start => exact kept_start
  | step _ step ih => exact (ih tells.before).step step tells

/-! ## At any time -/

/-- The counters are counted right, whoever has asked for them and added to them. -/
structure Lossless (key : Identity → κ) (deeds : List Deed) (s : Shared κ τ) : Prop where
  /-- No two counters were made for one name and the same labels. -/
  once : (makers deeds).Pairwise fun m m' => ¬m.Alike m'
  /-- A counter has the help of the request that made it, and all that was added by way of any
  handle for its name and labels, as far as 64 bits hold it. -/
  counters : s.counters = (makers deeds).map fun m => m.counter (.ofNat (added deeds m))
  /-- A handle leads to the counter that was made for its name and labels. -/
  handles : ∀ q p, (q, p) ∈ s.handles → ∃ m, (makers deeds)[p]? = some m ∧ m.Alike q
  /-- A thread that has not found a counter can come back, and does so with a handle. -/
  answered : ∀ t q, s.missed t = some q →
    ∃ d s', Step key s d s' ∧ s'.missed t = none ∧ ∃ p, (q, p) ∈ s'.handles
  /-- The counters are those of a registry that does one deed after the other. -/
  registry : s.counters = (registryOf deeds).values
  /-- Whatever is read of the counters, and in whatever order, each of them is listed once. -/
  listed : ∀ (read : Request → UInt64) (visited : List Counter) events tally,
    visited.Perm ((makers deeds).map fun m => m.counter (read m)) →
    Registry.Lists (Registry.familiesIn visited events tally)
      ((makers deeds).map fun m => m.counter (read m)) events tally

/-- If the hash tells apart the labels that are asked for, then no addition is lost, in whatever
order threads look counters up, make them and add to them. -/
theorem lossless {hash : List UInt8 → UInt64} {s : Shared Fingerprint τ}
    (reachable : Reachable (Identity.fingerprint hash) deeds s)
    (injective : Set.InjOn hash {bytes | ∃ q ∈ asked deeds, q.identity.bytes = bytes}) :
    Lossless (Identity.fingerprint hash) deeds s := by
  have tells : Tells (Identity.fingerprint hash) deeds := by
    rintro _ ⟨q, there, rfl⟩ _ ⟨q', there', rfl⟩ same
    exact (Identity.fingerprint_eq_iff injective ⟨q, there, rfl⟩ ⟨q', there', rfl⟩).mp same
  have kept := reachable.kept tells
  constructor
  case once =>
    refine (List.pairwise_map.mp kept.nodup).imp fun different alike => ?_
    exact different (Request.alike_iff.mp alike)
  case counters =>
    rw [kept.counters, Table.values, kept.entries, List.map_map]
    rfl
  case handles => exact kept.handles
  case answered =>
    intro t q back
    cases found : s.places.get? (q.identity.fingerprint hash) with
    | some p =>
        exact ⟨_, _, .meet back found, Function.update_self .., p, List.mem_cons_self⟩
    | none =>
        exact ⟨_, _, .make back found, Function.update_self .., _, List.mem_cons_self⟩
  case registry => exact kept.counters
  case listed => exact fun _ _ events tally perm => Registry.lists_of_perm perm events tally

/-- A counter of drops, asked for by two threads, and one that nothing is added to. -/
def twoAsking : List Request :=
  [⟨"drops", "Drops", [("site", "a"), ("way", "in")]⟩,
    ⟨"drops", "Drops of a site", [("way", "in"), ("site", "a")]⟩, ⟨"stops", "Stops", []⟩]

/-- Both threads miss the counter.  The second makes it and the first meets it, and what they add
to it makes it start over. -/
theorem reachable_twoAsking :
    ∃ (deeds : List Deed) (s : Shared Fingerprint Bool),
      Reachable (Identity.fingerprint sipHash) deeds s ∧ (∀ q ∈ asked deeds, q ∈ twoAsking) ∧
      s.counters = [⟨"drops", "Drops of a site", .ofList [("site", "a"), ("way", "in")], 2⟩,
        ⟨"stops", "Stops", .empty, 0⟩] := by
  let q := twoAsking[0]
  let q' := twoAsking[1]
  let other := twoAsking[2]
  have closed : Reachable (Identity.fingerprint sipHash) [] (start : Shared Fingerprint Bool) :=
    .start
  have missed := closed.step (.miss (t := false) (q := q) rfl rfl)
  have both := missed.step (.miss (t := true) (q := q') rfl rfl)
  have made := both.step (.make (t := true) (q := q') rfl rfl)
  have met := made.step (.meet (t := false) (q := q) (p := 0) rfl (by decide +kernel))
  have more := met.step (.add (q := q) (p := 0) (by decide) (2 ^ 64 - 1))
  have wrapped := more.step (.add (q := q') (p := 0) (by decide) 3)
  have absent := wrapped.step (.miss (t := true) (q := other) rfl (by decide +kernel))
  have all := absent.step (.make (t := true) (q := other) rfl (by decide +kernel))
  exact ⟨_, _, all, by decide, by decide +kernel⟩

/-- Still there is one counter of drops, and it shows what both have added. -/
theorem lossless_twoAsking :
    ∃ (deeds : List Deed) (s : Shared Fingerprint Bool),
      Reachable (Identity.fingerprint sipHash) deeds s ∧
      Lossless (Identity.fingerprint sipHash) deeds s ∧
      s.counters = [⟨"drops", "Drops of a site", .ofList [("site", "a"), ("way", "in")], 2⟩,
        ⟨"stops", "Stops", .empty, 0⟩] := by
  obtain ⟨deeds, s, reachable, among, counters⟩ := reachable_twoAsking
  refine ⟨deeds, s, reachable, lossless reachable ?_, counters⟩
  have apart : ∀ q ∈ twoAsking, ∀ q' ∈ twoAsking,
      sipHash q.identity.bytes = sipHash q'.identity.bytes →
        q.identity.bytes = q'.identity.bytes := by
    decide +kernel
  rintro _ ⟨q, there, rfl⟩ _ ⟨q', there', rfl⟩ same
  exact apart q (among q there) q' (among q' there') same

end Keeping

end Shared

end Telemetry
