import Mathlib.Data.List.Basic

/-!
# Interleaving

What several parties do one by one may happen in any order that keeps the order of each
of them.  `Shuffle` says this of two lists, and `Interleaves` of any number: the next
that happens is the next of one of them (`interleaves_cons_iff`).

What they do here is to *move* a state, each move from what it finds to what it leaves.
Moves that happen one after the other form a `Chain`.  A move that leaves what it finds
may be taken away from a chain (`Thins`), also before it is shuffled with others.
-/

namespace Telemetry.Gathering

variable {α σ : Type}

/-! ## Shuffles -/

/-- Whether the third list has the elements of the first two, those of each in their order. -/
inductive Shuffle : List α → List α → List α → Prop where
  | nil : Shuffle [] [] []
  | left {a : α} {u v w : List α} (rest : Shuffle u v w) : Shuffle (a :: u) v (a :: w)
  | right {a : α} {u v w : List α} (rest : Shuffle u v w) : Shuffle u (a :: v) (a :: w)

namespace Shuffle

theorem nil_left (v : List α) : Shuffle [] v v := by
  induction v with
  | nil => exact .nil
  | cons a v ih => exact .right ih

/-- One list may come before the other. -/
theorem append (u v : List α) : Shuffle u v (u ++ v) := by
  induction u with
  | nil => exact nil_left v
  | cons a u ih => exact .left ih

/-- What comes before the second list may come before everything. -/
theorem append_right {u v w : List α} (shuffle : Shuffle u v w) (before : List α) :
    Shuffle u (before ++ v) (before ++ w) := by
  induction before with
  | nil => exact shuffle
  | cons a before ih => exact .right ih

end Shuffle

/-- Whether a list has the elements of some lists, those of each in their order. -/
inductive Interleaves : List (List α) → List α → Prop where
  | nil : Interleaves [] []
  | cons {part : List α} {parts : List (List α)} {w all : List α} (shuffle : Shuffle part w all)
      (rest : Interleaves parts w) : Interleaves (part :: parts) all

theorem interleaves_nil_iff {parts : List (List α)} :
    Interleaves parts [] ↔ ∀ part ∈ parts, part = [] := by
  induction parts with
  | nil => exact ⟨nofun, fun _ => .nil⟩
  | cons part parts ih =>
      rw [List.forall_mem_cons, ← ih]
      constructor
      · rintro (_ | ⟨shuffle, rest⟩)
        cases shuffle
        exact ⟨rfl, rest⟩
      · rintro ⟨rfl, rest⟩
        exact .cons .nil rest

/-- The first element of all is the first element of one of the lists. -/
theorem interleaves_cons_iff {parts : List (List α)} {a : α} {w : List α} :
    Interleaves parts (a :: w) ↔ ∃ before part after,
      parts = before ++ (a :: part) :: after ∧ Interleaves (before ++ part :: after) w := by
  constructor
  · intro all
    induction parts generalizing w with
    | nil => cases all
    | cons part parts ih =>
        obtain _ | ⟨shuffle, rest⟩ := all
        cases shuffle with
        | left shuffle => exact ⟨[], _, parts, rfl, .cons shuffle rest⟩
        | right shuffle =>
            obtain ⟨before, part', after, rfl, others⟩ := ih rest
            exact ⟨part :: before, part', after, rfl, .cons shuffle others⟩
  · rintro ⟨before, part, after, rfl, rest⟩
    induction before generalizing w with
    | nil =>
        obtain _ | ⟨shuffle, rest⟩ := rest
        exact .cons (.left shuffle) rest
    | cons first before ih =>
        obtain _ | ⟨shuffle, rest⟩ := rest
        exact .cons (.right shuffle) (ih rest)

theorem Interleaves.eq_nil {parts : List (List α)} {w : List α} (all : Interleaves parts w)
    (empty : ∀ part ∈ parts, part = []) : w = [] := by
  cases w with
  | nil => rfl
  | cons a w =>
      obtain ⟨before, part, after, rfl, -⟩ := interleaves_cons_iff.mp all
      exact nomatch empty (a :: part) (by simp)

/-- The lists may come one after the other. -/
theorem interleaves_flatten (parts : List (List α)) : Interleaves parts parts.flatten := by
  induction parts with
  | nil => exact .nil
  | cons part parts ih => exact .cons (.append part _) ih

/-! ## Moves -/

/-- Whether moves lead from one state to another. -/
def Chain : σ → List (σ × σ) → σ → Prop
  | s, [], s' => s = s'
  | s, m :: moves, s' => s = m.1 ∧ Chain m.2 moves s'

theorem chain_append_iff {u v : List (σ × σ)} {s s' : σ} :
    Chain s (u ++ v) s' ↔ ∃ t, Chain s u t ∧ Chain t v s' := by
  induction u generalizing s with
  | nil => simp [Chain]
  | cons m u ih => simp [Chain, ih, and_assoc]

/-- Whether only moves that change nothing have been taken away. -/
inductive Thins : List (σ × σ) → List (σ × σ) → Prop where
  | nil : Thins [] []
  | keep {m : σ × σ} {u v : List (σ × σ)} (rest : Thins u v) : Thins (m :: u) (m :: v)
  | drop {m : σ × σ} {u v : List (σ × σ)} (idle : m.2 = m.1) (rest : Thins u v) : Thins (m :: u) v

namespace Thins

theorem refl (u : List (σ × σ)) : Thins u u := by
  induction u with
  | nil => exact .nil
  | cons m u ih => exact .keep ih

theorem trans {u v w : List (σ × σ)} (first : Thins u v) (second : Thins v w) : Thins u w := by
  induction first generalizing w with
  | nil => exact second
  | keep _ ih =>
      cases second with
      | keep rest => exact .keep (ih rest)
      | drop idle rest => exact .drop idle (ih rest)
  | drop idle _ ih => exact .drop idle (ih second)

theorem append {u u' v v' : List (σ × σ)} (first : Thins u u') (second : Thins v v') :
    Thins (u ++ v) (u' ++ v') := by
  induction first with
  | nil => exact second
  | keep _ ih => exact .keep ih
  | drop idle _ ih => exact .drop idle ih

theorem of_idle {u : List (σ × σ)} (idle : ∀ m ∈ u, m.2 = m.1) : Thins u [] := by
  induction u with
  | nil => exact .nil
  | cons m u ih =>
      obtain ⟨first, others⟩ := List.forall_mem_cons.mp idle
      exact .drop first (ih others)

/-- A chain goes on without the moves that have been taken away. -/
theorem chain {u v : List (σ × σ)} (thins : Thins u v) {s s' : σ} (moves : Chain s u s') :
    Chain s v s' := by
  induction thins generalizing s with
  | nil => exact moves
  | keep _ ih => exact ⟨moves.1, ih moves.2⟩
  | drop idle _ ih =>
      obtain ⟨rfl, moves⟩ := moves
      exact ih (idle ▸ moves)

/-- Moves that change nothing may be taken away from what they are shuffled with. -/
theorem of_shuffle {u v w : List (σ × σ)} (shuffle : Shuffle u v w)
    (idle : ∀ m ∈ u, m.2 = m.1) : Thins w v := by
  induction shuffle with
  | nil => exact .nil
  | left _ ih =>
      obtain ⟨first, others⟩ := List.forall_mem_cons.mp idle
      exact .drop first (ih others)
  | right _ ih => exact .keep (ih idle)

/-- What has been taken away before a shuffle might as well be taken away after it. -/
theorem shuffle {u v v' w : List (σ × σ)} (all : Shuffle u v w) (thins : Thins v v') :
    ∃ w', Shuffle u v' w' ∧ Thins w w' := by
  induction all generalizing v' with
  | nil =>
      cases thins
      exact ⟨[], .nil, .nil⟩
  | left _ ih =>
      obtain ⟨w', shuffle, thins⟩ := ih thins
      exact ⟨_, .left shuffle, .keep thins⟩
  | right _ ih =>
      cases thins with
      | keep thins =>
          obtain ⟨w', shuffle, thins⟩ := ih thins
          exact ⟨_, .right shuffle, .keep thins⟩
      | drop idle thins =>
          obtain ⟨w', shuffle, thins⟩ := ih thins
          exact ⟨w', shuffle, .drop idle thins⟩

end Thins

theorem Chain.eq_of_idle {u : List (σ × σ)} (idle : ∀ m ∈ u, m.2 = m.1) {s s' : σ}
    (moves : Chain s u s') : s = s' :=
  (Thins.of_idle idle).chain moves

end Telemetry.Gathering
