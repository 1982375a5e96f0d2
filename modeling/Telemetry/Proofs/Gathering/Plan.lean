import Mathlib.Order.GameAdd
import Telemetry.Gathering
import Telemetry.Proofs.Gathering.Interleaving

/-!
# Gathering step by step

A single source does its work in steps, and what others do may come between them.  A
*task* is what is left of this work: each step moves the state and tells from what it
found how to go on.  A *plan* is what is left of a gathering.  An aggregate goes on with
any of its concurrent plans, and only when all of these are done with its trailing ones,
the next after the one before is done (`Plan.Step`).

A plan is never stuck (`Plan.exists_step`) and cannot go on for ever (`Plan.acc_next`).
If it runs to its end, the moves of its own and its result are a *course* of it.  What
the state is in between does not matter, so the courses of an aggregate are made of those
of its parts: the moves of the concurrent ones are interleaved, and those of the trailing
ones follow in order (`Plan.takes_aggregate_iff`).
-/

namespace Telemetry.Gathering

open List (Forall₂)

/-- What is left of the work of a single source. -/
inductive Task (σ : Type) where
  /-- Nothing is left. -/
  | done (result : Gathered)
  /-- A step, and how it goes on, which depends on the state. -/
  | work (effect : σ → σ) (next : σ → Task σ)

/-- What is left of a gathering. -/
inductive Plan (σ : Type) where
  /-- The work of a single source. -/
  | source (task : Task σ)
  /-- The plans that run at the same time, and those that run after them, in order. -/
  | aggregate (concurrent trailing : List (Plan σ))

variable {σ : Type}

namespace Plan

/-! ## Results -/

mutual

/-- What a plan has yielded, if it is done. -/
def result? : Plan σ → Option Gathered
  | source (.done result) => some result
  | source (.work _ _) => none
  | aggregate concurrent trailing =>
    match results? concurrent, results? trailing with
    | some first, some last => some (.ok (Gatherer.combine (first ++ last)))
    | _, _ => none

/-- What some plans have yielded, if all are done. -/
def results? : List (Plan σ) → Option (List Gathered)
  | [] => some []
  | p :: ps =>
    match result? p, results? ps with
    | some result, some results => some (result :: results)
    | _, _ => none

end

/-- An aggregate is done when all its parts are, and has not failed. -/
theorem result?_aggregate_eq_some_iff {cs ts : List (Plan σ)} {r : Gathered} :
    (aggregate cs ts).result? = some r ↔ ∃ first last,
      results? cs = some first ∧ results? ts = some last ∧
        r = .ok (Gatherer.combine (first ++ last)) := by
  rw [result?]
  cases results? cs <;> cases results? ts <;> simp [eq_comm]

theorem results?_eq_some_iff {ps : List (Plan σ)} {rs : List Gathered} :
    results? ps = some rs ↔ Forall₂ (fun p r => p.result? = some r) ps rs := by
  induction ps generalizing rs with
  | nil => simp [results?, eq_comm]
  | cons p ps ih =>
      rw [results?, List.forall₂_cons_left_iff]
      simp only [← ih]
      cases p.result? <;> cases results? ps <;> simp [eq_comm]

/-! ## Steps -/

/-- Whether a plan may move the state and become another one. -/
inductive Step : Plan σ → σ × σ → Plan σ → Prop where
  /-- A single source goes on with its work. -/
  | source (effect : σ → σ) (next : σ → Task σ) (s : σ) :
      Step (source (.work effect next)) (s, effect s) (source (next s))
  /-- One of the concurrent plans goes on. -/
  | concurrent {p p' : Plan σ} {m : σ × σ} (before after ts : List (Plan σ)) (step : Step p m p') :
      Step (aggregate (before ++ p :: after) ts) m (aggregate (before ++ p' :: after) ts)
  /-- The first of the trailing plans that is not done goes on, if all others are. -/
  | trailing {p p' : Plan σ} {m : σ × σ} {cs before : List (Plan σ)} {first earlier : List Gathered}
      (concurrent : results? cs = some first) (done : results? before = some earlier)
      (after : List (Plan σ)) (step : Step p m p') :
      Step (aggregate cs (before ++ p :: after)) m (aggregate cs (before ++ p' :: after))

/-- Whether a plan may become another one by some moves, between which others may move the
state. -/
inductive Run : Plan σ → List (σ × σ) → Plan σ → Prop where
  | refl (p : Plan σ) : Run p [] p
  | step {p q r : Plan σ} {m : σ × σ} {moves : List (σ × σ)} (first : Step p m q)
      (rest : Run q moves r) : Run p (m :: moves) r

theorem forall₂_middle_iff {α β : Type} {R : α → β → Prop} {before after : List α} {a : α}
    {bs : List β} :
    Forall₂ R (before ++ a :: after) bs ↔ ∃ front b back, bs = front ++ b :: back ∧
      Forall₂ R before front ∧ R a b ∧ Forall₂ R after back := by
  constructor
  · intro all
    induction before generalizing bs with
    | nil =>
        obtain ⟨b, back, here, rest, rfl⟩ := List.forall₂_cons_left_iff.mp all
        exact ⟨[], b, back, rfl, .nil, here, rest⟩
    | cons a' before ih =>
        obtain ⟨b', bs, first, rest, rfl⟩ := List.forall₂_cons_left_iff.mp all
        obtain ⟨front, b, back, rfl, before, here, after⟩ := ih rest
        exact ⟨b' :: front, b, back, rfl, .cons first before, here, after⟩
  · rintro ⟨front, b, back, rfl, before, here, after⟩
    exact List.rel_append before (.cons here after)

theorem exists_of_results? {ps qs : List (Plan σ)} {p : Plan σ} {rs : List Gathered}
    (done : results? (ps ++ p :: qs) = some rs) : ∃ r, p.result? = some r := by
  obtain ⟨-, r, -, -, -, here, -⟩ := forall₂_middle_iff.mp (results?_eq_some_iff.mp done)
  exact ⟨r, here⟩

/-- A plan that goes on is not done. -/
theorem result?_of_step {p q : Plan σ} {m : σ × σ} (step : Step p m q) :
    p.result? = none := by
  rw [Option.eq_none_iff_forall_ne_some]
  induction step with
  | source effect next s => exact fun _ done => nomatch done
  | concurrent before after ts _ ih =>
      intro r done
      obtain ⟨first, -, all, -, -⟩ := result?_aggregate_eq_some_iff.mp done
      obtain ⟨result, here⟩ := exists_of_results? all
      exact ih result here
  | trailing _ _ after _ ih =>
      intro r done
      obtain ⟨-, last, -, all, -⟩ := result?_aggregate_eq_some_iff.mp done
      obtain ⟨result, here⟩ := exists_of_results? all
      exact ih result here

theorem Step.exists_aggregate {cs ts : List (Plan σ)} {m : σ × σ} {q : Plan σ}
    (step : Step (aggregate cs ts) m q) : ∃ cs' ts', q = aggregate cs' ts' := by
  cases step with
  | concurrent => exact ⟨_, _, rfl⟩
  | trailing => exact ⟨_, _, rfl⟩

/-! ## Coming to an end -/

mutual

/-- A plan that is not done can go on, whatever the state. -/
theorem exists_step : ∀ (p : Plan σ), p.result? = none → ∀ s, ∃ s' q, Step p (s, s') q
  | source (.done result), unfinished, _ => nomatch unfinished
  | source (.work effect next), _, s => ⟨_, _, .source effect next s⟩
  | aggregate cs ts, unfinished, s => by
      cases first : results? cs with
      | none =>
          obtain ⟨before, p, after, s', q, rfl, -, step⟩ := exists_step_of_results? cs first s
          exact ⟨s', _, .concurrent before after ts step⟩
      | some rs =>
          cases last : results? ts with
          | none =>
              obtain ⟨before, p, after, s', q, rfl, ⟨earlier, done⟩, step⟩ :=
                exists_step_of_results? ts last s
              exact ⟨s', _, .trailing first done after step⟩
          | some rs' => simp [result?, first, last] at unfinished

/-- Of plans that are not all done, the first that is not can go on. -/
theorem exists_step_of_results? : ∀ (ps : List (Plan σ)), results? ps = none → ∀ s,
    ∃ before p after s' q, ps = before ++ p :: after ∧ (∃ earlier, results? before = some earlier) ∧
      Step p (s, s') q
  | [], unfinished, _ => nomatch unfinished
  | p :: ps, unfinished, s => by
      cases here : p.result? with
      | none =>
          obtain ⟨s', q, step⟩ := exists_step p here s
          exact ⟨[], p, ps, s', q, rfl, ⟨[], rfl⟩, step⟩
      | some r =>
          have others : results? ps = none := by
            cases rest : results? ps with
            | none => rfl
            | some rs => simp [results?, here, rest] at unfinished
          obtain ⟨before, p', after, s', q, rfl, ⟨earlier, done⟩, step⟩ :=
            exists_step_of_results? ps others s
          exact ⟨p :: before, p', after, s', q, rfl, ⟨r :: earlier, by simp [results?, here, done]⟩,
            step⟩

end

/-- Whether a plan is what another one may become by one step. -/
def Next (q p : Plan σ) : Prop := ∃ m, Step p m q

/-- Whether some plans are what others may become by one step of one of them. -/
def NextAmong (qs ps : List (Plan σ)) : Prop :=
  ∃ before p q after, ps = before ++ p :: after ∧ qs = before ++ q :: after ∧ Next q p

theorem acc_source (task : Task σ) : Acc Next (source task) := by
  induction task with
  | done result =>
      refine .intro _ ?_
      rintro q ⟨m, step⟩
      cases step
  | work effect next ih =>
      refine .intro _ ?_
      rintro q ⟨m, step⟩
      cases step with
      | source _ _ s => exact ih s

/-- What is made of two parts, one of which goes on in each step, goes on no longer than they. -/
theorem acc_of_parts {α β γ : Type} {rα : α → α → Prop} {rβ : β → β → Prop} {r : γ → γ → Prop}
    {f : α × β → γ} (parts : ∀ x c, r c (f x) → ∃ y, Prod.GameAdd rα rβ y x ∧ f y = c) {a : α}
    {b : β} (left : Acc rα a) (right : Acc rβ b) : Acc r (f (a, b)) := by
  have both := left.prod_gameAdd right
  generalize (a, b) = x at both ⊢
  induction both with
  | intro x _ ih =>
      refine .intro _ fun c next => ?_
      obtain ⟨y, smaller, rfl⟩ := parts x c next
      exact ih y smaller

theorem acc_cons {p : Plan σ} {ps : List (Plan σ)} (head : Acc Next p)
    (tail : Acc NextAmong ps) : Acc NextAmong (p :: ps) := by
  refine acc_of_parts (f := fun x => x.1 :: x.2) (fun x qs next => ?_) head tail
  obtain ⟨p, ps⟩ := x
  obtain ⟨before, q, q', after, split, rfl, next⟩ := next
  cases before with
  | nil =>
      obtain ⟨rfl, rfl⟩ := List.cons.inj split
      exact ⟨(q', _), .fst next, rfl⟩
  | cons first before =>
      obtain ⟨rfl, rfl⟩ := List.cons.inj split
      exact ⟨(_, before ++ q' :: after), .snd ⟨before, q, q', after, rfl, rfl, next⟩, rfl⟩

theorem acc_aggregate {cs ts : List (Plan σ)} (concurrent : Acc NextAmong cs)
    (trailing : Acc NextAmong ts) : Acc Next (aggregate cs ts) := by
  refine acc_of_parts (f := fun x => aggregate x.1 x.2) (fun x q next => ?_) concurrent trailing
  obtain ⟨cs, ts⟩ := x
  obtain ⟨m, step⟩ := next
  cases step with
  | concurrent before after _ step =>
      exact ⟨(_, _), .fst ⟨before, _, _, after, rfl, rfl, m, step⟩, rfl⟩
  | @trailing _ _ _ _ before _ _ _ _ after step =>
      exact ⟨(_, _), .snd ⟨before, _, _, after, rfl, rfl, m, step⟩, rfl⟩

mutual

/-- No plan goes on for ever. -/
theorem acc_next : ∀ p : Plan σ, Acc Next p
  | source task => acc_source task
  | aggregate cs ts => acc_aggregate (acc_nextAmong cs) (acc_nextAmong ts)

theorem acc_nextAmong : ∀ ps : List (Plan σ), Acc NextAmong ps
  | [] => .intro _ fun _ ⟨before, _, _, _, split, _⟩ => by cases before <;> cases split
  | p :: ps => acc_cons (acc_next p) (acc_nextAmong ps)

end

end Plan

/-! ## Courses -/

/-- What has come of a gathering: its moves and its result. -/
structure Course (σ : Type) where
  /-- The moves of its own. -/
  moves : List (σ × σ)
  /-- The result. -/
  result : Gathered

namespace Plan

/-- Whether a plan may be done after some moves and yield a result. -/
def Takes (p : Plan σ) (c : Course σ) : Prop := ∃ q, Run p c.moves q ∧ q.result? = some c.result

theorem takes_nil_iff {p : Plan σ} {r : Gathered} : p.Takes ⟨[], r⟩ ↔ p.result? = some r := by
  constructor
  · rintro ⟨q, run, done⟩
    cases run
    exact done
  · exact fun done => ⟨p, .refl p, done⟩

theorem takes_cons_iff {p : Plan σ} {m : σ × σ} {moves : List (σ × σ)} {r : Gathered} :
    p.Takes ⟨m :: moves, r⟩ ↔ ∃ q, Step p m q ∧ q.Takes ⟨moves, r⟩ := by
  constructor
  · rintro ⟨q, run, done⟩
    cases run with
    | step first rest => exact ⟨_, first, q, rest, done⟩
  · rintro ⟨q, first, q', rest, done⟩
    exact ⟨q', .step first rest, done⟩

/-- The courses of plans that are done have no moves. -/
theorem moves_of_results? {ps : List (Plan σ)} {rs : List Gathered} {courses : List (Course σ)}
    (done : results? ps = some rs) (taken : Forall₂ Takes ps courses) :
    ∀ moves ∈ courses.map Course.moves, moves = [] := by
  induction taken generalizing rs with
  | nil => exact nofun
  | @cons p c ps courses here _ ih =>
      obtain ⟨r, rs, result, rest, rfl⟩ :=
        List.forall₂_cons_left_iff.mp (results?_eq_some_iff.mp done)
      rw [List.map_cons, List.forall_mem_cons]
      refine ⟨?_, ih (results?_eq_some_iff.mpr rest)⟩
      obtain ⟨_ | ⟨m, moves⟩, _⟩ := c
      · rfl
      · obtain ⟨q, step, -⟩ := takes_cons_iff.mp here
        exact nomatch (result?_of_step step).symm.trans result

/-- Plans that are done are so without any moves. -/
theorem results?_eq_some_iff_takes {ps : List (Plan σ)} {rs : List Gathered} :
    results? ps = some rs ↔ ∃ courses, Forall₂ Takes ps courses ∧
      (∀ moves ∈ courses.map Course.moves, moves = []) ∧ courses.map Course.result = rs := by
  constructor
  · intro done
    have taken : Forall₂ Takes ps (rs.map (Course.mk [])) :=
      List.forall₂_map_right_iff.mpr
        ((results?_eq_some_iff.mp done).imp fun _ _ => takes_nil_iff.mpr)
    exact ⟨_, taken, moves_of_results? done taken, by simp [Function.comp_def]⟩
  · rintro ⟨courses, taken, still, rfl⟩
    rw [results?_eq_some_iff, List.forall₂_map_right_iff]
    induction taken with
    | nil => exact .nil
    | @cons p c ps courses here _ ih =>
        rw [List.map_cons, List.forall_mem_cons] at still
        obtain ⟨moves, result⟩ := c
        obtain ⟨rfl, still⟩ := still
        exact .cons (takes_nil_iff.mp here) (ih still)

/-! ## Aggregates -/

/-- Whether moves are those of some concurrent courses, interleaved, and of some trailing ones
after them, in order. -/
structure Scheduled (cs ts : List (Plan σ)) (moves : List (σ × σ)) (first last : List (Course σ)) :
    Prop where
  /-- The concurrent courses. -/
  concurrent : Forall₂ Takes cs first
  /-- The trailing courses. -/
  trailing : Forall₂ Takes ts last
  /-- The order of the moves. -/
  order : ∃ during, Interleaves (first.map Course.moves) during ∧
    moves = during ++ (last.map Course.moves).flatten

/-- An aggregate that is done is so without any moves. -/
theorem result?_aggregate_eq_some_iff_scheduled {cs ts : List (Plan σ)} {r : Gathered} :
    (aggregate cs ts).result? = some r ↔ ∃ first last, Scheduled cs ts [] first last ∧
      r = .ok (Gatherer.combine ((first ++ last).map Course.result)) := by
  simp only [result?_aggregate_eq_some_iff, results?_eq_some_iff_takes]
  constructor
  · rintro ⟨_, _, ⟨first, concurrent, still, rfl⟩, ⟨last, trailing, still', rfl⟩, rfl⟩
    refine ⟨first, last, ⟨concurrent, trailing, [], interleaves_nil_iff.mpr still, ?_⟩, ?_⟩
    · rw [List.flatten_eq_nil_iff.mpr still']
      rfl
    · rw [List.map_append]
  · rintro ⟨first, last, ⟨concurrent, trailing, during, interleaves, split⟩, rfl⟩
    obtain ⟨rfl, still⟩ := List.append_eq_nil_iff.mp split.symm
    exact ⟨_, _, ⟨first, concurrent, interleaves_nil_iff.mp interleaves, rfl⟩,
      ⟨last, trailing, List.flatten_eq_nil_iff.mp still, rfl⟩, by rw [List.map_append]⟩

/-- The moves of an aggregate are scheduled from the first one on. -/
theorem Scheduled.of_step {cs ts cs' ts' : List (Plan σ)} {m : σ × σ} {moves : List (σ × σ)}
    {first last : List (Course σ)} (step : Step (aggregate cs ts) m (aggregate cs' ts'))
    (scheduled : Scheduled cs' ts' moves first last) :
    ∃ first' last', Scheduled cs ts (m :: moves) first' last' ∧
      (first' ++ last').map Course.result = (first ++ last).map Course.result := by
  obtain ⟨concurrent, trailing, during, interleaves, rfl⟩ := scheduled
  cases step with
  | concurrent before after _ step =>
      obtain ⟨front, ⟨part, r⟩, back, rfl, earlier, here, later⟩ :=
        forall₂_middle_iff.mp concurrent
      refine ⟨front ++ ⟨m :: part, r⟩ :: back, last, ⟨?_, trailing, m :: during, ?_, rfl⟩, by simp⟩
      · exact forall₂_middle_iff.mpr
          ⟨front, _, back, rfl, earlier, takes_cons_iff.mpr ⟨_, step, here⟩, later⟩
      · refine interleaves_cons_iff.mpr ⟨front.map Course.moves, part, back.map Course.moves, ?_, ?_⟩
        · simp
        · simpa using interleaves
  | trailing done finished after step =>
      obtain ⟨front, ⟨part, r⟩, back, rfl, earlier, here, later⟩ :=
        forall₂_middle_iff.mp trailing
      -- Nothing of the concurrent plans is left to be done, nor of the trailing ones before.
      have nothing : during = [] := interleaves.eq_nil (moves_of_results? done concurrent)
      have still : (front.map Course.moves).flatten = [] :=
        List.flatten_eq_nil_iff.mpr (moves_of_results? finished earlier)
      refine ⟨first, front ++ ⟨m :: part, r⟩ :: back, ⟨concurrent, ?_, [], ?_, ?_⟩, by simp⟩
      · exact forall₂_middle_iff.mpr
          ⟨front, _, back, rfl, earlier, takes_cons_iff.mpr ⟨_, step, here⟩, later⟩
      · exact nothing ▸ interleaves
      · simp [nothing, still]

theorem exists_step_of_takes {ps : List (Plan σ)} {courses : List (Course σ)} {m : σ × σ}
    {part : List (σ × σ)} {before after : List (List (σ × σ))} (taken : Forall₂ Takes ps courses)
    (split : courses.map Course.moves = before ++ (m :: part) :: after) :
    ∃ earlier p q later front r back, ps = earlier ++ p :: later ∧
      courses = front ++ ⟨m :: part, r⟩ :: back ∧ front.map Course.moves = before ∧
        back.map Course.moves = after ∧ Forall₂ Takes earlier front ∧ Step p m q ∧
          Forall₂ Takes (earlier ++ q :: later) (front ++ ⟨part, r⟩ :: back) := by
  obtain ⟨front, rest, rfl, rfl, tail⟩ := List.map_eq_append_iff.mp split
  obtain ⟨⟨_, r⟩, back, rfl, rfl, rfl⟩ := List.map_eq_cons_iff.mp tail
  obtain ⟨earlier, p, later, rfl, start, here, rest⟩ := forall₂_middle_iff.mp taken.flip
  obtain ⟨q, step, goesOn⟩ := takes_cons_iff.mp here
  exact ⟨earlier, p, q, later, front, r, back, rfl, rfl, rfl, rfl, start.flip, step,
    List.rel_append start.flip (.cons goesOn rest.flip)⟩

/-- The first of the moves that are scheduled is a step of the aggregate. -/
theorem Scheduled.exists_step {cs ts : List (Plan σ)} {m : σ × σ} {moves : List (σ × σ)}
    {first last : List (Course σ)} (scheduled : Scheduled cs ts (m :: moves) first last) :
    ∃ cs' ts' first' last', Step (aggregate cs ts) m (aggregate cs' ts') ∧
      Scheduled cs' ts' moves first' last' ∧
        (first' ++ last').map Course.result = (first ++ last).map Course.result := by
  obtain ⟨concurrent, trailing, during, interleaves, split⟩ := scheduled
  cases during with
  | cons m' during =>
      obtain ⟨rfl, rfl⟩ := List.cons.inj split
      obtain ⟨before, part, after, among, interleaves⟩ := interleaves_cons_iff.mp interleaves
      obtain ⟨earlier, p, q, later, front, r, back, rfl, rfl, rfl, rfl, -, step, taken⟩ :=
        exists_step_of_takes concurrent among
      refine ⟨_, ts, _, last, .concurrent earlier later ts step,
        ⟨taken, trailing, during, ?_, rfl⟩, by simp⟩
      simpa using interleaves
  | nil =>
      obtain ⟨before, part, after, among, still, rfl⟩ := List.flatten_eq_cons_iff.mp split.symm
      obtain ⟨earlier, p, q, later, front, r, back, rfl, rfl, rfl, rfl, done, step, taken⟩ :=
        exists_step_of_takes trailing among
      have finished : results? cs = some (first.map Course.result) :=
        results?_eq_some_iff_takes.mpr
          ⟨first, concurrent, interleaves_nil_iff.mp interleaves, rfl⟩
      have before : results? earlier = some (front.map Course.result) :=
        results?_eq_some_iff_takes.mpr ⟨front, done, still, rfl⟩
      refine ⟨cs, _, first, _, .trailing finished before later step,
        ⟨concurrent, taken, [], interleaves, ?_⟩, by simp⟩
      simp [List.flatten_eq_nil_iff.mpr still]

/-- The courses of an aggregate are made of the courses of its parts.  What these yield is merged
in the order in which they are listed, whatever order they end in. -/
theorem takes_aggregate_iff {cs ts : List (Plan σ)} {moves : List (σ × σ)} {r : Gathered} :
    (aggregate cs ts).Takes ⟨moves, r⟩ ↔ ∃ first last, Scheduled cs ts moves first last ∧
      r = .ok (Gatherer.combine ((first ++ last).map Course.result)) := by
  induction moves generalizing cs ts with
  | nil => exact takes_nil_iff.trans result?_aggregate_eq_some_iff_scheduled
  | cons m moves ih =>
      rw [takes_cons_iff]
      constructor
      · rintro ⟨q, step, taken⟩
        obtain ⟨cs', ts', rfl⟩ := step.exists_aggregate
        obtain ⟨first, last, scheduled, rfl⟩ := ih.mp taken
        obtain ⟨first', last', scheduled, same⟩ := scheduled.of_step step
        exact ⟨first', last', scheduled, by rw [same]⟩
      · rintro ⟨first, last, scheduled, rfl⟩
        obtain ⟨cs', ts', first', last', step, scheduled, same⟩ := scheduled.exists_step
        exact ⟨_, step, ih.mpr ⟨first', last', scheduled, by rw [same]⟩⟩

end Plan

end Telemetry.Gathering
