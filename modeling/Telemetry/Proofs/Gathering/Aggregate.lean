import Telemetry.Proofs.Gathering.Plan
import Telemetry.Proofs.Merging

/-!
# Aggregates

Whatever order its parts go on in, an aggregate comes to an end and does not fail
(`Orderly`).  It merges the families of the parts that have not failed, in the order in
which they are listed.  Its concurrent parts have made all their moves when the first of
the trailing ones begins, and each of these has when the next one does.

A part that always fails and leaves the state as it finds it might as well not be there
(`gathers_without`).  If it is taken away, its moves are thinned out of those of all; if
it is put in, one of its courses is made where nothing else is going on.

The gatherers of the program make all moves of one source at once, which is one way in
which plans may run (`gathers_ofGatherer`).
-/

namespace Telemetry.Gathering

open List (Forall₂)

variable {σ : Type}

/-! ## Without interruption -/

/-- The work of a source, if no one else moves the state in between. -/
def Task.run : Task σ → σ → σ × Gathered
  | .done result, s => (s, result)
  | .work effect next, s => (next s).run (effect s)

namespace Plan

mutual

/-- The gatherer that makes all moves of one source at once, and runs its parts one after the
other. -/
def gatherer : Plan σ → Gatherer σ
  | source task => .source task.run
  | aggregate concurrent trailing => .aggregate (gatherers concurrent) (gatherers trailing)

/-- The gatherers of some plans. -/
def gatherers : List (Plan σ) → List (Gatherer σ)
  | [] => []
  | p :: ps => gatherer p :: gatherers ps

end

mutual

/-- The plan whose sources make one move each. -/
def ofGatherer : Gatherer σ → Plan σ
  | .source run => source (.work (fun s => (run s).1) fun s => .done (run s).2)
  | .aggregate concurrent trailing => aggregate (ofGatherers concurrent) (ofGatherers trailing)

/-- The plans of some gatherers. -/
def ofGatherers : List (Gatherer σ) → List (Plan σ)
  | [] => []
  | g :: gs => ofGatherer g :: ofGatherers gs

end

mutual

/-- Every gatherer is that of a plan. -/
theorem gatherer_ofGatherer : ∀ g : Gatherer σ, (ofGatherer g).gatherer = g
  | .source run => rfl
  | .aggregate concurrent trailing => by
      rw [ofGatherer, gatherer, gatherers_ofGatherers concurrent, gatherers_ofGatherers trailing]

theorem gatherers_ofGatherers : ∀ gs : List (Gatherer σ), gatherers (ofGatherers gs) = gs
  | [] => rfl
  | g :: gs => by
      rw [ofGatherers, gatherers, gatherer_ofGatherer g, gatherers_ofGatherers gs]

end

/-- Whether a plan may lead from one state to another with a result, if no one else moves the
state. -/
def Gathers (p : Plan σ) (s s' : σ) (r : Gathered) : Prop :=
  ∃ moves, Chain s moves s' ∧ p.Takes ⟨moves, r⟩

theorem gathers_run (task : Task σ) (s : σ) :
    (source task).Gathers s (task.run s).1 (task.run s).2 := by
  induction task generalizing s with
  | done result => exact ⟨[], rfl, takes_nil_iff.mpr rfl⟩
  | work effect next ih =>
      obtain ⟨moves, chain, taken⟩ := ih s (effect s)
      exact ⟨(s, effect s) :: moves, ⟨rfl, chain⟩,
        takes_cons_iff.mpr ⟨_, .source effect next s, taken⟩⟩

mutual

/-- What the gatherer of a plan does is one of the things that the plan may do. -/
theorem gathers_gather : ∀ (p : Plan σ) (s : σ),
    p.Gathers s (p.gatherer.gather s).1 (p.gatherer.gather s).2
  | source task, s => gathers_run task s
  | aggregate cs ts, s => by
      obtain ⟨first, taken, chain, results⟩ := gathers_gatherAll cs s
      obtain ⟨last, taken', chain', results'⟩ :=
        gathers_gatherAll ts (Gatherer.gatherAll (gatherers cs) s).1
      refine ⟨_, chain_append_iff.mpr ⟨_, chain, chain'⟩, takes_aggregate_iff.mpr
        ⟨first, last, ⟨taken, taken', _, interleaves_flatten _, rfl⟩, ?_⟩⟩
      rw [List.map_append, results, results', gatherer, Gatherer.gather]

theorem gathers_gatherAll : ∀ (ps : List (Plan σ)) (s : σ), ∃ courses, Forall₂ Takes ps courses ∧
    Chain s (courses.map Course.moves).flatten (Gatherer.gatherAll (gatherers ps) s).1 ∧
      courses.map Course.result = (Gatherer.gatherAll (gatherers ps) s).2
  | [], s => ⟨[], .nil, rfl, rfl⟩
  | p :: ps, s => by
      obtain ⟨moves, chain, here⟩ := gathers_gather p s
      obtain ⟨courses, taken, chain', results⟩ := gathers_gatherAll ps (p.gatherer.gather s).1
      refine ⟨⟨moves, _⟩ :: courses, .cons here taken, chain_append_iff.mpr ⟨_, chain, chain'⟩, ?_⟩
      rw [List.map_cons, results, gatherers, Gatherer.gatherAll]

end

/-- What a gatherer of the program does is one of the things that its plan may do. -/
theorem gathers_ofGatherer (g : Gatherer σ) (s : σ) :
    (ofGatherer g).Gathers s (g.gather s).1 (g.gather s).2 := by
  have gathers := gathers_gather (ofGatherer g) s
  rwa [gatherer_ofGatherer] at gathers

end Plan

/-! ## Failures -/

/-- The families of a course that has not failed. -/
def Course.families (c : Course σ) : List Family := c.result.toOption.getD []

theorem combine_results (courses : List (Course σ)) :
    Gatherer.combine (courses.map Course.result) =
      Family.merge (courses.flatMap Course.families) := by
  rw [Gatherer.combine, List.flatMap_map]
  congr 2
  funext c
  rw [Course.families]
  cases c.result <;> rfl

namespace Plan

/-- Whether a plan always fails and never changes the state. -/
def FailsIdly (p : Plan σ) : Prop :=
  ∀ c, p.Takes c → (∀ m ∈ c.moves, m.2 = m.1) ∧ ∃ e, c.result = .error e

/-- Whether plans are left when others have been taken away that fail and change nothing. -/
inductive Without : List (Plan σ) → List (Plan σ) → Prop where
  | nil : Without [] []
  | keep (p : Plan σ) {ps qs : List (Plan σ)} (rest : Without ps qs) : Without (p :: ps) (p :: qs)
  | drop {p : Plan σ} {ps qs : List (Plan σ)} (idle : p.FailsIdly) (rest : Without ps qs) :
      Without (p :: ps) qs

theorem FailsIdly.families {p : Plan σ} (idle : p.FailsIdly) {c : Course σ} (taken : p.Takes c) :
    c.families = [] := by
  obtain ⟨-, e, failed⟩ := idle c taken
  rw [Course.families, failed]
  rfl

/-- In every state such a plan has a course that ends where it began. -/
theorem FailsIdly.exists_course {p : Plan σ} (idle : p.FailsIdly) (s : σ) :
    ∃ c, p.Takes c ∧ Chain s c.moves s := by
  obtain ⟨moves, chain, taken⟩ := gathers_gather p s
  generalize (p.gatherer.gather s).1 = s' at chain
  obtain rfl := chain.eq_of_idle (idle _ taken).1
  exact ⟨_, taken, chain⟩

variable {ps qs : List (Plan σ)} {courses : List (Course σ)}

/-- The moves of plans that are taken away are thinned out of those of all. -/
theorem Without.interleaves (without : Without ps qs) (taken : Forall₂ Takes ps courses)
    {w : List (σ × σ)} (all : Interleaves (courses.map Course.moves) w) :
    ∃ courses' w', Forall₂ Takes qs courses' ∧ Interleaves (courses'.map Course.moves) w' ∧
      Thins w w' ∧ courses'.flatMap Course.families = courses.flatMap Course.families := by
  induction without generalizing courses w with
  | nil =>
      cases taken
      cases all
      exact ⟨[], [], .nil, .nil, .nil, rfl⟩
  | keep p _ ih =>
      obtain _ | ⟨here, rest⟩ := taken
      obtain _ | ⟨shuffle, others⟩ := all
      obtain ⟨courses', v, taken, others, thins, same⟩ := ih rest others
      obtain ⟨w', shuffle, thins⟩ := thins.shuffle shuffle
      exact ⟨_ :: courses', w', .cons here taken, .cons shuffle others, thins, by simp [same]⟩
  | drop idle _ ih =>
      obtain _ | ⟨here, rest⟩ := taken
      obtain _ | ⟨shuffle, others⟩ := all
      obtain ⟨courses', v, taken, others, thins, same⟩ := ih rest others
      refine ⟨courses', v, taken, others, ?_, by simp [same, idle.families here]⟩
      exact (Thins.of_shuffle shuffle (idle _ here).1).trans thins

theorem Without.flatten (without : Without ps qs) (taken : Forall₂ Takes ps courses) :
    ∃ courses', Forall₂ Takes qs courses' ∧
      Thins (courses.map Course.moves).flatten (courses'.map Course.moves).flatten ∧
        courses'.flatMap Course.families = courses.flatMap Course.families := by
  induction without generalizing courses with
  | nil =>
      cases taken
      exact ⟨[], .nil, .nil, rfl⟩
  | keep p _ ih =>
      obtain _ | ⟨here, rest⟩ := taken
      obtain ⟨courses', taken, thins, same⟩ := ih rest
      exact ⟨_ :: courses', .cons here taken, (Thins.refl _).append thins, by simp [same]⟩
  | drop idle _ ih =>
      obtain _ | ⟨here, rest⟩ := taken
      obtain ⟨courses', taken, thins, same⟩ := ih rest
      refine ⟨courses', taken, ?_, by simp [same, idle.families here]⟩
      exact (Thins.of_idle (idle _ here).1).append thins

/-- Plans that are put in may make all their moves before the others begin. -/
theorem Without.exists_interleaves (without : Without ps qs) (taken : Forall₂ Takes qs courses)
    {w : List (σ × σ)} (all : Interleaves (courses.map Course.moves) w) (s : σ) :
    ∃ courses' before, Forall₂ Takes ps courses' ∧ Chain s before s ∧
      Interleaves (courses'.map Course.moves) (before ++ w) ∧
        courses'.flatMap Course.families = courses.flatMap Course.families := by
  induction without generalizing courses w with
  | nil => exact ⟨courses, [], taken, rfl, all, rfl⟩
  | keep p _ ih =>
      obtain _ | ⟨here, rest⟩ := taken
      obtain _ | ⟨shuffle, others⟩ := all
      obtain ⟨courses', before, taken, chain, others, same⟩ := ih rest others
      exact ⟨_ :: courses', before, .cons here taken, chain,
        .cons (shuffle.append_right before) others, by simp [same]⟩
  | drop idle _ ih =>
      obtain ⟨courses', before, taken, chain, others, same⟩ := ih taken all
      obtain ⟨c, here, still⟩ := idle.exists_course s
      refine ⟨c :: courses', c.moves ++ before, .cons here taken,
        chain_append_iff.mpr ⟨s, still, chain⟩, ?_, by simp [same, idle.families here]⟩
      rw [List.append_assoc]
      exact .cons (.append c.moves _) others

/-- Plans that are put in between others find a state and leave it. -/
theorem Without.exists_flatten (without : Without ps qs) (taken : Forall₂ Takes qs courses)
    {s s' : σ} (chain : Chain s (courses.map Course.moves).flatten s') :
    ∃ courses', Forall₂ Takes ps courses' ∧ Chain s (courses'.map Course.moves).flatten s' ∧
      courses'.flatMap Course.families = courses.flatMap Course.families := by
  induction without generalizing courses s with
  | nil => exact ⟨courses, taken, chain, rfl⟩
  | keep p _ ih =>
      obtain _ | ⟨here, rest⟩ := taken
      obtain ⟨t, first, chain⟩ := chain_append_iff.mp chain
      obtain ⟨courses', taken, chain, same⟩ := ih rest chain
      exact ⟨_ :: courses', .cons here taken, chain_append_iff.mpr ⟨t, first, chain⟩,
        by simp [same]⟩
  | drop idle _ ih =>
      obtain ⟨courses', taken, chain, same⟩ := ih taken chain
      obtain ⟨c, here, still⟩ := idle.exists_course s
      exact ⟨c :: courses', .cons here taken, chain_append_iff.mpr ⟨s, still, chain⟩,
        by simp [same, idle.families here]⟩

/-- What an aggregate may yield, and the state it may lead to, does not depend on plans that fail
and change nothing. -/
theorem gathers_without {cs cs' ts ts' : List (Plan σ)} (concurrent : Without cs cs')
    (trailing : Without ts ts') (s s' : σ) (r : Gathered) :
    (aggregate cs ts).Gathers s s' r ↔ (aggregate cs' ts').Gathers s s' r := by
  constructor
  · rintro ⟨moves, chain, taken⟩
    obtain ⟨first, last, ⟨firsts, lasts, during, all, rfl⟩, rfl⟩ := takes_aggregate_iff.mp taken
    obtain ⟨first', during', firsts', all', thins, same⟩ := concurrent.interleaves firsts all
    obtain ⟨last', lasts', thins', same'⟩ := trailing.flatten lasts
    refine ⟨_, (thins.append thins').chain chain,
      takes_aggregate_iff.mpr ⟨first', last', ⟨firsts', lasts', during', all', rfl⟩, ?_⟩⟩
    simp only [combine_results, List.flatMap_append, same, same']
  · rintro ⟨moves, chain, taken⟩
    obtain ⟨first, last, ⟨firsts, lasts, during, all, rfl⟩, rfl⟩ := takes_aggregate_iff.mp taken
    obtain ⟨t, chain, chain'⟩ := chain_append_iff.mp chain
    obtain ⟨first', before, firsts', still, all', same⟩ := concurrent.exists_interleaves firsts all s
    obtain ⟨last', lasts', chain', same'⟩ := trailing.exists_flatten lasts chain'
    refine ⟨_, chain_append_iff.mpr ⟨t, chain_append_iff.mpr ⟨s, still, chain⟩, chain'⟩,
      takes_aggregate_iff.mpr ⟨first', last', ⟨firsts', lasts', _, all', rfl⟩, ?_⟩⟩
    simp only [combine_results, List.flatMap_append, same, same']

/-! ## Order -/

/-- What holds of every aggregate. -/
structure Orderly (cs ts : List (Plan σ)) : Prop where
  /-- It cannot go on for ever. -/
  ends : Acc Next (aggregate cs ts)
  /-- However far it has come, it has succeeded or can go on in every state. -/
  goesOn : ∀ moves q, Run (aggregate cs ts) moves q →
    (∃ families, q.result? = some (.ok families)) ∨ ∀ s, ∃ s' q', Step q (s, s') q'
  /-- The concurrent parts make their moves in any order and then the trailing ones in theirs.
  The families of those that have not failed are merged in the order of the parts. -/
  yields : ∀ moves r, (aggregate cs ts).Takes ⟨moves, r⟩ ↔ ∃ first last,
    Scheduled cs ts moves first last ∧
      r = .ok (Family.merge ((first ++ last).flatMap Course.families))
  /-- A trailing part begins in the state to which all moves of the concurrent parts and of the
  trailing ones before it have led. -/
  effects : ∀ moves first last, Scheduled cs ts moves first last → ∀ s s', Chain s moves s' →
    ∀ earlier c later, last = earlier ++ c :: later → ∃ during t t',
      Interleaves (first.map Course.moves) during ∧
        Chain s (during ++ (earlier.map Course.moves).flatten) t ∧ Chain t c.moves t' ∧
          Chain t' (later.map Course.moves).flatten s'
  /-- Parts that fail and change nothing might as well not be there. -/
  failures : ∀ cs' ts', Without cs cs' → Without ts ts' → ∀ s s' r,
    (aggregate cs ts).Gathers s s' r ↔ (aggregate cs' ts').Gathers s s' r
  /-- The families are sorted by name. -/
  sorted : ∀ moves families, (aggregate cs ts).Takes ⟨moves, .ok families⟩ →
    (families.map (·.name)).Pairwise (· < ·)
  /-- They have metrics of their own kind only, if those of the parts have. -/
  kinds : ∀ moves first last, Scheduled cs ts moves first last →
    (∀ c ∈ first ++ last, ∀ f ∈ c.families, ∀ m ∈ f.metrics, m.value.kind = f.kind) →
      ∀ f ∈ Family.merge ((first ++ last).flatMap Course.families),
        ∀ m ∈ f.metrics, m.value.kind = f.kind
  /-- To run one part after the other without interruption is one of its orders. -/
  gathers : ∀ s, (aggregate cs ts).Gathers s ((aggregate cs ts).gatherer.gather s).1
    ((aggregate cs ts).gatherer.gather s).2

theorem Run.exists_aggregate {cs ts : List (Plan σ)} {moves : List (σ × σ)} {q : Plan σ}
    (run : Run (aggregate cs ts) moves q) : ∃ cs' ts', q = aggregate cs' ts' := by
  generalize start : aggregate cs ts = p at run
  induction run generalizing cs ts with
  | refl => exact ⟨cs, ts, start.symm⟩
  | step first _ ih =>
      subst start
      obtain ⟨cs', ts', rfl⟩ := first.exists_aggregate
      exact ih rfl

/-- Whatever its parts do and in whatever order, an aggregate yields the families of those that
have not failed, and its trailing parts see what all parts before them have done. -/
theorem orderly_aggregate (cs ts : List (Plan σ)) : Orderly cs ts := by
  have yields : ∀ moves r, (aggregate cs ts).Takes ⟨moves, r⟩ ↔ ∃ first last,
      Scheduled cs ts moves first last ∧
        r = .ok (Family.merge ((first ++ last).flatMap Course.families)) := by
    intro moves r
    simp only [takes_aggregate_iff, combine_results]
  constructor
  case ends => exact acc_next _
  case goesOn =>
    intro moves q run
    obtain ⟨cs', ts', rfl⟩ := run.exists_aggregate
    cases done : (aggregate cs' ts').result? with
    | none => exact .inr (exists_step _ done)
    | some r =>
        obtain ⟨first, last, -, -, rfl⟩ := result?_aggregate_eq_some_iff.mp done
        exact .inl ⟨_, rfl⟩
  case yields => exact yields
  case effects =>
    rintro moves first last ⟨-, -, during, interleaves, rfl⟩ s s' chain earlier c later rfl
    rw [List.map_append, List.map_cons, List.flatten_append, List.flatten_cons, ← List.append_assoc,
      chain_append_iff] at chain
    obtain ⟨t, before, after⟩ := chain
    obtain ⟨t', here, after⟩ := chain_append_iff.mp after
    exact ⟨during, t, t', interleaves, before, here, after⟩
  case failures => exact fun cs' ts' concurrent trailing => gathers_without concurrent trailing
  case sorted =>
    intro moves families taken
    obtain ⟨first, last, -, same⟩ := (yields moves _).mp taken
    cases same
    exact Family.names_merge_ascending _
  case kinds =>
    intro moves first last _ kinds
    refine Family.kinds_merge fun f there => ?_
    obtain ⟨c, among, family⟩ := List.mem_flatMap.mp there
    exact kinds c among f family
  case gathers => exact gathers_gather _

/-- A part that adds one to the state. -/
def adding : Plan Nat := source (.work (· + 1) fun _ => .done (.ok []))

/-- A part that shows the state under a name. -/
def showing (name : String) : Plan Nat :=
  source (.work id fun n => .done (.ok [.singleton name none ⟨.empty, .gauge (.ofNat n)⟩]))

/-- A part that fails. -/
def failing : Plan Nat := source (.done (.error (.scrape (.status 503))))

theorem failsIdly_failing : failing.FailsIdly := by
  rintro ⟨moves, r⟩ taken
  cases moves with
  | nil =>
      cases takes_nil_iff.mp taken
      exact ⟨nofun, _, rfl⟩
  | cons m moves =>
      obtain ⟨q, step, -⟩ := takes_cons_iff.mp taken
      exact nomatch (result?_of_step step : some _ = none)

/-- Two parts add to the state, one of them within a part that shows it afterwards, and a last
part shows it once more.  Parts that fail do not matter. -/
theorem orderly_adding :
    let inner := aggregate [adding] [showing "inner"]
    let families : List Family := [.singleton "inner" none ⟨.empty, .gauge (.ofNat 2)⟩,
      .singleton "outer" none ⟨.empty, .gauge (.ofNat 2)⟩]
    (aggregate [adding, failing, inner] [failing, showing "outer"]).Gathers 0 2 (.ok families) ∧
      (aggregate [adding, inner] [showing "outer"]).Gathers 0 2 (.ok families) := by
  intro inner families
  have orderly := orderly_aggregate [adding, failing, inner] [failing, showing "outer"]
  have all : (aggregate [adding, failing, inner] [failing, showing "outer"]).Gathers 0 2
      (.ok families) := orderly.gathers 0
  have concurrent : Without [adding, failing, inner] [adding, inner] :=
    .keep _ (.drop failsIdly_failing (.keep _ .nil))
  have trailing : Without [failing, showing "outer"] [showing "outer"] :=
    .drop failsIdly_failing (.keep _ .nil)
  exact ⟨all, (orderly.failures _ _ concurrent trailing 0 2 _).mp all⟩

end Plan

end Telemetry.Gathering
