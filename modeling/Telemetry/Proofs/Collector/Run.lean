import Telemetry.Collector

/-!
# Runs of the collector

A *step* of the collector is the writing of an envelope or a sweep, each at a
time, and a *run* is a list of steps.  The times of a run do not decrease
(`Nondecreasing`), which is all that is known of a clock.  A run starts with the
empty store and with any diagnostics.
-/

namespace Telemetry.Collector

/-- What happens to a collector. -/
inductive Step where
  /-- An envelope is written. -/
  | write (envelope : Envelope) (now : Nat)
  /-- What is too old is taken away. -/
  | expire (now : Nat)
  deriving DecidableEq

/-- When a step happens. -/
def Step.time : Step → Nat
  | write _ now => now
  | expire now => now

/-- The times of a run do not decrease. -/
def Nondecreasing (steps : List Step) : Prop := steps.Pairwise fun a b => a.time ≤ b.time

instance (steps : List Step) : Decidable (Nondecreasing steps) :=
  inferInstanceAs (Decidable (steps.Pairwise _))

/-- The collector of some default tags and a time to live, before anything is written. -/
def fresh (defaults : Dict String) (ttl : Nat) : Collector := ⟨defaults, ttl, .empty⟩

/-- A collector and its diagnostics after a step. -/
def step (state : Collector × Diagnostics) : Step → Collector × Diagnostics
  | .write envelope now =>
      ((state.1.write state.2 envelope now).1, (state.1.write state.2 envelope now).2.1)
  | .expire now => ((state.1.expire state.2 now).1, (state.1.expire state.2 now).2.1)

/-- A collector and its diagnostics after a run. -/
def run (state : Collector × Diagnostics) (steps : List Step) : Collector × Diagnostics :=
  steps.foldl step state

theorem run_append_singleton (state : Collector × Diagnostics) (steps : List Step) (s : Step) :
    run state (steps ++ [s]) = step (run state steps) s := by
  simp only [run, List.foldl_append, List.foldl_cons, List.foldl_nil]

/-- A write changes nothing but the store, and that only by what the envelope converts to. -/
theorem write_eq (c : Collector) (d : Diagnostics) (e : Envelope) (now : Nat) :
    (c.write d e now).1 =
      match (convert c.defaults e).result with
      | .error _ => c
      | .ok ms => { c with store := c.store.write e.sourceId now ms } := by
  simp only [write]
  cases (convert c.defaults e).result <;> rfl

theorem step_defaults (state : Collector × Diagnostics) (s : Step) :
    (step state s).1.defaults = state.1.defaults ∧ (step state s).1.ttl = state.1.ttl := by
  cases s with
  | write e now =>
      simp only [step, write_eq]
      cases (convert state.1.defaults e).result <;> exact ⟨rfl, rfl⟩
  | expire now => exact ⟨rfl, rfl⟩

/-- A run keeps the default tags and the time to live. -/
theorem run_defaults (state : Collector × Diagnostics) (steps : List Step) :
    (run state steps).1.defaults = state.1.defaults ∧ (run state steps).1.ttl = state.1.ttl := by
  induction steps generalizing state with
  | nil => exact ⟨rfl, rfl⟩
  | cons s steps ih =>
      obtain ⟨defaults, ttl⟩ := ih (step state s)
      exact ⟨defaults.trans (step_defaults state s).1, ttl.trans (step_defaults state s).2⟩

end Telemetry.Collector
