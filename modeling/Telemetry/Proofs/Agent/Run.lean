import Mathlib.Data.List.Basic
import Telemetry.Agent
import Telemetry.Proofs.Collector.Run
import Telemetry.Proofs.Pipeline
import Telemetry.Proofs.Queue

/-!
# Runs of the agent

A *step* of the agent is a line that comes in over a connection, or the consumption
of an envelope at a time, and a *run* is a list of steps.  Connections take turns in
any order, among each other and with the consumer: every list of steps is a run.

What is seen of a run is what is seen of its steps (`along`).  A step may bring an
envelope in (`Step.decoded?`), drop one (`dropped?`), hand one to the pipeline
(`handed?`), write one (`written?`) or fail to write one (`failed?`).

`handle_cases` says all that can become of an envelope that is handed over: its
source is scraped and nothing happens, or it is written, or it cannot be written.
-/

namespace Telemetry

/-! ## Counting -/

theorem Diagnostics.count_count (d : Diagnostics) (event e : Event) (n : UInt64) :
    (d.count event n).tally.count e =
      if e = event then d.tally.count e + n else d.tally.count e :=
  d.tally.count_add event e n

/-! ## Taking in -/

/-- An envelope as it is taken in.  One without a source takes the source that its tag for the
origin names. -/
def Envelope.sourced (e : Envelope) : Envelope :=
  if e.sourceId = "" then
    match e.tags.get? Intake.originTag with
    | some source => { e with sourceId := source }
    | none => e
  else e

/-- Whether an envelope takes its source from its tags. -/
def Envelope.IsMapped (e : Envelope) : Prop :=
  e.sourceId = "" ∧ (e.tags.get? Intake.originTag).isSome

instance (e : Envelope) : Decidable e.IsMapped := inferInstanceAs (Decidable (_ ∧ _))

namespace Intake

theorem origin?_eq (e : Envelope) :
    origin? e = if e.sourceId = "" then e.tags.get? originTag else none := by
  simp only [origin?, String.isEmpty_iff]

theorem accept_queue (q : Queue Envelope) (d : Diagnostics) (e : Envelope) :
    (accept q d e).1 = q.push e.sourced := by
  simp only [accept, origin?_eq, Envelope.sourced]
  by_cases empty : e.sourceId = ""
  · rw [if_pos empty, if_pos empty]
    cases e.tags.get? originTag <;> rfl
  · rw [if_neg empty, if_neg empty]

theorem isMapped_iff {e : Envelope} : e.IsMapped ↔ (origin? e).isSome := by
  rw [origin?_eq, Envelope.IsMapped]
  by_cases empty : e.sourceId = "" <;> simp [empty]

/-- What a line with an envelope adds to the counts. -/
theorem accept_count (q : Queue Envelope) (d : Diagnostics) (e : Envelope) (event : Event) :
    (accept q d e).2.tally.count event = d.tally.count event +
      match event with
      | .ingress => 1
      | .dropped => if q.isFull then 1 else 0
      | .originMappings => if e.IsMapped then 1 else 0
      | _ => 0 := by
  simp only [accept, isMapped_iff]
  cases origin? e with
  | none => cases q.isFull <;> cases event <;> simp [Diagnostics.count_count]
  | some source => cases q.isFull <;> cases event <;> simp [Diagnostics.count_count]

end Intake

namespace Agent

/-! ## Steps -/

/-- What happens to an agent. -/
inductive Step where
  /-- A line comes in over a connection. -/
  | line (connection : Nat) (text : List Char)
  /-- An envelope is consumed, if one waits. -/
  | consume (now : Nat)
  deriving DecidableEq

/-- An agent after a step. -/
def step (a : Agent) : Step → Agent
  | .line _ text => a.ingest text
  | .consume now => (a.consume now).1

/-- An agent after a run. -/
def run (a : Agent) (steps : List Step) : Agent := steps.foldl step a

theorem run_append_singleton (a : Agent) (steps : List Step) (s : Step) :
    run a (steps ++ [s]) = step (run a steps) s := by
  simp only [run, List.foldl_append, List.foldl_cons, List.foldl_nil]

/-- What is seen along a run, of what can be seen of a step. -/
def along {β : Type} (see : Agent → Step → Option β) : Agent → List Step → List β
  | _, [] => []
  | a, s :: steps => (see a s).toList ++ along see (step a s) steps

theorem along_append_singleton {β : Type} (see : Agent → Step → Option β) (a : Agent)
    (steps : List Step) (s : Step) :
    along see a (steps ++ [s]) = along see a steps ++ (see (run a steps) s).toList := by
  induction steps generalizing a with
  | nil => simp [along, run]
  | cons s' steps ih => simp only [List.cons_append, along, ih, List.append_assoc, run,
      List.foldl_cons]

/-! ## What is seen of a step -/

/-- The envelope that a step brings in, with its connection. -/
def Step.decoded? : Step → Option (Nat × Envelope)
  | .line connection text => (Intake.envelope? text).map (connection, ·)
  | .consume _ => none

/-- The envelope that a step drops. -/
def dropped? (a : Agent) (s : Step) : Option Envelope :=
  s.decoded?.bind fun _ => a.queue.displaced?

/-- The envelope that a step hands to the pipeline. -/
def handed? (a : Agent) : Step → Option Envelope
  | .line _ _ => none
  | .consume _ => a.queue.pop?.map Prod.fst

/-- The envelope that a step writes, as it comes out of the pipeline. -/
def written? (a : Agent) (s : Step) : Option Envelope :=
  ((handed? a s).bind fun e => (a.pipeline.process e).2).filter fun e =>
    (convert a.collector.defaults e).result.toOption.isSome

/-- The failure to write the envelope of a step. -/
def failed? (a : Agent) : Step → Option WriteFailure
  | .line _ _ => none
  | .consume now => (a.consume now).2

/-- Whether the source of an envelope is scraped. -/
def skips (a : Agent) (e : Envelope) : Bool := a.pipeline.scrapedSources.contains e.sourceId

/-! ## Handling -/

/-- An agent after an envelope has come out of the pipeline and has been converted. -/
def converted (a : Agent) (totals : RunningTotals) (e : Envelope) : Agent :=
  { a with
    pipeline := { a.pipeline with totals := totals }
    diagnostics := a.diagnostics.remark e.sourceId (convert a.collector.defaults e).remarks }

/-- What can become of an envelope that is handed over. -/
theorem handle_cases (a : Agent) (e : Envelope) (now : Nat) :
    (a.skips e = true ∧ a.pipeline.process e = (a.pipeline, none) ∧ a.handle e now = (a, none)) ∨
      ∃ totals e', a.skips e = false ∧
        a.pipeline.process e = ({ a.pipeline with totals := totals }, some e') ∧
        e'.sourceId = e.sourceId ∧
        ((∃ ms, (convert a.collector.defaults e').result = .ok ms ∧
          a.handle e now = ({ a.converted totals e' with
            collector := { a.collector with store := a.collector.store.write e'.sourceId now ms }
            diagnostics := (a.converted totals e').diagnostics.count .envelopesWritten 1 }, none)) ∨
        ∃ error, (convert a.collector.defaults e').result = .error error ∧
          a.handle e now = (a.converted totals e', some ⟨e'.sourceId, error⟩)) := by
  rcases a.pipeline.process_cases e with
    ⟨scraped, processed⟩ | ⟨totals, e', scraped, processed, source⟩
  · refine .inl ⟨scraped, processed, ?_⟩
    simp only [handle, processed]
  · refine .inr ⟨totals, e', scraped, processed, source, ?_⟩
    cases result : (convert a.collector.defaults e').result with
    | ok ms =>
        refine .inl ⟨ms, rfl, ?_⟩
        simp only [handle, processed, Collector.write, result]
        rfl
    | error error =>
        refine .inr ⟨error, rfl, ?_⟩
        simp only [handle, processed, Collector.write, result]
        rfl

/-! ## A small agent -/

/-- An agent with room for two envelopes that leaves one source to be scraped. -/
def smallAgent : Agent where
  queue := .new 2
  pipeline := { scrapedSources := ["router"] }
  collector := {}
  scraper := ⟨[], .empty, false⟩
  diagnostics := {}

end Agent

end Telemetry
