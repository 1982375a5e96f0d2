import Mathlib.Data.List.Forall2
import Telemetry.Proofs.Agent.Run
import Telemetry.Proofs.Collector.AllOrNothing
import Telemetry.Proofs.Totals

/-!
# What the filters hide

The pipeline has two filters: it skips the envelopes of sources that are scraped, and it
takes tags away from timers if the tags that timers keep are listed.  What is filtered
leaves no trace at all.  Two sequences of envelopes that differ in nothing else have
the same outcome (`filters_hide`): the same comes out of the pipeline, and the agents
are the same afterwards, with their running totals, their stores and their counts.

So two runs are compared, which is done in two steps.

* An envelope that is skipped changes nothing, so a run is that of the envelopes that
  remain (`deliver_remaining`).
* Envelopes that look alike are handled alike (`handleIn_congr`), so runs of envelopes
  that look alike one by one go the same way (`deliver_congr`).

What is skipped and hidden later on stays the same, since an envelope changes nothing in
the pipeline but its totals (`Pipeline.process_filters`).
-/

namespace Telemetry

namespace Agent

/-! ## Runs -/

/-- An envelope that is handed over, with the time at which this is done and the orders in which
its tags and its readings are visited. -/
structure Delivery where
  /-- The envelope. -/
  envelope : Envelope
  /-- The time. -/
  now : Nat
  /-- The orders. -/
  order : ConversionOrder

/-- Processes an envelope and writes it, unless it is skipped, and visits its tags and its readings
in given orders. -/
def handleIn (order : ConversionOrder) (a : Agent) (e : Envelope) (now : Nat) :
    Agent × Option WriteFailure :=
  let (p, processed) := a.pipeline.process e
  match processed with
  | none => ({ a with pipeline := p }, none)
  | some e =>
    let (c, d, result) := a.collector.writeIn order a.diagnostics e now
    let failure := match result with
      | .ok _ => none
      | .error error => some ⟨e.sourceId, error⟩
    ({ a with pipeline := p, collector := c, diagnostics := d }, failure)

theorem handle_eq_handleIn (a : Agent) (e : Envelope) (now : Nat) :
    a.handle e now = a.handleIn ⟨id, id⟩ e now := rfl

/-- What has come of some envelopes. -/
structure Outcome where
  /-- The agent, with its running totals, its store and its counts. -/
  agent : Agent
  /-- What has come out of the pipeline, in order. -/
  passed : List Envelope
  /-- What could not be written, in order. -/
  failures : List WriteFailure

/-- Hands some envelopes over, one after the other. -/
def deliver (a : Agent) : List Delivery → Outcome
  | [] => ⟨a, [], []⟩
  | d :: ds =>
    let handled := a.handleIn d.order d.envelope d.now
    let rest := handled.1.deliver ds
    ⟨rest.agent, (a.pipeline.process d.envelope).2.toList ++ rest.passed,
      handled.2.toList ++ rest.failures⟩

/-- What is not skipped. -/
def remaining (a : Agent) (ds : List Delivery) : List Delivery :=
  ds.filter fun d => !a.skips d.envelope

/-- Whether envelopes that look alike are handed over at the same time, and are visited in the same
orders. -/
structure Delivery.LooksLike (allowed : Option (List String)) (d d' : Delivery) : Prop where
  /-- The envelopes look alike. -/
  envelope : d.envelope.LooksLike allowed d'.envelope
  /-- It is the same time. -/
  now : d.now = d'.now
  /-- The orders are the same. -/
  order : d.order = d'.order

/-- Whether two sequences of envelopes look alike but for those that are skipped. -/
def LookAlike (a : Agent) (ds ds' : List Delivery) : Prop :=
  List.Forall₂ (Delivery.LooksLike a.pipeline.timerTags) (a.remaining ds) (a.remaining ds')

/-! ## One envelope -/

variable {a : Agent} {e e' : Envelope}

theorem process_of_skips (skips : a.skips e = true) :
    a.pipeline.process e = (a.pipeline, none) := by
  have scraped : a.pipeline.scrapedSources.contains e.sourceId = true := skips
  exact Pipeline.process_of_scraped (List.contains_iff_mem.mp scraped)

/-- An envelope that is skipped changes nothing. -/
theorem handleIn_of_skips (skips : a.skips e = true) (order : ConversionOrder) (now : Nat) :
    a.handleIn order e now = (a, none) := by
  simp only [handleIn, process_of_skips skips]

/-- An envelope that is not skipped comes out of the pipeline. -/
theorem exists_passed (stays : a.skips e = false) :
    ∃ e', (a.pipeline.process e).2 = some e' := by
  rcases a.pipeline.process_cases e with ⟨skips, -⟩ | ⟨totals, e', -, processed, -⟩
  · exact absurd (stays.symm.trans skips) Bool.false_ne_true
  · exact ⟨e', congrArg Prod.snd processed⟩

/-- Handling an envelope is processing it, as far as the pipeline goes. -/
theorem pipeline_handleIn (order : ConversionOrder) (a : Agent) (e : Envelope) (now : Nat) :
    (a.handleIn order e now).1.pipeline = (a.pipeline.process e).1 := by
  rcases a.pipeline.process_cases e with ⟨-, processed⟩ | ⟨totals, e', -, processed, -⟩
  · simp only [handleIn, processed]
  · simp only [handleIn, processed]

theorem timerTags_handleIn (order : ConversionOrder) (a : Agent) (e : Envelope) (now : Nat) :
    (a.handleIn order e now).1.pipeline.timerTags = a.pipeline.timerTags := by
  rw [pipeline_handleIn, (a.pipeline.process_filters e).2]

theorem remaining_handleIn (order : ConversionOrder) (a : Agent) (e : Envelope) (now : Nat) :
    (a.handleIn order e now).1.remaining = a.remaining := by
  funext ds
  simp only [remaining, skips, pipeline_handleIn, (a.pipeline.process_filters e).1]

/-- Envelopes that look alike are handled alike. -/
theorem handleIn_congr (alike : e.LooksLike a.pipeline.timerTags e') (order : ConversionOrder)
    (now : Nat) : a.handleIn order e now = a.handleIn order e' now := by
  simp only [handleIn, Pipeline.process_congr alike]

/-! ## Two runs -/

theorem remaining_cons_of_skips {d : Delivery} (skips : a.skips d.envelope = true)
    (ds : List Delivery) : a.remaining (d :: ds) = a.remaining ds :=
  List.filter_cons_of_neg (by simp [skips])

theorem remaining_cons_of_stays {d : Delivery} (stays : a.skips d.envelope = false)
    (ds : List Delivery) : a.remaining (d :: ds) = d :: a.remaining ds :=
  List.filter_cons_of_pos (by simp [stays])

/-- A run is that of the envelopes that remain. -/
theorem deliver_remaining (a : Agent) (ds : List Delivery) :
    a.deliver (a.remaining ds) = a.deliver ds := by
  induction ds generalizing a with
  | nil => rfl
  | cons d ds ih =>
      cases skips : a.skips d.envelope with
      | true =>
          rw [remaining_cons_of_skips skips, ih, deliver, handleIn_of_skips skips,
            process_of_skips skips]
          rfl
      | false =>
          have later := ih (a.handleIn d.order d.envelope d.now).1
          rw [remaining_handleIn] at later
          rw [remaining_cons_of_stays skips, deliver, deliver, later]

/-- Each envelope that remains comes out of the pipeline, and no other one. -/
theorem length_passed (a : Agent) (ds : List Delivery) :
    (a.deliver ds).passed.length = (a.remaining ds).length := by
  induction ds generalizing a with
  | nil => rfl
  | cons d ds ih =>
      have later := ih (a.handleIn d.order d.envelope d.now).1
      rw [remaining_handleIn] at later
      rw [deliver, List.length_append, later]
      cases skips : a.skips d.envelope with
      | true =>
          rw [remaining_cons_of_skips skips, process_of_skips skips]
          exact Nat.zero_add _
      | false =>
          obtain ⟨e', passed⟩ := exists_passed skips
          rw [remaining_cons_of_stays skips, passed]
          exact Nat.add_comm _ _

/-- Envelopes that look alike one by one have the same outcome. -/
theorem deliver_congr {allowed : Option (List String)} {ds ds' : List Delivery}
    (alike : List.Forall₂ (Delivery.LooksLike allowed) ds ds') (a : Agent)
    (hidden : a.pipeline.timerTags = allowed) : a.deliver ds = a.deliver ds' := by
  induction alike generalizing a with
  | nil => rfl
  | @cons d d' ds ds' same _ ih =>
      have envelopes : d.envelope.LooksLike a.pipeline.timerTags d'.envelope :=
        hidden ▸ same.envelope
      rw [deliver, deliver, Pipeline.process_congr envelopes, handleIn_congr envelopes, same.now,
        same.order, ih _ ((timerTags_handleIn ..).trans hidden)]

/-- What the filters hide makes no difference.  Each envelope that remains comes out of the
pipeline, as the same in both runs. -/
theorem filters_hide (a : Agent) {ds ds' : List Delivery} (alike : a.LookAlike ds ds') :
    a.deliver ds = a.deliver ds' ∧ (a.deliver ds).passed.length = (a.remaining ds).length := by
  refine ⟨?_, length_passed a ds⟩
  calc a.deliver ds = a.deliver (a.remaining ds) := (deliver_remaining a ds).symm
    _ = a.deliver (a.remaining ds') := deliver_congr alike a rfl
    _ = a.deliver ds' := deliver_remaining a ds'

/-- An agent that leaves one source to be scraped, and of the tags of timers keeps one. -/
def filteringAgent : Agent :=
  { smallAgent with pipeline := { scrapedSources := ["router"], timerTags := some ["method"] } }

/-- A timer with the tag that is kept, and with others. -/
def timerWith (others : List (String × String)) : Envelope :=
  ⟨"svc", "", .ofList (("method", "GET") :: others), some (.timer ⟨"http", 0, 2000000⟩)⟩

/-- Two increments, and between them a timer and an increment of the source that is scraped. -/
def scrapedBetween : List Delivery :=
  [⟨requestsOf 2 0, 0, ⟨id, id⟩⟩, ⟨{ requestsOf 9 0 with sourceId := "router" }, 1, ⟨id, id⟩⟩,
    ⟨timerWith [("uri", "/users/1")], 2, turned⟩, ⟨requestsOf 3 0, 3, ⟨id, id⟩⟩]

/-- The same two increments, and between them the timer with tags that would be refused and
counted, and a timer of the source that is scraped. -/
def refusedTags : List Delivery :=
  [⟨requestsOf 2 0, 0, ⟨id, id⟩⟩, ⟨timerWith [("1st", "a"), ("__trace", "x")], 2, turned⟩,
    ⟨{ timerWith [] with sourceId := "router" }, 2, ⟨id, id⟩⟩, ⟨requestsOf 3 0, 3, ⟨id, id⟩⟩]

/-- The increments add up as if there were no other source, and the timer is written with the tag
that is kept and without a remark. -/
theorem filters_hide_refusedTags :
    filteringAgent.LookAlike scrapedBetween refusedTags ∧
      filteringAgent.deliver scrapedBetween = filteringAgent.deliver refusedTags ∧
      (filteringAgent.deliver scrapedBetween).passed =
        [requestsOf 2 2, timerWith [], requestsOf 3 5] ∧
      (filteringAgent.deliver refusedTags).agent.diagnostics.registry.entries = [] ∧
      (filteringAgent.deliver refusedTags).agent.diagnostics.tally.envelopesWritten = 3 := by
  have alike : filteringAgent.LookAlike scrapedBetween refusedTags := by
    refine .cons ⟨?_, rfl, rfl⟩ (.cons ⟨?_, rfl, rfl⟩ (.cons ⟨?_, rfl, rfl⟩ .nil))
    all_goals exact Pipeline.trimTags_eq_iff.mp (by decide +kernel)
  refine ⟨alike, (filters_hide _ alike).1, ?_, by decide +kernel, by decide +kernel⟩
  simp [deliver, scrapedBetween, pipeline_handleIn, filteringAgent, Pipeline.process,
    Pipeline.trimTags, requestsOf, timerWith, RunningTotals.process, RunningTotals.makeRoom,
    RunningTotals.limit, RunningTotals.last, RunningTotals.next, RunningTotals.keyOf,
    Std.HashMap.size_insert]
  decide

end Agent

end Telemetry
