import Mathlib.Algebra.Group.Nat.Defs
import Mathlib.Data.List.Induction
import Telemetry.Proofs.Agent.Run

/-!
# The balance of an agent

No envelope is lost uncounted.  An envelope that has come in has been dropped, or
waits, or has been handed to the pipeline, and one that has been handed over has been
skipped, or written, or could not be written.  The agent counts what came in, what
it dropped and what it wrote, and it tells what it could not write, so the counts can be
checked against each other at any time (`Balanced`).

Each count is the number of steps at which something is seen (`count_run`), and what
the queue holds is known by its `Accounts`.  Both are kept by a step, whatever the
connections and the consumer do in between.
-/

namespace Telemetry.Agent

/-! ## One step -/

/-- What a step does: nothing, or it takes an envelope in, or it handles the oldest one. -/
theorem step_cases (a : Agent) (s : Step) :
    (s.decoded? = none ∧ handed? a s = none ∧ failed? a s = none ∧ step a s = a) ∨
      (∃ connection e, s.decoded? = some (connection, e) ∧ handed? a s = none ∧
        failed? a s = none ∧ step a s =
          { a with
            queue := (Intake.accept a.queue a.diagnostics e).1
            diagnostics := (Intake.accept a.queue a.diagnostics e).2 }) ∨
      ∃ now e rest, s.decoded? = none ∧ a.queue.pop? = some (e, rest) ∧ handed? a s = some e ∧
        (step a s, failed? a s) = { a with queue := rest }.handle e now := by
  cases s with
  | line connection text =>
      cases decoded : Intake.envelope? text with
      | none =>
          refine .inl ⟨by rw [Step.decoded?, decoded]; rfl, rfl, rfl, ?_⟩
          simp only [step, ingest, Intake.ingest, decoded]
      | some e =>
          refine .inr (.inl ⟨connection, e, by rw [Step.decoded?, decoded]; rfl, rfl, rfl, ?_⟩)
          simp only [step, ingest, Intake.ingest, decoded]
  | consume now =>
      cases popped : a.queue.pop? with
      | none =>
          have idle : a.consume now = (a, none) := by simp only [consume, popped]
          refine .inl ⟨rfl, ?_, ?_, ?_⟩
          · simp only [handed?, popped, Option.map_none]
          · rw [failed?, idle]
          · rw [step, idle]
      | some entry =>
          obtain ⟨e, rest⟩ := entry
          refine .inr (.inr ⟨now, e, rest, rfl, rfl, ?_, ?_⟩)
          · simp only [handed?, popped, Option.map_some]
          · simp only [step, failed?, consume, popped]

/-- Handling an envelope leaves alone what waits, what is skipped and what the default tags are. -/
theorem handle_frame (a : Agent) (e : Envelope) (now : Nat) :
    (a.handle e now).1.queue = a.queue ∧
      (a.handle e now).1.pipeline.scrapedSources = a.pipeline.scrapedSources ∧
      (a.handle e now).1.collector.defaults = a.collector.defaults := by
  rcases handle_cases a e now with
    ⟨-, -, same⟩ | ⟨totals, e', -, -, -, ⟨ms, -, same⟩ | ⟨error, -, same⟩⟩
  all_goals
    rw [same]
    exact ⟨rfl, rfl, rfl⟩

theorem skips_step (a : Agent) (s : Step) : (step a s).skips = a.skips := by
  funext e
  rcases step_cases a s with
    ⟨-, -, -, same⟩ | ⟨connection, e, -, -, -, same⟩ | ⟨now, e, rest, -, -, -, handled⟩
  · rw [same]
  · rw [same, skips, skips]
  · have after : step a s = ({ a with queue := rest }.handle e now).1 := congrArg Prod.fst handled
    rw [after, skips, (handle_frame _ e now).2.1, skips]

/-! ## Counts -/

/-- The envelope with which an event happens in a step. -/
def counted? : Event → Agent → Step → Option Envelope
  | .ingress, _, s => s.decoded?.map Prod.snd
  | .dropped, a, s => dropped? a s
  | .originMappings, _, s => (s.decoded?.map Prod.snd).filter (·.IsMapped)
  | .envelopesWritten, a, s => written? a s
  | .expiredMetrics, _, _ | .expiredSources, _, _ => none

/-- A step counts an event once if it happens. -/
theorem count_step (event : Event) (a : Agent) (s : Step) :
    (step a s).diagnostics.tally.count event =
      a.diagnostics.tally.count event + if (counted? event a s).isSome then 1 else 0 := by
  rcases step_cases a s with
    ⟨decoded, handed, -, same⟩ | ⟨connection, e, decoded, handed, -, same⟩ |
    ⟨now, e, rest, decoded, popped, handed, handled⟩
  · cases event <;> simp [counted?, dropped?, written?, decoded, handed, same]
  · have full := a.queue.isSome_displaced?
    have written : written? a s = none := by rw [written?, handed]; rfl
    rw [same, Intake.accept_count]
    cases event with
    | originMappings =>
        by_cases mapped : e.IsMapped <;> simp [counted?, decoded, mapped, Option.filter]
    | dropped => simp [counted?, dropped?, decoded, full]
    | _ => simp [counted?, decoded, written]
  · have after : step a s = ({ a with queue := rest }.handle e now).1 := congrArg Prod.fst handled
    have others : event ≠ .envelopesWritten → counted? event a s = none := by
      intro other
      cases event <;> simp_all [counted?, dropped?]
    have written : written? a s = ((a.pipeline.process e).2).filter fun e =>
        (convert a.collector.defaults e).result.toOption.isSome := by
      rw [written?, handed]
      rfl
    rw [after]
    rcases handle_cases { a with queue := rest } e now with
      ⟨-, skipped, same⟩ | ⟨totals, e', -, processed, -, ⟨ms, result, same⟩ | ⟨error, result, same⟩⟩
    · rw [same]
      by_cases writing : event = .envelopesWritten
      · simp [writing, counted?, written, skipped]
      · simp [others writing]
    · rw [same, Diagnostics.count_count]
      by_cases writing : event = .envelopesWritten
      · simp [writing, counted?, written, processed, result, converted, Diagnostics.remark,
          Except.toOption]
      · simp [writing, others writing, converted, Diagnostics.remark]
    · rw [same]
      by_cases writing : event = .envelopesWritten
      · simp [writing, counted?, written, processed, result, converted, Diagnostics.remark,
          Except.toOption]
      · simp [others writing, converted, Diagnostics.remark]

/-- A run counts an event as often as it happens. -/
theorem count_run (event : Event) (a : Agent) (steps : List Step) :
    (run a steps).diagnostics.tally.count event =
      a.diagnostics.tally.count event + (along (counted? event) a steps).length.toUInt64 := by
  induction steps using List.reverseRecOn with
  | nil => simp [run, along]
  | append_singleton steps s ih =>
      rw [run_append_singleton, count_step, ih, along_append_singleton, List.length_append]
      cases counted? event (run a steps) s <;>
        simp [UInt64.add_assoc]

/-! ## What becomes of an envelope that is handed over -/

/-- An envelope that a step hands over is skipped, or written under its source, or could not be
written. -/
theorem handed_step (a : Agent) (s : Step) :
    (handed? a s).toList.length = ((handed? a s).toList.filter a.skips).length +
        (written? a s).toList.length + (failed? a s).toList.length ∧
      ((written? a s).toList.map (·.sourceId)).Sublist
        ((handed? a s).toList.map (·.sourceId)) := by
  rcases step_cases a s with
    ⟨-, handed, failed, -⟩ | ⟨connection, e, -, handed, failed, -⟩ |
    ⟨now, e, rest, -, -, handed, handled⟩
  · simp [written?, handed, failed]
  · simp [written?, handed, failed]
  · have failed : failed? a s = ({ a with queue := rest }.handle e now).2 :=
      congrArg Prod.snd handled
    rw [failed, written?, handed]
    rcases handle_cases { a with queue := rest } e now with
      ⟨skips, skipped, same⟩ |
      ⟨totals, e', passes, processed, source, ⟨ms, result, same⟩ | ⟨error, result, same⟩⟩
    · have skips : a.skips e = true := skips
      simp [skipped, same, skips]
    · have passes : a.skips e = false := passes
      simp [processed, same, passes, result, source, Option.filter, Except.toOption]
    · have passes : a.skips e = false := passes
      simp [processed, same, passes, result, Option.filter, Except.toOption]

theorem skips_run (a : Agent) (steps : List Step) : (run a steps).skips = a.skips := by
  induction steps using List.reverseRecOn with
  | nil => rfl
  | append_singleton steps s ih =>
      rw [run_append_singleton, skips_step, ih]

theorem handed_run (a : Agent) (steps : List Step) :
    (along handed? a steps).length = ((along handed? a steps).filter a.skips).length +
        (along written? a steps).length + (along failed? a steps).length ∧
      ((along written? a steps).map (·.sourceId)).Sublist
        ((along handed? a steps).map (·.sourceId)) := by
  induction steps using List.reverseRecOn with
  | nil => exact ⟨rfl, List.Sublist.refl _⟩
  | append_singleton steps s ih =>
      obtain ⟨lengths, sources⟩ := handed_step (run a steps) s
      rw [skips_run] at lengths
      simp only [along_append_singleton, List.length_append, List.filter_append, List.map_append]
      exact ⟨by omega, ih.2.append sources⟩

/-! ## What becomes of an envelope that comes in -/

/-- The envelopes that the lines of a run hold, with their connections. -/
def decoded (steps : List Step) : List (Nat × Envelope) := steps.filterMap Step.decoded?

/-- The envelopes as they are taken in. -/
def arrived (steps : List Step) : List (Nat × Envelope) :=
  (decoded steps).map fun d => (d.1, d.2.sourced)

theorem decoded_append_singleton (steps : List Step) (s : Step) :
    decoded (steps ++ [s]) = decoded steps ++ s.decoded?.toList := by
  rw [decoded, List.filterMap_append, ← decoded]
  cases seen : s.decoded? <;> simp [seen]

theorem arrived_append_singleton (steps : List Step) (s : Step) :
    arrived (steps ++ [s]) =
      arrived steps ++ (s.decoded?.map fun d => (d.1, d.2.sourced)).toList := by
  rw [arrived, decoded_append_singleton, List.map_append, ← arrived]
  cases s.decoded? <;> rfl

/-- Envelopes come in as lines hold them. -/
theorem along_ingress (a : Agent) (steps : List Step) :
    along (counted? .ingress) a steps = (decoded steps).map Prod.snd := by
  induction steps using List.reverseRecOn with
  | nil => rfl
  | append_singleton steps s ih =>
      rw [along_append_singleton, ih, decoded_append_singleton, List.map_append, counted?]
      cases s.decoded? <;> rfl

theorem along_originMappings (a : Agent) (steps : List Step) :
    along (counted? .originMappings) a steps =
      ((decoded steps).filter (·.2.IsMapped)).map Prod.snd := by
  induction steps using List.reverseRecOn with
  | nil => rfl
  | append_singleton steps s ih =>
      rw [along_append_singleton, ih, decoded_append_singleton, List.filter_append,
        List.map_append, counted?]
      cases s.decoded? with
      | none => rfl
      | some d => by_cases mapped : d.2.IsMapped <;> simp [mapped, Option.filter]

/-- Whatever comes in is accounted for after a run, and the queue counts what it drops. -/
theorem accounts_run {a : Agent} (empty : a.queue.items = []) (steps : List Step) :
    (∃ gone last, Accounts Prod.snd (arrived steps) (along handed? a steps)
      (along dropped? a steps) (run a steps).queue.items gone last) ∧
    (run a steps).queue.dropped = a.queue.dropped + (along dropped? a steps).length := by
  induction steps using List.reverseRecOn with
  | nil =>
      refine ⟨⟨[], [], ?_⟩, rfl⟩
      rw [run, List.foldl_nil, empty]
      exact Accounts.nil
  | append_singleton steps s ih =>
      obtain ⟨⟨gone, last, accounts⟩, count⟩ := ih
      simp only [along_append_singleton, run_append_singleton, arrived_append_singleton,
        List.length_append]
      rcases step_cases (run a steps) s with
        ⟨decoded, handed, -, same⟩ | ⟨connection, e, decoded, handed, -, same⟩ |
        ⟨now, e, rest, decoded, popped, handed, handled⟩
      · constructor
        · refine ⟨gone, last, ?_⟩
          simpa [decoded, handed, dropped?, same] using accounts
        · simpa [decoded, dropped?, same] using count
      · obtain ⟨gone', last', pushed⟩ := accounts.push (connection, e.sourced)
        constructor
        · refine ⟨gone', last', ?_⟩
          simpa [decoded, handed, dropped?, same, Intake.accept_queue] using pushed
        · simp only [dropped?, decoded, Option.bind_some, same, Intake.accept_queue,
            Queue.dropped_push, count]
          omega
      · obtain ⟨gone', last', taken⟩ := accounts.pop popped
        have after : (step (run a steps) s).queue = rest := by
          rw [show step (run a steps) s = ({ run a steps with queue := rest }.handle e now).1
            from congrArg Prod.fst handled, (handle_frame _ e now).1]
        constructor
        · refine ⟨gone', last', ?_⟩
          simpa [decoded, handed, dropped?, after] using taken
        · simpa [decoded, dropped?, after, (Queue.of_pop? popped).2] using count

/-! ## Runs -/

/-- Nothing has come in, and nothing has been counted. -/
structure Idle (a : Agent) : Prop where
  /-- Nothing waits. -/
  queue : a.queue.items = []
  /-- Nothing has been dropped. -/
  dropped : a.queue.dropped = 0
  /-- Every count is zero. -/
  tally : a.diagnostics.tally = {}

/-- An agent that has been set up is idle. -/
theorem idle_setUp {files : FileTree} {settings : Settings} {a : Agent}
    (h : setUp files settings = .ok a) : a.Idle := by
  simp only [setUp] at h
  cases scraper : Scraper.setUp files settings.scrape settings.defaultLabels .empty with
  | error e =>
      rw [scraper] at h
      cases h
  | ok made =>
      rw [scraper] at h
      cases h
      exact ⟨rfl, rfl, rfl⟩

/-- The counts of an agent after a run agree with each other and with what has happened. -/
structure Balanced (a : Agent) (steps : List Step) : Prop where
  /-- What came in is counted: each line with an envelope. -/
  ingress : (run a steps).diagnostics.tally.ingress.toNat = (decoded steps).length
  /-- What came in has been dropped, or waits, or has been handed to the pipeline. -/
  whereabouts : (decoded steps).length = (run a steps).diagnostics.tally.dropped.toNat +
    (run a steps).queue.pending + (along handed? a steps).length
  /-- What was handed over has been skipped, or written, or could not be written. -/
  outcome : (along handed? a steps).length = ((along handed? a steps).filter a.skips).length +
    (run a steps).diagnostics.tally.envelopesWritten.toNat + (along failed? a steps).length
  /-- The queue counts the same drops. -/
  dropped : (run a steps).queue.dropped = (run a steps).diagnostics.tally.dropped.toNat
  /-- An envelope that takes its source from its tags is counted. -/
  originMappings : (run a steps).diagnostics.tally.originMappings.toNat =
    ((decoded steps).filter (·.2.IsMapped)).length
  /-- What is written is written under the source with which it was handed over. -/
  sources : ((along written? a steps).map (·.sourceId)).Sublist
    ((along handed? a steps).map (·.sourceId))
  /-- What was handed over came in in this order, and is missing of what came in exactly what was
  dropped and what waits.  This is so for each connection too. -/
  order : ∃ gone last, Accounts Prod.snd (arrived steps) (along handed? a steps)
      (along dropped? a steps) (run a steps).queue.items gone last ∧
    ∀ connection, ((withFate gone .taken).filter (·.1 = connection)).Sublist
      ((arrived steps).filter (·.1 = connection))

/-- No envelope is lost uncounted: whatever order the connections and the consumer take turns in,
the agent balances after every step. -/
theorem balanced_run {a : Agent} (idle : a.Idle) (steps : List Step)
    (few : (decoded steps).length < 2 ^ 64) : Balanced a steps := by
  obtain ⟨⟨gone, last, accounts⟩, dropped⟩ := accounts_run idle.queue steps
  obtain ⟨outcome, sources⟩ := handed_run a steps
  have whereabouts := accounts.length_arrived
  rw [arrived, List.length_map] at whereabouts
  -- Nothing happens more often than envelopes come in, so no count starts over.
  have count : ∀ event, (along (counted? event) a steps).length ≤ (decoded steps).length →
      ((run a steps).diagnostics.tally.count event).toNat =
        (along (counted? event) a steps).length := by
    intro event bound
    have zero : a.diagnostics.tally.count event = 0 := by
      rw [idle.tally]
      cases event <;> rfl
    rw [count_run, zero, UInt64.zero_add, UInt64.toNat_ofNat', Nat.mod_eq_of_lt]
    omega
  have droppedCount : (run a steps).diagnostics.tally.dropped.toNat = (along dropped? a steps).length :=
    count .dropped (by change (along dropped? a steps).length ≤ _; omega)
  have writtenCount : (run a steps).diagnostics.tally.envelopesWritten.toNat =
      (along written? a steps).length :=
    count .envelopesWritten (by change (along written? a steps).length ≤ _; omega)
  have ingressCount := count .ingress (Nat.le_of_eq (by rw [along_ingress, List.length_map]))
  have mappedCount := count .originMappings (by
    rw [along_originMappings, List.length_map]
    exact List.length_filter_le _ _)
  rw [along_ingress, List.length_map] at ingressCount
  rw [along_originMappings, List.length_map] at mappedCount
  refine ⟨ingressCount, ?_, ?_, ?_, mappedCount, sources, gone, last, accounts, ?_⟩
  · rw [droppedCount]
    exact whereabouts
  · rw [writtenCount]
    exact outcome
  · rw [dropped, idle.dropped, droppedCount, Nat.zero_add]
  · intro connection
    rw [← accounts.arrived, List.filter_append]
    exact ((withFate_sublist gone .taken).filter _).trans (List.sublist_append_left _ _)

/-- Two connections and a consumer that takes three envelopes and then falls behind. -/
def fallingBehind : List Step :=
  [.line 0 "\x7b\"tags\":\x7b\"origin\":\"web\"\x7d\x7d".toList,
    .line 1 "not json".toList, .consume 0,
    .line 1 "\x7b\"source_id\":\"router\"\x7d".toList, .consume 1, .line 0 " ".toList,
    .line 0 "\x7b\"timer\":[\"5xx\",0,1]\x7d".toList, .consume 2, .consume 3,
    .line 0 "\x7b\x7d".toList, .line 1 "\x7b\x7d".toList, .line 0 "\x7b\x7d".toList]

/-- Of six envelopes one is written, one is skipped, one cannot be written, one is dropped, and two
wait. -/
theorem balanced_fallingBehind :
    smallAgent.Idle ∧ (decoded fallingBehind).length < 2 ^ 64 ∧ Balanced smallAgent fallingBehind ∧
      (along handed? smallAgent fallingBehind).length = 3 ∧
      (run smallAgent fallingBehind).diagnostics.tally = ⟨6, 1, 1, 0, 0, 1⟩ := by
  have idle : smallAgent.Idle := ⟨rfl, rfl, rfl⟩
  have few : (decoded fallingBehind).length < 2 ^ 64 := by decide +kernel
  have balanced := balanced_run idle fallingBehind few
  refine ⟨idle, few, balanced, ?_, ?_⟩
  · decide +kernel
  · decide +kernel

end Telemetry.Agent
