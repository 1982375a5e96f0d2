import Telemetry.Proofs.Agent.Balance
import Telemetry.Proofs.Conversion.Remarks
import Telemetry.Proofs.Merging
import Telemetry.Proofs.Scrape.Isolation
import Telemetry.Proofs.Settings

/-!
# Failures that show

The counts of scrapes that have failed are gathered after the scrapes, so that a
gathering tells of its own failures too.  Whatever an agent does, the count of a target
is the number of its scrapes that have failed (`get?_moves`): envelopes and sweeps leave
it alone, since a remark is counted under another name (`get?_remark`), and a round adds
one if the scrape of the target has failed.

To be gathered last is also to be merged last.  The counts are shown by what is merged
unless a family that comes before has their name under another kind, whether the
collector exposes it or a target (`failures_shown`).
-/

namespace Telemetry

open Scrape

/-! ## The counts in the registry -/

/-- Remarks are counted under other names. -/
theorem Diagnostics.get?_remark (d : Diagnostics) (source : String) (remarks : List Remark)
    (sourceId : String) :
    (d.remark source remarks).registry.get? (failuresId sourceId) =
      d.registry.get? (failuresId sourceId) := by
  refine (d.gains_remark source remarks).others _ fun r same => ?_
  obtain ⟨named, -⟩ := Identity.of_of_eq same
  cases r with
  | modified => exact absurd named (by decide)
  | leftOut => exact absurd named (by decide)

namespace Registry

/-- Everything that is counted is shown as a counter. -/
theorem kind_of_mem_families {r : Registry} {tally : Tally} {f : Family}
    (there : f ∈ r.families tally) : f.kind = .counter :=
  (lists_familiesIn r.values Event.all tally).kinds f there

/-- A counter of the registry is shown with its value. -/
theorem shows_families {r : Registry} {id : Identity} {c : Counter} (there : r.get? id = some c)
    (tally : Tally) :
    Family.Shows (r.families tally) c.name .counter
      ⟨c.labels, .counter (.ofNat c.value.toNat)⟩ :=
  (lists_familiesIn r.values Event.all tally).shows (Table.mem_values_iff.mpr ⟨id, there⟩)

end Registry

namespace Agent

/-! ## Moves -/

/-- An agent after a round of a scraper. -/
def scraped (a : Agent) (s : Scraper) (round : Round) : Agent :=
  { a with diagnostics :=
      { a.diagnostics with registry := (s.gatherIn round a.diagnostics.registry).1 } }

/-- The gatherer of a scraper makes a round, in which its targets give what the network answers. -/
theorem gather_scrapeGatherer (network : Network) (s : Scraper) (a : Agent) :
    ((scrapeGatherer network s).gather a).1 =
      a.scraped s { transfer := fun t => network (.of s.identified t) } := rfl

/-- What an agent does. -/
inductive Move (s : Scraper) where
  /-- A line comes in, or an envelope is consumed. -/
  | step (step : Step)
  /-- What is too old is taken away. -/
  | sweep (now : Nat)
  /-- All targets are scraped, or one of them alone. -/
  | scrape (call : Scraper.Call s)

variable {s : Scraper}

/-- An agent after a move. -/
def move (a : Agent) : Move s → Agent
  | .step step => a.step step
  | .sweep now => a.sweep now
  | .scrape call => a.scraped call.scraper call.round

/-- Whether a move scrapes a target and fails. -/
def Move.fails : Move s → Target → Bool
  | .step _, _ | .sweep _, _ => false
  | .scrape call, t => call.fails t

theorem get?_step (a : Agent) (step : Step) (sourceId : String) :
    (a.step step).diagnostics.registry.get? (failuresId sourceId) =
      a.diagnostics.registry.get? (failuresId sourceId) := by
  rcases step_cases a step with
    ⟨-, -, -, same⟩ | ⟨connection, e, -, -, -, same⟩ | ⟨now, e, rest, -, -, -, handled⟩
  · rw [same]
  · rw [same]
    dsimp only [Intake.accept]
    cases Intake.origin? e <;> cases a.queue.isFull <;> rfl
  · have after : a.step step = ({ a with queue := rest }.handle e now).1 :=
      congrArg Prod.fst handled
    rw [after]
    rcases handle_cases { a with queue := rest } e now with
      ⟨-, -, same⟩ | ⟨totals, e', -, -, -, ⟨ms, -, same⟩ | ⟨error, -, same⟩⟩
    · rw [same]
    · rw [same]
      exact Diagnostics.get?_remark _ _ _ _
    · rw [same]
      exact Diagnostics.get?_remark _ _ _ _

/-- A move adds one to the count of a target if it scrapes the target and fails. -/
theorem get?_move (distinct : (s.targets.map (·.sourceId)).Nodup) {t : Target}
    (target : t ∈ s.targets) (m : Move s) {a : Agent} {n : UInt64}
    (there : a.diagnostics.registry.get? (failuresId t.sourceId) =
      some (failuresCounter t.sourceId n)) :
    (a.move m).diagnostics.registry.get? (failuresId t.sourceId) =
      some (failuresCounter t.sourceId (n + if m.fails t then 1 else 0)) := by
  cases m with
  | step step =>
      refine (get?_step a step t.sourceId).trans (there.trans ?_)
      rw [Move.fails, if_neg Bool.false_ne_true, UInt64.add_zero]
  | sweep now =>
      refine there.trans ?_
      rw [Move.fails, if_neg Bool.false_ne_true, UInt64.add_zero]
  | scrape call => exact Scraper.get?_call distinct target call there

/-- The count of a target is the number of its scrapes that have failed. -/
theorem get?_moves (distinct : (s.targets.map (·.sourceId)).Nodup) {t : Target}
    (target : t ∈ s.targets) (moves : List (Move s)) {a : Agent} {n : UInt64}
    (there : a.diagnostics.registry.get? (failuresId t.sourceId) =
      some (failuresCounter t.sourceId n)) :
    (moves.foldl move a).diagnostics.registry.get? (failuresId t.sourceId) =
      some (failuresCounter t.sourceId (n + (moves.countP (·.fails t)).toUInt64)) := by
  induction moves generalizing a n with
  | nil => simpa using there
  | cons m moves ih =>
      rw [List.foldl_cons, ih (get?_move distinct target m there), List.countP_cons]
      split <;> simp [UInt64.add_assoc, UInt64.add_comm]

/-- An agent that is set up has the targets of its settings, and their counts are zero. -/
theorem of_setUp {files : FileTree} {settings : Settings} {a : Agent}
    (up : setUp files settings = .ok a) :
    a.scraper.targets = settings.scrape.targets ∧ ∀ t ∈ settings.scrape.targets,
      a.diagnostics.registry.get? (failuresId t.sourceId) =
        some (failuresCounter t.sourceId 0) := by
  obtain ⟨⟨scraper, registry⟩, scrapers, same⟩ := bind_eq_ok_iff.mp up
  cases same
  obtain ⟨targets, -, made, -⟩ := Scrape.of_setUp scrapers
  refine ⟨targets, fun t there => ?_⟩
  rw [made]
  exact get?_foldl_createFailures .empty (List.mem_map_of_mem there)

/-! ## Gathering -/

/-- The gatherer of everything, if the collector exposes some metrics and the scrapes come out as
in a round. -/
def gathererIn (exposed : List StoredMetric) (round : Round) (s : Scraper) : Gatherer Agent :=
  .aggregate
    [.constant (.ok (Store.familiesOf exposed)),
      .source fun a => (a.scraped s round, .ok (s.gatherIn round a.diagnostics.registry).2)]
    [countsGatherer]

/-- The gatherer of everything exposes the metrics of the collector, and its scrapes come out as
the network answers. -/
theorem gather_gatherer (network : Network) (s : Scraper) (a : Agent) :
    (gatherer network s).gather a =
      (gathererIn a.collector.store.metrics
        { transfer := fun t => network (.of s.identified t) } s).gather a := rfl

/-- The families that are merged before the counts. -/
def familiesBefore (exposed : List StoredMetric) (round : Round) (s : Scraper) (a : Agent) :
    List Family :=
  Store.familiesOf exposed ++ (s.gatherIn round a.diagnostics.registry).2

theorem gather_gathererIn (exposed : List StoredMetric) (round : Round) (s : Scraper) (a : Agent) :
    (gathererIn exposed round s).gather a =
      (a.scraped s round, .ok (Family.merge (familiesBefore exposed round s a ++
        (a.scraped s round).diagnostics.families))) := by
  simp [gathererIn, familiesBefore, Gatherer.gather, Gatherer.gatherAll, Gatherer.constant,
    Gatherer.combine, countsGatherer]

/-- The metric that tells how often scrapes of a target have failed.  It has 64 bits and starts
over when they are full. -/
def failuresMetric (t : Target) (n : Nat) : Metric :=
  ⟨.ofList (failuresLabels t), .counter (.ofNat (n % 2 ^ 64))⟩

/-- A target that is scraped on its own. -/
def routerTarget : Target := ⟨"router", 8080, "http", "/metrics", .empty, .empty, none⟩

/-- Settings with this target and defaults. -/
def routerSettings : Settings where
  general := ⟨⟨.v4 [0, 0, 0, 0], 14726⟩, none, .empty⟩
  logLevel := .info
  exporter := ⟨600 * 1000000000, 60 * 1000000000, none⟩
  ingress := Written.defaultIngress
  scrape := ⟨none, none, none, [routerTarget]⟩
  debug := ⟨false, Written.defaultDebugAddress⟩

theorem accepted_routerSettings :
    Written.Config.check { scrape := { targets := [routerTarget] } } = .ok routerSettings := by
  decide +kernel

/-- The agent of these settings. -/
def routerAgent : Agent where
  queue := .new 10000
  pipeline := { scrapedSources := ["router"] }
  collector := { ttl := 600 * 1000000000 }
  scraper := ⟨[routerTarget], .empty, false⟩
  diagnostics := { registry := createFailures .empty routerTarget }

theorem setUp_routerAgent : setUp {} routerSettings = .ok routerAgent := rfl

/-- The target cannot be reached. -/
def unreachable : Round where
  transfer _ := .failed

/-- The target is scraped in vain, an envelope comes in, and a sweep follows. -/
def quietMoves : List (Move routerAgent.scraper) :=
  [.scrape ⟨routerAgent.scraper, .inl rfl, unreachable⟩, .step (.line 0 "\x7b\x7d".toList),
    .step (.consume 1), .sweep 2]

/-- A gauge comes in that has the name of the counts. -/
def gaugeMoves : List (Move routerAgent.scraper) :=
  [.step (.line 0 ("\x7b\"source_id\":\"svc\",\"gauge\":\x7b\"metrics\":" ++
      "\x7b\"failed_scrapes\":\x7b\"value\":1\x7d\x7d\x7d\x7d").toList),
    .step (.consume 0)]

end Agent

end Telemetry
