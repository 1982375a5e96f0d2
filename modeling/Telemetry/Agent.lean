import Telemetry.Collector
import Telemetry.Intake
import Telemetry.Pipeline
import Telemetry.Scrape

/-!
# The agent

The agent takes envelopes in, which wait in its queue until they are consumed: the
oldest one is taken, goes through the pipeline and, unless it is skipped, is written
to the collector.  An envelope that cannot be written is lost, and only the error is
told.

The families of the agent are those of the collector and those of all targets, and
after them its own counts.  So the count of scrapes that fail while families are
gathered shows among these families.
-/

namespace Telemetry

/-- The agent with all that it keeps. -/
structure Agent where
  /-- The envelopes that wait. -/
  queue : Queue Envelope
  /-- What is done to envelopes. -/
  pipeline : Pipeline
  /-- The store. -/
  collector : Collector
  /-- What scrapes the targets. -/
  scraper : Scraper
  /-- What is counted. -/
  diagnostics : Diagnostics

/-- An envelope could not be written. -/
structure WriteFailure where
  /-- The source of the envelope. -/
  sourceId : String
  /-- Why it could not be written. -/
  error : ConversionError
  deriving DecidableEq

/-- The failure in words. -/
def WriteFailure.message (f : WriteFailure) : String :=
  "unable to write envelope from " ++ f.sourceId ++ ": " ++ f.error.message

namespace Agent

/-- Sets the agent up. -/
def setUp (files : FileTree) (settings : Settings) : Except Scrape.SetupError Agent := do
  let defaults := settings.defaultLabels
  let (scraper, registry) ← Scraper.setUp files settings.scrape defaults .empty
  return {
    queue := .new settings.ingress.bufferSize
    pipeline := ⟨settings.scrape.targets.map (·.sourceId), settings.exporter.timerTags, {}⟩
    collector := { defaults := defaults, ttl := settings.exporter.ttl }
    scraper := scraper
    diagnostics := { registry := registry } }

/-! ## Envelopes -/

/-- Takes a line in. -/
def ingest (a : Agent) (line : List Char) : Agent :=
  let (q, d) := Intake.ingest a.queue a.diagnostics line
  { a with queue := q, diagnostics := d }

/-- Takes in what a connection carries. -/
def receive (a : Agent) (bytes : List UInt8) : Agent × ConnectionEnd :=
  let ((q, d), result) := Intake.receive a.queue a.diagnostics bytes
  ({ a with queue := q, diagnostics := d }, result)

/-- Processes an envelope and writes it, unless it is skipped. -/
def handle (a : Agent) (e : Envelope) (now : Nat) : Agent × Option WriteFailure :=
  let (p, processed) := a.pipeline.process e
  match processed with
  | none => ({ a with pipeline := p }, none)
  | some e =>
    let (c, d, result) := a.collector.write a.diagnostics e now
    let failure := match result with
      | .ok _ => none
      | .error error => some ⟨e.sourceId, error⟩
    ({ a with pipeline := p, collector := c, diagnostics := d }, failure)

/-- Consumes the oldest envelope, if one waits. -/
def consume (a : Agent) (now : Nat) : Agent × Option WriteFailure :=
  match a.queue.pop? with
  | none => (a, none)
  | some (e, q) => { a with queue := q }.handle e now

/-- Consumes envelopes some number of times. -/
def consumeTimes (a : Agent) (now : Nat) : Nat → Agent × List WriteFailure
  | 0 => (a, [])
  | n + 1 =>
    let (a, failure) := a.consume now
    let (a, failures) := consumeTimes a now n
    (a, failure.toList ++ failures)

/-- Consumes all envelopes that wait. -/
def drain (a : Agent) (now : Nat) : Agent × List WriteFailure :=
  a.consumeTimes now a.queue.pending

/-- Takes away what is too old. -/
def sweep (a : Agent) (now : Nat) : Agent :=
  let (c, d, _) := a.collector.expire a.diagnostics now
  { a with collector := c, diagnostics := d }

/-! ## Families -/

/-- The gatherer of the collector. -/
def collectorGatherer : Gatherer Agent := .source fun a => (a, .ok a.collector.families)

/-- The gatherer of what a scraper of some targets fetches. -/
def scrapeGatherer (network : Scrape.Network) (s : Scraper) : Gatherer Agent :=
  .source fun a =>
    let (r, families) := s.gather network a.diagnostics.registry
    ({ a with diagnostics := { a.diagnostics with registry := r } }, .ok families)

/-- The gatherer of the counts. -/
def countsGatherer : Gatherer Agent := .source fun a => (a, .ok a.diagnostics.families)

/-- The gatherer of everything. -/
def gatherer (network : Scrape.Network) (s : Scraper) : Gatherer Agent :=
  .aggregate [collectorGatherer, scrapeGatherer network s] [countsGatherer]

end Agent

end Telemetry
