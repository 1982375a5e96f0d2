import Telemetry.Agent
import Telemetry.Http.MetricsSite

/-!
# The sites of the agent

The agent has two sites.  One exposes its metrics, those of one target or all.  The
other lists the counts and sizes of the agent in lines of plain text, a line each, in
ascending order.
-/

namespace Telemetry.Agent

/-- The metrics site of a scraper. -/
def metricsSite (network : Scrape.Network) (s : Scraper) : MetricsSite Agent where
  everything := gatherer network s
  targets := s.perTarget.map (scrapeGatherer network)

/-! ## Variables -/

/-- The line of a variable. -/
def variableLine (name value : String) : String := name ++ ": " ++ value

/-- The name of a metric with its labels. -/
def labelledName (name : String) (labels : Labels) : String :=
  "/".intercalate (name :: labels.toList.map fun l => l.1 ++ "=" ++ l.2)

/-- The lines of a family. -/
def familyLines (f : Family) : List String :=
  f.metrics.filterMap fun m => match m.value with
    | .counter v | .gauge v =>
      some (variableLine (labelledName f.name m.labels) (String.ofList v.text))
    | _ => none

/-- The lines of what is waiting and what is kept. -/
def sizeLines (a : Agent) : List String :=
  [variableLine "collector/sources" (toString a.collector.store.sourceCount),
    variableLine "collector/metrics" (toString a.collector.store.metricCount),
    variableLine "buffer/pending" (toString a.queue.pending),
    variableLine "buffer/dropped" (toString a.queue.dropped)]

/-- All variables. -/
def variableLines (a : Agent) : List String :=
  (a.diagnostics.families.flatMap familyLines ++ a.sizeLines).mergeSort fun s t => s ≤ t

/-- The page of variables. -/
def variablesPage : Http.Page Agent := fun a _ =>
  (a, .text 200 ((a.variableLines.map (· ++ "\n")).flatMap String.toList))

/-- The pages of the diagnostic site. -/
def diagnosticPages : Http.Site Agent := [("/", .fixed title), ("/vars", variablesPage)]

end Telemetry.Agent
