import Telemetry.Gathering
import Telemetry.Registry
import Telemetry.Scrape.Credentials
import Telemetry.Scrape.Fetch
import Telemetry.Text.ByteOrder

/-!
# Scraping

A scraper fetches the expositions of its targets.  A scrape succeeds if the target
answers with a status of success and a body that is an exposition.  The metrics that
are read get further labels: the default labels, over these the labels of the target,
over these the source, unless it has no name, and over these the labels that were
read.

A scrape that fails yields nothing, and is counted for its target.  The count is there
from the beginning.  The families of all targets are merged in the order of the
targets, whatever order the scrapes end in.

A *round* says what comes of the scrapes of all targets, and in which orders what has
none is visited.  `Scraper.gatherIn` takes a round, and `Scraper.gather` asks a network
and takes the targets one after the other.
-/

namespace Telemetry.Scrape

/-! ## One target -/

/-- Whether a status is one of success. -/
def isSuccess (status : Nat) : Bool := 200 ≤ status && status < 300

/-- The families that come of a request, if the exposition is read in a given order. -/
def readTransferIn (order : Exposition.VisitOrder) : Transfer → Except ScrapeError (List Family)
  | .failed => .error .request
  | .answered status body =>
    if isSuccess status then
      match Exposition.readIn order (Text.ofBytes body) with
      | .ok families => .ok families
      | .error e => .error (.exposition e)
    else .error (.status status)

/-- Labels over others. -/
def layer (under above : Dict String) : Dict String :=
  above.toList.foldl (fun labels l => labels.insert l.1 l.2) under

/-- The label that names the source. -/
def sourceLabel : String := "source_id"

/-- The labels of a target, before any are read. -/
def targetLabels (defaults : Dict String) (t : Target) : Labels :=
  let labels := layer defaults t.labels
  if t.sourceId.isEmpty then labels else labels.insert sourceLabel t.sourceId

/-- A family with the labels of a target under its own. -/
def relabel (under : Labels) (f : Family) : Family :=
  { f with metrics := f.metrics.map fun m => { m with labels := layer under m.labels } }

/-- What comes of a scrape. -/
abbrev Scraped := Except ScrapeError (List Family)

/-- What a scrape of a target yields, if the exposition is read in a given order. -/
def scrapeIn (order : Exposition.VisitOrder) (defaults : Dict String) (t : Target)
    (transfer : Transfer) : Scraped :=
  (readTransferIn order transfer).map fun families =>
    families.map (relabel (targetLabels defaults t))

/-! ## Counts -/

/-- The name of the count of scrapes that have failed. -/
def failuresName : String := "failed_scrapes"

/-- The help of that count. -/
def failuresHelp : String := "Total number of failed scrapes for the target"

/-- The labels of that count for a target. -/
def failuresLabels (t : Target) : List (String × String) := [("scrape_source_id", t.sourceId)]

/-- Makes the count of a target. -/
def createFailures (r : Registry) (t : Target) : Registry :=
  r.create failuresName failuresHelp (failuresLabels t)

/-- Counts a scrape that has failed. -/
def countFailure (r : Registry) (t : Target) : Registry :=
  r.add failuresName failuresHelp (failuresLabels t) 1

/-- How often scrapes of a target have failed, if that is counted. -/
def failures? (r : Registry) (t : Target) : Option UInt64 :=
  r.value? failuresName (failuresLabels t)

/-! ## Rounds -/

theorem ended_once (outcomes : List (Target × Scraped)) : (id outcomes).Perm outcomes := .refl _

/-- What comes of the scrapes of one round, and the orders that are left open. -/
structure Round where
  /-- What comes of the request to a target. -/
  transfer : Target → Transfer
  /-- The order in which the exposition of a target is read. -/
  reading : Target → Exposition.VisitOrder := fun _ => ⟨id, id, id⟩
  /-- The order in which scrapes end. -/
  arrange : List (Target × Scraped) → List (Target × Scraped) := id
  /-- Each scrape ends once. -/
  perm : ∀ outcomes, (arrange outcomes).Perm outcomes := by exact ended_once

end Scrape

open Scrape

/-! ## All targets -/

/-- What scrapes some targets. -/
structure Scraper where
  /-- The targets, in order. -/
  targets : List Target
  /-- The default labels. -/
  defaults : Dict String
  /-- Whether targets are shown a certificate. -/
  identified : Bool

namespace Scraper

/-- Whether the headers of a target can be sent. -/
def checkHeaders (t : Target) : Except SetupError Unit :=
  match t.headers.toList.find? fun h => !(isHeaderName h.1 && isHeaderValue h.2) with
  | some (name, _) => .error (.badHeader t.sourceId name)
  | none => .ok ()

/-- Prepares a target. -/
def prepare (credentials : Credentials) (r : Registry) (t : Target) :
    Except SetupError Registry := do
  unless credentials.areUsable do throw .badMaterial
  checkHeaders t
  return createFailures r t

/-- Sets up the scraper of the targets of the settings. -/
def setUp (files : FileTree) (settings : ScrapeSettings) (defaults : Dict String) (r : Registry) :
    Except SetupError (Scraper × Registry) := do
  let credentials ← Credentials.load files settings
  let r ← settings.targets.foldlM (prepare credentials) r
  return (⟨settings.targets, defaults, credentials.identity.isSome⟩, r)

/-- The scraper of one of the targets alone. -/
def only (s : Scraper) (t : Target) : Scraper := { s with targets := [t] }

/-- The scrapers of the targets, by source. -/
def perTarget (s : Scraper) : Dict Scraper :=
  .ofList (s.targets.map fun t => (t.sourceId, s.only t))

/-- The requests of one round. -/
def fetches (s : Scraper) : List Fetch := s.targets.map (.of s.identified)

/-- What the scrapes of one round yield. -/
def outcomes (s : Scraper) (round : Round) : List (Target × Scraped) :=
  s.targets.map fun t => (t, scrapeIn (round.reading t) s.defaults t (round.transfer t))

/-- Counts an outcome that is a failure. -/
def countOutcome (r : Registry) (outcome : Target × Scraped) : Registry :=
  match outcome.2 with
  | .ok _ => r
  | .error _ => countFailure r outcome.1

/-- The families of an outcome. -/
def familiesOf (outcome : Target × Scraped) : List Family :=
  match outcome.2 with
  | .ok families => families
  | .error _ => []

/-- Scrapes all targets in a round. -/
def gatherIn (s : Scraper) (round : Round) (r : Registry) : Registry × List Family :=
  let outcomes := s.outcomes round
  ((round.arrange outcomes).foldl countOutcome r, Family.merge (outcomes.flatMap familiesOf))

/-- Scrapes all targets one after the other. -/
def gather (s : Scraper) (network : Network) (r : Registry) : Registry × List Family :=
  s.gatherIn { transfer := fun t => network (.of s.identified t) } r

end Scraper

end Telemetry
