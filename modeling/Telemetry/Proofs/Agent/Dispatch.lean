import Telemetry.Agent.Sites
import Telemetry.Proofs.Agent.Failures
import Telemetry.Proofs.Scrape.Views

/-!
# What a request reaches

A request for metrics names one target, or none, and is served by one gatherer of the
site.  What that gatherer does is all that the request does.  The gatherer of a target
scrapes nothing else, so it does not matter what else there is to be scraped, and it
changes nothing but the count of the target, and this only if the scrape fails
(`ServesOnly`).  A target that is not known has no gatherer, and then nothing happens.

A site is followed here with its scrapes coming out as in a round and the store visited
in any order (`siteIn`); the site of the agent is one of these (`metricsSite_eq`).
-/

namespace Telemetry

open Scrape
open Scraper (halfRound scraperOfTwo twoTargets)

/-! ## One target alone -/

namespace Scrape

theorem Round.parsed?_congr {round round' : Round} {t : Target}
    (transfer : round'.transfer t = round.transfer t)
    (reading : round'.reading t = round.reading t) : round'.parsed? t = round.parsed? t := by
  rw [parsed?, parsed?, transfer, reading]

/-- A scraper of one target counts its failure, and yields what it exposes. -/
theorem gatherIn_only (s : Scraper) (t : Target) (round : Round) (r : Registry) :
    (s.only t).gatherIn round r =
      (if (round.parsed? t).isNone then countFailure r t else r,
        Family.merge (((round.parsed? t).getD []).map (relabel (targetLabels s.defaults t)))) := by
  apply Prod.ext
  · have alone : round.arrange ((s.only t).outcomes round) = (s.only t).outcomes round :=
      List.perm_singleton.mp (round.perm _)
    rw [Scraper.gatherIn, alone]
    change Scraper.countOutcome r
      (t, scrapeIn (round.reading t) s.defaults t (round.transfer t)) = _
    rw [countOutcome_eq, (scrapeIn_eq round s.defaults t).1]
  · rw [families_gatherIn]
    exact congrArg Family.merge (List.flatMap_singleton _ _)

/-- A failure adds one to the count of its target, which is zero if it is not there. -/
theorem failures?_countFailure (r : Registry) (t : Target) :
    failures? (countFailure r t) t = some ((failures? r t).getD 0 + 1) := by
  rw [failures?, Registry.value?, countFailure, Registry.get?_add, if_pos rfl, failures?,
    Registry.value?, Registry.counter]
  cases r.get? (.of failuresName (failuresLabels t)) <;> rfl

end Scrape

/-! ## Requests for metrics -/

/-- A request for metrics. -/
def metricsRequest (query : List Char) : Http.Request := ⟨"GET", "/metrics".toList, query⟩

namespace MetricsSite

variable {σ : Type} (site : MetricsSite σ) (s : σ) {query : List Char}

theorem respond_metricsRequest (query : List Char) :
    site.respond s (metricsRequest query) = site.page s (metricsRequest query) := by
  rfl

/-- Without an id, or if it is empty, everything is gathered. -/
theorem respond_everything (absent : ids query = [] ∨ ids query = [""]) :
    site.respond s (metricsRequest query) =
      ((site.everything.gather s).1, responseOf (site.everything.gather s).2) := by
  rw [respond_metricsRequest, page]
  rcases absent with absent | absent
  · simp only [metricsRequest, absent]
    rfl
  · simp only [metricsRequest, absent]
    rfl

/-- An id that is given is looked up among the targets. -/
theorem respond_id {id : String} (given : id ≠ "") (asked : ids query = [id]) :
    site.respond s (metricsRequest query) =
      match site.targets.get? id with
      | none => (s, .notFound)
      | some g => ((g.gather s).1, responseOf (g.gather s).2) := by
  have some : id.isEmpty = false := by simpa using given
  rw [respond_metricsRequest, page]
  simp only [metricsRequest, asked, respondTo, gathererOf, some]
  rfl

end MetricsSite

namespace Agent

/-! ## Sites in a round -/

/-- The gatherer of what a scraper fetches, if its scrapes come out as in a round. -/
def scrapesIn (round : Round) (s : Scraper) : Gatherer Agent :=
  .source fun a => (a.scraped s round, .ok (s.gatherIn round a.diagnostics.registry).2)

/-- The metrics site of a scraper, if the store is visited in a given order and the scrapes come
out as in a round. -/
def siteIn (visit : List StoredMetric → List StoredMetric) (round : Round) (s : Scraper) :
    MetricsSite Agent where
  everything :=
    .aggregate
      [.source fun a => (a, .ok (Store.familiesOf (visit a.collector.store.metrics))),
        scrapesIn round s]
      [countsGatherer]
  targets := s.perTarget.map (scrapesIn round)

/-- The round in which the targets of a scraper give what a network answers. -/
def roundOf (network : Network) (s : Scraper) : Round where
  transfer t := network (.of s.identified t)

/-- The site of the agent exposes the store as it is, and its scrapes come out as the network
answers. -/
theorem metricsSite_eq (network : Network) {s : Scraper}
    (distinct : (s.targets.map (·.sourceId)).Nodup) :
    metricsSite network s = siteIn id (roundOf network s) s := by
  have targets : s.perTarget.map (scrapeGatherer network) =
      s.perTarget.map (scrapesIn (roundOf network s)) := by
    apply Dict.ext_get?
    intro sourceId
    rw [Dict.get?_map, Dict.get?_map]
    refine Option.map_congr fun s' found => ?_
    -- The scraper of a target shows the same certificate.
    obtain ⟨t, -, -, rfl⟩ := (Scraper.get?_perTarget distinct).mp found
    rfl
  rw [metricsSite, targets]
  rfl

variable {s : Scraper}

theorem gather_everything (visit : List StoredMetric → List StoredMetric) (round : Round)
    (s : Scraper) (a : Agent) :
    (siteIn visit round s).everything.gather a =
      (a.scraped s round, .ok (Family.merge
        (familiesBefore (visit a.collector.store.metrics) round s a ++
          (a.scraped s round).diagnostics.families))) :=
  gather_gathererIn (visit a.collector.store.metrics) round s a

theorem get?_targets_siteIn (distinct : (s.targets.map (·.sourceId)).Nodup) {t : Target}
    (target : t ∈ s.targets) (visit : List StoredMetric → List StoredMetric) (round : Round) :
    (siteIn visit round s).targets.get? t.sourceId = some (scrapesIn round (s.only t)) := by
  have own : s.perTarget.get? t.sourceId = some (s.only t) :=
    (Scraper.get?_perTarget distinct).mpr ⟨t, target, rfl, rfl⟩
  rw [siteIn, Dict.get?_map, own]
  rfl

theorem get?_targets_siteIn_of_unknown (distinct : (s.targets.map (·.sourceId)).Nodup)
    {id : String} (unknown : ∀ t ∈ s.targets, t.sourceId ≠ id)
    (visit : List StoredMetric → List StoredMetric) (round : Round) :
    (siteIn visit round s).targets.get? id = none := by
  rw [siteIn, Dict.get?_map, Option.map_eq_none_iff, Option.eq_none_iff_forall_ne_some]
  intro s' found
  obtain ⟨t, target, named, -⟩ := (Scraper.get?_perTarget distinct).mp found
  exact unknown t target named

/-! ## Serving one target -/

/-- What it is to serve one target and touch nothing else. -/
structure ServesOnly (defaults : Dict String) (round : Round) (t : Target) (before after : Agent)
    (response : Http.Response) : Prop where
  /-- The families of the target are exposed, with its labels and by ascending name. -/
  families : ∃ families, response = ⟨200, some MetricsSite.contentType, exposition families⟩ ∧
    (families.map (·.name)).Pairwise (· < ·) ∧
    ∃ relabelled : Family → Family, (∀ f, Relabelled defaults t f (relabelled f)) ∧
      families.Perm (((round.parsed? t).getD []).map relabelled)
  /-- Nothing but the registry changes. -/
  frame : after =
    { before with diagnostics := { before.diagnostics with registry := after.diagnostics.registry } }
  /-- In the registry nothing but the count of the target does. -/
  others : ∀ id, id ≠ failuresId t.sourceId →
    after.diagnostics.registry.get? id = before.diagnostics.registry.get? id
  /-- A scrape that succeeds changes nothing at all. -/
  succeeded : (round.parsed? t).isSome → after = before
  /-- One that fails is counted, and nothing is exposed. -/
  failed : round.parsed? t = none → response.body = [] ∧
    failures? after.diagnostics.registry t =
      some ((failures? before.diagnostics.registry t).getD 0 + 1)

/-- The gatherer of a target serves it and touches nothing else. -/
theorem servesOnly_scrapesIn {round : Round} {t : Target} (fair : (round.reading t).Fair)
    (s : Scraper) (now : Agent) :
    ServesOnly s.defaults round t now ((scrapesIn round (s.only t)).gather now).1
      (MetricsSite.responseOf ((scrapesIn round (s.only t)).gather now).2) := by
  have gathered := gatherIn_only s t round now.diagnostics.registry
  have registry : ((scrapesIn round (s.only t)).gather now).1.diagnostics.registry =
      if (round.parsed? t).isNone then countFailure now.diagnostics.registry t
      else now.diagnostics.registry := congrArg Prod.fst gathered
  have response : MetricsSite.responseOf ((scrapesIn round (s.only t)).gather now).2 =
      ⟨200, some MetricsSite.contentType, exposition (Family.merge
        (((round.parsed? t).getD []).map (relabel (targetLabels s.defaults t))))⟩ :=
    congrArg (fun g : Registry × List Family => MetricsSite.responseOf (.ok g.2)) gathered
  constructor
  case families =>
    refine ⟨_, response, Family.names_merge_ascending _, _, relabelled_relabel s.defaults t, ?_⟩
    apply Family.merge_perm
    rw [names_relabel]
    exact names_parsed? fair
  case frame => rfl
  case others =>
    intro id other
    rw [registry]
    split
    · exact get?_countFailure_of_ne _ other
    · rfl
  case succeeded =>
    intro succeeded
    rw [if_neg (by simp [Option.isSome_iff_ne_none.mp succeeded])] at registry
    change ({ now with diagnostics := { now.diagnostics with registry := _ } } : Agent) = now
    exact congrArg
      (fun r => ({ now with diagnostics := { now.diagnostics with registry := r } } : Agent)) registry
  case failed =>
    intro failed
    rw [failed] at registry response
    refine ⟨by rw [response]; rfl, ?_⟩
    rw [registry]
    exact failures?_countFailure _ t

/-- What comes of the other targets does not matter. -/
theorem gather_scrapesIn_congr {round round' : Round} {t : Target}
    (transfer : round'.transfer t = round.transfer t)
    (reading : round'.reading t = round.reading t) (s : Scraper) (now : Agent) :
    (scrapesIn round' (s.only t)).gather now = (scrapesIn round (s.only t)).gather now := by
  simp only [scrapesIn, Gatherer.gather, scraped, gatherIn_only,
    Round.parsed?_congr transfer reading]

/-! ## The site of an agent -/

theorem defaults_setUp {files : FileTree} {settings : Settings} {a : Agent}
    (up : setUp files settings = .ok a) : a.scraper.defaults = settings.defaultLabels := by
  obtain ⟨⟨scraper, registry⟩, scrapers, same⟩ := bind_eq_ok_iff.mp up
  cases same
  exact (Scrape.of_setUp scrapers).2.1

/-- Settings with two targets and a default label. -/
def pairSettings : Settings :=
  { routerSettings with
    general := { routerSettings.general with tags := scraperOfTwo.defaults }
    scrape := twoTargets }

/-- The agent of these settings. -/
def pairAgent : Agent where
  queue := .new 10000
  pipeline := { scrapedSources := ["api", "web"] }
  collector := { defaults := scraperOfTwo.defaults, ttl := 600 * 1000000000 }
  scraper := scraperOfTwo
  diagnostics := { registry := twoTargets.targets.foldl createFailures .empty }

end Agent

end Telemetry
