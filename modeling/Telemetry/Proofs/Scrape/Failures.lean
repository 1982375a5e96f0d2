import Mathlib.Data.List.Nodup
import Telemetry.Proofs.Registry
import Telemetry.Scrape

/-!
# Counting failures

The count of a source is a counter of the registry whose identity tells the source
and nothing else (`failuresId_injective`).  It is made when a scraper is set up
(`of_setUp`), and making it once more changes nothing (`createFailures_of_get?`), so
scrapers of the same targets share it.

A round adds one to the count of each target whose scrape has failed.  In which order
the scrapes end does not matter, since each adds to its own count
(`get?_foldl_countOutcome`).
-/

namespace Telemetry

namespace Scrape

/-! ## The count of a source -/

/-- The identity of the count of a source. -/
def failuresId (sourceId : String) : Identity :=
  .of failuresName [("scrape_source_id", sourceId)]

theorem failuresId_injective {sourceId sourceId' : String}
    (same : failuresId sourceId = failuresId sourceId') : sourceId = sourceId' := by
  obtain ⟨-, perm⟩ := Identity.of_of_eq same
  cases List.singleton_perm_singleton.mp perm
  rfl

/-- The counter of a source, when it shows a number. -/
def failuresCounter (sourceId : String) (n : UInt64) : Counter :=
  ⟨failuresName, failuresHelp, .ofList [("scrape_source_id", sourceId)], n⟩

theorem identity_failures (t : Target) :
    Identity.of failuresName (failuresLabels t) = failuresId t.sourceId := rfl

theorem counter_failures (r : Registry) (t : Target) :
    r.counter failuresName failuresHelp (failuresLabels t) =
      (r.get? (failuresId t.sourceId)).getD (failuresCounter t.sourceId 0) := rfl

/-! ## Making counts -/

/-- A count that is made shows what it showed before, or zero. -/
theorem get?_createFailures (r : Registry) (t : Target) (id : Identity) :
    (createFailures r t).get? id =
      if id = failuresId t.sourceId then some ((r.get? id).getD (failuresCounter t.sourceId 0))
      else r.get? id := by
  rw [createFailures, Registry.create, Registry.get?_add, identity_failures, counter_failures,
    UInt64.add_zero]
  by_cases same : id = failuresId t.sourceId
  · rw [if_pos same, if_pos same, same]
  · rw [if_neg same, if_neg same]

/-- A count that is there may be made again. -/
theorem createFailures_of_get? {r : Registry} {t : Target} {c : Counter}
    (there : r.get? (failuresId t.sourceId) = some c) : createFailures r t = r :=
  Registry.create_of_get? there

theorem get?_foldl_createFailures_of_ne {id : Identity} :
    ∀ {targets : List Target} (r : Registry), (∀ t ∈ targets, id ≠ failuresId t.sourceId) →
      (targets.foldl createFailures r).get? id = r.get? id
  | [], _, _ => rfl
  | t :: targets, r, other => by
      have others : ∀ t' ∈ targets, id ≠ failuresId t'.sourceId := fun t' there =>
        other t' (List.mem_cons_of_mem _ there)
      rw [List.foldl_cons, get?_foldl_createFailures_of_ne _ others, get?_createFailures,
        if_neg (other t List.mem_cons_self)]

/-- The counts of some targets that are made show what they showed before, or zero. -/
theorem get?_foldl_createFailures {sourceId : String} :
    ∀ {targets : List Target} (r : Registry), sourceId ∈ targets.map (·.sourceId) →
      (targets.foldl createFailures r).get? (failuresId sourceId) =
        some ((r.get? (failuresId sourceId)).getD (failuresCounter sourceId 0))
  | [], _, there => nomatch there
  | t :: targets, r, there => by
      rw [List.foldl_cons]
      by_cases later : sourceId ∈ targets.map (·.sourceId)
      · rw [get?_foldl_createFailures _ later, get?_createFailures]
        split
        next same => rw [failuresId_injective same]; rfl
        next => rfl
      · have first : sourceId = t.sourceId := (List.mem_cons.mp there).resolve_right later
        have others : ∀ t' ∈ targets, failuresId sourceId ≠ failuresId t'.sourceId :=
          fun t' there same =>
            later (failuresId_injective same ▸ List.mem_map_of_mem (f := Target.sourceId) there)
        rw [get?_foldl_createFailures_of_ne _ others, get?_createFailures, if_pos (by rw [first]),
          first]

/-! ## Setting up -/

/-- Preparing a target either fails, whatever the registry, or makes its count. -/
theorem of_prepare {credentials : Credentials} {r r' : Registry} {t : Target}
    (h : Scraper.prepare credentials r t = .ok r') :
    r' = createFailures r t ∧
      ∀ r, Scraper.prepare credentials r t = .ok (createFailures r t) := by
  simp only [Scraper.prepare] at h ⊢
  cases usable : credentials.areUsable with
  | false =>
      rw [usable] at h
      cases h
  | true =>
      cases checked : Scraper.checkHeaders t with
      | error e =>
          rw [usable, checked] at h
          cases h
      | ok _ =>
          rw [usable, checked] at h
          cases h
          exact ⟨rfl, fun _ => rfl⟩

theorem of_foldlM_prepare {credentials : Credentials} :
    ∀ {targets : List Target} {r r' : Registry},
      targets.foldlM (Scraper.prepare credentials) r = .ok r' →
        r' = targets.foldl createFailures r ∧
          ∀ t ∈ targets, ∀ r, Scraper.prepare credentials r t = .ok (createFailures r t)
  | [], r, r', h => by
      cases h
      exact ⟨rfl, fun _ there => nomatch there⟩
  | t :: targets, r, r', h => by
      rw [List.foldlM_cons] at h
      cases prepared : Scraper.prepare credentials r t with
      | error e =>
          rw [prepared] at h
          cases h
      | ok between =>
          rw [prepared] at h
          obtain ⟨rfl, always⟩ := of_prepare prepared
          obtain ⟨rest, others⟩ := of_foldlM_prepare h
          exact ⟨rest, List.forall_mem_cons.mpr ⟨always, others⟩⟩

theorem setUp_eq (files : FileTree) (settings : ScrapeSettings) (defaults : Dict String)
    (r : Registry) :
    Scraper.setUp files settings defaults r =
      (Credentials.load files settings).bind fun credentials =>
        (settings.targets.foldlM (Scraper.prepare credentials) r).bind fun r =>
          .ok (⟨settings.targets, defaults, credentials.identity.isSome⟩, r) := rfl

/-- A scraper that is set up has the targets of the settings and makes their counts, and each
target can be set up alone. -/
theorem of_setUp {files : FileTree} {settings : ScrapeSettings} {defaults : Dict String}
    {r r' : Registry} {s : Scraper} (h : Scraper.setUp files settings defaults r = .ok (s, r')) :
    s.targets = settings.targets ∧ s.defaults = defaults ∧
      r' = settings.targets.foldl createFailures r ∧
      ∀ t ∈ settings.targets, ∀ r,
        Scraper.setUp files { settings with targets := [t] } defaults r =
          .ok (s.only t, createFailures r t) := by
  rw [setUp_eq] at h
  cases loaded : Credentials.load files settings with
  | error e =>
      rw [loaded] at h
      cases h
  | ok credentials =>
      rw [loaded, Except.bind] at h
      cases folded : settings.targets.foldlM (Scraper.prepare credentials) r with
      | error e =>
          rw [folded] at h
          cases h
      | ok after =>
          rw [folded] at h
          cases h
          obtain ⟨made, always⟩ := of_foldlM_prepare folded
          refine ⟨rfl, rfl, made, fun t there r => ?_⟩
          have same : Credentials.load files { settings with targets := [t] } =
              .ok credentials := loaded
          have one : [t].foldlM (Scraper.prepare credentials) r = .ok (createFailures r t) := by
            rw [List.foldlM_cons, always t there r]
            rfl
          rw [setUp_eq, same, Except.bind, one]
          rfl

/-! ## Counting -/

/-- A failure adds one to the count of its source. -/
theorem get?_countFailure {r : Registry} {t : Target} {n : UInt64}
    (there : r.get? (failuresId t.sourceId) = some (failuresCounter t.sourceId n)) :
    (countFailure r t).get? (failuresId t.sourceId) =
      some (failuresCounter t.sourceId (n + 1)) := by
  rw [countFailure, Registry.get?_add, identity_failures, if_pos rfl, counter_failures, there]
  rfl

theorem get?_countFailure_of_ne (r : Registry) {t : Target} {id : Identity}
    (other : id ≠ failuresId t.sourceId) : (countFailure r t).get? id = r.get? id := by
  rw [countFailure, Registry.get?_add]
  exact if_neg other

/-- Whether an outcome is a failure. -/
def isFailure (outcome : Target × Scraped) : Bool :=
  match outcome.2 with
  | .ok _ => false
  | .error _ => true

theorem countOutcome_eq (r : Registry) (outcome : Target × Scraped) :
    Scraper.countOutcome r outcome =
      if isFailure outcome then countFailure r outcome.1 else r := by
  rw [Scraper.countOutcome, isFailure]
  cases outcome.2 <;> rfl

/-- Outcomes add to the counts of those that have failed, and change nothing else. -/
theorem get?_foldl_countOutcome_of_ne {id : Identity} :
    ∀ {outcomes : List (Target × Scraped)} (r : Registry),
      (∀ o ∈ outcomes, isFailure o → id ≠ failuresId o.1.sourceId) →
        (outcomes.foldl Scraper.countOutcome r).get? id = r.get? id
  | [], _, _ => rfl
  | o :: outcomes, r, other => by
      have others : ∀ o' ∈ outcomes, isFailure o' → id ≠ failuresId o'.1.sourceId :=
        fun o' there => other o' (List.mem_cons_of_mem _ there)
      rw [List.foldl_cons, get?_foldl_countOutcome_of_ne _ others, countOutcome_eq]
      cases failed : isFailure o with
      | true => exact get?_countFailure_of_ne r (other o List.mem_cons_self failed)
      | false => rfl

/-- Outcomes add to the count of a source as many as there are failures of the source. -/
theorem get?_foldl_countOutcome {sourceId : String} :
    ∀ {outcomes : List (Target × Scraped)} {r : Registry} {n : UInt64},
      r.get? (failuresId sourceId) = some (failuresCounter sourceId n) →
        (outcomes.foldl Scraper.countOutcome r).get? (failuresId sourceId) =
          some (failuresCounter sourceId (n + (outcomes.countP fun o =>
            o.1.sourceId = sourceId && isFailure o).toUInt64))
  | [], r, n, there => by simpa using there
  | o :: outcomes, r, n, there => by
      rw [List.foldl_cons, countOutcome_eq, List.countP_cons]
      by_cases counts : o.1.sourceId = sourceId ∧ isFailure o
      · obtain ⟨rfl, failed⟩ := counts
        rw [failed, if_pos rfl, get?_foldl_countOutcome (get?_countFailure there)]
        simp [UInt64.add_assoc, UInt64.add_comm]
      · have same : (if isFailure o then countFailure r o.1 else r).get? (failuresId sourceId) =
            some (failuresCounter sourceId n) := by
          split
          next failed =>
            rw [get?_countFailure_of_ne r, there]
            exact fun equal => counts ⟨(failuresId_injective equal).symm, failed⟩
          next => exact there
        rw [get?_foldl_countOutcome same]
        simp [counts]

end Scrape

end Telemetry
