import Telemetry.Proofs.Scrape.Failures

/-!
# Scrapes do not interfere

The scrapers of an agent are the one of all targets and those of one target alone
(`Scraper.Offers`).  They gather any number of times and in any order, over one
registry.  Whatever comes of each scrape, and in whatever order the scrapes of a round
end, a gathering yields the families of those of its targets that gave an exposition
(`Round.parsed?`), in the order of the targets and with their labels put under those
that were read (`Relabelled`).  A scrape that fails is counted for its own target, and
the registry has no other changes (`Isolated`).
-/

namespace Telemetry.Scrape

/-! ## Labels -/

theorem get?_layer (under above : Dict String) (key : String) :
    (layer under above).get? key = (above.get? key <|> under.get? key) :=
  Dict.get?_foldl_insert above.keys_nodup under key

/-- Whether a family is another one with the labels of a target and the default labels added. -/
structure Relabelled (defaults : Dict String) (t : Target) (read f : Family) : Prop where
  /-- It has the same name. -/
  name : f.name = read.name
  /-- It has the same help. -/
  help : f.help = read.help
  /-- It has the same kind. -/
  kind : f.kind = read.kind
  /-- Its metrics have the same values in the same order.  A label is the one that was read, or
  else the source, or else the one of the target, or else the default. -/
  metrics : List.Forall₂
    (fun before after => after.value = before.value ∧ ∀ key, after.labels.get? key =
      (before.labels.get? key <|>
        (if key = sourceLabel ∧ t.sourceId ≠ "" then some t.sourceId else none) <|>
        t.labels.get? key <|> defaults.get? key))
    read.metrics f.metrics

theorem get?_targetLabels (defaults : Dict String) (t : Target) (key : String) :
    (targetLabels defaults t).get? key =
      ((if key = sourceLabel ∧ t.sourceId ≠ "" then some t.sourceId else none) <|>
        t.labels.get? key <|> defaults.get? key) := by
  unfold targetLabels
  by_cases unnamed : t.sourceId = ""
  · simp [unnamed, get?_layer]
  · by_cases source : key = sourceLabel <;> simp [unnamed, source, get?_layer]

theorem relabelled_relabel (defaults : Dict String) (t : Target) (f : Family) :
    Relabelled defaults t f (relabel (targetLabels defaults t) f) where
  name := rfl
  help := rfl
  kind := rfl
  metrics := by
    rw [relabel, List.forall₂_map_right_iff, List.forall₂_same]
    intro m _
    refine ⟨rfl, fun key => ?_⟩
    rw [get?_layer, get?_targetLabels]

/-! ## Rounds -/

/-- The families that a target exposes in a round: it answers with a status of success, and the
body is an exposition. -/
def Round.parsed? (round : Round) (t : Target) : Option (List Family) :=
  match round.transfer t with
  | .failed => none
  | .answered status body =>
    if 200 ≤ status ∧ status < 300 then
      (Exposition.readIn (round.reading t) (Text.ofBytes body)).toOption
    else none

/-- A scrape yields what the target exposes, relabelled, and fails if the target exposes
nothing. -/
theorem scrapeIn_eq (round : Round) (defaults : Dict String) (t : Target) :
    let scraped := scrapeIn (round.reading t) defaults t (round.transfer t)
    isFailure (t, scraped) = (round.parsed? t).isNone ∧
      Scraper.familiesOf (t, scraped) =
        ((round.parsed? t).getD []).map (relabel (targetLabels defaults t)) := by
  simp only [scrapeIn, Round.parsed?]
  cases round.transfer t with
  | failed => exact ⟨rfl, rfl⟩
  | answered status body =>
      simp only [readTransferIn, isSuccess, Bool.and_eq_true, decide_eq_true_eq]
      split
      · cases Exposition.readIn (round.reading t) (Text.ofBytes body) <;> exact ⟨rfl, rfl⟩
      · exact ⟨rfl, rfl⟩

/-- What a gathering yields, whatever the registry. -/
theorem families_gatherIn (s : Scraper) (round : Round) (r : Registry) :
    (s.gatherIn round r).2 = Family.merge (s.targets.flatMap fun t =>
      ((round.parsed? t).getD []).map (relabel (targetLabels s.defaults t))) := by
  rw [Scraper.gatherIn, Scraper.outcomes, List.flatMap_map]
  simp only [(scrapeIn_eq round s.defaults _).2]

theorem get?_gatherIn_of_ne {s : Scraper} {id : Identity}
    (other : ∀ t ∈ s.targets, id ≠ failuresId t.sourceId) (round : Round) (r : Registry) :
    (s.gatherIn round r).1.get? id = r.get? id := by
  refine get?_foldl_countOutcome_of_ne r fun o there _ => ?_
  obtain ⟨t, among, rfl⟩ := List.mem_map.mp ((round.perm _).mem_iff.mp there)
  exact other t among

/-- A target that is the only one of its source counts once, if at all. -/
theorem countP_source {targets : List Target} (distinct : targets.Nodup) {t : Target}
    (own : ∀ t' ∈ targets, t'.sourceId = t.sourceId → t' = t) (p : Target → Bool) :
    (targets.countP fun t' => t'.sourceId = t.sourceId && p t') =
      if t ∈ targets ∧ p t then 1 else 0 := by
  have only : (targets.countP fun t' => t'.sourceId = t.sourceId && p t') =
      targets.countP fun t' => p t && t' == t := by
    refine List.countP_congr fun t' there => ?_
    by_cases same : t' = t
    · simp [same]
    · have other : t'.sourceId ≠ t.sourceId := fun equal => same (own t' there equal)
      simp [same, other]
  rw [only]
  cases p t with
  | false => simp
  | true =>
      simp only [Bool.true_and, and_true]
      exact distinct.count

/-- A gathering adds one to the count of a target whose scrape has failed. -/
theorem get?_gatherIn {s : Scraper} (distinct : s.targets.Nodup) {t : Target}
    (own : ∀ t' ∈ s.targets, t'.sourceId = t.sourceId → t' = t) (round : Round) {r : Registry}
    {n : UInt64}
    (there : r.get? (failuresId t.sourceId) = some (failuresCounter t.sourceId n)) :
    (s.gatherIn round r).1.get? (failuresId t.sourceId) =
      some (failuresCounter t.sourceId
        (n + if t ∈ s.targets ∧ (round.parsed? t).isNone then 1 else 0)) := by
  have number : ((round.arrange (s.outcomes round)).countP fun o =>
      o.1.sourceId = t.sourceId && isFailure o) =
        if t ∈ s.targets ∧ (round.parsed? t).isNone then 1 else 0 := by
    rw [(round.perm _).countP_eq, Scraper.outcomes, List.countP_map,
      ← countP_source distinct own fun t => (round.parsed? t).isNone]
    simp only [Function.comp_def, (scrapeIn_eq round s.defaults _).1]
  have counted : (s.gatherIn round r).1.get? (failuresId t.sourceId) = _ :=
    get?_foldl_countOutcome there
  rw [counted, number]
  split <;> rfl

end Telemetry.Scrape

namespace Telemetry.Scraper

open Scrape

/-! ## Scrapers of one agent -/

/-- Whether a scraper is that of all targets, or of one of them alone. -/
def Offers (s s' : Scraper) : Prop := s' = s ∨ ∃ sourceId, s.perTarget.get? sourceId = some s'

/-- Each target has a scraper of its own, under its source, and there are no others. -/
theorem get?_perTarget {s : Scraper} (distinct : (s.targets.map (·.sourceId)).Nodup)
    {sourceId : String} {s' : Scraper} :
    s.perTarget.get? sourceId = some s' ↔
      ∃ t ∈ s.targets, t.sourceId = sourceId ∧ s.only t = s' := by
  have keys : ((s.targets.map fun t => (t.sourceId, s.only t)).map Prod.fst).Nodup := by
    rw [List.map_map]
    exact distinct
  rw [perTarget, Dict.ofList, Dict.get?_foldl_insert keys, Dict.get?_empty, Option.orElse_eq_orElse,
    Option.orElse_eq_or, Option.or_none, lookup_eq_some_iff_mem keys, List.mem_map]
  simp only [Prod.mk.injEq]

theorem toList_perTarget_perm {s : Scraper} (distinct : (s.targets.map (·.sourceId)).Nodup) :
    s.perTarget.toList.Perm (s.targets.map fun t => (t.sourceId, s.only t)) := by
  refine Dict.toList_ofList_perm ?_
  rw [List.map_map]
  exact distinct

/-- The scrapers of an agent have some of its targets, and the same default labels. -/
theorem Offers.sublist {s s' : Scraper} (distinct : (s.targets.map (·.sourceId)).Nodup)
    (offers : s.Offers s') : s'.targets.Sublist s.targets ∧ s'.defaults = s.defaults := by
  rcases offers with rfl | ⟨sourceId, found⟩
  · exact ⟨.refl _, rfl⟩
  · obtain ⟨t, there, -, rfl⟩ := (get?_perTarget distinct).mp found
    exact ⟨List.singleton_sublist.mpr there, rfl⟩

/-- A call of one of the scrapers, with what comes of its round. -/
structure Call (s : Scraper) where
  /-- The scraper. -/
  scraper : Scraper
  /-- It is one of the agent. -/
  offered : s.Offers scraper
  /-- What comes of its scrapes. -/
  round : Round

/-- Whether a call scrapes a target and fails. -/
def Call.fails {s : Scraper} (c : Call s) (t : Target) : Bool :=
  t ∈ c.scraper.targets && (c.round.parsed? t).isNone

/-- The registry after some calls, and what each of them has yielded. -/
def callAll {s : Scraper} : Registry → List (Call s) → Registry × List (List Family)
  | r, [] => (r, [])
  | r, c :: calls =>
    let (r, families) := c.scraper.gatherIn c.round r
    let (r, others) := callAll r calls
    (r, families :: others)

variable {s : Scraper}

/-- Each call yields what its targets expose, whatever has happened before. -/
theorem families_callAll (r : Registry) (calls : List (Call s)) :
    (callAll r calls).2 = calls.map fun c =>
      Family.merge (c.scraper.targets.flatMap fun t =>
        ((c.round.parsed? t).getD []).map (relabel (targetLabels c.scraper.defaults t))) := by
  induction calls generalizing r with
  | nil => rfl
  | cons c calls ih =>
      rw [List.map_cons, ← families_gatherIn c.scraper c.round r,
        ← ih (c.scraper.gatherIn c.round r).1]
      rfl

theorem get?_callAll_of_ne (distinct : (s.targets.map (·.sourceId)).Nodup) {id : Identity}
    (other : ∀ t ∈ s.targets, id ≠ failuresId t.sourceId) (r : Registry)
    (calls : List (Call s)) : (callAll r calls).1.get? id = r.get? id := by
  induction calls generalizing r with
  | nil => rfl
  | cons c calls ih =>
      have among := (c.offered.sublist distinct).1.subset
      exact (ih _).trans (get?_gatherIn_of_ne (fun t there => other t (among there)) c.round r)

/-- The count of a target goes up by one if its scrape fails. -/
theorem get?_call (distinct : (s.targets.map (·.sourceId)).Nodup) {t : Target}
    (target : t ∈ s.targets) (c : Call s) {r : Registry} {n : UInt64}
    (there : r.get? (failuresId t.sourceId) = some (failuresCounter t.sourceId n)) :
    (c.scraper.gatherIn c.round r).1.get? (failuresId t.sourceId) =
      some (failuresCounter t.sourceId (n + if c.fails t then 1 else 0)) := by
  have among := (c.offered.sublist distinct).1
  have nodup : c.scraper.targets.Nodup := (distinct.of_map _).sublist among
  have own : ∀ t' ∈ c.scraper.targets, t'.sourceId = t.sourceId → t' = t :=
    fun t' there' same =>
      List.inj_on_of_nodup_map distinct (among.subset there') target same
  rw [get?_gatherIn nodup own c.round there]
  simp only [Call.fails, Bool.and_eq_true, decide_eq_true_eq]

/-- The count of a target goes up by the number of its scrapes that fail. -/
theorem get?_callAll (distinct : (s.targets.map (·.sourceId)).Nodup) {t : Target}
    (target : t ∈ s.targets) {r : Registry} {n : UInt64}
    (there : r.get? (failuresId t.sourceId) = some (failuresCounter t.sourceId n))
    (calls : List (Call s)) :
    (callAll r calls).1.get? (failuresId t.sourceId) =
      some (failuresCounter t.sourceId (n + (calls.countP (·.fails t)).toUInt64)) := by
  induction calls generalizing r n with
  | nil => simpa [callAll] using there
  | cons c calls ih =>
      have after := ih (get?_call distinct target c there)
      rw [callAll, List.countP_cons]
      refine after.trans ?_
      split <;> simp [UInt64.add_assoc, UInt64.add_comm]

/-- What is so of the scrapers that are set up over a registry, and of any calls of them. -/
structure Isolated (files : FileTree) (settings : ScrapeSettings) (defaults : Dict String)
    (r r' : Registry) (calls : List (Call s)) : Prop where
  /-- Each target has a scraper of its own, which is what setting it up alone over the same
  registry makes, and that leaves the registry as it is. -/
  alone : ∀ t ∈ settings.targets, s.perTarget.get? t.sourceId = some (s.only t) ∧
    setUp files { settings with targets := [t] } defaults r' = .ok (s.only t, r')
  /-- The count of each target is there from the beginning. -/
  created : ∀ t ∈ settings.targets,
    r'.get? (failuresId t.sourceId) = some (failuresCounter t.sourceId 0)
  /-- It counts the scrapes of the target that have failed. -/
  counted : ∀ t ∈ settings.targets, (callAll r' calls).1.get? (failuresId t.sourceId) =
    some (failuresCounter t.sourceId (calls.countP (·.fails t)).toUInt64)
  /-- Nothing else changes in the registry. -/
  unchanged : ∀ id, (∀ t ∈ settings.targets, id ≠ failuresId t.sourceId) →
    (callAll r' calls).1.get? id = r.get? id
  /-- Each call yields the families its targets expose, relabelled, in the order of the targets. -/
  families : ∃ relabelled : Target → Family → Family,
    (∀ t f, Relabelled defaults t f (relabelled t f)) ∧
      (callAll r' calls).2 = calls.map fun c =>
        Family.merge (c.scraper.targets.flatMap fun t =>
          ((c.round.parsed? t).getD []).map (relabelled t))

/-- Two targets, of which the second has a label. -/
def twoTargets : ScrapeSettings :=
  let target (sourceId : String) (labels : Dict String) : Target :=
    ⟨sourceId, 8080, "http", "/metrics", .empty, labels, none⟩
  ⟨none, none, none, [target "api" .empty, target "web" (.ofList [("team", "edge")])]⟩

/-- The scraper of the two targets. -/
def scraperOfTwo : Scraper := ⟨twoTargets.targets, .ofList [("team", "core")], false⟩

/-- The first target answers something else, and the second an exposition. -/
def halfRound (status : Nat) (body : String) : Round where
  transfer t :=
    if t.sourceId = "api" then .answered status (body.toList.map (·.toUInt8))
    else .answered 200 ("up 1\n".toList.map (·.toUInt8))
  arrange := List.reverse
  perm := List.reverse_perm

/-- All targets are scraped, then the first one alone, and then all once more. -/
def threeCalls : List (Call scraperOfTwo) :=
  [⟨scraperOfTwo, .inl rfl, halfRound 500 ""⟩,
    ⟨⟨twoTargets.targets.take 1, scraperOfTwo.defaults, false⟩,
      .inr ⟨"api", (get?_perTarget (by decide +kernel)).mpr ⟨_, List.mem_cons_self, rfl, rfl⟩⟩,
      halfRound 200 "up"⟩,
    ⟨scraperOfTwo, .inl rfl, halfRound 204 "up 0"⟩]

end Telemetry.Scraper
