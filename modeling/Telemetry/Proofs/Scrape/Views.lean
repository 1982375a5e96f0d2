import Telemetry.Proofs.Exposition.Regrouped
import Telemetry.Proofs.Exposition.Represented
import Telemetry.Proofs.Scrape.Isolation

/-!
# Views of the targets

The targets are scraped all together, or each one alone, and each time the answer of a
target is read anew.  What is gathered together is compared with what is gathered of each
target alone, merged in the order of the targets (`views_agree`).

The two sides do not merge the same lists: one merges the families of all expositions once,
and the other merges those of each exposition before.  They agree because an exposition is
read into families of different names (`names_parsed?`), and these are only put in order
when they are merged.  So it does not matter either in which order the families of an
exposition come out, on each side for itself: if both sides read the same families, they
gather the same.

But each side visits the maps of its reader in orders of its own.  What it reads may then
differ in the order of histograms and of summaries in a family, and so may what is gathered
(`views_differ`).  A name that an exposition uses for a histogram and for a summary may even
have different kinds, unless both sides visit a group of the same kind first
(`Exposition.SameKinds`).  Nothing else differs.
-/

namespace Telemetry

namespace Scrape

/-- An exposition is read into families of different names. -/
theorem names_parsed? {round : Round} {t : Target} (fair : (round.reading t).Fair) :
    (((round.parsed? t).getD []).map (·.name)).Nodup := by
  rw [Round.parsed?]
  cases round.transfer t with
  | failed => exact List.nodup_nil
  | answered status body =>
      dsimp only
      split
      · cases read : Exposition.readIn (round.reading t) (Text.ofBytes body) with
        | error e => exact List.nodup_nil
        | ok families =>
            have names := Exposition.names_familiesOf fair
              (Transcript.ofLines (Text.lines (Text.ofBytes body)))
            rw [Exposition.eq_of_readIn read]
            exact names.imp String.ne_of_lt
      · exact List.nodup_nil

theorem names_relabel (under : Labels) (families : List Family) :
    (families.map (relabel under)).map (·.name) = families.map (·.name) := by
  rw [List.map_map]
  rfl

theorem reordered_relabel (under : Labels) {f f' : Family} (same : f.Reordered f') :
    (relabel under f).Reordered (relabel under f') where
  name := same.name
  help := same.help
  kind := same.kind
  perm := same.perm.map _
  scalar scalar := congrArg (List.map _) (same.scalar scalar)

/-- Whether the same comes of a target in two rounds.  Each reads the exposition in orders of its
own, but if a name stands for histograms and for summaries, they visit a group of the same kind
first. -/
structure SameOutcome (round round' : Round) (t : Target) : Prop where
  /-- The same comes of the request. -/
  transfer : round'.transfer t = round.transfer t
  /-- In one round everything is visited once. -/
  fair : (round.reading t).Fair
  /-- In the other round it is as well. -/
  fair' : (round'.reading t).Fair
  /-- If there is an exposition, kinds are taken alike. -/
  kinds : ∀ {status body}, round.transfer t = .answered status body → isSuccess status = true →
    Exposition.SameKinds (round.reading t) (round'.reading t)
      (.ofLines (Text.lines (Text.ofBytes body)))

/-- In both rounds the same families are read, but for the order of histograms and of
summaries. -/
theorem SameOutcome.reordered_parsed? {round round' : Round} {t : Target}
    (same : SameOutcome round round' t) :
    List.Forall₂ Family.Reordered ((round.parsed? t).getD []) ((round'.parsed? t).getD []) := by
  rw [Round.parsed?, Round.parsed?, same.transfer]
  cases answer : round.transfer t with
  | failed => exact .nil
  | answered status body =>
      dsimp only
      split
      next success =>
        have kinds := same.kinds answer (by simpa [isSuccess] using success)
        rcases Exposition.reordered_readIn same.fair same.fair' _ kinds with
          ⟨error, read, read'⟩ | ⟨families, families', read, read', alike⟩
        · rw [read, read']
          exact .nil
        · rw [read, read']
          exact alike
      next => exact .nil

end Scrape

namespace Scraper

open Scrape

/-! ## What is gathered -/

/-- The families of a target with its labels. -/
def labelled (s : Scraper) (yields : Target → List Family) (t : Target) : List Family :=
  (yields t).map (relabel (targetLabels s.defaults t))

/-- What a scraper gathers if the families of each exposition come out as they are given. -/
def gatherAs (s : Scraper) (yields : Target → List Family) : List Family :=
  Family.merge (s.targets.flatMap (s.labelled yields))

/-- What is gathered of each target alone, merged in the order of the targets. -/
def gatherApart (s : Scraper) (yields : Target → List Family) : List Family :=
  Family.merge (s.targets.flatMap fun t => (s.only t).gatherAs yields)

/-- The order in which the families of an exposition come out is not seen in what is gathered. -/
theorem families_gatherIn_eq_gatherAs {s : Scraper} {round : Round}
    (fair : ∀ t ∈ s.targets, (round.reading t).Fair) {yields : Target → List Family}
    (exposed : ∀ t ∈ s.targets, (yields t).Perm ((round.parsed? t).getD [])) (r : Registry) :
    (s.gatherIn round r).2 = s.gatherAs yields := by
  rw [families_gatherIn, gatherAs]
  refine (Family.merge_flatMap_of_perm (fun t there => ?_) fun t there =>
    (exposed t there).map _).symm
  rw [names_relabel]
  exact names_parsed? (fair t there)

section Yields

variable {s : Scraper} {yields yields' : Target → List Family}

/-- Where the families of an exposition have different names, they may be merged before. -/
theorem gatherApart_eq (distinct : ∀ t ∈ s.targets, ((yields t).map (·.name)).Nodup) :
    s.gatherApart yields = s.gatherAs yields := by
  have names : ∀ t ∈ s.targets, ((s.labelled yields t).map (·.name)).Nodup := by
    intro t there
    rw [labelled, names_relabel]
    exact distinct t there
  refine Family.merge_flatMap_of_perm names fun t there => ?_
  rw [gatherAs, only, List.flatMap_singleton]
  exact Family.merge_perm (names t there)

/-- Where the families of an exposition have different names, they may come out in any order. -/
theorem gatherAs_congr (distinct : ∀ t ∈ s.targets, ((yields t).map (·.name)).Nodup)
    (perm : ∀ t ∈ s.targets, (yields' t).Perm (yields t)) : s.gatherAs yields' = s.gatherAs yields := by
  refine Family.merge_flatMap_of_perm (fun t there => ?_) fun t there => (perm t there).map _
  rw [labelled, names_relabel]
  exact distinct t there

theorem forall₂_labelled {t : Target}
    (same : List.Forall₂ Family.Reordered (yields t) (yields' t)) :
    List.Forall₂ Family.Reordered (s.labelled yields t) (s.labelled yields' t) := by
  rw [labelled, labelled, List.forall₂_map_left_iff, List.forall₂_map_right_iff]
  exact same.imp fun _ _ => reordered_relabel _

theorem forall₂_gatherAs
    (same : ∀ t ∈ s.targets, List.Forall₂ Family.Reordered (yields t) (yields' t)) :
    List.Forall₂ Family.Reordered (s.gatherAs yields) (s.gatherAs yields') := by
  refine Family.forall₂_merge ?_
  generalize s.targets = targets at same ⊢
  induction targets with
  | nil => exact .nil
  | cons t targets ih =>
      rw [List.flatMap_cons, List.flatMap_cons]
      exact List.rel_append (forall₂_labelled (same t List.mem_cons_self))
        (ih fun t' there => same t' (List.mem_cons_of_mem t there))

/-! ## Shares of the targets -/

/-- The metrics that a target gives to the family of a name and a kind. -/
def share (s : Scraper) (yields : Target → List Family) (name : String) (kind : Kind)
    (t : Target) : List Metric :=
  ((s.labelled yields t).filter fun f => f.name = name ∧ kind = f.kind).flatMap (·.metrics)

/-- A family has the shares of the targets, in order. -/
theorem metrics_of_mem_gatherAs {f : Family} (there : f ∈ s.gatherAs yields) :
    f.metrics = s.targets.flatMap (s.share yields f.name f.kind) := by
  rw [Family.metrics_of_mem_merge there, List.filter_flatMap, List.flatMap_assoc]
  rfl

theorem share_perm {t : Target} (perm : (yields t).Perm (yields' t)) (name : String)
    (kind : Kind) : (s.share yields name kind t).Perm (s.share yields' name kind t) :=
  ((perm.map _).filter _).flatMap_right _

theorem share_reordered {t : Target}
    (same : List.Forall₂ Family.Reordered (yields t) (yields' t)) (name : String) (kind : Kind) :
    (s.share yields name kind t).Perm (s.share yields' name kind t) := by
  have own : ∀ f f', Family.Reordered f f' → ((decide (f.name = name ∧ kind = f.kind) = true) ↔
      decide (f'.name = name ∧ kind = f'.kind) = true) := by
    intro f f' alike
    rw [alike.name, alike.kind]
  exact Family.flatMap_metrics_perm (List.rel_filter own (forall₂_labelled same))

end Yields

/-! ## Both views -/

/-- Whether two families are the same but for the order of the histograms, or of the summaries, of
each target. -/
structure AgreeByTarget (s : Scraper) (yields yields' : Target → List Family) (f f' : Family) :
    Prop extends Family.Reordered f f' where
  /-- One has the shares of the targets, in order. -/
  together : f.metrics = s.targets.flatMap (s.share yields f.name f.kind)
  /-- So has the other. -/
  apart : f'.metrics = s.targets.flatMap (s.share yields' f.name f.kind)
  /-- The shares of a target are the same but for their order. -/
  shares : ∀ t ∈ s.targets,
    (s.share yields f.name f.kind t).Perm (s.share yields' f.name f.kind t)

/-- What is so of all targets together, scraped in a round, and of each one alone, scraped in a
round of its own.  The families of each exposition come out in one order on one side and in another
order on the other side. -/
structure ViewsAgree (s : Scraper) (round : Round) (alone : Target → Round)
    (yields yields' : Target → List Family) : Prop where
  /-- This is what is gathered of all targets. -/
  together : ∀ r, (s.gatherIn round r).2 = s.gatherAs yields
  /-- Each target has a scraper of its own, and this is what it gathers. -/
  alone : ∀ t ∈ s.targets, s.perTarget.get? t.sourceId = some (s.only t) ∧
    ∀ r, ((s.only t).gatherIn (alone t) r).2 = (s.only t).gatherAs yields'
  /-- What is gathered together is what is gathered alone, merged in the order of the targets, but
  for the order of the histograms and of the summaries of a target. -/
  agree : List.Forall₂ (s.AgreeByTarget yields yields') (s.gatherAs yields) (s.gatherApart yields')
  /-- If the same families are read on both sides, it is just that. -/
  equal : (∀ t ∈ s.targets, (yields' t).Perm (yields t)) → s.gatherAs yields = s.gatherApart yields'

/-- What is gathered of all targets agrees with what is gathered of each target alone, merged in the
order of the targets. -/
theorem views_agree {s : Scraper} (distinct : (s.targets.map (·.sourceId)).Nodup) {round : Round}
    {alone : Target → Round} (same : ∀ t ∈ s.targets, SameOutcome round (alone t) t)
    {yields yields' : Target → List Family}
    (exposed : ∀ t ∈ s.targets, (yields t).Perm ((round.parsed? t).getD []))
    (exposed' : ∀ t ∈ s.targets, (yields' t).Perm (((alone t).parsed? t).getD [])) :
    ViewsAgree s round alone yields yields' := by
  let parsed : Target → List Family := fun t => (round.parsed? t).getD []
  let parsed' : Target → List Family := fun t => ((alone t).parsed? t).getD []
  have read : ∀ t ∈ s.targets, ((parsed t).map (·.name)).Nodup :=
    fun t there => names_parsed? (same t there).fair
  have read' : ∀ t ∈ s.targets, ((parsed' t).map (·.name)).Nodup :=
    fun t there => names_parsed? (same t there).fair'
  have names : ∀ t ∈ s.targets, ((yields t).map (·.name)).Nodup :=
    fun t there => ((exposed t there).map _).nodup_iff.mpr (read t there)
  have names' : ∀ t ∈ s.targets, ((yields' t).map (·.name)).Nodup :=
    fun t there => ((exposed' t there).map _).nodup_iff.mpr (read' t there)
  constructor
  case together =>
    exact families_gatherIn_eq_gatherAs (fun t there => (same t there).fair) exposed
  case alone =>
    intro t there
    refine ⟨(get?_perTarget distinct).mpr ⟨t, there, rfl, rfl⟩, ?_⟩
    apply families_gatherIn_eq_gatherAs
    all_goals
      intro t' among
      obtain rfl := List.mem_singleton.mp among
    · exact (same t' there).fair'
    · exact exposed' t' there
  case agree =>
    have reordered : List.Forall₂ Family.Reordered (s.gatherAs yields) (s.gatherAs yields') := by
      rw [gatherAs_congr read exposed, gatherAs_congr read' exposed']
      exact forall₂_gatherAs fun t there => (same t there).reordered_parsed?
    rw [gatherApart_eq names', List.forall₂_iff_zip]
    refine ⟨reordered.length_eq, fun {f f'} pair => ?_⟩
    have alike := List.forall₂_zip reordered pair
    obtain ⟨there, there'⟩ := List.of_mem_zip pair
    have apart := metrics_of_mem_gatherAs there'
    rw [alike.name, alike.kind] at apart
    refine ⟨alike, metrics_of_mem_gatherAs there, apart, fun t target => ?_⟩
    calc (s.share yields f.name f.kind t).Perm (s.share parsed f.name f.kind t) :=
          share_perm (exposed t target) f.name f.kind
      (s.share parsed f.name f.kind t).Perm (s.share parsed' f.name f.kind t) :=
          share_reordered (same t target).reordered_parsed? f.name f.kind
      (s.share parsed' f.name f.kind t).Perm (s.share yields' f.name f.kind t) :=
          (share_perm (exposed' t target) f.name f.kind).symm
  case equal =>
    intro perm
    rw [gatherApart_eq names', gatherAs_congr names perm]

/-! ## Two targets -/

/-- What is visited in the order it is kept in. -/
def kept : Exposition.VisitOrder := ⟨id, id, id⟩

theorem fair_kept : kept.Fair := ⟨.refl, .refl, .refl⟩

/-- What is visited the other way round. -/
def backwards : Exposition.VisitOrder := ⟨List.reverse, List.reverse, List.reverse⟩

theorem fair_backwards : backwards.Fair :=
  ⟨List.reverse_perm, List.reverse_perm, List.reverse_perm⟩

/-- A round in which each target answers with a text, and expositions are read in an order. -/
def answers (body : Target → String) (reading : Exposition.VisitOrder) : Round where
  transfer t := .answered 200 ((body t).toList.map (·.toUInt8))
  reading _ := reading

/-- One name under two kinds, one beside another name and the other beside histograms, and more of
these that nothing is declared of. -/
def clashingBody (t : Target) : String :=
  if t.sourceId = "api" then
    "# TYPE up gauge\nup 1\nqueue 2\n# TYPE size histogram\n" ++
      "size_bucket\x7bjob=\"a\",le=\"1\"\x7d 1\nsize_bucket\x7bjob=\"b\",le=\"1\"\x7d 2\n"
  else
    "# TYPE up counter\nup 3\nerrors 4\n" ++
      "size_bucket\x7bjob=\"c\",le=\"1\"\x7d 3\nsize_bucket\x7bjob=\"d\",le=\"1\"\x7d 4\n"

/-- The jobs that the metrics of a family are labelled with. -/
def jobs (f : Family) : List String := f.metrics.filterMap (·.labels.get? "job")

/-- The name of the first target wins, in both views and whatever order families come out in.  The
histograms of each target are in another order, but those of the first target come first. -/
theorem agree_clashingRound :
    let round := answers clashingBody kept
    let alone := fun _ => answers clashingBody backwards
    let yields := fun t => (round.parsed? t).getD []
    let yields' := fun t => (((alone t).parsed? t).getD []).reverse
    (scraperOfTwo.targets.map (·.sourceId)).Nodup ∧
      (∀ t ∈ scraperOfTwo.targets, SameOutcome round (alone t) t) ∧
      ViewsAgree scraperOfTwo round alone yields yields' ∧
      (scraperOfTwo.gatherAs yields).map (fun f => (f.name, f.kind, jobs f)) =
        [("errors", .untyped, []), ("queue", .untyped, []),
          ("size", .histogram, ["a", "b", "c", "d"]), ("up", .gauge, [])] ∧
      (scraperOfTwo.gatherApart yields').map jobs = [[], [], ["b", "a", "d", "c"], []] := by
  intro round alone yields yields'
  have distinct : (scraperOfTwo.targets.map (·.sourceId)).Nodup := by decide +kernel
  have oneKind : ∀ t ∈ scraperOfTwo.targets,
      let groups := (Transcript.ofLines
        (Text.lines (Text.ofBytes ((clashingBody t).toList.map (·.toUInt8))))).groups
      ∀ g ∈ groups, ∀ g' ∈ groups, g.title = g'.title → g.kind = g'.kind := by decide +kernel
  have same : ∀ t ∈ scraperOfTwo.targets, SameOutcome round (alone t) t := by
    intro t there
    refine ⟨rfl, fair_kept, fair_backwards, fun {status body} answer _ => ?_⟩
    cases answer
    exact Exposition.sameKinds_of_oneKind fair_kept fair_backwards (oneKind t there)
  refine ⟨distinct, same, ?_, ?_⟩
  · exact views_agree distinct same (fun _ _ => .refl _) fun _ _ => List.reverse_perm _
  · decide +kernel

/-- Two histograms of one name that nothing is declared of. -/
def twoSeries : String :=
  "x_bucket\x7bjob=\"a\",le=\"1\"\x7d 2\nx_bucket\x7bjob=\"b\",le=\"1\"\x7d 3\n"

/-- Though the same comes of each target, the two views are not the same: histograms are in another
order, and a name that is declared twice even has another kind. -/
theorem views_differ :
    let together := fun body => (scraperOfTwo.gatherIn (answers (fun _ => body) kept) .empty).2
    let apart := fun body => Family.merge (scraperOfTwo.targets.flatMap fun t =>
      ((scraperOfTwo.only t).gatherIn (answers (fun _ => body) backwards) .empty).2)
    (scraperOfTwo.targets.map (·.sourceId)).Nodup ∧
      (∀ t ∈ scraperOfTwo.targets,
        scraperOfTwo.perTarget.get? t.sourceId = some (scraperOfTwo.only t)) ∧
      kept.Fair ∧ backwards.Fair ∧
      together twoSeries ≠ apart twoSeries ∧
      (together Exposition.twiceDeclared).map (fun f => (f.name, f.kind)) = [("x", .histogram)] ∧
      (apart Exposition.twiceDeclared).map (fun f => (f.name, f.kind)) = [("x", .summary)] := by
  intro together apart
  have distinct : (scraperOfTwo.targets.map (·.sourceId)).Nodup := by decide +kernel
  refine ⟨distinct, fun t there => ?_, fair_kept, fair_backwards, ?_⟩
  · exact (get?_perTarget distinct).mpr ⟨t, there, rfl, rfl⟩
  · decide +kernel

end Scraper

end Telemetry
