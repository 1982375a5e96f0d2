import Telemetry.Pipeline
import Telemetry.Proofs.Lookup

/-!
# What the pipeline does with an envelope

An envelope is skipped and changes nothing, or it comes out with its source, and nothing
but the running totals has changed (`Pipeline.process_cases`).

Of a timer some tags may be hidden: those that are taken away.  Envelopes that look alike,
which differ in hidden tags at most, are equal once these are gone
(`Pipeline.trimTags_eq_iff`), and so the pipeline does the same with them
(`Pipeline.process_congr`).
-/

namespace Telemetry

/-! ## Envelopes that look alike -/

namespace Envelope

/-- Whether a tag of an envelope is hidden: the tags that timers keep are listed without it, and
the envelope is a timer. -/
def Hides (allowed : Option (List String)) (e : Envelope) (key : String) : Prop :=
  ∃ keys, allowed = some keys ∧ key ∉ keys ∧ ∃ t, e.message = some (.timer t)

/-- Whether two envelopes are the same but for hidden tags. -/
structure LooksLike (allowed : Option (List String)) (e e' : Envelope) : Prop where
  /-- They have the same source. -/
  sourceId : e.sourceId = e'.sourceId
  /-- They have the same instance. -/
  instanceId : e.instanceId = e'.instanceId
  /-- They tell the same. -/
  message : e.message = e'.message
  /-- A tag that is not hidden is the same in both, or in neither of them. -/
  tags : ∀ key, ¬e.Hides allowed key → e.tags.get? key = e'.tags.get? key

/-- What is hidden depends on what an envelope tells. -/
theorem hides_congr {e e' : Envelope} (message : e.message = e'.message)
    (allowed : Option (List String)) (key : String) :
    e.Hides allowed key ↔ e'.Hides allowed key := by
  rw [Hides, Hides, message]

end Envelope

/-! ## Taking tags away -/

theorem RunningTotals.process_sourceId (t : RunningTotals) (e : Envelope) :
    (t.process e).2.sourceId = e.sourceId := by
  unfold process
  split <;> rfl

namespace Pipeline

variable {allowed : Option (List String)} {e e' : Envelope}

/-- Nothing but tags is taken away. -/
theorem exists_trimTags_eq (allowed : Option (List String)) (e : Envelope) :
    ∃ tags, trimTags allowed e = { e with tags := tags } := by
  unfold trimTags
  split
  · exact ⟨_, rfl⟩
  · exact ⟨e.tags, rfl⟩

theorem trimTags_sourceId (allowed : Option (List String)) (e : Envelope) :
    (trimTags allowed e).sourceId = e.sourceId := by
  obtain ⟨tags, trimmed⟩ := exists_trimTags_eq allowed e
  rw [trimmed]

theorem trimTags_message (allowed : Option (List String)) (e : Envelope) :
    (trimTags allowed e).message = e.message := by
  obtain ⟨tags, trimmed⟩ := exists_trimTags_eq allowed e
  rw [trimmed]

/-- Only timers lose tags. -/
theorem trimTags_of_not_timer (allowed : Option (List String))
    (other : ∀ t, e.message ≠ some (.timer t)) : trimTags allowed e = e := by
  unfold trimTags
  split
  next keys t timer => exact absurd timer (other t)
  next => rfl

theorem get?_trimTags_of_hides {key : String} (hidden : e.Hides allowed key) :
    (trimTags allowed e).tags.get? key = none := by
  obtain ⟨keys, rfl, unlisted, t, timer⟩ := hidden
  simp [trimTags, timer, unlisted]

theorem get?_trimTags_of_not_hides {key : String} (shown : ¬e.Hides allowed key) :
    (trimTags allowed e).tags.get? key = e.tags.get? key := by
  unfold trimTags
  split
  next keys t timer =>
    have listed : key ∈ keys := by
      by_contra unlisted
      exact shown ⟨keys, rfl, unlisted, t, timer⟩
    rw [Dict.get?_filter, List.contains_iff_mem.mpr listed]
    cases e.tags.get? key <;> rfl
  next => rfl

/-- Envelopes that look alike are left with the same tags. -/
theorem tags_trimTags_congr (alike : e.LooksLike allowed e') :
    (trimTags allowed e).tags = (trimTags allowed e').tags := by
  apply Dict.ext_get?
  intro key
  have both := Envelope.hides_congr alike.message allowed key
  by_cases hidden : e.Hides allowed key
  · rw [get?_trimTags_of_hides hidden, get?_trimTags_of_hides (both.mp hidden)]
  · have shown : ¬e'.Hides allowed key := fun hidden' => hidden (both.mpr hidden')
    rw [get?_trimTags_of_not_hides hidden, get?_trimTags_of_not_hides shown]
    exact alike.tags key hidden

/-- Envelopes look alike exactly if they become equal when hidden tags are taken away. -/
theorem trimTags_eq_iff :
    trimTags allowed e = trimTags allowed e' ↔ e.LooksLike allowed e' := by
  obtain ⟨tags, trimmed⟩ := exists_trimTags_eq allowed e
  obtain ⟨tags', trimmed'⟩ := exists_trimTags_eq allowed e'
  constructor
  · intro equal
    have same := trimmed.symm.trans (equal.trans trimmed')
    rw [Envelope.mk.injEq] at same
    obtain ⟨sourceId, instanceId, -, message⟩ := same
    refine ⟨sourceId, instanceId, message, fun key shown => ?_⟩
    have shown' : ¬e'.Hides allowed key := fun hidden =>
      shown ((Envelope.hides_congr message allowed key).mpr hidden)
    rw [← get?_trimTags_of_not_hides shown, equal, get?_trimTags_of_not_hides shown']
  · intro alike
    have same := tags_trimTags_congr alike
    rw [trimmed, trimmed'] at same ⊢
    rw [Envelope.mk.injEq]
    exact ⟨alike.sourceId, alike.instanceId, same, alike.message⟩

/-! ## Processing -/

theorem process_of_scraped {p : Pipeline} (scraped : e.sourceId ∈ p.scrapedSources) :
    p.process e = (p, none) := by
  rw [process, if_pos (List.contains_iff_mem.mpr scraped)]

/-- A counter that is not skipped is only given its total. -/
theorem process_of_counter {p : Pipeline} (passes : e.sourceId ∉ p.scrapedSources)
    {c : CounterMessage} (counter : e.message = some (.counter c)) :
    p.process e = ({ p with totals := (p.totals.process e).1 }, some (p.totals.process e).2) := by
  have whole : trimTags p.timerTags e = e :=
    trimTags_of_not_timer p.timerTags fun t timer => nomatch counter.symm.trans timer
  rw [process, if_neg (by simpa using passes), whole]

/-- An envelope whose source is scraped is skipped, and any other comes out with its source. -/
theorem process_cases (p : Pipeline) (e : Envelope) :
    (p.scrapedSources.contains e.sourceId = true ∧ p.process e = (p, none)) ∨
      ∃ totals e', p.scrapedSources.contains e.sourceId = false ∧
        p.process e = ({ p with totals := totals }, some e') ∧ e'.sourceId = e.sourceId := by
  cases scraped : p.scrapedSources.contains e.sourceId with
  | true => exact .inl ⟨rfl, process_of_scraped (List.contains_iff_mem.mp scraped)⟩
  | false =>
      refine .inr ⟨(p.totals.process (trimTags p.timerTags e)).1,
        (p.totals.process (trimTags p.timerTags e)).2, rfl, ?_, ?_⟩
      · rw [process, scraped]
        rfl
      · rw [RunningTotals.process_sourceId, trimTags_sourceId]

/-- An envelope changes nothing in the pipeline but its totals. -/
theorem process_filters (p : Pipeline) (e : Envelope) :
    (p.process e).1.scrapedSources = p.scrapedSources ∧
      (p.process e).1.timerTags = p.timerTags := by
  rcases p.process_cases e with ⟨-, processed⟩ | ⟨totals, e', -, processed, -⟩
  all_goals
    rw [processed]
    exact ⟨rfl, rfl⟩

/-- The pipeline sees no hidden tags. -/
theorem process_congr {p : Pipeline} (alike : e.LooksLike p.timerTags e') :
    p.process e = p.process e' := by
  unfold process
  rw [alike.sourceId, trimTags_eq_iff.mpr alike]

end Pipeline

end Telemetry
