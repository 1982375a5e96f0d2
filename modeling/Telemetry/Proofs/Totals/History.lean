import Mathlib.Data.List.Induction
import Telemetry.Proofs.Totals

/-!
# Running totals and what was given before

The total of a counter depends on all that a pipeline has given out before, but only in
one way: through the totals given since the table was last emptied (`recent`).  These are
told by what came out alone.  They start over when a counter comes in and they have more
than `RunningTotals.limit` different keys, and of each key the last one counts.

The table is nothing but a record of them (`RunningTotals.Records`), and one more counter
leaves a record of them and its own total (`Records.process`).  So what a pipeline does
with an envelope is known from what it has given out (`Pipeline.totals_told`).
-/

namespace Telemetry

/-! ## What counters have in common -/

/-- What two counters have in common if they have one running total. -/
structure CounterKey where
  /-- The source. -/
  sourceId : String
  /-- The instance. -/
  instanceId : String
  /-- The name. -/
  name : String
  /-- The tags, as they were given. -/
  tags : Dict String
  deriving DecidableEq

/-- The key of the table that a counter goes under. -/
def CounterKey.entry (key : CounterKey) : TotalKey :=
  ⟨key.sourceId, key.instanceId, .of key.name key.tags.toList⟩

theorem CounterKey.entry_inj {key key' : CounterKey} : key.entry = key'.entry ↔ key = key' := by
  obtain ⟨sourceId, instanceId, name, tags⟩ := key
  obtain ⟨sourceId', instanceId', name', tags'⟩ := key'
  simp only [entry, TotalKey.mk.injEq, Identity.of_toList_eq_iff, CounterKey.mk.injEq]

/-- The key of a counter of an envelope. -/
def Envelope.counterKey (e : Envelope) (c : CounterMessage) : CounterKey :=
  ⟨e.sourceId, e.instanceId, c.name, e.tags⟩

/-- The total that an envelope gives, if it is a counter. -/
def Envelope.given? (e : Envelope) : Option (CounterKey × UInt64) :=
  match e.message with
  | some (.counter c) => some (e.counterKey c, c.total)
  | _ => none

/-! ## The totals that count -/

namespace RunningTotals

/-- How many different keys some totals have. -/
def keyCount (totals : List (CounterKey × UInt64)) : Nat := (totals.map Prod.fst).dedup.length

/-- The totals that still count when a counter comes in: none if they have too many keys. -/
def remaining (totals : List (CounterKey × UInt64)) : List (CounterKey × UInt64) :=
  if limit < keyCount totals then [] else totals

/-- Of some totals, given one after the other, those since the table was last emptied.  The last
one comes first. -/
def recent (given : List (CounterKey × UInt64)) : List (CounterKey × UInt64) :=
  given.foldl (fun totals total => total :: remaining totals) []

theorem recent_append_singleton (given : List (CounterKey × UInt64))
    (total : CounterKey × UInt64) :
    recent (given ++ [total]) = total :: remaining (recent given) := by
  rw [recent, List.foldl_append, List.foldl_cons, List.foldl_nil, ← recent]

theorem keyCount_cons (total : CounterKey × UInt64) (totals : List (CounterKey × UInt64)) :
    keyCount (total :: totals) =
      if total.1 ∈ totals.map Prod.fst then keyCount totals else keyCount totals + 1 := by
  rw [keyCount, List.map_cons]
  split
  next known => rw [List.dedup_cons_of_mem known, keyCount]
  next new => rw [List.dedup_cons_of_notMem new, List.length_cons, keyCount]

theorem keyCount_remaining_le (totals : List (CounterKey × UInt64)) :
    keyCount (remaining totals) ≤ limit := by
  unfold remaining
  split
  next => exact Nat.zero_le _
  next few => exact Nat.le_of_not_lt few

/-- There is never more than one key too many. -/
theorem keyCount_recent_le (given : List (CounterKey × UInt64)) :
    keyCount (recent given) ≤ limit + 1 := by
  induction given using List.reverseRecOn with
  | nil => exact Nat.zero_le _
  | append_singleton given total _ =>
      have few := keyCount_remaining_le (recent given)
      rw [recent_append_singleton, keyCount_cons]
      split <;> omega

/-! ## The table -/

/-- What a table holds after a counter has come in. -/
theorem getElem?_insert_makeRoom (t : RunningTotals) (key : TotalKey) (total : UInt64)
    (k : TotalKey) :
    (t.makeRoom.totals.insert key total)[k]? =
      if k = key then some total else if limit < t.totals.size then none else t.totals[k]? := by
  rw [Std.HashMap.getElem?_insert]
  by_cases same : k = key
  · simp [same]
  · have other : key ≠ k := fun equal => same equal.symm
    simp only [beq_iff_eq, other, same, if_false, makeRoom]
    split
    next => exact Std.HashMap.getElem?_empty
    next => rfl

/-- Whether a table holds the last total of each key, and nothing else. -/
structure Records (t : RunningTotals) (totals : List (CounterKey × UInt64)) : Prop where
  /-- What it holds are the last totals. -/
  holds : ∀ k total,
    t.totals[k]? = some total ↔ ∃ key : CounterKey, key.entry = k ∧ totals.lookup key = some total
  /-- There are as many as there are keys. -/
  size : t.totals.size = keyCount totals

namespace Records

variable {t : RunningTotals} {totals : List (CounterKey × UInt64)}

theorem empty : Records ⟨{}⟩ [] where
  holds k total := by simp
  size := Std.HashMap.size_empty

/-- The last total of a key is found under it. -/
theorem getElem? (records : Records t totals) (key : CounterKey) :
    t.totals[key.entry]? = totals.lookup key := by
  apply Option.ext
  intro total
  rw [records.holds]
  constructor
  · rintro ⟨key', same, found⟩
    rwa [CounterKey.entry_inj.mp same] at found
  · intro found
    exact ⟨key, rfl, found⟩

theorem mem_iff (records : Records t totals) (key : CounterKey) :
    key.entry ∈ t.totals ↔ key ∈ totals.map Prod.fst := by
  rw [← Std.HashMap.isSome_getElem?_iff_mem, records.getElem?]
  simp [List.lookup_isSome_iff]

/-- The table is emptied when the totals start over. -/
theorem makeRoom (records : Records t totals) : Records t.makeRoom (remaining totals) := by
  unfold RunningTotals.makeRoom remaining
  rw [records.size]
  split
  next => exact empty
  next => exact records

theorem last (records : Records t totals) (key : CounterKey) :
    t.last key.entry = (totals.lookup key).getD 0 := by
  rw [RunningTotals.last, Std.HashMap.getD_eq_getD_getElem?, records.getElem?]

/-- One more total is recorded. -/
theorem insert (records : Records t totals) (key : CounterKey) (total : UInt64) :
    Records ⟨t.totals.insert key.entry total⟩ ((key, total) :: totals) where
  holds k found := by
    rw [Std.HashMap.getElem?_insert]
    by_cases same : key.entry = k
    · subst same
      simp [CounterKey.entry_inj, lookup_cons_eq]
    · simp only [beq_iff_eq, same, if_false, records.holds, lookup_cons_eq]
      refine exists_congr fun key' => and_congr_right fun entry => ?_
      have other : key' ≠ key := fun equal => same (equal ▸ entry)
      rw [if_neg other]
  size := by
    rw [Std.HashMap.size_insert, keyCount_cons, records.size]
    simp only [records.mem_iff]

end Records

end RunningTotals

/-! ## The pipeline -/

namespace Pipeline

open RunningTotals (Records recent remaining)

/-- A pipeline that has taken some envelopes, and what it has given out for each. -/
def processAll (p : Pipeline) (es : List Envelope) : Pipeline × List (Option Envelope) :=
  es.foldl (fun s e => ((s.1.process e).1, s.2 ++ [(s.1.process e).2])) (p, [])

theorem processAll_append_singleton (p : Pipeline) (es : List Envelope) (e : Envelope) :
    p.processAll (es ++ [e]) =
      (((p.processAll es).1.process e).1,
        (p.processAll es).2 ++ [((p.processAll es).1.process e).2]) := by
  rw [processAll, List.foldl_append, List.foldl_cons, List.foldl_nil, ← processAll]

/-- The totals that a pipeline has given. -/
def given (outs : List (Option Envelope)) : List (CounterKey × UInt64) :=
  outs.filterMap fun out => out.bind Envelope.given?

theorem given_append_singleton (outs : List (Option Envelope)) (out : Option Envelope) :
    given (outs ++ [out]) = given outs ++ (out.bind Envelope.given?).toList := by
  rw [given, List.filterMap_append, ← given, List.filterMap_cons, List.filterMap_nil]
  cases out.bind Envelope.given? <;> rfl

/-- The total of a counter, after the totals that count. -/
def totalAfter (totals : List (CounterKey × UInt64)) (key : CounterKey) (c : CounterMessage) :
    UInt64 :=
  if c.total = 0 then (totals.lookup key).getD 0 + c.delta else c.total

/-- What a pipeline that was empty at first is like when it has given something out for some
envelopes, and what it does with one more. -/
structure Proceeds (start p : Pipeline) (outs : List (Option Envelope)) (e : Envelope) : Prop where
  /-- Only its table has changed, which records the totals that were given since it was last
  emptied. -/
  records : p = { start with totals := p.totals } ∧ Records p.totals (recent (given outs))
  /-- The table has not more than one key too many. -/
  bounded : p.totals.totals.size ≤ RunningTotals.limit + 1
  /-- An envelope of a source that is scraped is skipped. -/
  skipped : e.sourceId ∈ start.scrapedSources → p.process e = (p, none)
  /-- One that is no counter changes no total. -/
  passed : e.sourceId ∉ start.scrapedSources → (∀ c, e.message ≠ some (.counter c)) →
    p.process e = (p, some (trimTags start.timerTags e))
  /-- A counter comes out with its total, and is the same otherwise.  If the table holds too many
  keys, and in no other case, all other totals are gone. -/
  counted : e.sourceId ∉ start.scrapedSources → ∀ c, e.message = some (.counter c) →
    let total := totalAfter (remaining (recent (given outs))) (e.counterKey c) c
    (p.process e).2 = some { e with message := some (.counter { c with total := total }) } ∧
      ∀ k, (p.process e).1.totals.totals[k]? =
        if k = (e.counterKey c).entry then some total
        else if RunningTotals.limit < p.totals.totals.size then none
        else p.totals.totals[k]?

/-- An envelope that is no counter and is not skipped only loses tags. -/
theorem process_of_not_counter {p : Pipeline} {e : Envelope}
    (passes : e.sourceId ∉ p.scrapedSources) (other : ∀ c, e.message ≠ some (.counter c)) :
    p.process e = (p, some (trimTags p.timerTags e)) := by
  have same := trimTags_message p.timerTags e
  rw [process, if_neg (by simpa using passes),
    RunningTotals.process_of_not_counter _ fun c counter => other c (same.symm.trans counter)]

/-- The total of a counter, by the table. -/
theorem next_eq_totalAfter {t : RunningTotals} {totals : List (CounterKey × UInt64)}
    (records : Records t totals) (key : CounterKey) (c : CounterMessage) :
    RunningTotals.next (t.last key.entry) c = totalAfter totals key c := by
  rw [RunningTotals.next, records.last, totalAfter]

/-- The table goes on to record what is given. -/
theorem records_process {p : Pipeline} {outs : List (Option Envelope)}
    (records : Records p.totals (recent (given outs))) (e : Envelope) :
    (p.process e).1 = { p with totals := (p.process e).1.totals } ∧
      Records (p.process e).1.totals (recent (given (outs ++ [(p.process e).2]))) := by
  by_cases scraped : e.sourceId ∈ p.scrapedSources
  · rw [process_of_scraped scraped, given_append_singleton]
    simpa using records
  · by_cases counter : ∃ c, e.message = some (.counter c)
    · obtain ⟨c, counter⟩ := counter
      rw [process_of_counter scraped counter, RunningTotals.process_of_counter _ counter,
        given_append_singleton]
      refine ⟨rfl, ?_⟩
      have told : ∀ total, ({ e with message := some (.counter { c with total := total }) } :
          Envelope).given? = some (e.counterKey c, total) := fun _ => rfl
      rw [Option.bind_some, told, Option.toList_some, RunningTotals.recent_append_singleton]
      exact records.makeRoom.insert (e.counterKey c) _
    · have other : ∀ c, e.message ≠ some (.counter c) := fun c equal => counter ⟨c, equal⟩
      rw [process_of_not_counter scraped other, given_append_singleton]
      have none_ : (trimTags p.timerTags e).given? = none := by
        unfold Envelope.given?
        split
        next c equal => exact absurd ((trimTags_message ..).symm.trans equal) (other c)
        next => rfl
      rw [Option.bind_some, none_]
      simpa using records

theorem records_processAll {start : Pipeline} (empty : start.totals = {}) (es : List Envelope) :
    (start.processAll es).1 = { start with totals := (start.processAll es).1.totals } ∧
      Records (start.processAll es).1.totals (recent (given (start.processAll es).2)) := by
  induction es using List.reverseRecOn with
  | nil => exact ⟨rfl, empty ▸ Records.empty⟩
  | append_singleton es e ih =>
      obtain ⟨settings, records⟩ := ih
      obtain ⟨settings', records'⟩ := records_process records e
      rw [processAll_append_singleton]
      refine ⟨?_, records'⟩
      rw [settings', settings]

/-- What a pipeline does with an envelope is told by what it has given out before, whatever it
skips and whatever tags it takes away. -/
theorem totals_told (scrapedSources : List String) (timerTags : Option (List String))
    (es : List Envelope) (e : Envelope) :
    let start : Pipeline := { scrapedSources, timerTags }
    Proceeds start (start.processAll es).1 (start.processAll es).2 e := by
  intro start
  have empty : start.totals = {} := rfl
  obtain ⟨settings, records⟩ := records_processAll empty es
  generalize (start.processAll es).2 = outs at records
  generalize (start.processAll es).1 = p at settings records
  have scraped : p.scrapedSources = start.scrapedSources := by rw [settings]
  have allowed : p.timerTags = start.timerTags := by rw [settings]
  refine ⟨⟨settings, records⟩, ?_, ?_, ?_, ?_⟩
  · rw [records.size]
    exact RunningTotals.keyCount_recent_le _
  · rw [← scraped]
    exact process_of_scraped
  · rw [← scraped, ← allowed]
    exact process_of_not_counter
  · rw [← scraped]
    intro passes c counter total
    have next : RunningTotals.next (p.totals.makeRoom.last (e.counterKey c).entry) c = total :=
      next_eq_totalAfter records.makeRoom (e.counterKey c) c
    rw [process_of_counter passes counter, RunningTotals.process_of_counter _ counter, ← next]
    exact ⟨rfl, RunningTotals.getElem?_insert_makeRoom _ _ _⟩

/-- Two increments with a total between them, while another source is skipped. -/
theorem told_afterTotal :
    let start : Pipeline := { scrapedSources := ["router"], timerTags := some [] }
    let before := [requestsOf 4 0, requestsOf 0 100, { requestsOf 9 0 with sourceId := "router" }]
    Proceeds start (start.processAll before).1 (start.processAll before).2 (requestsOf 1 0) ∧
      (start.processAll (before ++ [requestsOf 1 0])).2 =
        [some (requestsOf 4 4), some (requestsOf 0 100), none,
          some (requestsOf 1 101)] := by
  intro start before
  refine ⟨totals_told ["router"] (some []) before (requestsOf 1 0), ?_⟩
  simp [start, before, requestsOf, processAll, process, trimTags, RunningTotals.process,
    RunningTotals.makeRoom, RunningTotals.limit, RunningTotals.last, RunningTotals.next,
    RunningTotals.keyOf, Std.HashMap.size_insert]

end Pipeline

end Telemetry
