import Telemetry.Exposition.Reading
import Telemetry.Family.Merge

/-!
# Gathering

A *gatherer* yields families, or fails.  What it does may depend on a state and
change it, such as the counts of failures.  A gatherer is a single source or an
*aggregate* of others.  An aggregate first runs its concurrent gatherers and then its
trailing ones, so that these see every change made by those.  A gatherer that fails
is left out, and the families of all others are merged in the order in which the
gatherers are listed.  So an aggregate never fails.
-/

namespace Telemetry

/-- Why a target could not be scraped. -/
inductive ScrapeError where
  /-- The request was not answered, or the answer broke off. -/
  | request
  /-- The answer has a status that is no success. -/
  | status (code : Nat)
  /-- The answer is no exposition. -/
  | exposition (error : Exposition.ReadError)
  deriving DecidableEq

/-- The error in words. -/
def ScrapeError.message : ScrapeError → String
  | .request => "request failed"
  | .status code => "unexpected status: " ++ toString code
  | .exposition error => "invalid exposition: " ++ error.message

/-- Why a gatherer has failed. -/
inductive GatherError where
  /-- Its target could not be scraped. -/
  | scrape (error : ScrapeError)
  deriving DecidableEq

/-- The error in words. -/
def GatherError.message : GatherError → String
  | .scrape error => "scrape failed: " ++ error.message

/-- What a gatherer yields. -/
abbrev Gathered := Except GatherError (List Family)

/-- Something that yields families. -/
inductive Gatherer (σ : Type) where
  /-- A single source, with what it does to the state. -/
  | source (run : σ → σ × Gathered)
  /-- The gatherers that run at the same time, and those that run after them, in order. -/
  | aggregate (concurrent trailing : List (Gatherer σ))

namespace Gatherer

variable {σ : Type}

/-- The families of the gatherers that have not failed, merged. -/
def combine (results : List Gathered) : List Family :=
  Family.merge (results.flatMap fun | .ok families => families | .error _ => [])

mutual

/-- What a gatherer yields, and the state after it. -/
def gather : Gatherer σ → σ → σ × Gathered
  | .source run, s => run s
  | .aggregate concurrent trailing, s =>
    let (s, first) := gatherAll concurrent s
    let (s, last) := gatherAll trailing s
    (s, .ok (combine (first ++ last)))

/-- What some gatherers yield one after the other, and the state after the last. -/
def gatherAll : List (Gatherer σ) → σ → σ × List Gathered
  | [], s => (s, [])
  | g :: gs, s =>
    let (s, result) := gather g s
    let (s, results) := gatherAll gs s
    (s, result :: results)

end

/-- The gatherer that always yields the same and does nothing else. -/
def constant (result : Gathered) : Gatherer σ := .source fun s => (s, result)

/-- The gatherer of an exposition. -/
def ofExposition (body : List Char) : Gatherer σ :=
  constant <| match Exposition.read body with
    | .ok families => .ok families
    | .error e => .error (.scrape (.exposition e))

/-- A gatherer whose families are changed by a function. -/
def map (f : List Family → List Family) (g : Gatherer σ) : Gatherer σ :=
  .source fun s => let (s, result) := g.gather s; (s, result.map f)

end Gatherer

end Telemetry
