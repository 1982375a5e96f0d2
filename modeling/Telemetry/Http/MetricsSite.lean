import Telemetry.Exposition.Text
import Telemetry.Gathering
import Telemetry.Http
import Telemetry.Http.Form
import Telemetry.Version

/-!
# The metrics site

The site exposes what gatherers yield.  The field `id` of a request names a target,
whose gatherer alone is run.  Without it, or if it is empty, the gatherer of
everything is run.  A target that is not known is not found, and a gatherer that fails
makes the response an error.  The field may be given once.
-/

namespace Telemetry

/-- The gatherers that are exposed. -/
structure MetricsSite (σ : Type) where
  /-- The gatherer of everything. -/
  everything : Gatherer σ
  /-- The gatherers of the targets. -/
  targets : Dict (Gatherer σ)

namespace MetricsSite

open Http (Request Response)

variable {σ : Type}

/-- The type of an exposition. -/
def contentType : String := "text/plain; version=0.0.4; charset=utf-8"

/-- The response to a request with the field twice. -/
def repeatedId : Response :=
  .text 400 "Failed to deserialize query string: duplicate field \x60id\x60".toList

/-- The values of the field of a query. -/
def ids (query : List Char) : List String :=
  (Http.formFields query).filterMap fun f => if f.1 = "id" then some f.2 else none

/-- The gatherer that an id asks for, if there is one. -/
def gathererOf (site : MetricsSite σ) (id : String) : Option (Gatherer σ) :=
  if id.isEmpty then some site.everything else site.targets.get? id

/-- The response with what was gathered. -/
def responseOf : Gathered → Response
  | .ok families => ⟨200, some contentType, exposition families⟩
  | .error e => .text 500 e.message.toList

/-- The response for an id. -/
def respondTo (site : MetricsSite σ) (s : σ) (id : String) : σ × Response :=
  match site.gathererOf id with
  | none => (s, .notFound)
  | some g =>
    let (s, result) := g.gather s
    (s, responseOf result)

/-- The page of metrics. -/
def page (site : MetricsSite σ) : Http.Page σ := fun s r =>
  match ids r.query with
  | [] => site.respondTo s ""
  | [id] => site.respondTo s id
  | _ => (s, repeatedId)

/-- The text of the first page. -/
def welcome : String := title ++ "Metrics are available at: /metrics\n"

/-- The pages. -/
def pages (site : MetricsSite σ) : Http.Site σ := [("/", .fixed welcome), ("/metrics", site.page)]

/-- The response to a request. -/
def respond (site : MetricsSite σ) (s : σ) (r : Request) : σ × Response := site.pages.respond s r

end MetricsSite

end Telemetry
