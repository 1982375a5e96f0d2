/-!
# Pages over HTTP

A request names a path, and may carry a query after a question mark.  A page is a
response to the requests for one path, and may change a state.  Only reading a page
is allowed, by the methods `GET` and `HEAD`; for the latter the page does all its work
but its body is not sent.  A path without a page is not found, whatever the method.
-/

namespace Telemetry.Http

/-- A request. -/
structure Request where
  /-- The method. -/
  method : String
  /-- The path. -/
  path : List Char
  /-- The query, without its question mark. -/
  query : List Char
  deriving DecidableEq

/-- What follows the first occurrence of a text. -/
def after? (mark : List Char) : List Char → Option (List Char)
  | [] => if mark.isEmpty then some [] else none
  | c :: s => if mark.isPrefixOf (c :: s) then some ((c :: s).drop mark.length) else after? mark s

/-- The part of an address that is sent to the host: what follows the host, which itself follows
a scheme, and no fragment. -/
def localPart (uri : List Char) : List Char :=
  let uri := uri.takeWhile (· ≠ '#')
  if uri.head? = some '/' then uri
  else
    match after? "://".toList uri with
    | none => []
    | some rest =>
      match rest.dropWhile fun c => c ≠ '/' ∧ c ≠ '?' with
      | '/' :: s => '/' :: s
      | s => '/' :: s

/-- The request for an address. -/
def Request.of (method : String) (uri : List Char) : Request :=
  let s := localPart uri
  ⟨method, s.takeWhile (· ≠ '?'), (s.dropWhile (· ≠ '?')).drop 1⟩

/-- A response. -/
structure Response where
  /-- The status. -/
  status : Nat
  /-- The type of the body, if it is told. -/
  contentType : Option String
  /-- The body. -/
  body : List Char
  deriving DecidableEq

namespace Response

/-- The type of a plain text. -/
def plainText : String := "text/plain; charset=utf-8"

/-- A response with a plain text. -/
def text (status : Nat) (body : List Char) : Response := ⟨status, some plainText, body⟩

/-- A response without a body. -/
def bare (status : Nat) : Response := ⟨status, none, []⟩

/-- There is nothing of this name. -/
def notFound : Response := bare 404

/-- This cannot be done. -/
def methodNotAllowed : Response := bare 405

/-- The response without its body. -/
def withoutBody (r : Response) : Response := { r with body := [] }

end Response

/-- A page: a response to a request, with a change of state. -/
abbrev Page (σ : Type) := σ → Request → σ × Response

/-- The page that is always the same text. -/
def Page.fixed {σ : Type} (body : String) : Page σ := fun s _ => (s, .text 200 body.toList)

/-- Pages by path. -/
abbrev Site (σ : Type) := List (String × Page σ)

/-- The response of a site. -/
def Site.respond {σ : Type} (site : Site σ) (s : σ) (r : Request) : σ × Response :=
  match site.lookup (String.ofList r.path) with
  | none => (s, .notFound)
  | some page =>
    if r.method = "GET" then page s r
    else if r.method = "HEAD" then
      let (s, response) := page s r
      (s, response.withoutBody)
    else (s, .methodNotAllowed)

end Telemetry.Http
