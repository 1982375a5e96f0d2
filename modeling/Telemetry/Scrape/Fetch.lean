import Telemetry.Double.Decimal
import Telemetry.Http.Target
import Telemetry.Scrape.Header
import Telemetry.Settings

/-!
# Fetching

A target is fetched from the local host by one request, which carries the headers of
the target.  What comes of it is an answer, or nothing if the target cannot be reached
or does not finish its answer.  A network says what comes of every request.
-/

namespace Telemetry.Scrape

/-- A request to a target. -/
structure Fetch where
  /-- The scheme. -/
  scheme : String
  /-- The name the host is called by. -/
  host : String
  /-- The port on the local host. -/
  port : Nat
  /-- What is asked for. -/
  asked : List Char
  /-- The headers, by their names in lower case. -/
  headers : Dict String
  deriving DecidableEq

/-- What comes of a request. -/
inductive Transfer where
  /-- No whole answer. -/
  | failed
  /-- An answer with its status and the bytes of its body. -/
  | answered (status : Nat) (body : List UInt8)
  deriving DecidableEq

/-- What comes of every request. -/
abbrev Network := Fetch → Transfer

/-- The host that all targets are on. -/
def localHost : String := "127.0.0.1"

/-- The scheme of connections that are encrypted. -/
def secureScheme : String := "https"

/-- The name by which a target is called.  It is the name in its certificate if the connection is
encrypted and the target is shown a certificate too. -/
def hostName (identified : Bool) (t : Target) : String :=
  match t.serverName with
  | some name => if t.scheme = secureScheme ∧ identified then name else localHost
  | none => localHost

/-- The headers of a target, by their names in lower case. -/
def sentHeaders (t : Target) : Dict String :=
  t.headers.toList.foldl (fun sent h => sent.insert h.1.toLower h.2) .empty

namespace Fetch

/-- The request to a target. -/
def of (identified : Bool) (t : Target) : Fetch where
  scheme := t.scheme
  host := hostName identified t
  port := t.port
  asked := Http.requestTarget (t.path.toList.dropWhile (· = '/'))
  headers := sentHeaders t

/-- The host with the port. -/
def hostAndPort (f : Fetch) : String := f.host ++ ":" ++ toString f.port

/-- The line of the request. -/
def line (f : Fetch) : List Char := "GET ".toList ++ f.asked ++ " HTTP/1.1".toList

/-- The headers as they are received, with the one that names the host. -/
def received (f : Fetch) : Dict String := (f.headers.insertNew "host" f.hostAndPort).map receivedValue

end Fetch

/-- A server that gives every request the same answer, over connections that are not
encrypted. -/
structure Server where
  /-- The status. -/
  status : Nat
  /-- The bytes of the body. -/
  body : List UInt8
  /-- Whether the body breaks off. -/
  truncated : Bool
  deriving DecidableEq

namespace Server

/-- Whether an answer of a status has no body. -/
def isBodiless (status : Nat) : Bool := status = 204 || status = 304

/-- Whether a request reaches a server. -/
def accepts (f : Fetch) : Bool := f.scheme.toLower = "http"

/-- What comes of a request to a server. -/
def transfer (s : Server) (f : Fetch) : Transfer :=
  if !accepts f then .failed
  else if isBodiless s.status then .answered s.status []
  else if s.truncated then .failed
  else .answered s.status s.body

end Server

end Telemetry.Scrape
