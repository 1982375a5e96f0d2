import Telemetry.Settings
import Telemetry.Toml.Document

/-!
# Written settings

Settings as they are written: everything has the right shape, and what is left out
has its default, but nothing has been checked.

A section is a table, in which no other keys may stand, or an array of its values in
order, which may stop early.  A level is a word, or a table with that word as its
only key and nothing below it.
-/

namespace Telemetry.Written

/-- Settings of the agent as a whole. -/
structure General where
  /-- Where metrics are served. -/
  listen : String := "0.0.0.0:14726"
  /-- The instance. -/
  instanceId : Option String := none
  /-- Labels for all metrics. -/
  tags : Dict String := .empty

/-- Settings of the store. -/
structure Exporter where
  /-- How long a metric lives. -/
  ttl : String := "10m"
  /-- How often the store is swept. -/
  expirationInterval : String := "1m"
  /-- The tags that timers keep. -/
  timerTags : Option (List String) := none

/-- Settings of scraping. -/
structure Scrape where
  /-- The file of the certificate. -/
  certPath : Option String := none
  /-- The file of its key. -/
  keyPath : Option String := none
  /-- The file of the authority. -/
  caPath : Option String := none
  /-- The targets. -/
  targets : List Target := []

/-- Settings of the diagnostic server. -/
structure Debug where
  /-- Whether it runs. -/
  enabled : Bool := false
  /-- Where it is served. -/
  listen : String := "127.0.0.1:14727"

/-- The settings of the intake that are not written. -/
def defaultIngress : IngressSettings :=
  ⟨true, "/var/run/metrics-agent/ingress.sock", 10000, 1000⟩

/-- All settings as they are written. -/
structure Config where
  /-- The agent as a whole. -/
  general : General := {}
  /-- Which log lines are written. -/
  logLevel : LogLevel := .info
  /-- The store. -/
  exporter : Exporter := {}
  /-- The intake of envelopes. -/
  ingress : IngressSettings := defaultIngress
  /-- Scraping. -/
  scrape : Scrape := {}
  /-- The diagnostic server. -/
  debug : Debug := {}

/-! ## Values -/

/-- A text. -/
def text? : Toml → Option String
  | .text s => some s
  | _ => none

/-- A truth value. -/
def bool? : Toml → Option Bool
  | .bool b => some b
  | _ => none

/-- A number below a limit. -/
def below? (limit : Nat) : Toml → Option Nat
  | .integer n => if 0 ≤ n ∧ n < limit then some n.toNat else none
  | _ => none

/-- Values of one kind. -/
def list? {α : Type} (value? : Toml → Option α) : Toml → Option (List α)
  | .array _ items => items.mapM value?
  | _ => none

/-- Texts by key. -/
def texts? : Toml → Option (Dict String)
  | .table _ entries => (entries.mapM fun e => (text? e.2).map (e.1, ·)).map Dict.ofList
  | _ => none

/-- Whether nothing is below a key. -/
def isBare : Toml → Bool
  | .array _ [] => true
  | .table _ [] => true
  | _ => false

/-- The level of a word. -/
def levelOfWord? : String → Option LogLevel
  | "error" => some .error
  | "warn" => some .warn
  | "info" => some .info
  | "debug" => some .debug
  | "trace" => some .trace
  | _ => none

/-- A level. -/
def level? : Toml → Option LogLevel
  | .text word => levelOfWord? word
  | .table _ [(word, value)] => if isBare value then levelOfWord? word else none
  | _ => none

/-! ## Sections -/

/-- The values of a section by the names it declares. -/
def section? (names : List String) : Toml → Option TomlEntries
  | .table _ entries => if entries.all (names.contains ·.1) then some entries else none
  | .array _ items => some (names.zip items)
  | _ => none

/-- A value that may be left out. -/
def optional {α : Type} (entries : TomlEntries) (name : String) (fallback : α)
    (value? : Toml → Option α) : Option α :=
  match entries.lookup name with
  | none => some fallback
  | some value => value? value

/-- A value that must be written. -/
def required {α : Type} (entries : TomlEntries) (name : String) (value? : Toml → Option α) :
    Option α :=
  (entries.lookup name).bind value?

/-- A value that is left out unless it is written. -/
def maybe {α : Type} (value? : Toml → Option α) (value : Toml) : Option (Option α) :=
  (value? value).map some

/-- Settings of the agent as a whole. -/
def General.ofToml? (value : Toml) : Option General := do
  let e ← section? ["listen", "instance_id", "tags"] value
  let d : General := {}
  return ⟨← optional e "listen" d.listen text?, ← optional e "instance_id" none (maybe text?),
    ← optional e "tags" .empty texts?⟩

/-- The level of log lines. -/
def logOfToml? (value : Toml) : Option LogLevel := do
  let e ← section? ["level"] value
  optional e "level" .info level?

/-- Settings of the store. -/
def Exporter.ofToml? (value : Toml) : Option Exporter := do
  let e ← section? ["ttl", "expiration_interval", "whitelisted_timer_tags"] value
  let d : Exporter := {}
  return ⟨← optional e "ttl" d.ttl text?,
    ← optional e "expiration_interval" d.expirationInterval text?,
    ← optional e "whitelisted_timer_tags" none (maybe (list? text?))⟩

/-- Settings of the intake of envelopes. -/
def ingressOfToml? (value : Toml) : Option IngressSettings := do
  let e ← section? ["enabled", "socket_path", "buffer_size", "max_connections"] value
  let d := defaultIngress
  return ⟨← optional e "enabled" d.enabled bool?, ← optional e "socket_path" d.socketPath text?,
    ← optional e "buffer_size" d.bufferSize (below? UInt64.size),
    ← optional e "max_connections" d.maxConnections (below? UInt64.size)⟩

/-- A target. -/
def targetOfToml? (value : Toml) : Option Target := do
  let e ← section? ["source_id", "port", "scheme", "path", "headers", "labels", "server_name"]
    value
  return ⟨← required e "source_id" text?, ← required e "port" (below? 65536),
    ← optional e "scheme" "http" text?, ← optional e "path" "/metrics" text?,
    ← optional e "headers" .empty texts?, ← optional e "labels" .empty texts?,
    ← optional e "server_name" none (maybe text?)⟩

/-- Settings of scraping. -/
def Scrape.ofToml? (value : Toml) : Option Scrape := do
  let e ← section? ["cert_path", "key_path", "ca_path", "targets"] value
  return ⟨← optional e "cert_path" none (maybe text?), ← optional e "key_path" none (maybe text?),
    ← optional e "ca_path" none (maybe text?), ← optional e "targets" [] (list? targetOfToml?)⟩

/-- Settings of the diagnostic server. -/
def Debug.ofToml? (value : Toml) : Option Debug := do
  let e ← section? ["enabled", "listen"] value
  let d : Debug := {}
  return ⟨← optional e "enabled" d.enabled bool?, ← optional e "listen" d.listen text?⟩

/-- All settings. -/
def Config.ofEntries? (entries : TomlEntries) : Option Config := do
  let e ← section? ["general", "log", "exporter", "ingress", "scrape", "debug"]
    (.table .header entries)
  return ⟨← optional e "general" {} General.ofToml?, ← optional e "log" .info logOfToml?,
    ← optional e "exporter" {} Exporter.ofToml?,
    ← optional e "ingress" defaultIngress ingressOfToml?,
    ← optional e "scrape" {} Scrape.ofToml?, ← optional e "debug" {} Debug.ofToml?⟩

/-- The settings that a text writes. -/
def Config.read? (s : List Char) : Option Config := (Toml.read? s).bind Config.ofEntries?

end Telemetry.Written
