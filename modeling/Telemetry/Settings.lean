import Telemetry.Address
import Telemetry.Dict
import Telemetry.Duration

/-!
# Settings

The settings of the agent in the form in which they are used, after every check: the
addresses are read, the durations are nanoseconds and positive, and the targets have
names of their own.
-/

namespace Telemetry

/-- Which log lines are written: those of a level and of the more severe ones. -/
inductive LogLevel where
  | error
  | warn
  | info
  | debug
  | trace
  deriving DecidableEq

/-- The rank of a level, the most severe first. -/
def LogLevel.rank : LogLevel → Nat
  | .error => 0
  | .warn => 1
  | .info => 2
  | .debug => 3
  | .trace => 4

/-- The name of a level in log lines. -/
def LogLevel.name : LogLevel → String
  | .error => "ERROR"
  | .warn => "WARN"
  | .info => "INFO"
  | .debug => "DEBUG"
  | .trace => "TRACE"

/-- Settings of the agent as a whole. -/
structure GeneralSettings where
  /-- Where metrics are served. -/
  listen : SocketAddress
  /-- The instance, if it is known. -/
  instanceId : Option String
  /-- Labels for all metrics that do not have them. -/
  tags : Dict String
  deriving DecidableEq

/-- Settings of the store. -/
structure ExporterSettings where
  /-- How long a metric lives, in nanoseconds. -/
  ttl : Nat
  /-- How often the store is swept, in nanoseconds. -/
  expirationInterval : Nat
  /-- The tags that timers keep, if not all. -/
  timerTags : Option (List String)
  deriving DecidableEq

/-- Settings of the intake of envelopes. -/
structure IngressSettings where
  /-- Whether envelopes are taken in. -/
  enabled : Bool
  /-- The path of the socket. -/
  socketPath : String
  /-- How many envelopes may wait. -/
  bufferSize : Nat
  /-- How many connections may be open. -/
  maxConnections : Nat
  deriving DecidableEq

/-- A target to be scraped. -/
structure Target where
  /-- The source that its metrics are of. -/
  sourceId : String
  /-- Its port on the local host. -/
  port : Nat
  /-- The scheme it is reached by. -/
  scheme : String
  /-- The path of its metrics. -/
  path : String
  /-- Headers to be sent. -/
  headers : Dict String
  /-- Labels for its metrics. -/
  labels : Dict String
  /-- The name its certificate is for. -/
  serverName : Option String
  deriving DecidableEq

/-- Settings of scraping. -/
structure ScrapeSettings where
  /-- The file of the certificate shown to targets. -/
  certPath : Option String
  /-- The file of its key. -/
  keyPath : Option String
  /-- The file of the authority that targets are checked against. -/
  caPath : Option String
  /-- The targets. -/
  targets : List Target
  deriving DecidableEq

/-- Settings of the diagnostic server. -/
structure DebugSettings where
  /-- Whether it runs. -/
  enabled : Bool
  /-- Where it is served. -/
  listen : SocketAddress
  deriving DecidableEq

/-- All settings. -/
structure Settings where
  /-- The agent as a whole. -/
  general : GeneralSettings
  /-- Which log lines are written. -/
  logLevel : LogLevel
  /-- The store. -/
  exporter : ExporterSettings
  /-- The intake of envelopes. -/
  ingress : IngressSettings
  /-- Scraping. -/
  scrape : ScrapeSettings
  /-- The diagnostic server. -/
  debug : DebugSettings
  deriving DecidableEq

/-- The labels for everything that is exposed. -/
def Settings.defaultLabels (s : Settings) : Dict String := s.general.tags

end Telemetry
