import Telemetry.Settings.Written

/-!
# Checking settings

Written settings are checked section by section: general, exporter, ingress, scrape
with its targets in order and then its certificate, and debug.  The first check that
fails gives the error.  The address of the diagnostic server is checked only if the
server runs; if it does not, an address that cannot be read stands for the default.
-/

namespace Telemetry

/-- What is wrong with written settings. -/
inductive SettingsError where
  /-- The text or its shape is wrong. -/
  | malformed
  /-- A setting is no address. -/
  | badAddress (setting : String) (error : AddressError)
  /-- A setting is no duration. -/
  | badDuration (setting : String) (error : DurationError)
  /-- A setting is zero. -/
  | zero (setting : String)
  /-- A target has no source. -/
  | emptySource
  /-- Two targets have this source. -/
  | duplicateSource (sourceId : String)
  /-- The port of a target is zero. -/
  | zeroPort (sourceId : String)
  /-- A target has a scheme that is not known. -/
  | badScheme (sourceId : String)
  /-- There is a certificate without a key, or a key without a certificate. -/
  | loneCredential
  deriving DecidableEq

/-- The error in words. -/
def SettingsError.message : SettingsError → String
  | .malformed => "failed to parse config file: "
  | .badAddress setting .noPort => "bad " ++ setting ++ " address: invalid socket address"
  | .badAddress setting .badPort => "bad " ++ setting ++ " address: invalid port value"
  | .badAddress setting .unknownHost => "could not resolve " ++ setting ++ " socket addr"
  | .badDuration setting error => setting ++ " couldn't be parsed: " ++ error.message
  | .zero setting => setting ++ " must be greater than 0"
  | .emptySource => "scrape target source_id must not be empty"
  | .duplicateSource sourceId => "duplicate scrape target source_id: " ++ sourceId
  | .zeroPort sourceId => "scrape target " ++ sourceId ++ ": port must be greater than 0"
  | .badScheme sourceId =>
    "scrape target " ++ sourceId ++ ": scheme must be one of: http, https"
  | .loneCredential => "scrape.cert_path and scrape.key_path must be set together"

namespace Written

/-- The address of a setting. -/
def address (setting value : String) : Except SettingsError SocketAddress :=
  match SocketAddress.read value.toList with
  | .ok a => .ok a
  | .error e => .error (.badAddress setting e)

/-- The duration of a setting. -/
def duration (setting value : String) : Except SettingsError Nat :=
  match readDuration value.toList with
  | .ok n => .ok n
  | .error e => .error (.badDuration setting e)

/-- A number that is not zero. -/
def positive (setting : String) (n : Nat) : Except SettingsError Unit :=
  if n = 0 then .error (.zero setting) else .ok ()

/-- The general settings. -/
def General.check (g : General) : Except SettingsError GeneralSettings := do
  return ⟨← address "listen" g.listen, g.instanceId, g.tags⟩

/-- The settings of the store. -/
def Exporter.check (e : Exporter) : Except SettingsError ExporterSettings := do
  let ttl ← duration "exporter.ttl" e.ttl
  let interval ← duration "exporter.expiration_interval" e.expirationInterval
  positive "exporter.ttl" ttl
  positive "exporter.expiration_interval" interval
  return ⟨ttl, interval, e.timerTags⟩

/-- The settings of the intake. -/
def checkIngress (i : IngressSettings) : Except SettingsError IngressSettings := do
  positive "ingress.buffer_size" i.bufferSize
  positive "ingress.max_connections" i.maxConnections
  return i

/-- A target, after the sources of earlier ones. -/
def checkTarget (seen : List String) (t : Target) : Except SettingsError Unit :=
  if t.sourceId = "" then .error .emptySource
  else if seen.contains t.sourceId then .error (.duplicateSource t.sourceId)
  else if t.port = 0 then .error (.zeroPort t.sourceId)
  else if t.scheme ≠ "http" ∧ t.scheme ≠ "https" then .error (.badScheme t.sourceId)
  else .ok ()

/-- Targets, after the sources of earlier ones. -/
def checkTargets (seen : List String) : List Target → Except SettingsError Unit
  | [] => .ok ()
  | t :: ts => do
    checkTarget seen t
    checkTargets (t.sourceId :: seen) ts

/-- The settings of scraping. -/
def Scrape.check (s : Scrape) : Except SettingsError ScrapeSettings := do
  checkTargets [] s.targets
  if s.certPath.isSome ≠ s.keyPath.isSome then throw .loneCredential
  return ⟨s.certPath, s.keyPath, s.caPath, s.targets⟩

/-- Where the diagnostic server is served if its address cannot be read and is not needed. -/
def defaultDebugAddress : SocketAddress := ⟨.v4 [127, 0, 0, 1], 14727⟩

/-- The settings of the diagnostic server. -/
def Debug.check (d : Debug) : Except SettingsError DebugSettings :=
  match address "debug.listen" d.listen with
  | .ok a => .ok ⟨d.enabled, a⟩
  | .error e => if d.enabled then .error e else .ok ⟨d.enabled, defaultDebugAddress⟩

/-- All settings. -/
def Config.check (c : Config) : Except SettingsError Settings := do
  let general ← c.general.check
  let exporter ← c.exporter.check
  let ingress ← checkIngress c.ingress
  let scrape ← c.scrape.check
  let debug ← c.debug.check
  return ⟨general, c.logLevel, exporter, ingress, scrape, debug⟩

end Written

/-- The settings that a text gives. -/
def Settings.read (s : List Char) : Except SettingsError Settings :=
  match Written.Config.read? s with
  | none => .error .malformed
  | some c => c.check

end Telemetry
