import Telemetry.Files
import Telemetry.Settings.Checking
import Telemetry.Text.Utf8

/-!
# Loading settings

Settings are loaded from a file, which must be there, be no directory and hold valid
UTF-8.
-/

namespace Telemetry

/-- Why settings cannot be loaded. -/
inductive LoadError where
  /-- The file cannot be used. -/
  | file (error : FileError)
  /-- What it holds is wrong. -/
  | settings (error : SettingsError)
  deriving DecidableEq

/-- The error in words. -/
def LoadError.message : LoadError → String
  | .file error => "unable to open config file: " ++ error.message
  | .settings error => error.message

/-- The settings in a file, from its bytes. -/
def Settings.load (bytes : Except FileError (List UInt8)) : Except LoadError Settings :=
  match bytes with
  | .error e => .error (.file e)
  | .ok bytes =>
    match Text.utf8? bytes with
    | none => .error (.file .invalidUtf8)
    | some s =>
      match Settings.read s with
      | .ok settings => .ok settings
      | .error e => .error (.settings e)

end Telemetry
