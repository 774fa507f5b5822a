import Strand.Settings.Document
import Strand.System

/-! Everything that can go wrong on the way from files to settings. -/
namespace Strand

inductive SettingsError
  | loadFailed (path : String) (source : SystemError)
  | parseFailed (reason : Settings.ReadError)
  | invalid (message : String)
  deriving Repr

def SettingsError.message : SettingsError → String
  | .loadFailed path source =>
    "Failed to load configuration from " ++ path ++ ": " ++ source.message
  | .parseFailed reason => "Failed to parse configuration: " ++ reason.message
  | .invalid message => "Invalid configuration: " ++ message

namespace Settings

/-- The settings if they pass every check, and the first fault otherwise. -/
def validated (s : Settings) : Except SettingsError Settings :=
  match s.fault? with
  | none => .ok s
  | some fault => .error (.invalid fault.message)

def ofText (text : String) : Except SettingsError Settings :=
  match decode text with
  | .error reason => .error (.parseFailed reason)
  | .ok s => s.validated

end Settings
end Strand
