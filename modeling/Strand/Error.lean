import Strand.Crew.Error
import Strand.Handle.Basic
import Strand.Settings.Error

/-! The error of the whole library: one error of any part, under that part's heading. -/
namespace Strand

inductive Error
  | thread (e : ThreadError)
  | handle (e : HandleError)
  | settings (e : SettingsError)
  deriving Repr

namespace Error

def detail : Error → String
  | .thread e => e.message
  | .handle e => e.message
  | .settings e => e.message

def heading : Error → String
  | .thread _ => "Thread error: "
  | .handle _ => "Handle error: "
  | .settings _ => "Configuration error: "

def message (e : Error) : String := e.heading ++ e.detail

def cause : Error → Option String
  | .thread (.spawnFailed source) => some source.message
  | .settings (.loadFailed _ source) => some source.message
  | .settings (.parseFailed reason) => some reason.message
  | _ => none

/-- The texts from the error of the part downwards. -/
def sources (e : Error) : List String := e.detail :: e.cause.toList

end Error
end Strand
