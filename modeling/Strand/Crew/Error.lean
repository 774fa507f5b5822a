import Strand.System

/-! What can go wrong with a thread: it is not created, it would wait for itself, or its work
panics. -/
namespace Strand

inductive ThreadError
  | spawnFailed (source : SystemError)
  | selfJoin (name : String)
  | panicked (name message : String)
  deriving DecidableEq, Repr

def ThreadError.message : ThreadError → String
  | .spawnFailed source => "Failed to spawn thread: " ++ source.message
  | .selfJoin name => "Thread " ++ name ++ " cannot join itself"
  | .panicked name message => "Thread " ++ name ++ " panicked: " ++ message

end Strand
