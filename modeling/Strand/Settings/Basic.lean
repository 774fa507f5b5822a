import Strand.Text.Quoted

/-! The settings of the runtime: how threads are named, how large their stacks are, and what happens
when a thread is joined that cannot be joined. -/
namespace Strand

inductive JoinPolicy
  /-- Nothing. -/
  | ignore
  /-- Logs a warning. -/
  | warn
  /-- Logs a warning and sets the caller's error code. -/
  | setError
  deriving DecidableEq, Repr

namespace JoinPolicy

def key : JoinPolicy → String
  | .ignore => "ignore"
  | .warn => "warn"
  | .setError => "set_error"

def all : List JoinPolicy := [.ignore, .warn, .setError]

def ofKey? (s : String) : Option JoinPolicy := all.find? fun policy => policy.key == s

@[simp] theorem ofKey?_key (policy : JoinPolicy) : ofKey? policy.key = some policy := by
  cases policy <;> decide

def describe : JoinPolicy → String
  | .ignore => "Ignore"
  | .warn => "Warn"
  | .setError => "SetError"

end JoinPolicy

structure Settings where
  /-- Threads are named by this text, a hyphen and their number. -/
  namePrefix : String
  /-- In bytes; the system's own choice when absent. -/
  stackSize : Option UInt64
  invalidJoin : JoinPolicy
  /-- The code set under `JoinPolicy.setError`. -/
  invalidJoinCode : Int64
  deriving DecidableEq, Repr

namespace Settings

def defaults : Settings := ⟨"tether-worker", none, .warn, -1⟩

instance : Inhabited Settings := ⟨defaults⟩

def minStackSize : UInt64 := 16384

def variableName : String := "TETHER_CONFIG"

inductive Fault
  | emptyName
  | nulInName
  | smallStack (size : UInt64)
  | zeroCode
  deriving DecidableEq, Repr

def Fault.message : Fault → String
  | .emptyName => "Thread name prefix cannot be empty"
  | .nulInName => "Thread name prefix cannot contain NUL bytes"
  | .smallStack size =>
    "Stack size " ++ toString size.toNat ++ " is below the minimum of " ++
      toString minStackSize.toNat ++ " bytes"
  | .zeroCode => "Invalid join error code cannot be zero (zero means no error)"

/-- The first fault, in the order of the constructors of `Fault`. -/
def fault? (s : Settings) : Option Fault :=
  if s.namePrefix = "" then some .emptyName
  else if s.namePrefix.toList.contains (Char.ofNat 0) then some .nulInName
  else
    match s.stackSize.filter (· < minStackSize) with
    | some size => some (.smallStack size)
    | none => if s.invalidJoinCode = 0 then some .zeroCode else none

def IsValid (s : Settings) : Prop := s.fault? = none

instance (s : Settings) : Decidable s.IsValid := inferInstanceAs (Decidable (_ = _))

/-- Lays `upper` over `lower`: each field is the upper one's if that is not the default. -/
def merge (lower upper : Settings) : Settings :=
  { namePrefix :=
      if upper.namePrefix = defaults.namePrefix then lower.namePrefix else upper.namePrefix
    stackSize := if upper.stackSize = defaults.stackSize then lower.stackSize else upper.stackSize
    invalidJoin :=
      if upper.invalidJoin = defaults.invalidJoin then lower.invalidJoin else upper.invalidJoin
    invalidJoinCode :=
      if upper.invalidJoinCode = defaults.invalidJoinCode then lower.invalidJoinCode
      else upper.invalidJoinCode }

def describeSize : Option UInt64 → String
  | none => "None"
  | some size => "Some(" ++ toString size.toNat ++ ")"

def describe (s : Settings) : String :=
  "RuntimeConfig \x7b thread_name_prefix: " ++ Text.quoted s.namePrefix ++
    ", stack_size: " ++ describeSize s.stackSize ++
    ", invalid_join: " ++ s.invalidJoin.describe ++
    ", invalid_join_error_code: " ++ toString s.invalidJoinCode.toInt ++ " \x7d"

end Settings
end Strand
