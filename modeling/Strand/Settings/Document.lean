import Strand.Settings.Basic
import Strand.Toml.Mark
import Strand.Decimal.Shortest

/-! Settings as a TOML document. The entries are taken in the document's order; the first known key
with a value of the wrong kind decides what is reported, before anything is checked. -/
namespace Strand.Settings
open Strand.Toml

inductive Kind
  | text
  | size
  | code
  deriving DecidableEq, Repr

def Kind.describe : Kind → String
  | .text => "a string"
  | .size => "usize"
  | .code => "i64"

inductive Misfit
  | wrongKind (found : Value) (wanted : Kind)
  | negativeSize (n : Int64)
  | unknownPolicy (name : String)
  /-- A policy is given as a table without entries. -/
  | noPolicy
  /-- A policy is given as a table with several entries. -/
  | severalPolicies
  | policyWithArray
  | policyWithTable
  | policyWith (found : Value)
  /-- A policy is given neither as a text nor as a table. -/
  | notPolicy
  deriving Repr

/-- A value as a report on its kind shows it. -/
def describeFound : Value → String
  | .string s => "string " ++ Text.quoted s
  | .integer n => "integer `" ++ toString n.toInt ++ "`"
  | .float x => "floating point `" ++ x.display ++ "`"
  | .boolean b => "boolean `" ++ toString b ++ "`"
  | .moment => "map"
  | .table _ _ => "map"
  | .array _ => "sequence"
  | .tables _ => "sequence"

def typeName : Value → String
  | .string _ => "string"
  | .integer _ => "integer"
  | .float _ => "float"
  | .boolean _ => "boolean"
  | .moment => "datetime"
  | .array _ => "array"
  | .tables _ => "array of tables"
  | .table _ _ => "table"

def policyChoices : String :=
  String.intercalate ", " (JoinPolicy.all.map fun policy => "`" ++ policy.key ++ "`")

def Misfit.message : Misfit → String
  | .wrongKind found wanted =>
    "invalid type: " ++ describeFound found ++ ", expected " ++ wanted.describe
  | .negativeSize n => "invalid value: integer `" ++ toString n.toInt ++ "`, expected usize"
  | .unknownPolicy name => "unknown variant `" ++ name ++ "`, expected one of " ++ policyChoices
  | .noPolicy => "wanted exactly 1 element, found 0 elements"
  | .severalPolicies => "wanted exactly 1 element, more than 1 element"
  | .policyWithArray => "expected empty array"
  | .policyWithTable => "expected empty table"
  | .policyWith found => "expected table, found " ++ typeName found
  | .notPolicy => "wanted string or table"

def readText : Value → Except Misfit String
  | .string s => .ok s
  | v => .error (.wrongKind v .text)

def readSize : Value → Except Misfit UInt64
  | .integer n => if n < 0 then .error (.negativeSize n) else .ok (UInt64.ofNat n.toInt.toNat)
  | v => .error (.wrongKind v .size)

def readCode : Value → Except Misfit Int64
  | .integer n => .ok n
  | v => .error (.wrongKind v .code)

def policyOfKey (name : String) : Except Misfit JoinPolicy :=
  match JoinPolicy.ofKey? name with
  | some policy => .ok policy
  | none => .error (.unknownPolicy name)

/-- A policy written as a table has nothing under its name but an empty table or array. -/
def readNothing : Value → Except Misfit Unit
  | .tables [] => .ok ()
  | .tables _ => .error .policyWithArray
  | .array [] => .ok ()
  | .array _ => .error .policyWithTable
  | .table _ [] => .ok ()
  | .table _ _ => .error .policyWithTable
  | v => .error (.policyWith v)

/-- A policy is a text, or a table with the policy's name as its only key. -/
def readPolicy : Value → Except Misfit JoinPolicy
  | .string s => policyOfKey s
  | .table _ [] => .error .noPolicy
  | .table _ [(name, v)] =>
    match policyOfKey name with
    | .error e => .error e
    | .ok policy => (readNothing v).map fun _ => policy
  | .table _ _ => .error .severalPolicies
  | _ => .error .notPolicy

inductive Key
  | namePrefix
  | stackSize
  | invalidJoin
  | invalidJoinCode
  deriving DecidableEq, Repr

def Key.name : Key → String
  | .namePrefix => "thread_name_prefix"
  | .stackSize => "stack_size"
  | .invalidJoin => "invalid_join"
  | .invalidJoinCode => "invalid_join_error_code"

def Key.all : List Key := [.namePrefix, .stackSize, .invalidJoin, .invalidJoinCode]

def Key.ofName? (s : String) : Option Key := Key.all.find? fun key => key.name == s

@[simp] theorem Key.ofName?_name (key : Key) : Key.ofName? key.name = some key := by
  cases key <;> decide

def Key.put (key : Key) (v : Value) (s : Settings) : Except Misfit Settings :=
  match key with
  | .namePrefix => (readText v).map fun x => { s with namePrefix := x }
  | .stackSize => (readSize v).map fun x => { s with stackSize := some x }
  | .invalidJoin => (readPolicy v).map fun x => { s with invalidJoin := x }
  | .invalidJoinCode => (readCode v).map fun x => { s with invalidJoinCode := x }

structure Complaint where
  key : Key
  misfit : Misfit
  deriving Repr

/-- Takes the entries in order, on top of the settings so far. -/
def applyEntries (s : Settings) : Entries → Except Complaint Settings
  | [] => .ok s
  | (name, v) :: es =>
    match Key.ofName? name with
    | none => applyEntries s es
    | some key =>
      match key.put v s with
      | .error m => .error ⟨key, m⟩
      | .ok s => applyEntries s es

/-- The piece of a document to which a complaint points: the value, or the key where a value has no
place of its own. An unknown policy that heads a table is blamed alone, and so is what stands under
the name of a policy. -/
def Complaint.span? (c : Complaint) (marks : List Mark) : Option Span :=
  let path := [c.key.name]
  let whole := Mark.spanAt? marks path <|> Mark.keyAt? marks path
  match c.misfit with
  | .unknownPolicy name => Mark.keyAt? marks (path ++ [name]) <|> whole
  | .policyWith _ | .policyWithArray | .policyWithTable =>
    ((Mark.childOf? marks path).bind fun name => Mark.spanAt? marks (path ++ [name])) <|> whole
  | _ => whole

def Complaint.report (c : Complaint) (document : String) : String :=
  let cs := document.toList
  match c.span? (Mark.ofDocument cs) with
  | some span => span.report cs c.misfit.message
  | none => c.misfit.message ++ "\n"

inductive ReadError
  | notToml
  | misfit (c : Complaint) (document : String)
  deriving Repr

def ReadError.message : ReadError → String
  | .notToml => "not a TOML document"
  | .misfit c document => c.report document

/-- The settings a document describes, before they are checked. -/
def decode (text : String) : Except ReadError Settings :=
  match read? text with
  | none => .error .notToml
  | some es =>
    match applyEntries defaults es with
    | .error c => .error (.misfit c text)
    | .ok s => .ok s

end Strand.Settings
