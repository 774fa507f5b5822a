import Strand.Decimal.Binary64

/-! TOML values and tables. A table keeps its entries in the order in which they came to be and
remembers how it was written, since that decides whether a later line may add to it. -/
namespace Strand.Toml

inductive Origin
  /-- By a header of its own, or as the document itself. -/
  | header
  /-- As a step on the way to another header. -/
  | implied
  /-- By a dotted key. -/
  | dotted
  /-- Between braces. -/
  | braces
  deriving DecidableEq, Repr

inductive Value
  | string (s : String)
  | integer (n : Int64)
  | float (x : Binary64)
  | boolean (b : Bool)
  /-- A date, a time or both. -/
  | moment
  | array (items : List Value)
  | table (origin : Origin) (entries : List (String × Value))
  /-- The tables written under one doubly bracketed header, in order. -/
  | tables (elements : List (List (String × Value)))
  deriving Repr

abbrev Entries := List (String × Value)

namespace Entries

/-- Replaces the value of a key that is present, at its place. -/
def replace (es : Entries) (key : String) (value : Value) : Entries :=
  es.map fun entry => if entry.1 = key then (key, value) else entry

def erase (es : Entries) (key : String) : Entries := es.filter fun entry => entry.1 ≠ key

/-- Assigns a value to a key at the end of a dotted path, within one table. Tables on the path that
are missing are made; those that are there must not have a header of their own, and the last of
them must have been made by a dotted key itself. No key is assigned twice. -/
def assign (es : Entries) (path : List String) (key : String) (value : Value) : Option Entries :=
  match path with
  | [] => if (es.lookup key).isSome then none else some (es ++ [(key, value)])
  | p :: path =>
    match es.lookup p with
    | none => do
      let sub ← assign [] path key value
      some (es ++ [(p, .table .dotted sub)])
    | some (.table origin sub) =>
      if origin = .dotted ∨ (origin = .implied ∧ path ≠ []) then do
        let sub ← assign sub path key value
        some (replace es p (.table origin sub))
      else none
    | some (.tables elements) =>
      if path = [] then none
      else do
        let sub ← assign (elements.getLast?.getD []) path key value
        some (replace es p (.tables (elements.dropLast ++ [sub])))
    | some _ => none

/-- Changes the table at the end of a path of headers, and returns what the change returns. Tables
on the way that are missing are made; an array of tables stands for its last table. -/
def within {β : Type} (change : Entries → Option (Entries × β)) (es : Entries) :
    List String → Option (Entries × β)
  | [] => change es
  | p :: path =>
    match es.lookup p with
    | none => do
      let (sub, result) ← within change [] path
      some (es ++ [(p, .table .implied sub)], result)
    | some (.table .braces _) => none
    | some (.table origin sub) => do
      let (sub, result) ← within change sub path
      some (replace es p (.table origin sub), result)
    | some (.tables elements) => do
      let (sub, result) ← within change (elements.getLast?.getD []) path
      some (replace es p (.tables (elements.dropLast ++ [sub])), result)
    | some _ => none

/-- Begins a table under its own header: what an earlier, longer header has put there comes along.
-/
def beginTable (key : String) (es : Entries) : Option (Entries × Entries) :=
  match es.lookup key with
  | none => some (es, [])
  | some (.table .implied sub) => some (erase es key, sub)
  | some _ => none

def beginElement (key : String) (es : Entries) : Option (Entries × Unit) :=
  match es.lookup key with
  | none => some (es ++ [(key, .tables [])], ())
  | some (.tables _) => some (es, ())
  | some _ => none

def endTable (key : String) (table : Entries) (es : Entries) : Option (Entries × Unit) :=
  match es.lookup key with
  | none => some (es ++ [(key, .table .header table)], ())
  | some _ => none

def endElement (key : String) (table : Entries) (es : Entries) : Option (Entries × Unit) :=
  match es.lookup key with
  | none => some (es ++ [(key, .tables [table])], ())
  | some (.tables elements) => some (replace es key (.tables (elements ++ [table])), ())
  | some _ => none

end Entries
end Strand.Toml
