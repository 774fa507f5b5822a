import Strand.Toml.Reader

/-! TOML documents, version 1.0. A document is read line by line into the table under the header
that was read last; when the next header comes, or the end, that table is put into its place. A
document that breaks a rule is not read at all. -/
namespace Strand.Toml

/-- Where the table that is being read belongs. -/
inductive Place
  | document
  | table (path : List String) (key : String)
  | element (path : List String) (key : String)
  deriving Repr

structure Draft where
  /-- What stands in the document already, apart from the table in hand. -/
  root : Entries
  current : Entries
  place : Place
  deriving Repr

namespace Draft

def empty : Draft := ⟨[], [], .document⟩

def finish (d : Draft) : Option Entries :=
  match d.place with
  | .document => some d.current
  | .table path key => (d.root.within (Entries.endTable key d.current) path).map (·.1)
  | .element path key => (d.root.within (Entries.endElement key d.current) path).map (·.1)

def openTable (d : Draft) (path : List String) (key : String) : Option Draft := do
  let root ← d.finish
  let (root, current) ← root.within (Entries.beginTable key) path
  some ⟨root, current, .table path key⟩

def openElement (d : Draft) (path : List String) (key : String) : Option Draft := do
  let root ← d.finish
  let (root, _) ← root.within (Entries.beginElement key) path
  some ⟨root, [], .element path key⟩

def assign (d : Draft) (path : List String) (key : String) (value : Value) : Option Draft :=
  (d.current.assign path key value).map fun current => { d with current := current }

end Draft

/-- Reads one line, blanks in front of it skipped: empty or a comment, a header, or a key and its
value, which may take several lines. -/
def line? (d : Draft) : Chars → Option (Draft × Chars)
  | '[' :: '[' :: rest => do
    let ((path, key), rest) ← key? rest
    let rest ← expect ']' rest
    let rest ← expect ']' rest
    let rest ← restOfLine? rest
    let d ← d.openElement path key
    some (d, rest)
  | '[' :: rest => do
    let ((path, key), rest) ← key? rest
    let rest ← expect ']' rest
    let rest ← restOfLine? rest
    let d ← d.openTable path key
    some (d, rest)
  | '#' :: rest => (restOfLine? ('#' :: rest)).map fun rest => (d, rest)
  | '\n' :: rest => some (d, rest)
  | '\r' :: rest => (lineEnd? ('\r' :: rest)).map fun rest => (d, rest)
  | cs => do
    let ((path, key), value, rest) ← assignment? (value? (nestingLimit - 1)) cs
    let rest ← restOfLine? rest
    let d ← d.assign path key value
    some (d, rest)

def lines? : Nat → Draft → Chars → Option Draft
  | 0, _, _ => none
  | n + 1, d, cs =>
    match skipBlanks cs with
    | [] => some d
    | cs =>
      match line? d cs with
      | none => none
      | some (d, rest) => lines? n d rest

/-- A byte order mark may stand in front of a document. -/
def dropByteOrderMark : Chars → Chars
  | c :: rest => if c.toNat = 0xfeff then rest else c :: rest
  | [] => []

/-- The entries of a document, in the order in which they came to be. -/
def read? (s : String) : Option Entries := do
  let cs := dropByteOrderMark s.toList
  let d ← lines? (cs.length + 1) Draft.empty cs
  d.finish

end Strand.Toml
