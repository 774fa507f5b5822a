import Strand.Toml.Document
import Strand.Toml.Span

/-! Where the keys and values of a document stand. The document is walked once more, line by line,
and every assignment and every header leaves a mark; what stands at a path is then looked up among
the marks. Only a document that can be read has marks for all of its lines. -/
namespace Strand.Toml

abbrev KeyMark := String × Span

inductive MarkKind
  | assignment
  /-- A header of a table. -/
  | table
  /-- A header of a table in an array of tables. -/
  | element
  deriving DecidableEq, Repr

structure Mark where
  kind : MarkKind
  /-- The parts of the key, from the document's table downwards. -/
  path : List KeyMark
  /-- The value, or the header and the assignments under it. -/
  span : Span
  deriving Repr

namespace Mark

def names (m : Mark) : List String := m.path.map (·.1)

def keyMarks : Nat → Chars → List KeyMark
  | 0, _ => []
  | n + 1, cs =>
    let cs := skipBlanks cs
    match keyPart? cs with
    | none => []
    | some (part, rest) =>
      (part, ⟨cs, rest⟩) ::
        match skipBlanks rest with
        | '.' :: rest => keyMarks n rest
        | _ => []

/-- An assignment in the table at a path, and what follows it. -/
def ofAssignment? (table : List KeyMark) (cs : Chars) : Option (Mark × Chars) := do
  let (_, rest) ← key? cs
  let rest ← expect '=' rest
  let start := skipBlanks rest
  let (_, stop) ← value? nestingLimit start
  some (⟨.assignment, table ++ keyMarks nestingLimit cs, ⟨start, stop⟩⟩, stop)

def ofMembers (table : List KeyMark) : Nat → Chars → List Mark
  | 0, _ => []
  | n + 1, cs =>
    match ofAssignment? table cs with
    | none => []
    | some (mark, rest) =>
      mark ::
        match skipBlanks rest with
        | ',' :: rest => ofMembers table n rest
        | _ => []

/-- The marks inside the value of an assignment, one level down. -/
def inner (m : Mark) : List Mark :=
  match m.span.start with
  | '{' :: rest => ofMembers m.path rest.length rest
  | _ => []

/-- The marks left by one line under a header, whose own mark comes first. -/
def ofLine (table : List KeyMark) (cs : Chars) : List Mark :=
  match cs with
  | '[' :: '[' :: rest =>
    match key? rest with
    | none => []
    | some (_, stop) => [⟨.element, keyMarks nestingLimit rest, ⟨cs, stop.drop 2⟩⟩]
  | '[' :: rest =>
    match key? rest with
    | none => []
    | some (_, stop) => [⟨.table, keyMarks nestingLimit rest, ⟨cs, stop.drop 1⟩⟩]
  | cs =>
    match ofAssignment? table cs with
    | none => []
    | some (mark, _) => mark :: mark.inner

/-- The marks of up to `n` lines, the table at `table` being the one to which they add. -/
def ofLines : Nat → List KeyMark → Chars → List Mark
  | 0, _, _ => []
  | n + 1, table, cs =>
    match skipBlanks cs with
    | [] => []
    | cs =>
      match line? Draft.empty cs with
      | none => []
      | some (_, rest) =>
        let marks := ofLine table cs
        let table :=
          match marks with
          | ⟨.table, path, _⟩ :: _ => path
          | ⟨.element, path, _⟩ :: _ => path
          | _ => table
        marks ++ ofLines n table rest

/-- A header's mark reaches to the end of the last assignment under it. -/
def reach (m : Mark) (under : List Mark) : Mark :=
  { m with span := under.foldl (fun span n => span.reaching n.span) m.span }

def reachAll : List Mark → List Mark
  | [] => []
  | m :: ms =>
    if m.kind = .assignment then m :: reachAll ms
    else m.reach (ms.takeWhile fun n => n.kind = .assignment) :: reachAll ms

def ofDocument (document : Chars) : List Mark :=
  let cs := dropByteOrderMark document
  reachAll (ofLines (cs.length + 1) [] cs)

/-- What stands at a path: a value, a table under its own header, or all tables of an array. A table
that is only implied, or made by dotted keys, stands nowhere. -/
def spanAt? (marks : List Mark) (path : List String) : Option Span :=
  match marks.filter fun m => m.names = path with
  | [] => none
  | first :: more => some (first.span.upTo ((first :: more).getLast?.getD first).span)

/-- Where the last part of a path stands as a part of a key: in the header of the table at the path,
or else where the path is named first. -/
def keyAt? (marks : List Mark) (path : List String) : Option Span :=
  let own := marks.find? fun m => m.kind = .table ∧ m.names = path
  (own <|> marks.find? fun m => path.isPrefixOf m.names).bind fun m =>
    (m.path[path.length - 1]?).map fun part => part.2

/-- The first name below a path. -/
def childOf? (marks : List Mark) (path : List String) : Option String :=
  marks.findSome? fun m => if path.isPrefixOf m.names then m.names[path.length]? else none

end Mark
end Strand.Toml
