import Strand.Toml.Moment
import Strand.Toml.Number
import Strand.Toml.Text
import Strand.Toml.Value

/-! Keys and values. Arrays and tables in braces nest, up to a fixed depth; the depth that is left
is what the reader of values recurses on. -/
namespace Strand.Toml

/-- Keys have fewer dotted parts than this, and values fewer levels. -/
def nestingLimit : Nat := 80

def isBareKeyChar (c : Char) : Bool :=
  ('a' ≤ c && c ≤ 'z') || ('A' ≤ c && c ≤ 'Z') || ('0' ≤ c && c ≤ '9') || c == '_' || c == '-'

/-- One part of a key: a text on one line, or bare letters, digits, underscores and hyphens. -/
def keyPart? (cs : Chars) : Option (String × Chars) :=
  match lineText? cs with
  | some (s, rest) => some (String.ofList s, rest)
  | none =>
    match cs.takeWhile isBareKeyChar with
    | [] => none
    | s => some (String.ofList s, cs.dropWhile isBareKeyChar)

def keyParts? : Nat → Chars → Option (List String × Chars)
  | 0, _ => none
  | n + 1, cs => do
    let (part, cs) ← keyPart? (skipBlanks cs)
    match skipBlanks cs with
    | '.' :: cs => (keyParts? n cs).map fun (parts, cs) => (part :: parts, cs)
    | cs => some ([part], cs)

/-- A key: the path to a table, and the last part. -/
def key? (cs : Chars) : Option ((List String × String) × Chars) := do
  let (parts, rest) ← keyParts? (nestingLimit - 1) cs
  let last ← parts.getLast?
  some ((parts.dropLast, last), rest)

/-- Skips blanks, line ends and comments, as they may stand between the items of an array. A comment
has to end with its line. -/
def skipSpace? : Nat → Chars → Option Chars
  | 0, cs => some cs
  | n + 1, cs =>
    match skipBlanks cs with
    | '#' :: rest => do
      let rest ← lineEnd? (rest.dropWhile isCommentChar)
      skipSpace? n rest
    | '\n' :: rest => skipSpace? n rest
    | '\r' :: rest => do
      let rest ← lineEnd? ('\r' :: rest)
      skipSpace? n rest
    | rest => some rest

/-- The items of an array up to its bracket, read by `item?`; a comma may follow the last. -/
def items? (item? : Chars → Option (Value × Chars)) : Nat → Chars → Option (List Value × Chars)
  | 0, _ => none
  | n + 1, cs => do
    let cs ← skipSpace? cs.length cs
    match cs with
    | ']' :: rest => some ([], rest)
    | cs => do
      let (item, cs) ← item? cs
      let cs ← skipSpace? cs.length cs
      match cs with
      | ',' :: rest => (items? item? n rest).map fun (items, rest) => (item :: items, rest)
      | ']' :: rest => some ([item], rest)
      | _ => none

def assignment? (value? : Chars → Option (Value × Chars)) (cs : Chars) :
    Option ((List String × String) × Value × Chars) := do
  let (key, cs) ← key? cs
  let cs ← expect '=' cs
  let (value, rest) ← value? (skipBlanks cs)
  some (key, value, rest)

/-- The assignments between braces, added to those before them; no comma may follow the last. -/
def members? (value? : Chars → Option (Value × Chars)) :
    Nat → Entries → Chars → Option (Entries × Chars)
  | 0, _, _ => none
  | n + 1, es, cs => do
    let ((path, key), value, cs) ← assignment? value? cs
    let es ← es.assign path key value
    match skipBlanks cs with
    | ',' :: rest => members? value? n es rest
    | '}' :: rest => some (es, rest)
    | _ => none

def braces? (value? : Chars → Option (Value × Chars)) (cs : Chars) : Option (Entries × Chars) :=
  match skipBlanks cs with
  | '}' :: rest => some ([], rest)
  | _ => members? value? cs.length [] cs

/-- What begins with a sign or a digit: a date or time, a floating-point number or an integer. -/
def numeric? (cs : Chars) : Option (Value × Chars) :=
  match skipMoment? cs with
  | some rest => some (.moment, rest)
  | none =>
    match float? cs with
    | some (x, rest) => some (.float x, rest)
    | none => (integer? cs).map fun (n, rest) => (.integer n, rest)

def scalarValue? : Chars → Option (Value × Chars)
  | '"' :: rest => (text? ('"' :: rest)).map fun (s, rest) => (.string (String.ofList s), rest)
  | '\'' :: rest => (text? ('\'' :: rest)).map fun (s, rest) => (.string (String.ofList s), rest)
  | 't' :: 'r' :: 'u' :: 'e' :: rest => some (.boolean true, rest)
  | 'f' :: 'a' :: 'l' :: 's' :: 'e' :: rest => some (.boolean false, rest)
  | 'i' :: 'n' :: 'f' :: rest => some (.float (.infinite false), rest)
  | 'n' :: 'a' :: 'n' :: rest => some (.float .nan, rest)
  | cs => numeric? cs

/-- A value with at most so many levels of arrays and tables in braces. -/
def value? : Nat → Chars → Option (Value × Chars)
  | depth + 1, '[' :: rest =>
    (items? (value? depth) rest.length rest).map fun (items, rest) => (.array items, rest)
  | depth + 1, '{' :: rest =>
    (braces? (value? depth) rest).map fun (es, rest) => (.table .braces es, rest)
  | _, cs => scalarValue? cs

end Strand.Toml
