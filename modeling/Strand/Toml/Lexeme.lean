/-! The smallest parts of a TOML document. A reader takes the text that is left and returns what it
read together with the text after it, or nothing where the document breaks a rule. -/
namespace Strand.Toml

abbrev Chars := List Char

def isBlank (c : Char) : Bool := c == ' ' || c == '\t'

def skipBlanks (cs : Chars) : Chars := cs.dropWhile isBlank

/-- Characters beyond ASCII, all of which may stand in texts and comments. -/
def isWide (c : Char) : Bool := c.toNat ≥ 0x80

/-- A comment holds tabs, printable ASCII and wide characters. -/
def isCommentChar (c : Char) : Bool :=
  c == '\t' || (c.toNat ≥ 0x20 && c.toNat < 0x7f) || isWide c

def isBasicChar (c : Char) : Bool := isCommentChar c && c != '"' && c != '\\'

def isLiteralChar (c : Char) : Bool := isCommentChar c && c != '\''

/-- One line end: a line feed, or a carriage return with its line feed. -/
def lineEnd? : Chars → Option Chars
  | '\n' :: rest => some rest
  | '\r' :: '\n' :: rest => some rest
  | _ => none

def endOfLine? : Chars → Option Chars
  | [] => some []
  | cs => lineEnd? cs

def skipComment : Chars → Chars
  | '#' :: rest => rest.dropWhile isCommentChar
  | cs => cs

/-- What may follow on the line of a key or a header: blanks and a comment. -/
def restOfLine? (cs : Chars) : Option Chars := endOfLine? (skipComment (skipBlanks cs))

def expect (c : Char) : Chars → Option Chars
  | [] => none
  | d :: rest => if d = c then some rest else none

def digitValue? (base : Nat) (c : Char) : Option Nat :=
  let value : Option Nat :=
    if '0' ≤ c ∧ c ≤ '9' then some (c.toNat - '0'.toNat)
    else if 'a' ≤ c ∧ c ≤ 'f' then some (c.toNat - 'a'.toNat + 10)
    else if 'A' ≤ c ∧ c ≤ 'F' then some (c.toNat - 'A'.toNat + 10)
    else none
  value.filter (· < base)

/-- More digits of a number, each of which may have one underscore in front of it. -/
def moreDigits (base : Nat) : Chars → List Nat × Chars
  | [] => ([], [])
  | '_' :: c :: rest =>
    match digitValue? base c with
    | some d => let (ds, rest) := moreDigits base rest; (d :: ds, rest)
    | none => ([], '_' :: c :: rest)
  | c :: rest =>
    match digitValue? base c with
    | some d => let (ds, rest) := moreDigits base rest; (d :: ds, rest)
    | none => ([], c :: rest)

/-- One digit or more, leading zeros allowed. -/
def digits? (base : Nat) : Chars → Option (List Nat × Chars)
  | [] => none
  | c :: rest =>
    match digitValue? base c with
    | some d => let (ds, rest) := moreDigits base rest; some (d :: ds, rest)
    | none => none

/-- The number that digits stand for, the highest first. -/
def ofDigits (base : Nat) (ds : List Nat) : Nat := ds.foldl (fun n d => base * n + d) 0

/-- Exactly `n` decimal digits, without underscores. -/
def fixedDigits? : Nat → Chars → Option (List Nat × Chars)
  | 0, cs => some ([], cs)
  | _ + 1, [] => none
  | n + 1, c :: rest =>
    match digitValue? 10 c with
    | none => none
    | some d => (fixedDigits? n rest).map fun (ds, rest) => (d :: ds, rest)

end Strand.Toml
