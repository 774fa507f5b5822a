import Strand.Toml.Lexeme

/-! Quoted texts. Each kind is read by one pass over the characters: a mode says how the next
character is to be taken, and the pass ends behind the closing quotes. -/
namespace Strand.Toml

def simpleEscape? : Char → Option Char
  | 'b' => some (Char.ofNat 8)
  | 't' => some '\t'
  | 'n' => some '\n'
  | 'f' => some (Char.ofNat 12)
  | 'r' => some '\r'
  | '"' => some '"'
  | '\\' => some '\\'
  | _ => none

/-- The character with a number; surrogates and numbers beyond the last character have none. -/
def scalar? (n : Nat) : Option Char := if n.isValidChar then some (Char.ofNat n) else none

/-- How the next character of a text between double quotes is taken. -/
inductive BasicMode
  | plain
  /-- After a backslash. -/
  | escape
  /-- Within a character number: so many digits are to come after the next, and the value so far. -/
  | hex (left value : Nat)
  deriving DecidableEq, Repr

def basicText? : BasicMode → Chars → Option (Chars × Chars)
  | _, [] => none
  | .plain, c :: rest =>
    if c = '"' then some ([], rest)
    else if c = '\\' then basicText? .escape rest
    else if isBasicChar c then (basicText? .plain rest).map fun (s, rest) => (c :: s, rest)
    else none
  | .escape, c :: rest =>
    if c = 'u' then basicText? (.hex 3 0) rest
    else if c = 'U' then basicText? (.hex 7 0) rest
    else
      match simpleEscape? c with
      | none => none
      | some d => (basicText? .plain rest).map fun (s, rest) => (d :: s, rest)
  | .hex left value, c :: rest =>
    match digitValue? 16 c with
    | none => none
    | some d =>
      match left with
      | left + 1 => basicText? (.hex left (16 * value + d)) rest
      | 0 =>
        match scalar? (16 * value + d) with
        | none => none
        | some e => (basicText? .plain rest).map fun (s, rest) => (e :: s, rest)

def literalText? : Chars → Option (Chars × Chars)
  | [] => none
  | c :: rest =>
    if c = '\'' then some ([], rest)
    else if isLiteralChar c then (literalText? rest).map fun (s, rest) => (c :: s, rest)
    else none

/-- A text of several lines may begin with a line end that does not count. -/
def dropFirstLineEnd (cs : Chars) : Chars := (lineEnd? cs).getD cs

/-- Quotes that belong to the text, in front of what is read after them. -/
def withQuotes (quote : Char) (n : Nat) (r : Chars × Chars) : Chars × Chars :=
  (List.replicate n quote ++ r.1, r.2)

inductive FoldedMode
  /-- After so many quotes in a row; while trimming, blanks and line ends are dropped. -/
  | plain (quotes : Nat) (trimming : Bool)
  | afterReturn (trimming : Bool)
  | escape
  | hex (left value : Nat)
  /-- After a backslash and blanks, where the line has to end. -/
  | fold
  deriving DecidableEq, Repr

/-- The text up to the closing quotes. Three quotes close it; one or two more in front of them
belong to the text. A backslash at the end of a line drops the line end and all blanks and line ends
that follow it. A carriage return counts only as part of a line end, which is read as a line feed.
-/
def foldedText? : FoldedMode → Chars → Option (Chars × Chars)
  | .plain quotes _, [] => if quotes ≥ 3 then some (withQuotes '"' (quotes - 3) ([], [])) else none
  | _, [] => none
  | .plain quotes trimming, c :: rest =>
    if c = '"' then
      if quotes = 4 then some (withQuotes '"' 2 ([], rest))
      else foldedText? (.plain (quotes + 1) false) rest
    else if quotes ≥ 3 then some (withQuotes '"' (quotes - 3) ([], c :: rest))
    else if trimming && (isBlank c || c == '\n') then foldedText? (.plain 0 true) rest
    else if c = '\r' then (foldedText? (.afterReturn trimming) rest).map (withQuotes '"' quotes)
    else if c = '\\' then (foldedText? .escape rest).map (withQuotes '"' quotes)
    else if isBasicChar c || c == '\n' then
      (foldedText? (.plain 0 false) rest).map fun (s, rest) =>
        withQuotes '"' quotes (c :: s, rest)
    else none
  | .afterReturn trimming, c :: rest =>
    if c = '\n' then
      if trimming then foldedText? (.plain 0 true) rest
      else (foldedText? (.plain 0 false) rest).map fun (s, rest) => ('\n' :: s, rest)
    else none
  | .escape, c :: rest =>
    if c = 'u' then foldedText? (.hex 3 0) rest
    else if c = 'U' then foldedText? (.hex 7 0) rest
    else if c = '\n' then foldedText? (.plain 0 true) rest
    else if c = '\r' then foldedText? (.afterReturn true) rest
    else if isBlank c then foldedText? .fold rest
    else
      match simpleEscape? c with
      | none => none
      | some d => (foldedText? (.plain 0 false) rest).map fun (s, rest) => (d :: s, rest)
  | .hex left value, c :: rest =>
    match digitValue? 16 c with
    | none => none
    | some d =>
      match left with
      | left + 1 => foldedText? (.hex left (16 * value + d)) rest
      | 0 =>
        match scalar? (16 * value + d) with
        | none => none
        | some e => (foldedText? (.plain 0 false) rest).map fun (s, rest) => (e :: s, rest)
  | .fold, c :: rest =>
    if isBlank c then foldedText? .fold rest
    else if c = '\n' then foldedText? (.plain 0 true) rest
    else if c = '\r' then foldedText? (.afterReturn true) rest
    else none

inductive BlockMode
  /-- After so many quotes in a row. -/
  | plain (quotes : Nat)
  | afterReturn
  deriving DecidableEq, Repr

/-- The text up to the closing quotes, which are counted as in `foldedText?`; nothing is escaped. -/
def blockText? : BlockMode → Chars → Option (Chars × Chars)
  | .plain quotes, [] => if quotes ≥ 3 then some (withQuotes '\'' (quotes - 3) ([], [])) else none
  | .afterReturn, [] => none
  | .plain quotes, c :: rest =>
    if c = '\'' then
      if quotes = 4 then some (withQuotes '\'' 2 ([], rest))
      else blockText? (.plain (quotes + 1)) rest
    else if quotes ≥ 3 then some (withQuotes '\'' (quotes - 3) ([], c :: rest))
    else if c = '\r' then (blockText? .afterReturn rest).map (withQuotes '\'' quotes)
    else if isLiteralChar c || c == '\n' then
      (blockText? (.plain 0) rest).map fun (s, rest) => withQuotes '\'' quotes (c :: s, rest)
    else none
  | .afterReturn, c :: rest =>
    if c = '\n' then (blockText? (.plain 0) rest).map fun (s, rest) => ('\n' :: s, rest)
    else none

def lineText? : Chars → Option (Chars × Chars)
  | '"' :: rest => basicText? .plain rest
  | '\'' :: rest => literalText? rest
  | _ => none

def text? : Chars → Option (Chars × Chars)
  | '"' :: '"' :: '"' :: rest => foldedText? (.plain 0 false) (dropFirstLineEnd rest)
  | '\'' :: '\'' :: '\'' :: rest => blockText? (.plain 0) (dropFirstLineEnd rest)
  | cs => lineText? cs

end Strand.Toml
