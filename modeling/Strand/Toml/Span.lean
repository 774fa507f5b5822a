import Strand.Toml.Lexeme

/-! Pieces of a document, and how a report points at one. -/
namespace Strand.Toml

/-- A piece of a document: what is left of the document where the piece begins and where it ends. -/
structure Span where
  start : Chars
  stop : Chars
  deriving Repr

namespace Span

def upTo (first last : Span) : Span := ⟨first.start, last.stop⟩

/-- A piece made to reach to the end of another, if that one ends later. -/
def reaching (span other : Span) : Span :=
  if other.stop.length < span.stop.length then span.upTo other else span

def before (document : Chars) (span : Span) : Chars :=
  document.take (document.length - span.start.length)

def chars (span : Span) : Chars := span.start.take (span.start.length - span.stop.length)

/-- The characters in front of a piece on its own line. -/
def indent (document : Chars) (span : Span) : Chars :=
  ((span.before document).reverse.takeWhile (· ≠ '\n')).reverse

/-- The line on which a piece begins, counted from one. -/
def line (document : Chars) (span : Span) : Nat := (span.before document).count '\n' + 1

def column (document : Chars) (span : Span) : Nat := (span.indent document).length + 1

def lineText (document : Chars) (span : Span) : Chars :=
  span.indent document ++ span.start.takeWhile (· ≠ '\n')

def byteSize (cs : Chars) : Nat := cs.foldr (fun c size => c.utf8Size + size) 0

/-- How many marks stand under a piece: one for each of its bytes, as far as its first line goes,
and one at least. The line has as many left as its bytes exceed the characters in front of the
piece. -/
def width (document : Chars) (span : Span) : Nat :=
  let left := byteSize (span.lineText document) - (span.indent document).length
  max 1 (min (byteSize span.chars) left)

def spaces (n : Nat) : String := String.ofList (List.replicate n ' ')

def report (document : Chars) (span : Span) (message : String) : String :=
  let line := toString (span.line document)
  let column := span.column document
  let margin := spaces (line.length + 1) ++ "|"
  "TOML parse error at line " ++ line ++ ", column " ++ toString column ++ "\n" ++
    margin ++ "\n" ++
    line ++ " | " ++ String.ofList (span.lineText document) ++ "\n" ++
    margin ++ spaces column ++ String.ofList (List.replicate (span.width document) '^') ++ "\n" ++
    message ++ "\n"

end Span
end Strand.Toml
