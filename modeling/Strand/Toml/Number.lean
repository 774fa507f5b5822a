import Strand.Toml.Lexeme
import Strand.Decimal.Binary64

/-! Integers and floating-point numbers. Integers have 64 bits, and may be written in base ten with
a sign, or without one in base two, eight or sixteen, with single underscores between digits. -/
namespace Strand.Toml

/-- An optional sign: whether it is a minus, and what follows. -/
def sign : Chars → Bool × Chars
  | '+' :: rest => (false, rest)
  | '-' :: rest => (true, rest)
  | cs => (false, cs)

/-- Decimal digits without a leading zero, zero itself apart. -/
def wholeDigits? : Chars → Option (List Nat × Chars)
  | '0' :: rest => some ([0], rest)
  | cs => digits? 10 cs

def int64? (n : Int) : Option Int64 :=
  if -9223372036854775808 ≤ n ∧ n ≤ 9223372036854775807 then some (Int64.ofInt n) else none

def based? (base : Nat) (cs : Chars) : Option (Int64 × Chars) := do
  let (ds, rest) ← digits? base cs
  let n ← int64? (ofDigits base ds)
  some (n, rest)

def decimal? (cs : Chars) : Option (Int64 × Chars) := do
  let (negative, cs) := sign cs
  let (ds, rest) ← wholeDigits? cs
  let n : Int := ofDigits 10 ds
  let n ← int64? (if negative then -n else n)
  some (n, rest)

def integer? : Chars → Option (Int64 × Chars)
  | '0' :: 'x' :: rest => based? 16 rest
  | '0' :: 'o' :: rest => based? 8 rest
  | '0' :: 'b' :: rest => based? 2 rest
  | cs => decimal? cs

def exponent? : Chars → Option (Int × Chars)
  | [] => none
  | c :: rest =>
    if c = 'e' ∨ c = 'E' then do
      let (negative, rest) := sign rest
      let (ds, rest) ← digits? 10 rest
      let n : Int := ofDigits 10 ds
      some (if negative then -n else n, rest)
    else none

/-- Digits, and after them a fraction, an exponent or both. A number too large to be finite is none,
unless it is negative. -/
def finite? (cs : Chars) : Option (Binary64 × Chars) := do
  let (negative, cs) := sign cs
  let (whole, cs) ← wholeDigits? cs
  let (ds, exponent, rest) ←
    match cs with
    | '.' :: cs => do
      let (fraction, cs) ← digits? 10 cs
      let (exponent, rest) := (exponent? cs).getD (0, cs)
      some (whole ++ fraction, exponent - fraction.length, rest)
    | cs => do
      let (exponent, rest) ← exponent? cs
      some (whole, exponent, rest)
  let x := Binary64.ofDecimal negative (ofDigits 10 ds) exponent
  if x = .infinite false then none else some (x, rest)

def special? (cs : Chars) : Option (Binary64 × Chars) :=
  let (negative, cs) := sign cs
  match cs with
  | 'i' :: 'n' :: 'f' :: rest => some (.infinite negative, rest)
  | 'n' :: 'a' :: 'n' :: rest => some (.nan, rest)
  | _ => none

def float? (cs : Chars) : Option (Binary64 × Chars) := finite? cs <|> special? cs

end Strand.Toml
