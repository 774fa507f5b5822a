import Strand.Toml.Lexeme

/-! Dates and times. All that is ever asked is whether a value is one, so the readers return only
what follows it. -/
namespace Strand.Toml

def isLeapYear (year : Nat) : Bool := year % 4 == 0 && (year % 100 != 0 || year % 400 == 0)

def daysInMonth (year month : Nat) : Nat :=
  if month = 2 then if isLeapYear year then 29 else 28
  else if month = 4 ∨ month = 6 ∨ month = 9 ∨ month = 11 then 30
  else 31

def twoDigits? (low high : Nat) (cs : Chars) : Option (Nat × Chars) := do
  let (ds, rest) ← fixedDigits? 2 cs
  let n := ofDigits 10 ds
  if low ≤ n ∧ n ≤ high then some (n, rest) else none

/-- Year, month and day, joined by hyphens; the day exists in its month. -/
def skipDate? (cs : Chars) : Option Chars := do
  let (year, cs) ← fixedDigits? 4 cs
  let cs ← expect '-' cs
  let (month, cs) ← twoDigits? 1 12 cs
  let cs ← expect '-' cs
  let (_, cs) ← twoDigits? 1 (daysInMonth (ofDigits 10 year) month) cs
  some cs

/-- A fraction of a second: a point and digits. Without a digit there is none. -/
def skipFraction : Chars → Chars
  | '.' :: c :: rest =>
    if (digitValue? 10 c).isSome then rest.dropWhile fun d => (digitValue? 10 d).isSome
    else '.' :: c :: rest
  | cs => cs

/-- Hour, minute and second, joined by colons; a minute may have a sixty-first second. -/
def skipTime? (cs : Chars) : Option Chars := do
  let (_, cs) ← twoDigits? 0 23 cs
  let cs ← expect ':' cs
  let (_, cs) ← twoDigits? 0 59 cs
  let cs ← expect ':' cs
  let (_, cs) ← twoDigits? 0 60 cs
  some (skipFraction cs)

/-- Hours and minutes by which a time differs from universal time. -/
def skipShift? (cs : Chars) : Option Chars := do
  let (_, cs) ← twoDigits? 0 23 cs
  let cs ← expect ':' cs
  let (_, cs) ← twoDigits? 0 59 cs
  some cs

def skipOffset : Chars → Chars
  | 'Z' :: rest => rest
  | 'z' :: rest => rest
  | '+' :: rest => (skipShift? rest).getD ('+' :: rest)
  | '-' :: rest => (skipShift? rest).getD ('-' :: rest)
  | cs => cs

def isDateDelimiter (c : Char) : Bool := c == 'T' || c == 't' || c == ' '

/-- The time of a date, with its offset; a date may also stand alone. -/
def skipTimeOfDate : Chars → Chars
  | [] => []
  | c :: rest =>
    if isDateDelimiter c then
      match skipTime? rest with
      | some rest => skipOffset rest
      | none => c :: rest
    else c :: rest

def skipMoment? (cs : Chars) : Option Chars :=
  match skipDate? cs with
  | some rest => some (skipTimeOfDate rest)
  | none => skipTime? cs

end Strand.Toml
