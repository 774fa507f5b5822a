import Strand.Decimal.Binary64

/-! The shortest decimal of a binary number: the fewest digits that read back as the number, and of
those the nearest. It is found on the decimal grids of one digit, two digits and so on, by testing
on each grid the two neighbours of the number; the first grid on which one reads back wins. -/
namespace Strand.Binary64

/-- A positive decimal `digits * 10 ^ exponent`. -/
structure Decimal where
  digits : Nat
  exponent : Int
  deriving DecidableEq, Repr

/-- The exact number `mantissa * 2 ^ (scale - 1074)` as a ratio over `den`, together with the
ends of the interval of numbers that round to it. Below a power of two the interval is shorter. -/
structure Interval where
  low : Nat
  value : Nat
  high : Nat
  den : Nat
  closed : Bool
  deriving Repr

def interval (mantissa scale : Nat) : Interval :=
  let unit := Nat.pow 2 scale
  { low := (4 * mantissa - if mantissa = Nat.pow 2 52 ∧ scale > 0 then 1 else 2) * unit
    value := 4 * mantissa * unit
    high := (4 * mantissa + 2) * unit
    den := 4 * Nat.pow 2 1074
    closed := mantissa % 2 == 0 }

/-- Whether `n` steps of the grid `step / stepDen` lie within the interval. -/
def Interval.holds (i : Interval) (n step stepDen : Nat) : Bool :=
  let x := n * step * i.den
  if i.closed then i.low * stepDen ≤ x && x ≤ i.high * stepDen
  else i.low * stepDen < x && x < i.high * stepDen

/-- The grid of the powers of ten with exponent `e`, as numerator and denominator of a step. -/
def grid (e : Int) : Nat × Nat :=
  if e < 0 then (1, Nat.pow 10 e.natAbs) else (Nat.pow 10 e.toNat, 1)

/-- The neighbour of the number on a grid that reads back, the nearer one if both do; of two that
are equally near it is the upper. -/
def onGrid? (i : Interval) (e : Int) : Option Decimal :=
  let (step, stepDen) := grid e
  let below := i.value * stepDen / (i.den * step)
  let above := below + 1
  match i.holds below step stepDen && below != 0, i.holds above step stepDen with
  | false, false => none
  | true, false => some ⟨below, e⟩
  | false, true => some ⟨above, e⟩
  | true, true =>
    let gapBelow := i.value * stepDen - below * step * i.den
    let gapAbove := above * step * i.den - i.value * stepDen
    some (if gapBelow < gapAbove then ⟨below, e⟩ else ⟨above, e⟩)

/-- The least exponent `p` with the number below `10 ^ p`, from an estimate that is at most two too
small. -/
def decimalPlaces (i : Interval) : Int :=
  let bits : Int := (i.value.log2 : Int) - (i.den.log2 : Int)
  let estimate := (bits * 30103).fdiv 100000
  let isBelow (p : Int) : Bool :=
    let (step, stepDen) := grid p
    decide (i.value * stepDen < i.den * step)
  if isBelow estimate then estimate
  else if isBelow (estimate + 1) then estimate + 1
  else estimate + 2

/-- The shortest decimal of a positive number. Seventeen digits always read back. -/
def shortest (mantissa scale : Nat) : Decimal :=
  let i := interval mantissa scale
  let p := decimalPlaces i
  ((List.range 18).findSome? fun (digits : Nat) => onGrid? i (p - (digits : Int))).getD
    ⟨mantissa, 0⟩

def Decimal.positional (d : Decimal) : String :=
  let digits := String.ofList (Nat.toDigits 10 d.digits)
  if d.exponent ≥ 0 then digits ++ String.ofList (List.replicate d.exponent.toNat '0')
  else
    let places := d.exponent.natAbs
    let padded := List.replicate (places + 1 - digits.length) '0' ++ digits.toList
    let cut := padded.length - places
    String.ofList (padded.take cut) ++ "." ++ String.ofList (padded.drop cut)

/-- A number with its shortest digits, always written out and always with a point. -/
def display : Binary64 → String
  | .nan => "NaN"
  | .infinite negative => if negative then "-inf" else "inf"
  | .finite negative mantissa scale =>
    let text := if mantissa = 0 then "0" else (shortest mantissa scale).positional
    let text := if text.contains '.' then text else text ++ ".0"
    if negative then "-" ++ text else text

end Strand.Binary64
