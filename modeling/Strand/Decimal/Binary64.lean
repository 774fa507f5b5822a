/-! Binary floating-point numbers of 64 bits, as exact values. A decimal is read to the nearest of
them, and to the one with the even mantissa when it lies halfway. -/
namespace Strand

inductive Binary64
  /-- The number `mantissa * 2 ^ (scale - 1074)`, negated if so marked. -/
  | finite (negative : Bool) (mantissa scale : Nat)
  | infinite (negative : Bool)
  | nan
  deriving DecidableEq, Repr

namespace Binary64

/-- The quotient of two numbers, rounded to the nearest whole number, halves to the even one. -/
def roundDiv (num den : Nat) : Nat :=
  let q := num / den
  let twice := 2 * (num % den)
  if twice < den then q else if den < twice then q + 1 else q + q % 2

def maxScale : Nat := 2045

/-- The number nearest to `num / den`. The scale is the least at which the rounded mantissa has at
most 53 digits; beyond the largest scale lies infinity. -/
def ofRatio (negative : Bool) (num den : Nat) : Binary64 :=
  let scaled := num * Nat.pow 2 1074
  let scale := (scaled / den).log2 - 52
  let mantissa := roundDiv scaled (den * Nat.pow 2 scale)
  let (mantissa, scale) :=
    if mantissa = Nat.pow 2 53 then (Nat.pow 2 52, scale + 1) else (mantissa, scale)
  if scale > maxScale then .infinite negative else .finite negative mantissa scale

/-- The number nearest to `digits * 10 ^ exponent`. Decimals of more than 310 places before the
point are infinite and those that begin more than 330 places after it are zero, whatever their
digits are. -/
def ofDecimal (negative : Bool) (digits : Nat) (exponent : Int) : Binary64 :=
  if digits = 0 then .finite negative 0 0
  else
    let places := exponent + (Nat.toDigits 10 digits).length
    if places > 310 then .infinite negative
    else if places < -330 then .finite negative 0 0
    else if exponent < 0 then ofRatio negative digits (Nat.pow 10 exponent.natAbs)
    else ofRatio negative (digits * Nat.pow 10 exponent.toNat) 1

end Binary64
end Strand
