/-!
# Exact values of floating-point numbers

A finite number is `m · 2 ^ e` for a natural `m` and an integer `e`, up to its
sign. Reading these off the bits makes questions about the value questions
about whole numbers.
-/

namespace Flowchart.Number

/-- What a floating-point number stands for. -/
inductive Exact where
  | nan
  | infinite (negative : Bool)
  | finite (negative : Bool) (mantissa : Nat) (exponent : Int)
  deriving DecidableEq, Repr

/-- The value that 64 bits encode. -/
def Exact.ofBits (bits : Nat) : Exact :=
  let negative := bits / Nat.pow 2 63 % 2 == 1
  let exponent : Nat := bits / Nat.pow 2 52 % Nat.pow 2 11
  let fraction : Nat := bits % Nat.pow 2 52
  if exponent = 2047 then
    if fraction = 0 then .infinite negative else .nan
  else if exponent = 0 then .finite negative fraction (-1074)
  else .finite negative (Nat.pow 2 52 + fraction) ((exponent : Int) - 1075)

def Exact.ofFloat (x : Float) : Exact := .ofBits x.toBits.toNat

/-- The whole number that a value is, if it is one. -/
def Exact.toInt? : Exact → Option Int
  | .finite negative m e =>
    let n? :=
      if 0 ≤ e then some (m * Nat.pow 2 e.toNat)
      else if m % Nat.pow 2 (-e).toNat = 0 then
        some (m / Nat.pow 2 (-e).toNat)
      else none
    n?.map fun n => if negative then -(n : Int) else n
  | _ => none

/-- A decimal number `m · 10 ^ e`, rounded to the nearest floating-point number. -/
def ofDecimal (mantissa : Nat) (exponent : Int) : Float :=
  let size : Int := (Nat.toDigits 10 mantissa).length + exponent
  if mantissa = 0 || size < -400 then 0.0
  else if 400 < size then 1.0 / 0.0
  else Float.ofScientific mantissa (decide (exponent < 0)) exponent.natAbs

end Flowchart.Number
