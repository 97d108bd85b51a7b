import Flowchart.Number.Binary

/-!
# The shortest decimal that reads back

A floating-point number is shown with the fewest digits that still read back
as the same number, and with the nearest such decimal where several have that
length. It is written positionally while the decimal point lies within sixteen
digits to the right or four zeros to the left, and with an exponent otherwise.
-/

namespace Flowchart.Number

/-- A number `mantissa · 2 ^ exponent` with the interval of reals that round to it, all in
units of `1 / scale`. -/
structure Rounding where
  scale : Nat
  low : Nat
  value : Nat
  high : Nat
  closed : Bool

/-- The interval around a positive number: half way to its neighbours, the ends included when
the mantissa is even. Below a power of two the spacing halves. -/
def Rounding.of (mantissa : Nat) (exponent : Int) : Rounding :=
  let narrow := mantissa == Nat.pow 2 52 && decide (-1074 < exponent)
  let up := Nat.pow 2 exponent.toNat
  let below := if narrow then 1 else 2
  { scale := 4 * Nat.pow 2 (-exponent).toNat
    low := (4 * mantissa - below) * up
    value := 4 * mantissa * up
    high := (4 * mantissa + 2) * up
    closed := mantissa % 2 == 0 }

/-- Whether `n / d` units lie in the interval. -/
def Rounding.holds (r : Rounding) (n d : Nat) : Bool :=
  if r.closed then decide (r.low * d ≤ n) && decide (n ≤ r.high * d)
  else decide (r.low * d < n) && decide (n < r.high * d)

/-- The decimal with step `10 ^ e` that lies in the interval and is nearest to the value;
a tie goes to the even one. -/
def Rounding.onGrid? (r : Rounding) (e : Int) : Option Nat :=
  let up := Nat.pow 10 e.toNat
  let down := Nat.pow 10 (-e).toNat
  -- The step is `up / down`, which is `up * scale / down` units.
  let step := up * r.scale
  let scaled := r.value * down
  let a := scaled / step
  let lowFits := r.holds (a * step) down
  let highFits := r.holds ((a + 1) * step) down
  match lowFits, highFits with
  | true, false => some a
  | false, true => some (a + 1)
  | false, false => none
  | true, true =>
    let left := scaled - a * step
    let right := (a + 1) * step - scaled
    if left < right || (left == right && a % 2 == 0) then some a else some (a + 1)

/-- The number of digits before the decimal point of `value / scale`; zero or less when the
number is below one tenth of its unit. -/
def Rounding.magnitude (r : Rounding) : Int :=
  let rec whole : Nat → Nat → Nat
    | 0, _ => 0
    | fuel + 1, n => if n = 0 then 0 else whole fuel (n / 10) + 1
  let rec zeros : Nat → Nat → Nat
    | 0, _ => 0
    | fuel + 1, n => if r.scale ≤ 10 * n then 0 else zeros fuel (10 * n) + 1
  if r.scale ≤ r.value then whole 400 (r.value / r.scale) else -(zeros 400 r.value : Int)

/-- The shortest decimal `n · 10 ^ e`, searched from one digit to seventeen. -/
def Rounding.shortest (r : Rounding) : Nat × Int :=
  let m := r.magnitude
  let rec search : Nat → Nat → Nat × Int
    | 0, digits => ((r.onGrid? (m - digits)).getD 0, m - digits)
    | fuel + 1, digits =>
      match r.onGrid? (m - digits) with
      | some n => (n, m - digits)
      | none => search fuel (digits + 1)
  search 17 1

/-- Trailing zeros move into the exponent. -/
def trimZeros : Nat → Nat → Int → Nat × Int
  | 0, n, e => (n, e)
  | fuel + 1, n, e => if n ≠ 0 && n % 10 = 0 then trimZeros fuel (n / 10) (e + 1) else (n, e)

/-- A positive decimal as text. -/
def showDecimal (n : Nat) (e : Int) : String :=
  let digits := Nat.toDigits 10 n
  let point : Int := digits.length + e
  if -4 < point && point ≤ 16 then
    if point ≤ 0 then
      "0." ++ String.ofList (List.replicate (-point).toNat '0' ++ digits)
    else if 0 ≤ e then
      String.ofList (digits ++ List.replicate e.toNat '0') ++ ".0"
    else
      String.ofList (digits.take point.toNat) ++ "." ++ String.ofList (digits.drop point.toNat)
  else
    let lead := String.ofList (digits.take 1)
    let tail := digits.drop 1
    let body := if tail.isEmpty then lead else lead ++ "." ++ String.ofList tail
    let power := point - 1
    let mark := if power < 0 then "e-" else "e+"
    let shown := Nat.toDigits 10 power.natAbs
    body ++ mark ++ String.ofList (List.replicate (2 - shown.length) '0' ++ shown)

/-- A floating-point number as text. -/
def showFloat (x : Float) : String :=
  match Exact.ofFloat x with
  | .nan => "nan"
  | .infinite negative => if negative then "-inf" else "inf"
  | .finite negative m e =>
    let body :=
      if m = 0 then "0.0"
      else
        let (n, e) := (Rounding.of m e).shortest
        let (n, e) := trimZeros 20 n e
        showDecimal n e
    if negative then "-" ++ body else body

end Flowchart.Number
