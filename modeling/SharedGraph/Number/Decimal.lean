import SharedGraph.Number.Double

/-! Decimal texts of doubles. The digits are the fewest that read back as the same
double: decimal grids are tried from coarse to fine, and on each only the two
neighbours of the value can lie in the interval of numbers that round to it. How the
digits are laid out is a record, one value for each kind of text. -/
namespace SharedGraph

/-- The number `digits * 10 ^ exponent`. -/
structure Decimal where
  digits : Nat
  exponent : Int
  deriving DecidableEq, Repr

namespace Decimal

/-- The exponent of the first digit. -/
def leadingExponent (decimal : Decimal) : Int :=
  (Nat.repr decimal.digits).length - 1 + decimal.exponent

/-- The digits without the zeros at the end, which do not change the value. -/
def significant (decimal : Decimal) : List Char :=
  ((Nat.repr decimal.digits).toList.reverse.dropWhile (· == '0')).reverse

/-- Compares a decimal with a number of quarter units, in exact arithmetic. -/
def compareQuarters (decimal : Decimal) (quarters : Nat) : Ordering :=
  compare (decimal.digits * Nat.pow 10 decimal.exponent.toNat * (4 * unitsPerOne))
    (quarters * Nat.pow 10 (-decimal.exponent).toNat)

/-- The numbers between the midpoints to both neighbours round to a double, and the
midpoints themselves do when its last bit is even. Below a power of two the
neighbour is half as far away. -/
def readsBackAs (decimal : Decimal) (units : Nat) : Bool :=
  let step := Nat.pow 2 (Double.gridExponent units)
  let mantissa := units / step
  let belowGap := if mantissa = Nat.pow 2 52 ∧ step ≠ 1 then step else 2 * step
  let fromLower := decimal.compareQuarters (4 * units - belowGap)
  let fromUpper := decimal.compareQuarters (4 * units + 2 * step)
  if mantissa % 2 = 0 then fromLower.isGE && fromUpper.isLE
  else fromLower == .gt && fromUpper == .lt

/-- What to do when two decimals are equally near. -/
inductive Tie where
  | toEven
  | upwards
  deriving DecidableEq, Repr

/-- The exponent of the first decimal digit of a positive number of units. Even the
smallest one, times 10^340, is more than one. -/
def magnitude (units : Nat) : Int :=
  (Nat.repr (units * Nat.pow 10 340 / unitsPerOne)).length - 341

/-- The better of the value's two neighbours on a decimal grid, if one reads back. -/
def onGrid? (tie : Tie) (units : Nat) (exponent : Int) : Option Decimal :=
  let numerator := units * Nat.pow 10 (-exponent).toNat
  let denominator := unitsPerOne * Nat.pow 10 exponent.toNat
  let lower := numerator / denominator
  let twice := 2 * (numerator % denominator)
  let preferUpper :=
    if twice = denominator then tie == .upwards || lower % 2 == 1 else decide (denominator < twice)
  let below : Decimal := ⟨lower, exponent⟩
  let above : Decimal := ⟨lower + 1, exponent⟩
  let candidates := if preferUpper then [above, below] else [below, above]
  candidates.find? fun decimal => decimal.readsBackAs units

/-- The shortest decimal that reads back; if no grid had one, the exact value would
be the answer, every double being a decimal with at most 1074 places. -/
def shortest (tie : Tie) (units : Nat) : Decimal :=
  let found := (List.range 17).findSome? fun (digits : Nat) =>
    onGrid? tie units (magnitude units - digits)
  found.getD ⟨units * Nat.pow 5 1074, -1074⟩

end Decimal

/-- How a double is written as text. -/
structure NumberLayout where
  /-- The smallest exponent of the first digit that is written without an exponent. -/
  plainFrom : Int
  /-- From this exponent on an exponent is written. -/
  plainBelow : Int
  /-- A positive exponent has a sign. -/
  plus : Bool
  tie : Decimal.Tie

namespace NumberLayout

/-- Plain texts have a point with a digit on both sides. -/
def plain (digits : List Char) (exponent : Int) : List Char :=
  if exponent < 0 then
    ['0', '.'] ++ List.replicate (-exponent - 1).toNat '0' ++ digits
  else
    let whole := exponent.toNat + 1
    let padded := digits ++ List.replicate (whole - digits.length) '0'
    let fraction := padded.drop whole
    padded.take whole ++ ['.'] ++ (if fraction.isEmpty then ['0'] else fraction)

/-- One digit stands before the point, and no point without a fraction. -/
def scientific (plus : Bool) (digits : List Char) (exponent : Int) : List Char :=
  let sign := if exponent < 0 then ['-'] else if plus then ['+'] else []
  let fraction := digits.drop 1
  digits.take 1 ++ (if fraction.isEmpty then [] else '.' :: fraction) ++ ['e'] ++ sign ++
    (Nat.repr exponent.natAbs).toList

/-- The text of a finite double without its sign. -/
def unsigned (layout : NumberLayout) (units : Nat) : List Char :=
  if units = 0 then ['0', '.', '0']
  else
    let decimal := Decimal.shortest layout.tie units
    let exponent := decimal.leadingExponent
    let digits := decimal.significant
    if layout.plainFrom ≤ exponent ∧ exponent < layout.plainBelow then plain digits exponent
    else scientific layout.plus digits exponent

def render (layout : NumberLayout) : Double → String
  | .nan => "NaN"
  | .infinity negative => if negative then "-inf" else "inf"
  | .finite negative units _ =>
    String.ofList ((if negative then ['-'] else []) ++ layout.unsigned units)

/-- Numbers sent to other participants: plain from 0.00001 up to 10^16, a half to
the even digit, positive exponents signed. -/
def wire : NumberLayout := ⟨-5, 16, true, .toEven⟩

/-- Numbers shown to a person who inspects a value: plain from 0.0001 up to 10^16, a
half upwards, positive exponents bare. -/
def inspection : NumberLayout := ⟨-4, 16, false, .upwards⟩

end NumberLayout

/-- A double with a fixed number of decimal places, a half to the even digit. The
sign of a number that rounds to zero is kept. -/
def Double.fixed (places : Nat) : Double → String
  | .nan => "NaN"
  | .infinity negative => if negative then "-inf" else "inf"
  | .finite negative units _ =>
    let rounded := (Nat.repr (roundDiv (units * Nat.pow 10 places) unitsPerOne)).toList
    let padded := List.replicate (places + 1 - rounded.length) '0' ++ rounded
    let whole := padded.length - places
    let fraction := padded.drop whole
    String.ofList ((if negative then ['-'] else []) ++ padded.take whole ++
      if fraction.isEmpty then [] else '.' :: fraction)

end SharedGraph
