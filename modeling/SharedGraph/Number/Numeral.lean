import SharedGraph.Number.Double

/-! Numerals as doubles. The first digits of a numeral, as many as make a number of 64
bits, become a double, and that is scaled by a power of ten. Each of the two steps
rounds, so a numeral with many digits need not become the double that is nearest to it,
nor need the text of a double read back as that double. -/
namespace SharedGraph.Numeral

/-- This is 2^64. -/
def digitsLimit : Nat := 18446744073709551616

/-- Takes digits while the number that they make stays below the limit; the digits that
are left over come with it. -/
def gather : Nat → List Char → Nat × List Char
  | value, [] => (value, [])
  | value, digit :: rest =>
    let next := 10 * value + (digit.toNat - '0'.toNat)
    if next < digitsLimit then gather next rest else (value, digit :: rest)

/-- The power of ten is a double itself, and this is the greatest exponent it can have. -/
def greatestPower : Nat := 308

def powerOfTen (exponent : Nat) : Double := .ofInt (Nat.pow 10 exponent)

/-- Multiplies by a power of ten, or divides by one or two of them. What remains after
two divisions by the greatest power is too small for any further one to matter. -/
def scale (value : Double) (exponent : Int) : Double :=
  let size := exponent.natAbs
  if value.isZero then value
  else if 0 ≤ exponent then
    if size ≤ greatestPower then value.mul (powerOfTen size) else .infinity value.isNegative
  else if size ≤ greatestPower then value.div (powerOfTen size)
  else (value.div (powerOfTen greatestPower)).div
    (powerOfTen (min greatestPower (size - greatestPower)))

/-- The double that a numeral stands for; one that is too large is infinite. Digits after
the point are taken while they fit, whether or not all those before it did. -/
def toDouble (negative : Bool) (whole fraction : List Char) (exponent : Int) : Double :=
  let (front, skipped) := gather 0 whole
  let (digits, ignored) := gather front fraction
  let places := fraction.length - ignored.length
  let size := scale (.ofInt digits) (exponent + skipped.length - places)
  if negative then size.neg else size

end SharedGraph.Numeral
