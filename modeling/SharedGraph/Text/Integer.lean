/-! Decimal integers, and the range of times: signed numbers of 64 bits. -/
namespace SharedGraph

/-- The value of a run of digits. -/
def digitsValue (digits : List Char) : Nat :=
  digits.foldl (fun value digit => 10 * value + (digit.toNat - '0'.toNat)) 0

/-- This is -2^63. -/
def leastTime : Int := -9223372036854775808

/-- This is 2^63 - 1. -/
def greatestTime : Int := 9223372036854775807

def isTime (value : Int) : Bool := leastTime ≤ value && value ≤ greatestTime

/-- A result outside the range of times becomes the nearest time. -/
def clampTime (value : Int) : Int := max leastTime (min value greatestTime)

/-- Reads a whole text as a time: digits, after at most one sign. -/
def readTime? (text : List Char) : Option Int :=
  let (negative, digits) := match text with
    | '-' :: rest => (true, rest)
    | '+' :: rest => (false, rest)
    | _ => (false, text)
  let value : Int := if negative then -digitsValue digits else digitsValue digits
  if !digits.isEmpty && digits.all Char.isDigit && isTime value then some value else none

/-- A minus sign before a negative number, and no sign otherwise. -/
def writeInteger (value : Int) : List Char :=
  (if value < 0 then ['-'] else []) ++ (Nat.repr value.natAbs).toList

end SharedGraph
