/-! Stamps are names that sort by the time at which they were given: 26 digits in base
32, of which the first ten are the time in milliseconds and the others keep apart the
stamps of one moment. -/
namespace SharedGraph.Stamp

/-- Letters that are easily mistaken for digits or for each other are left out. -/
def alphabet : List Char := "0123456789ABCDEFGHJKMNPQRSTVWXYZ".toList

def timeDigits : Nat := 10

def digits : Nat := 26

/-- This is 2^48; times repeat after it. -/
def period : Nat := 281474976710656

/-- The lowest digits of a number, the highest of them first. -/
def encode : Nat → Nat → List Char
  | 0, _ => []
  | count + 1, value => encode count (value / 32) ++ [alphabet.getD (value % 32) '0']

/-- The stamp of a time, with a number that keeps it apart from others. -/
def ofTime (time mark : Nat) : String :=
  String.ofList (encode timeDigits (time % period) ++ encode (digits - timeDigits) mark)

/-- The time that a stamp was given at. -/
def time? (stamp : String) : Option Nat :=
  let chars := stamp.toList
  if chars.length = digits && chars.all alphabet.contains then
    let time := (chars.take timeDigits).foldl (fun value char => 32 * value + alphabet.idxOf char) 0
    if time < period then some time else none
  else none

end SharedGraph.Stamp
