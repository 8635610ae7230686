/-! Base 64: three bytes are written as four digits. A final group of one or two
bytes may be filled up with padding, and whoever reads it refuses the spellings that
no writer produces, so that each byte string has one text. -/
namespace SharedGraph.Base64

/-- The first sixty-two digits are common to both alphabets. -/
def commonDigits : List Char :=
  "ABCDEFGHIJKLMNOPQRSTUVWXYZabcdefghijklmnopqrstuvwxyz0123456789".toList

/-- The usual alphabet. -/
def standard : List Char := commonDigits ++ ['+', '/']

/-- The alphabet that needs no escaping in addresses and names. -/
def urlSafe : List Char := commonDigits ++ ['-', '_']

/-- Six-bit values of a byte string; a final group is filled with zero bits. -/
def sextets : List UInt8 → List Nat
  | [] => []
  | [a] => [a.toNat / 4, a.toNat % 4 * 16]
  | [a, b] => [a.toNat / 4, a.toNat % 4 * 16 + b.toNat / 16, b.toNat % 16 * 4]
  | a :: b :: c :: rest =>
    [a.toNat / 4, a.toNat % 4 * 16 + b.toNat / 16, b.toNat % 16 * 4 + c.toNat / 64,
      c.toNat % 64] ++ sextets rest

/-- Digits without padding. -/
def encode (alphabet : List Char) (bytes : List UInt8) : List Char :=
  (sextets bytes).map fun value => alphabet.getD value '='

/-- Padding fills the last group up to four characters. -/
def padding (length : Nat) : List Char :=
  match length % 3 with
  | 1 => ['=', '=']
  | 2 => ['=']
  | _ => []

/-- The text of a byte string in the usual alphabet, with padding. -/
def encodePadded (bytes : List UInt8) : List Char :=
  encode standard bytes ++ padding bytes.length

/-- The value of a digit of the usual alphabet. -/
def value? (digit : Char) : Option Nat := standard.findIdx? (· == digit)

/-- Reads exactly the texts with full groups, padding only at the end, and no stray
bits before the padding. -/
def decodePadded? : List Char → Option (List UInt8)
  | [] => some []
  | [a, b, '=', '='] => do
    let x ← value? a
    let y ← value? b
    if y % 16 = 0 then some [UInt8.ofNat (x * 4 + y / 16)] else none
  | [a, b, c, '='] => do
    let x ← value? a
    let y ← value? b
    let z ← value? c
    if z % 4 = 0 then
      some [UInt8.ofNat (x * 4 + y / 16), UInt8.ofNat (y % 16 * 16 + z / 4)]
    else none
  | a :: b :: c :: d :: rest => do
    let x ← value? a
    let y ← value? b
    let z ← value? c
    let w ← value? d
    let bytes ← decodePadded? rest
    some (UInt8.ofNat (x * 4 + y / 16) :: UInt8.ofNat (y % 16 * 16 + z / 4) ::
      UInt8.ofNat (z % 4 * 64 + w) :: bytes)
  | _ => none

end SharedGraph.Base64
