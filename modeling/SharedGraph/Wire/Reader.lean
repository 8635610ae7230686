import SharedGraph.Number.Numeral
import SharedGraph.Wire.Tree

/-! Reading JSON texts. Each step returns what it read and the rest of the text; the
length of the text bounds the number of steps. -/
namespace SharedGraph.WireTree

def isBlank (char : Char) : Bool := char = ' ' || char = '\t' || char = '\n' || char = '\r'

def skipBlanks (input : List Char) : List Char := input.dropWhile isBlank

/-! ## Strings -/

/-- A character of a string, or a code unit given by its number. -/
inductive StringPart where
  | char (value : Char)
  | unit (value : Nat)
  deriving DecidableEq

def hexValue? (char : Char) : Option Nat :=
  if '0' ≤ char ∧ char ≤ '9' then some (char.toNat - '0'.toNat)
  else if 'a' ≤ char ∧ char ≤ 'f' then some (char.toNat - 'a'.toNat + 10)
  else if 'A' ≤ char ∧ char ≤ 'F' then some (char.toNat - 'A'.toNat + 10)
  else none

def codeUnit? (a b c d : Char) : Option Nat := do
  let first ← hexValue? a
  let second ← hexValue? b
  let third ← hexValue? c
  let fourth ← hexValue? d
  some (((first * 16 + second) * 16 + third) * 16 + fourth)

/-- The character that a backslash and a letter stand for. -/
def shortEscape? (letter : Char) : Option Char :=
  match letter with
  | '"' => some '"'
  | '\\' => some '\\'
  | '/' => some '/'
  | 'b' => some (Char.ofNat 8)
  | 'f' => some (Char.ofNat 12)
  | 'n' => some '\n'
  | 'r' => some '\r'
  | 't' => some '\t'
  | _ => none

/-- Reads up to the closing quote. -/
def readParts : List Char → Option (List StringPart × List Char)
  | [] => none
  | '"' :: rest => some ([], rest)
  | '\\' :: 'u' :: a :: b :: c :: d :: rest => do
    let unit ← codeUnit? a b c d
    let (parts, rest) ← readParts rest
    some (.unit unit :: parts, rest)
  | '\\' :: letter :: rest => do
    let char ← shortEscape? letter
    let (parts, rest) ← readParts rest
    some (.char char :: parts, rest)
  | char :: rest => do
    if char.toNat < 32 then none
    else
      let (parts, rest) ← readParts rest
      some (.char char :: parts, rest)

def isHighSurrogate (unit : Nat) : Bool := 0xD800 ≤ unit && unit < 0xDC00

def isLowSurrogate (unit : Nat) : Bool := 0xDC00 ≤ unit && unit < 0xE000

/-- Joins pairs of surrogates; a string with an unpaired one is no text. -/
def joinParts : List StringPart → Option (List Char)
  | [] => some []
  | .char char :: rest => (joinParts rest).map (char :: ·)
  | .unit high :: .unit low :: rest =>
    if isHighSurrogate high then
      if isLowSurrogate low then
        (joinParts rest).map (Char.ofNat (0x10000 + (high - 0xD800) * 0x400 + (low - 0xDC00)) :: ·)
      else none
    else if isLowSurrogate high then none
    else (joinParts (.unit low :: rest)).map (Char.ofNat high :: ·)
  | .unit unit :: rest =>
    if isHighSurrogate unit || isLowSurrogate unit then none
    else (joinParts rest).map (Char.ofNat unit :: ·)

/-- Reads a string whose opening quote was read; no text is given for one with an
unpaired surrogate. -/
def readString (input : List Char) : Option (Option String × List Char) :=
  (readParts input).map fun (parts, rest) => ((joinParts parts).map String.ofList, rest)

/-! ## Numbers -/

/-- A run of digits, at least one. -/
def readDigits (input : List Char) : Option (List Char × List Char) :=
  let digits := input.takeWhile Char.isDigit
  if digits.isEmpty then none else some (digits, input.dropWhile Char.isDigit)

/-- Digits of a whole number: no zero in front of others. -/
def readWhole (input : List Char) : Option (List Char × List Char) := do
  let (digits, rest) ← readDigits input
  match digits with
  | '0' :: _ :: _ => none
  | _ => some (digits, rest)

/-- The digits after a point, if there is one. -/
def readFraction : List Char → Option (Option (List Char) × List Char)
  | '.' :: rest => (readDigits rest).map fun (digits, rest) => (some digits, rest)
  | input => some (none, input)

def readExponentDigits : List Char → Option (Int × List Char)
  | '-' :: rest => (readDigits rest).map fun (digits, rest) => (-(digitsValue digits : Int), rest)
  | '+' :: rest => (readDigits rest).map fun (digits, rest) => ((digitsValue digits : Int), rest)
  | input => (readDigits input).map fun (digits, rest) => ((digitsValue digits : Int), rest)

def readExponent : List Char → Option (Option Int × List Char)
  | 'e' :: rest => (readExponentDigits rest).map fun (value, rest) => (some value, rest)
  | 'E' :: rest => (readExponentDigits rest).map fun (value, rest) => (some value, rest)
  | input => some (none, input)

/-- A double as a number of a tree; no tree has a number that is too large. -/
def doubleTree (value : Double) : WireTree :=
  if value.isFinite then .number (.double value) else .broken

/-- What a numeral stands for. Without fraction and exponent it is an integer if it
fits in 64 bits, with or without a sign; a negative zero is not an integer. -/
def numeral (negative : Bool) (whole : List Char) (fraction : Option (List Char))
    (exponent : Option Int) : WireTree :=
  match fraction, exponent with
  | none, none =>
    let size := digitsValue whole
    let fits := if negative then 0 < size && size ≤ Nat.pow 2 63 else size < Nat.pow 2 64
    if fits then .number (.integer (if negative then -size else size))
    else doubleTree (Numeral.toDouble negative whole [] 0)
  | _, _ => doubleTree (Numeral.toDouble negative whole (fraction.getD []) (exponent.getD 0))

def readNumber (input : List Char) : Option (WireTree × List Char) := do
  let (negative, unsigned) := match input with
    | '-' :: rest => (true, rest)
    | _ => (false, input)
  let (whole, rest) ← readWhole unsigned
  let (fraction, rest) ← readFraction rest
  let (exponent, rest) ← readExponent rest
  some (numeral negative whole fraction exponent, rest)

/-! ## Values -/

/-- Puts a field in front of those read after it. An object with a broken name is
broken as a whole. -/
def consField (name : Option String) (value : WireTree) :
    Option (List (String × WireTree)) → Option (List (String × WireTree))
  | some fields => name.map fun known => (known, value) :: fields
  | none => none

def objectTree : Option (List (String × WireTree)) → WireTree
  | some fields => .object fields
  | none => .broken

mutual

/-- Reads one value after any blanks. -/
def readValue : Nat → List Char → Option (WireTree × List Char)
  | 0, _ => none
  | steps + 1, input =>
    match skipBlanks input with
    | '"' :: rest => (readString rest).map fun (value, rest) => ((value.map text).getD .broken, rest)
    | '[' :: rest =>
      match skipBlanks rest with
      | ']' :: rest => some (.array [], rest)
      | rest => (readItems steps rest).map fun (items, rest) => (.array items, rest)
    | '{' :: rest =>
      match skipBlanks rest with
      | '}' :: rest => some (.object [], rest)
      | rest => (readFields steps rest).map fun (fields, rest) => (objectTree fields, rest)
    | 'n' :: 'u' :: 'l' :: 'l' :: rest => some (.null, rest)
    | 't' :: 'r' :: 'u' :: 'e' :: rest => some (.boolean true, rest)
    | 'f' :: 'a' :: 'l' :: 's' :: 'e' :: rest => some (.boolean false, rest)
    | rest => readNumber rest

/-- Reads items up to the closing bracket, at least one. -/
def readItems : Nat → List Char → Option (List WireTree × List Char)
  | 0, _ => none
  | steps + 1, input => do
    let (item, rest) ← readValue steps input
    match skipBlanks rest with
    | ',' :: rest => do
      let (items, rest) ← readItems steps rest
      some (item :: items, rest)
    | ']' :: rest => some ([item], rest)
    | _ => none

/-- Reads fields up to the closing brace, at least one. -/
def readFields : Nat → List Char → Option (Option (List (String × WireTree)) × List Char)
  | 0, _ => none
  | steps + 1, input =>
    match skipBlanks input with
    | '"' :: rest => do
      let (name, rest) ← readString rest
      match skipBlanks rest with
      | ':' :: rest => do
        let (value, rest) ← readValue steps rest
        match skipBlanks rest with
        | ',' :: rest => do
          let (fields, rest) ← readFields steps rest
          some (consField name value fields, rest)
        | '}' :: rest => some (consField name value (some []), rest)
        | _ => none
      | _ => none
    | _ => none

end

/-- Reads a whole text; after the value only blanks may follow. -/
def ofText? (text : String) : Option WireTree :=
  let characters := text.toList
  match readValue (2 * characters.length + 2) characters with
  | some (tree, rest) => if rest.all isBlank then some tree else none
  | none => none

end SharedGraph.WireTree
