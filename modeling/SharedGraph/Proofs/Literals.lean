import SharedGraph.Wire.Reader
import Mathlib.Data.List.TakeWhile

/-! Literals read back. A string is escaped character by character, so its text is read back
character by character as well. A number ends where nothing can follow that belongs to it; so
what stands after it in a text does not change what it says. -/
namespace SharedGraph.WireTree

/-! ## Strings -/

/-- A character is escaped by a letter, by its number, or not at all. -/
theorem escape_cases (char : Char) :
    (∃ letter, letter ≠ 'u' ∧ shortEscape? letter = some char ∧ escape char = ['\\', letter]) ∨
      (char.toNat < 32 ∧ escape char =
        ['\\', 'u', '0', '0', hexDigit (char.toNat / 16), hexDigit (char.toNat % 16)]) ∨
      (32 ≤ char.toNat ∧ char ≠ '"' ∧ char ≠ '\\' ∧ escape char = [char]) := by
  unfold escape
  split
  case h_6 quote backslash newline carriage tab =>
    split
    case isTrue back =>
      obtain rfl : char = Char.ofNat 8 := by rw [← Char.ofNat_toNat char, back]
      exact .inl ⟨_, by decide, rfl, rfl⟩
    split
    case isTrue feed =>
      obtain rfl : char = Char.ofNat 12 := by rw [← Char.ofNat_toNat char, feed]
      exact .inl ⟨_, by decide, rfl, rfl⟩
    split
    case isTrue control => exact .inr (.inl ⟨control, rfl⟩)
    case isFalse shown => exact .inr (.inr ⟨Nat.le_of_not_lt shown, quote, backslash, rfl⟩)
  all_goals exact .inl ⟨_, by decide, rfl, rfl⟩

private theorem codeUnit?_hexDigit {unit : Nat} (small : unit < 32) :
    codeUnit? '0' '0' (hexDigit (unit / 16)) (hexDigit (unit % 16)) = some unit := by
  have all : ∀ unit < 32, codeUnit? '0' '0' (hexDigit (unit / 16)) (hexDigit (unit % 16)) = some unit := by
    decide +kernel
  exact all unit small

/-- Control characters are no surrogates. -/
theorem joinParts_unit {unit : Nat} (small : unit < 32) (parts : List StringPart) :
    joinParts (.unit unit :: parts) = (joinParts parts).map (Char.ofNat unit :: ·) := by
  have high : isHighSurrogate unit = false := by
    rw [isHighSurrogate, Bool.and_eq_false_iff]
    exact .inl (decide_eq_false (by omega))
  have low : isLowSurrogate unit = false := by
    rw [isLowSurrogate, Bool.and_eq_false_iff]
    exact .inl (decide_eq_false (by omega))
  match parts with
  | [] | .char _ :: _ | .unit _ :: _ =>
    simp only [joinParts, high, low, Bool.or_false, Bool.false_eq_true, ↓reduceIte]

/-- The text of a character is read as one part, which stands for the character. -/
theorem readParts_escape (char : Char) :
    ∃ part, (∀ rest, readParts (escape char ++ rest) =
        (readParts rest).map fun (parts, left) => (part :: parts, left)) ∧
      ∀ parts, joinParts (part :: parts) = (joinParts parts).map (char :: ·) := by
  rcases escape_cases char with
    ⟨letter, other, stands, text⟩ | ⟨control, text⟩ | ⟨shown, quote, backslash, text⟩
  · refine ⟨.char char, fun rest => ?_, fun parts => by rw [joinParts]⟩
    rw [text, List.cons_append, List.cons_append, List.nil_append, readParts, stands]
    · cases readParts rest <;> rfl
    · exact fun _ _ _ _ _ equal _ => other equal
  · refine ⟨.unit char.toNat, fun rest => ?_, fun parts => ?_⟩
    · simp only [text, List.cons_append, List.nil_append, readParts, codeUnit?_hexDigit control]
      cases readParts rest <;> rfl
    · rw [joinParts_unit control, Char.ofNat_toNat]
  · refine ⟨.char char, fun rest => ?_, fun parts => by rw [joinParts]⟩
    rw [text, List.cons_append, List.nil_append, readParts]
    · simp only [Nat.not_lt.2 shown, ↓reduceIte]
      cases readParts rest <;> rfl
    · exact quote
    · exact fun _ _ _ _ _ equal _ => backslash equal
    · exact fun _ _ equal _ => backslash equal

/-- The text of a string is read up to its closing quote. -/
theorem readString_escape (value : String) (rest : List Char) :
    readString (value.toList.flatMap escape ++ '"' :: rest) = some (some value, rest) := by
  have read (chars : List Char) : ∃ parts, joinParts parts = some chars ∧
      readParts (chars.flatMap escape ++ '"' :: rest) = some (parts, rest) := by
    induction chars with
    | nil => exact ⟨[], rfl, rfl⟩
    | cons char chars ih =>
      obtain ⟨parts, joined, found⟩ := ih
      obtain ⟨part, reads, stands⟩ := readParts_escape char
      refine ⟨part :: parts, by rw [stands, joined]; rfl, ?_⟩
      rw [List.flatMap_cons, List.append_assoc, reads, found]
      rfl
  obtain ⟨parts, joined, found⟩ := read value.toList
  simp only [readString, found, Option.map_some, joined, String.ofList_toList]

/-! ## Numbers -/

/-- What can follow a value: the end, the next value, or the end of what the value is part of. -/
def Follows (rest : List Char) : Prop := ∀ char ∈ rest.head?, char ∈ [',', ']', '}']

/-- A reader that stops before what follows a value reads the same with it and without it. -/
def StopsBefore {α : Type} (read : List Char → Option (α × List Char)) : Prop :=
  ∀ input rest, Follows rest →
    read (input ++ rest) = (read input).map fun (value, left) => (value, left ++ rest)

private theorem Follows.head_cases {rest : List Char} (follows : Follows rest) :
    rest = [] ∨ ∃ left, rest = ',' :: left ∨ rest = ']' :: left ∨ rest = '}' :: left := by
  cases rest with
  | nil => exact .inl rfl
  | cons char left =>
    have allowed := follows char rfl
    simp only [List.mem_cons, List.not_mem_nil, or_false] at allowed
    rcases allowed with rfl | rfl | rfl <;> exact .inr ⟨left, by simp⟩

private theorem readDigits_stops : StopsBefore readDigits := by
  intro input rest follows
  have stop : rest.takeWhile Char.isDigit = [] ∧ rest.dropWhile Char.isDigit = rest := by
    rcases follows.head_cases with rfl | ⟨left, rfl | rfl | rfl⟩ <;> exact ⟨rfl, rfl⟩
  have split : (input ++ rest).takeWhile Char.isDigit = input.takeWhile Char.isDigit ∧
      (input ++ rest).dropWhile Char.isDigit = input.dropWhile Char.isDigit ++ rest := by
    induction input with
    | nil => exact stop
    | cons char input ih =>
      simp only [List.cons_append, List.takeWhile_cons, List.dropWhile_cons, ih.1, ih.2]
      cases char.isDigit <;> simp
  rw [readDigits, readDigits, split.1, split.2]
  split <;> rfl

private theorem readWhole_stops : StopsBefore readWhole := by
  intro input rest follows
  rw [readWhole, readWhole, readDigits_stops input rest follows]
  cases readDigits input with
  | none => rfl
  | some found =>
    obtain ⟨digits, left⟩ := found
    simp only [Option.map_some, bind, Option.bind_some]
    split <;> rfl

theorem StopsBefore.map {α β : Type} {read : List Char → Option (α × List Char)} (stops : StopsBefore read)
    (change : α → β) :
    StopsBefore fun input => (read input).map fun (value, left) => (change value, left) := by
  intro input rest follows
  simp only [stops input rest follows]
  cases read input <;> rfl

private theorem readFraction_stops : StopsBefore readFraction := by
  intro input rest follows
  cases input with
  | nil => rcases follows.head_cases with rfl | ⟨left, rfl | rfl | rfl⟩ <;> rfl
  | cons char input =>
    by_cases point : char = '.'
    · subst point
      exact readDigits_stops.map some input rest follows
    · have other (more : List Char) : readFraction (char :: more) = some (none, char :: more) := by
        rw [readFraction]
        exact fun _ equal => point (List.cons.inj equal).1
      rw [List.cons_append, other, other]
      rfl

private theorem readExponentDigits_stops : StopsBefore readExponentDigits := by
  intro input rest follows
  cases input with
  | nil => rcases follows.head_cases with rfl | ⟨left, rfl | rfl | rfl⟩ <;> rfl
  | cons char input =>
    by_cases minus : char = '-'
    · subst minus
      exact readDigits_stops.map (fun digits => -(digitsValue digits : Int)) input rest follows
    by_cases plus : char = '+'
    · subst plus
      exact readDigits_stops.map (fun digits => (digitsValue digits : Int)) input rest follows
    have other (more : List Char) : readExponentDigits (char :: more) =
        (readDigits (char :: more)).map fun found => ((digitsValue found.1 : Int), found.2) := by
      rw [readExponentDigits]
      · exact fun _ equal => minus (List.cons.inj equal).1
      · exact fun _ equal => plus (List.cons.inj equal).1
    rw [List.cons_append, other, other]
    exact readDigits_stops.map (fun digits => (digitsValue digits : Int)) (char :: input) rest follows

private theorem readExponent_stops : StopsBefore readExponent := by
  intro input rest follows
  cases input with
  | nil => rcases follows.head_cases with rfl | ⟨left, rfl | rfl | rfl⟩ <;> rfl
  | cons char input =>
    by_cases small : char = 'e'
    · subst small
      exact readExponentDigits_stops.map some input rest follows
    by_cases large : char = 'E'
    · subst large
      exact readExponentDigits_stops.map some input rest follows
    have other (more : List Char) : readExponent (char :: more) = some (none, char :: more) := by
      rw [readExponent]
      · exact fun _ equal => small (List.cons.inj equal).1
      · exact fun _ equal => large (List.cons.inj equal).1
    rw [List.cons_append, other, other]
    rfl

/-- Reads a number after its sign. -/
def readUnsigned (negative : Bool) (input : List Char) : Option (WireTree × List Char) := do
  let (whole, rest) ← readWhole input
  let (fraction, rest) ← readFraction rest
  let (exponent, rest) ← readExponent rest
  some (numeral negative whole fraction exponent, rest)

private theorem readUnsigned_stops (negative : Bool) : StopsBefore (readUnsigned negative) := by
  intro input rest follows
  rw [readUnsigned, readUnsigned, readWhole_stops input rest follows]
  cases readWhole input with
  | none => rfl
  | some found =>
    simp only [Option.map_some, bind, Option.bind_some, readFraction_stops found.2 rest follows]
    cases readFraction found.2 with
    | none => rfl
    | some fraction =>
      simp only [Option.map_some, Option.bind_some, readExponent_stops fraction.2 rest follows]
      cases readExponent fraction.2 <;> rfl

theorem readNumber_of_head {char : Char} (plain : char ≠ '-') (input : List Char) :
    readNumber (char :: input) = readUnsigned false (char :: input) := by
  rw [readNumber]
  · rfl
  · exact fun _ equal => plain (List.cons.inj equal).1

private theorem readNumber_stops : StopsBefore readNumber := by
  intro input rest follows
  cases input with
  | nil => rcases follows.head_cases with rfl | ⟨left, rfl | rfl | rfl⟩ <;> rfl
  | cons char input =>
    by_cases minus : char = '-'
    · subst minus
      exact readUnsigned_stops true input rest follows
    · rw [List.cons_append, readNumber_of_head minus, readNumber_of_head minus]
      exact readUnsigned_stops false (char :: input) rest follows

/-- A number starts with a digit or its sign. -/
theorem head_of_readNumber {input : List Char} {found : WireTree × List Char}
    (read : readNumber input = some found) :
    ∃ char rest, input = char :: rest ∧ (char = '-' ∨ char.isDigit = true) := by
  cases input with
  | nil => cases read
  | cons char rest =>
    refine ⟨char, rest, rfl, ?_⟩
    by_cases minus : char = '-'
    · exact .inl minus
    · refine .inr ?_
      rw [readNumber_of_head minus, readUnsigned, readWhole, readDigits, List.takeWhile_cons] at read
      cases digit : char.isDigit with
      | true => rfl
      | false => simp [digit] at read

/-- A character with which a number starts is no other character. -/
theorem ne_of_starts {char letter : Char} (starts : char = '-' ∨ char.isDigit = true) (sign : letter ≠ '-')
    (plain : letter.isDigit = false) : char ≠ letter := by
  rintro rfl
  rcases starts with rfl | digit
  · exact sign rfl
  · rw [plain] at digit
    cases digit

theorem isBlank_of_starts {char : Char} (starts : char = '-' ∨ char.isDigit = true) :
    isBlank char = false := by
  have other {letter : Char} (sign : letter ≠ '-') (plain : letter.isDigit = false) : char ≠ letter :=
    ne_of_starts starts sign plain
  simp only [isBlank, Bool.or_eq_false_iff, decide_eq_false_iff_not]
  exact ⟨⟨⟨other (by decide) rfl, other (by decide) rfl⟩, other (by decide) rfl⟩, other (by decide) rfl⟩

theorem skipBlanks_cons {char : Char} (solid : isBlank char = false) (rest : List Char) :
    skipBlanks (char :: rest) = char :: rest :=
  List.dropWhile_cons_of_neg (by rw [solid]; exact Bool.false_ne_true)

/-- A text that is read as a number is read as that number wherever it stands. -/
theorem readValue_of_readNumber {input rest : List Char} {tree : WireTree}
    (read : readNumber input = some (tree, [])) (follows : Follows rest) (steps : Nat) :
    readValue (steps + 1) (input ++ rest) = some (tree, rest) := by
  have stops := readNumber_stops input rest follows
  rw [read] at stops
  obtain ⟨char, more, rfl, starts⟩ := head_of_readNumber read
  rw [List.cons_append] at stops ⊢
  rw [readValue, skipBlanks_cons (isBlank_of_starts starts)]
  split
  case h_7 => exact stops
  all_goals
    next equal => exact absurd (List.cons.inj equal).1 (ne_of_starts starts (by decide) rfl)

/-! ## Integers -/

/-- The integers that a text can hold have 64 bits, with a sign or without. -/
def Fits (value : Int) : Prop := leastTime ≤ value ∧ value < Numeral.digitsLimit

private theorem readDigits_of_digits {digits : List Char} (some? : digits ≠ [])
    (all : ∀ char ∈ digits, char.isDigit = true) : readDigits digits = some (digits, []) := by
  have taken : digits.takeWhile Char.isDigit = digits := List.takeWhile_eq_self_iff.2 all
  have dropped : digits.dropWhile Char.isDigit = [] := List.dropWhile_eq_nil_iff.2 all
  rw [readDigits, taken, dropped, if_neg (by simpa using some?)]

/-- A positive number has no zero in front. -/
theorem head_toDigits {number : Nat} (positive : 0 < number) :
    ∃ char rest, Nat.toDigits 10 number = char :: rest ∧ char ≠ '0' := by
  induction number using Nat.strongRecOn with
  | ind number ih =>
    by_cases small : number < 10
    · refine ⟨_, [], Nat.toDigits_of_lt_base small, ?_⟩
      have other : ∀ digit < 10, 0 < digit → digit.digitChar ≠ '0' := by decide
      exact other number small positive
    · obtain ⟨char, rest, digits, other⟩ := ih (number / 10) (by omega) (by omega)
      refine ⟨char, rest ++ [Nat.digitChar (number % 10)], ?_, other⟩
      rw [Nat.toDigits_of_base_le (by omega) (Nat.le_of_not_lt small), digits, List.cons_append]

private theorem readWhole_toDigits (number : Nat) :
    readWhole (Nat.toDigits 10 number) = some (Nat.toDigits 10 number, []) := by
  have digits := readDigits_of_digits Nat.toDigits_ne_nil fun char member =>
    Nat.isDigit_of_mem_toDigits (b := 10) (n := number) (by decide) (by decide) member
  rw [readWhole, digits]
  simp only [bind, Option.bind_some]
  rcases Nat.eq_zero_or_pos number with rfl | positive
  · rfl
  · obtain ⟨char, rest, same, other⟩ := head_toDigits positive
    rw [same]
    split
    case h_1 equal => exact absurd (List.cons.inj equal).1 other
    case h_2 => rfl

theorem digitsValue_toDigits (number : Nat) : digitsValue (Nat.toDigits 10 number) = number :=
  Nat.ofDigitChars_ten_toDigits

private theorem readUnsigned_toDigits (negative : Bool) (number : Nat) :
    readUnsigned negative (Nat.toDigits 10 number) =
      some (numeral negative (Nat.toDigits 10 number) none none, []) := by
  rw [readUnsigned, readWhole_toDigits]
  rfl

/-- The text of an integer of 64 bits is read as the integer. -/
theorem readNumber_writeInteger {value : Int} (fits : Fits value) :
    readNumber (writeInteger value) = some (.number (.integer value), []) := by
  obtain ⟨least, below⟩ := fits
  unfold leastTime at least
  unfold Numeral.digitsLimit at below
  rw [writeInteger, Nat.toList_repr]
  by_cases negative : value < 0
  · rw [if_pos negative]
    refine (readUnsigned_toDigits true value.natAbs).trans ?_
    have size : (decide (0 < value.natAbs) && decide (value.natAbs ≤ Nat.pow 2 63)) = true := by
      rw [Bool.and_eq_true, decide_eq_true_eq, decide_eq_true_eq]
      exact ⟨by omega, by simp only [Nat.pow_eq]; omega⟩
    have same : -(value.natAbs : Int) = value := by omega
    simp only [numeral, digitsValue_toDigits, size, ↓reduceIte, same]
  · rw [if_neg negative, List.nil_append]
    obtain ⟨char, rest, digits⟩ :=
      List.exists_cons_of_ne_nil (Nat.toDigits_ne_nil (b := 10) (n := value.natAbs))
    have digit : char.isDigit = true :=
      Nat.isDigit_of_mem_toDigits (b := 10) (n := value.natAbs) (by decide) (by decide) (by simp [digits])
    have plain : char ≠ '-' := by
      rintro rfl
      cases digit
    rw [digits, readNumber_of_head plain, ← digits, readUnsigned_toDigits]
    have size : value.natAbs < Nat.pow 2 64 := by
      simp only [Nat.pow_eq]
      omega
    have same : (value.natAbs : Int) = value := by omega
    simp only [numeral, digitsValue_toDigits, Bool.false_eq_true, ↓reduceIte, size, decide_true, same]

end SharedGraph.WireTree
