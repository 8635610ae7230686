import SharedGraph.Text.Base64

/-! Bytes are read back from the text that was written for them. A digit of the alphabet stands
for its place in it, and the padding is no digit, so that the end of a text cannot be taken for a
full group. -/
namespace SharedGraph.Base64

/-- The digit that is written for six bits. -/
def digit (value : Nat) : Char := standard.getD value '='

private theorem value?_digit {value : Nat} (small : value < 64) : value? (digit value) = some value := by
  have all : ∀ value < 64, value? (digit value) = some value := by decide +kernel
  exact all value small

private theorem digit_ne_padding {value : Nat} (small : value < 64) : digit value ≠ '=' := by
  have all : ∀ value < 64, digit value ≠ '=' := by decide +kernel
  exact all value small

private theorem encodePadded_cons (a b c : UInt8) (rest : List UInt8) :
    encodePadded (a :: b :: c :: rest) =
      digit (a.toNat / 4) :: digit (a.toNat % 4 * 16 + b.toNat / 16) ::
        digit (b.toNat % 16 * 4 + c.toNat / 64) :: digit (c.toNat % 64) :: encodePadded rest := by
  have samePadding : padding (a :: b :: c :: rest).length = padding rest.length := by
    simp only [padding, List.length_cons, Nat.add_assoc, Nat.reduceAdd, Nat.add_mod_right]
  simp only [encodePadded, encode, sextets, samePadding, List.map_cons, List.cons_append,
    List.nil_append, digit]

/-- A group whose last digit is no padding is a full one. -/
theorem decodePadded?_cons {a b c d : Char} {x y z w : Nat} {rest : List Char} (full : d ≠ '=')
    (first : value? a = some x) (second : value? b = some y) (third : value? c = some z)
    (fourth : value? d = some w) :
    decodePadded? (a :: b :: c :: d :: rest) = (decodePadded? rest).map fun bytes =>
      UInt8.ofNat (x * 4 + y / 16) :: UInt8.ofNat (y % 16 * 16 + z / 4) ::
        UInt8.ofNat (z % 4 * 64 + w) :: bytes := by
  rw [decodePadded?]
  · simp only [first, second, third, fourth, bind, Option.bind_some]
    cases decodePadded? rest <;> rfl
  · exact fun _ padded _ => full padded
  · exact fun padded _ => full padded

private theorem ofNat_eq (byte : UInt8) {value : Nat} (same : value = byte.toNat) :
    UInt8.ofNat value = byte := by
  rw [same, UInt8.ofNat_toNat]

/-- The text of a byte string reads back as the byte string. -/
theorem decodePadded?_encodePadded (bytes : List UInt8) :
    decodePadded? (encodePadded bytes) = some bytes := by
  induction bytes using sextets.induct with
  | case1 => rfl
  | case2 a =>
    have below := a.toNat_lt
    have text : encodePadded [a] = [digit (a.toNat / 4), digit (a.toNat % 4 * 16), '=', '='] := rfl
    rw [text, decodePadded?, value?_digit (by omega), value?_digit (by omega)]
    simp only [bind, Option.bind_some]
    rw [if_pos (by omega), ofNat_eq a (by omega)]
  | case3 a b =>
    have belowA := a.toNat_lt
    have belowB := b.toNat_lt
    have text : encodePadded [a, b] = [digit (a.toNat / 4), digit (a.toNat % 4 * 16 + b.toNat / 16),
      digit (b.toNat % 16 * 4), '='] := rfl
    rw [text, decodePadded?, value?_digit (by omega), value?_digit (by omega), value?_digit (by omega)]
    · simp only [bind, Option.bind_some]
      rw [if_pos (by omega), ofNat_eq a (by omega), ofNat_eq b (by omega)]
    · exact digit_ne_padding (by omega)
  | case4 a b c rest ih =>
    have belowA := a.toNat_lt
    have belowB := b.toNat_lt
    have belowC := c.toNat_lt
    rw [encodePadded_cons, decodePadded?_cons (digit_ne_padding (by omega)) (value?_digit (by omega))
      (value?_digit (by omega)) (value?_digit (by omega)) (value?_digit (by omega)), ih, Option.map_some,
      ofNat_eq a (by omega), ofNat_eq b (by omega), ofNat_eq c (by omega)]

end SharedGraph.Base64
