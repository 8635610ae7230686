import SharedGraph.Number.Double
import Mathlib.Algebra.Order.Ring.Int
import Mathlib.Tactic.Ring

/-! When addition of counts is exact. A double that needs no rounding is its own
nearest double, so the sum of two finite doubles is the exact sum as soon as that can be
represented; whole numbers up to 2^53 always can. Zero needs care, because a sum that
cancels is the positive zero whatever its parts were. -/
namespace SharedGraph

private theorem unitsPerOne_pos : 0 < unitsPerOne := by
  unfold unitsPerOne
  generalize unitBits = bits
  exact Nat.two_pow_pos bits

private theorem representable_zero : Representable 0 := ⟨unitsLimit_pos, 0, 0, by decide, by decide⟩

/-- Whole numbers up to 2^53 are doubles. -/
theorem representable_whole {whole : Nat} (small : whole ≤ Nat.pow 2 53) :
    Representable (whole * unitsPerOne) := by
  have limit : Nat.pow 2 53 * Nat.pow 2 unitBits < unitsLimit := by
    unfold unitsLimit limitBits
    generalize unitBits = bits
    rw [Nat.mul_comm, Nat.pow_eq, Nat.pow_eq, Nat.pow_eq, ← Nat.pow_add]
    exact Nat.pow_lt_pow_right (by decide) (by omega)
  unfold unitsPerOne
  exact representable_of_le small (Nat.lt_of_le_of_lt (Nat.mul_le_mul_right _ small) limit)

namespace Double

/-- The exact value, in units. An infinite or undefined double has none. -/
def units? : Double → Option Int
  | .finite negative units _ => some (if negative then -units else units)
  | _ => none

/-- The whole number that a double is, if it is one. -/
def whole? (value : Double) : Option Int :=
  value.units?.bind fun units =>
    if units % unitsPerOne = 0 then some (units / unitsPerOne) else none

/-- The sum of the two values is not rounded. -/
def SumsExactly (left right : Double) : Prop :=
  ∃ x y, left.units? = some x ∧ right.units? = some y ∧ (left.add right).units? = some (x + y)

private theorem sumsExactly_iff {left right : Double} : left.SumsExactly right ↔
    (left.units?.bind fun x => right.units?.map fun y => (left.add right).units? == some (x + y)) =
      some true := by
  cases leftSame : left.units? with
  | none => simp [SumsExactly, leftSame]
  | some x => cases rightSame : right.units? <;> simp [SumsExactly, leftSame, rightSame]

instance (left right : Double) : Decidable (left.SumsExactly right) := decidable_of_iff' _ sumsExactly_iff

/-- What can be represented lies on its own grid. -/
theorem nearestUnits_of_representable {units : Nat} (held : Representable units) :
    nearestUnits units 1 = units := by
  obtain ⟨-, mantissa, shift, small, rfl⟩ := held
  have grid : gridExponent (mantissa * Nat.pow 2 shift) ≤ shift := by
    unfold gridExponent
    by_cases zero : mantissa * Nat.pow 2 shift = 0
    · rw [zero, Nat.log2_zero]
      omega
    · have bits : (mantissa * Nat.pow 2 shift).log2 < 53 + shift := by
        rw [Nat.log2_lt zero, Nat.pow_add]
        exact Nat.mul_lt_mul_of_pos_right small (Nat.two_pow_pos shift)
      omega
  obtain ⟨rest, split⟩ := Nat.exists_eq_add_of_le grid
  have onGrid : mantissa * Nat.pow 2 shift =
      (mantissa * Nat.pow 2 rest) * Nat.pow 2 (gridExponent (mantissa * Nat.pow 2 shift)) := by
    conv_lhs => rw [split]
    simp only [Nat.pow_eq, Nat.pow_add]
    ring
  simp only [nearestUnits, Nat.div_one, Nat.one_mul]
  generalize gridExponent (mantissa * Nat.pow 2 shift) = exponent at onGrid ⊢
  rw [onGrid, roundDiv_mul_self _ (Nat.pow 2 exponent) (Nat.two_pow_pos exponent)]

private theorem ofRatio_of_representable (negative : Bool) {units : Nat} (held : Representable units) :
    ofRatio negative units 1 = .finite negative units held := by
  simp only [ofRatio, nearestUnits_of_representable held, held.1, ↓reduceDIte]

/-- The double of an exact value, with the positive zero for zero. -/
def ofUnits (value : Int) (held : Representable value.natAbs) : Double :=
  .finite (decide (value < 0)) value.natAbs held

@[simp] private theorem units?_ofUnits (value : Int) (held : Representable value.natAbs) :
    (ofUnits value held).units? = some value := by
  simp only [ofUnits, units?, decide_eq_true_eq, Option.some.injEq]
  split <;> omega

/-- An exact sum whose left part is not the negative zero. -/
theorem ofUnits_add {x y : Int} (heldLeft : Representable x.natAbs)
    {right : Double} (known : right.units? = some y) (held : Representable (x + y).natAbs) :
    (ofUnits x heldLeft).add right = ofUnits (x + y) held := by
  obtain _ | _ | ⟨negative, units, heldRight⟩ := right
  · simp [units?] at known
  · simp [units?] at known
  simp only [units?, Option.some.injEq] at known
  have eq_of {sign : Bool} {size : Nat} (heldSize : Representable size)
      (signSame : sign = decide (x + y < 0)) (sizeSame : size = (x + y).natAbs) :
      (.finite sign size heldSize : Double) = ofUnits (x + y) held := by
    subst signSame sizeSame
    rfl
  simp only [ofUnits, add]
  split
  case isTrue same =>
    have size : x.natAbs + units = (x + y).natAbs := by
      cases negative <;> simp_all <;> omega
    rw [ofRatio_of_representable _ (size ▸ held)]
    refine eq_of _ ?_ size
    cases negative <;> simp_all <;> omega
  case isFalse different =>
    split
    case isTrue less =>
      have size : x.natAbs - units = (x + y).natAbs := by
        cases negative <;> simp_all <;> omega
      rw [ofRatio_of_representable _ (size ▸ held)]
      refine eq_of _ ?_ size
      cases negative <;> simp_all <;> omega
    case isFalse notLess =>
      split
      case isTrue less =>
        have size : units - x.natAbs = (x + y).natAbs := by
          cases negative <;> simp_all <;> omega
        rw [ofRatio_of_representable _ (size ▸ held)]
        refine eq_of _ ?_ size
        cases negative <;> simp_all <;> omega
      case isFalse notGreater =>
        refine eq_of _ ?_ ?_ <;> cases negative <;> simp_all <;> omega

/-! ## Whole numbers -/

private theorem ofInt_eq_ofUnits {value : Int} (small : value.natAbs ≤ Nat.pow 2 53) :
    ∃ held, ofInt value = ofUnits (value * unitsPerOne) held := by
  have size : (value * unitsPerOne).natAbs = value.natAbs * unitsPerOne := by
    rw [Int.natAbs_mul, Int.natAbs_natCast]
  have sign : decide (value < 0) = decide (value * unitsPerOne < 0) := by
    have positive : (0 : Int) < unitsPerOne := Int.natCast_pos.2 unitsPerOne_pos
    generalize (unitsPerOne : Int) = one at positive
    simp only [decide_eq_decide]
    refine ⟨fun less => Int.mul_neg_of_neg_of_pos less positive, fun less => ?_⟩
    exact Int.not_le.1 fun least =>
      Int.not_le.2 less (Int.mul_nonneg least (Int.le_of_lt positive))
  have held := representable_whole small
  refine ⟨by rw [size]; exact held, ?_⟩
  rw [ofInt, ofRatio_of_representable _ held]
  simp only [ofUnits, sign, size]

private theorem units?_of_whole? {value : Double} {whole : Int} (known : value.whole? = some whole) :
    value.units? = some (whole * unitsPerOne) := by
  unfold whole? at known
  cases units : value.units? with
  | none => simp only [units, Option.bind_none, reduceCtorEq] at known
  | some exact =>
    simp only [units, Option.bind_some] at known
    split at known
    case isTrue divides =>
      cases known
      rw [Int.ediv_mul_cancel (Int.dvd_of_emod_eq_zero divides)]
    case isFalse => cases known

/-- Whole numbers add up exactly while the sum of their sizes stays within 2^53. -/
theorem ofInt_add {left whole : Int} {right : Double} (known : right.whole? = some whole)
    (small : left.natAbs + whole.natAbs ≤ Nat.pow 2 53) :
    (ofInt left).add right = ofInt (left + whole) := by
  obtain ⟨heldLeft, leftSame⟩ := ofInt_eq_ofUnits (Nat.le_trans (Nat.le_add_right _ _) small)
  obtain ⟨heldSum, sumSame⟩ :=
    ofInt_eq_ofUnits (Nat.le_trans (Int.natAbs_add_le left whole) small)
  have distributed : left * unitsPerOne + whole * unitsPerOne = (left + whole) * unitsPerOne := by
    ring
  rw [leftSame, sumSame, ofUnits_add heldLeft (units?_of_whole? known) (distributed ▸ heldSum)]
  simp only [distributed]

theorem ofInt_zero : ofInt 0 = zero false := by
  simp only [ofInt, Int.natAbs_zero, Nat.zero_mul, ofRatio_of_representable _ representable_zero]
  rfl

/-! ## Zero -/

theorem isZero_iff {value : Double} : value.isZero = true ↔ value.units? = some 0 := by
  cases value with
  | nan => simp [isZero, equal, units?]
  | infinity => simp [isZero, equal, units?, zero]
  | finite negative units held => cases negative <;> simp [isZero, equal, units?, zero]

theorem isZero_zero (negative : Bool) : (zero negative).isZero = true := by
  rw [isZero_iff]
  cases negative <;> simp only [zero, units?, Bool.false_eq_true, ↓reduceIte, Int.natCast_zero, Int.neg_zero]

private theorem nearestUnits_pos {units : Nat} (positive : 0 < units) : 0 < nearestUnits units 1 := by
  simp only [nearestUnits, Nat.div_one, Nat.one_mul]
  have whole : 0 < units / Nat.pow 2 (gridExponent units) := by
    refine Nat.div_pos ?_ (Nat.two_pow_pos _)
    refine Nat.le_trans (Nat.pow_le_pow_right (by decide) ?_) (Nat.log2_self_le (by omega))
    unfold gridExponent
    omega
  refine Nat.mul_pos ?_ (Nat.two_pow_pos _)
  unfold roundDiv
  dsimp only
  split
  · exact whole
  · split <;> omega

private theorem ofRatio_ne_zero {negative sign : Bool} {units : Nat} (positive : 0 < units) :
    ofRatio negative units 1 ≠ zero sign := by
  have rounded := nearestUnits_pos positive
  unfold ofRatio zero
  split
  · intro same
    injection same with _ none
    omega
  · exact nofun

/-- Sums are the negative zero only if both parts are. -/
theorem add_ne_negative_zero {left : Double} (right : Double) (fine : left ≠ zero true) :
    left.add right ≠ zero true := by
  cases left with
  | nan => cases right <;> simp [add, zero]
  | infinity negative =>
    cases right with
    | infinity other => by_cases same : negative = other <;> simp [add, same, zero]
    | _ => simp [add, zero]
  | finite negative m heldLeft =>
    cases right with
    | finite other n heldRight =>
      simp only [add]
      split
      case isTrue same =>
        by_cases positive : 0 < m + n
        · exact ofRatio_ne_zero positive
        · obtain ⟨rfl, rfl⟩ : m = 0 ∧ n = 0 := by omega
          rw [ofRatio_of_representable _ representable_zero]
          intro negativeZero
          exact fine (by rw [← negativeZero])
      case isFalse =>
        split
        · exact ofRatio_ne_zero (by omega)
        · split
          · exact ofRatio_ne_zero (by omega)
          · exact nofun
    | _ => simp [add, zero]

/-- Adding zero changes nothing but the negative zero. -/
theorem add_of_isZero {left right : Double} (fine : left ≠ zero true) (nothing : right.isZero = true) :
    left.add right = left := by
  rw [isZero_iff] at nothing
  cases left with
  | nan => rfl
  | infinity negative =>
    cases right with
    | finite => rfl
    | _ => simp [units?] at nothing
  | finite negative units held =>
    have positive : negative = true → 0 < units := by
      intro sign
      subst sign
      refine Nat.pos_of_ne_zero fun none => fine ?_
      subst none
      rfl
    have same : (.finite negative units held : Double) =
        ofUnits (if negative then -units else units) (by cases negative <;> simpa using held) := by
      cases negative with
      | false => simp [ofUnits]
      | true => simpa [ofUnits] using positive rfl
    rw [same, ofUnits_add _ nothing (by simpa using by cases negative <;> simpa using held)]
    simp only [add_zero]

@[simp] theorem units?_zero (negative : Bool) : (zero negative).units? = some 0 := by
  rw [← isZero_iff]
  exact isZero_zero negative

@[simp] private theorem units?_neg (value : Double) :
    value.neg.units? = value.units?.map fun units => -units := by
  cases value with
  | nan => rfl
  | infinity => rfl
  | finite negative units held => cases negative <;> simp [neg, units?]

/-- Adding zero does not change a value, though it may change the sign of a zero. -/
theorem units?_add_of_isZero (left : Double) {right : Double} (nothing : right.isZero = true) :
    (left.add right).units? = left.units? := by
  by_cases fine : left = zero true
  · rw [isZero_iff] at nothing
    cases right with
    | nan => cases nothing
    | infinity => cases nothing
    | finite negative units held =>
      obtain rfl : units = 0 := by
        cases negative <;> simp [units?] at nothing <;> exact nothing
      rw [fine, units?_zero]
      simp only [zero, add, Nat.lt_irrefl, ↓reduceIte, Nat.add_zero]
      split
      · rw [ofRatio_of_representable _ representable_zero]
        exact units?_zero true
      · exact units?_zero false
  · rw [add_of_isZero fine nothing]

/-- What is taken from zero is the value itself with the other sign. -/
theorem units?_zero_sub (value : Double) :
    (sub (zero false) value).units? = value.units?.map fun units => -units := by
  cases known : value.units? with
  | none => cases value <;> simp only [units?, reduceCtorEq] at known <;> rfl
  | some units =>
    have negated : value.neg.units? = some (-units) := by rw [units?_neg, known, Option.map_some]
    have held : Representable (0 + -units).natAbs := by
      cases value with
      | nan => cases known
      | infinity => cases known
      | finite negative size heldSize =>
        have same : (0 + -units).natAbs = size := by
          simp only [units?, Option.some.injEq] at known
          split at known <;> omega
        rw [same]
        exact heldSize
    have heldZero : Representable (0 : Int).natAbs := representable_zero
    have start : zero false = ofUnits 0 heldZero := rfl
    rw [sub, start, ofUnits_add heldZero negated held, units?_ofUnits, Int.zero_add,
      Option.map_some]

/-- The difference of two values, if it is not rounded. -/
theorem units?_sub {left right : Double} (unrounded : SumsExactly left right.neg) :
    ∃ x y, left.units? = some x ∧ right.units? = some y ∧ (left.sub right).units? = some (x - y) := by
  obtain ⟨x, y, leftSame, rightSame, sum⟩ := unrounded
  rw [units?_neg, Option.map_eq_some_iff] at rightSame
  obtain ⟨z, known, rfl⟩ := rightSame
  exact ⟨x, z, leftSame, known, sum⟩

end Double

end SharedGraph
