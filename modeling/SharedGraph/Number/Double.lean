/-! Double precision numbers. A finite double is a sign and a whole number of
units, one unit being the smallest positive double, 2^-1074; so two doubles are
equal as terms exactly when they have the same bits, all arithmetic is exact
arithmetic on naturals followed by one rounding, and every step can be evaluated
inside a proof. -/
namespace SharedGraph

/-- The number one is this power of two of units. -/
def unitBits : Nat := 1074

/-- Units in the number one. -/
def unitsPerOne : Nat := Nat.pow 2 unitBits

/-- The first power of two that no double reaches is 2^1024. -/
def limitBits : Nat := unitBits + 1024

/-- The first number of units that is too large for a double. -/
def unitsLimit : Nat := Nat.pow 2 limitBits

theorem unitsLimit_pos : 0 < unitsLimit := by
  unfold unitsLimit
  generalize limitBits = bits
  exact Nat.two_pow_pos bits

/-- The unit counts that a double can hold have at most 53 significant bits. -/
def Representable (units : Nat) : Prop :=
  units < unitsLimit ∧ ∃ mantissa shift, mantissa < Nat.pow 2 53 ∧ units = mantissa * Nat.pow 2 shift

/-- Zero keeps its sign, and all undefined results are one value. -/
inductive Double where
  | nan
  | infinity (negative : Bool)
  | finite (negative : Bool) (units : Nat) (held : Representable units)
  deriving DecidableEq

/-- The nearest natural number to a quotient; a half goes to the even neighbour. -/
def roundDiv (numerator denominator : Nat) : Nat :=
  let quotient := numerator / denominator
  let twice := 2 * (numerator % denominator)
  if twice < denominator then quotient
  else if denominator < twice then quotient + 1
  else quotient + quotient % 2

private theorem roundDiv_le (numerator denominator : Nat) :
    roundDiv numerator denominator ≤ numerator / denominator + 1 := by
  simp only [roundDiv]
  split
  · omega
  · split <;> omega

theorem roundDiv_mul_self (quotient denominator : Nat) (positive : 0 < denominator) :
    roundDiv (quotient * denominator) denominator = quotient := by
  simp [roundDiv, Nat.mul_div_cancel _ positive, positive]

theorem representable_of_le {mantissa shift : Nat} (small : mantissa ≤ Nat.pow 2 53)
    (below : mantissa * Nat.pow 2 shift < unitsLimit) :
    Representable (mantissa * Nat.pow 2 shift) := by
  refine ⟨below, ?_⟩
  by_cases full : mantissa = Nat.pow 2 53
  · exact ⟨Nat.pow 2 52, shift + 1, by decide, by subst full; simp only [Nat.pow_eq, Nat.pow_succ]; omega⟩
  · exact ⟨mantissa, shift, by omega, rfl⟩

namespace Double

/-- The exponent of the grid on which doubles of this size lie. -/
def gridExponent (units : Nat) : Nat := units.log2 - 52

/-- The units of the double nearest to a quotient of units, were there no largest double. -/
def nearestUnits (numerator denominator : Nat) : Nat :=
  let exponent := gridExponent (numerator / denominator)
  roundDiv numerator (denominator * Nat.pow 2 exponent) * Nat.pow 2 exponent

private theorem nearestUnits_representable {numerator denominator : Nat}
    (below : nearestUnits numerator denominator < unitsLimit) :
    Representable (nearestUnits numerator denominator) := by
  refine representable_of_le (Nat.le_trans (roundDiv_le _ _) ?_) below
  rw [← Nat.div_div_eq_div_mul]
  generalize numerator / denominator = whole
  have bits : whole < Nat.pow 2 (53 + gridExponent whole) :=
    Nat.lt_of_lt_of_le Nat.lt_log2_self
      (Nat.pow_le_pow_right (by decide) (by unfold gridExponent; omega))
  rw [Nat.pow_eq, Nat.pow_add] at bits
  exact Nat.div_lt_of_lt_mul (by rwa [Nat.mul_comm] at bits)

/-- The double nearest to a quotient of units; what is too large is infinite. -/
def ofRatio (negative : Bool) (numerator denominator : Nat) : Double :=
  if below : nearestUnits numerator denominator < unitsLimit then
    .finite negative (nearestUnits numerator denominator) (nearestUnits_representable below)
  else .infinity negative

def zero (negative : Bool) : Double :=
  .finite negative 0 ⟨unitsLimit_pos, 0, 0, by decide, by decide⟩

instance : Inhabited Double := ⟨zero false⟩

/-- The nearest double to an integer. -/
def ofInt (value : Int) : Double := ofRatio (decide (value < 0)) (value.natAbs * unitsPerOne) 1

def isFinite : Double → Bool
  | .finite .. => true
  | _ => false

def isNegative : Double → Bool
  | .nan => false
  | .infinity negative => negative
  | .finite negative _ _ => negative

def neg : Double → Double
  | .nan => .nan
  | .infinity negative => .infinity !negative
  | .finite negative units held => .finite (!negative) units held

/-- The exact sum, rounded once. A sum that cancels is the positive zero. -/
def add : Double → Double → Double
  | .nan, _ => .nan
  | _, .nan => .nan
  | .infinity left, .infinity right => if left = right then .infinity left else .nan
  | .infinity left, .finite .. => .infinity left
  | .finite .., .infinity right => .infinity right
  | .finite left m _, .finite right n _ =>
    if left = right then ofRatio left (m + n) 1
    else if n < m then ofRatio left (m - n) 1
    else if m < n then ofRatio right (n - m) 1
    else zero false

def sub (left right : Double) : Double := add left (neg right)

/-- The exact product, rounded once. -/
def mul : Double → Double → Double
  | .nan, _ => .nan
  | _, .nan => .nan
  | .infinity left, .infinity right => .infinity (left != right)
  | .infinity left, .finite right n _ => if n = 0 then .nan else .infinity (left != right)
  | .finite left m _, .infinity right => if m = 0 then .nan else .infinity (left != right)
  | .finite left m _, .finite right n _ => ofRatio (left != right) (m * n) unitsPerOne

/-- The exact quotient, rounded once. -/
def div : Double → Double → Double
  | .nan, _ => .nan
  | _, .nan => .nan
  | .infinity _, .infinity _ => .nan
  | .infinity left, .finite right _ _ => .infinity (left != right)
  | .finite left _ _, .infinity right => zero (left != right)
  | .finite left m _, .finite right n _ =>
    if n = 0 then if m = 0 then .nan else .infinity (left != right)
    else ofRatio (left != right) (m * unitsPerOne) n

/-- The quotient of two integers as one rounding of the exact value. -/
def ofQuotient (numerator : Int) (denominator : Nat) : Double :=
  ofRatio (decide (numerator < 0)) (numerator.natAbs * unitsPerOne) denominator

/-- Equality of the numbers meant: an undefined value equals nothing, and the two
zeros are one number. -/
def equal : Double → Double → Bool
  | .infinity left, .infinity right => left == right
  | .finite left m _, .finite right n _ => m == n && (left == right || m == 0)
  | _, _ => false

def isZero (value : Double) : Bool := value.equal (zero false)

end Double

end SharedGraph
