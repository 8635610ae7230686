import SharedGraph.Number.Double
import SharedGraph.SortedMap

/-! Arbitrary JSON values, as far as the graph stores them without looking inside. -/
namespace SharedGraph

/-- Numbers keep the kind they were written with: `1` and `1.0` are different values. -/
inductive JsonNumber where
  | integer (value : Int)
  | double (value : Double)
  deriving DecidableEq

/-- Numbers of one kind are compared as numbers. -/
def JsonNumber.agrees : JsonNumber → JsonNumber → Bool
  | .integer a, .integer b => a == b
  | .double a, .double b => a.equal b
  | _, _ => false

/-- The fields of an object stand in the order of their names, each name once;
`Json.ofFields` sees to that. -/
inductive Json where
  | null
  | boolean (value : Bool)
  | number (value : JsonNumber)
  | text (value : String)
  | array (items : List Json)
  | object (fields : List (String × Json))

namespace Json

/-- An object from fields as they were written; of a repeated name the last counts. -/
def ofFields (fields : List (String × Json)) : Json := .object (SortedMap.ofList fields).toList

def isContainer : Json → Bool
  | .array _ | .object _ => true
  | _ => false

mutual

/-- Whether two values are equal where numbers are compared as numbers. -/
def agrees : Json → Json → Bool
  | .null, .null => true
  | .boolean a, .boolean b => a == b
  | .number a, .number b => a.agrees b
  | .text a, .text b => a == b
  | .array a, .array b => agreeItems a b
  | .object a, .object b => agreeFields a b
  | _, _ => false
  termination_by structural value => value

def agreeItems : List Json → List Json → Bool
  | [], [] => true
  | a :: rest, b :: others => agrees a b && agreeItems rest others
  | _, _ => false

def agreeField : String × Json → String × Json → Bool
  | (name, a), (other, b) => name == other && agrees a b

def agreeFields : List (String × Json) → List (String × Json) → Bool
  | [], [] => true
  | a :: rest, b :: others => agreeField a b && agreeFields rest others
  | _, _ => false

end

mutual

def decideEq : (a b : Json) → Decidable (a = b)
  | .null, .null => .isTrue rfl
  | .boolean a, .boolean b =>
    if same : a = b then .isTrue (by rw [same]) else .isFalse (by simpa using same)
  | .number a, .number b =>
    if same : a = b then .isTrue (by rw [same]) else .isFalse (by simpa using same)
  | .text a, .text b =>
    if same : a = b then .isTrue (by rw [same]) else .isFalse (by simpa using same)
  | .array a, .array b =>
    match decideItems a b with
    | .isTrue same => .isTrue (by rw [same])
    | .isFalse different => .isFalse (by simpa using different)
  | .object a, .object b =>
    match decideFields a b with
    | .isTrue same => .isTrue (by rw [same])
    | .isFalse different => .isFalse (by simpa using different)
  | .null, .boolean _ | .null, .number _ | .null, .text _ | .null, .array _ | .null, .object _
  | .boolean _, .null | .boolean _, .number _ | .boolean _, .text _ | .boolean _, .array _
  | .boolean _, .object _ | .number _, .null | .number _, .boolean _ | .number _, .text _
  | .number _, .array _ | .number _, .object _ | .text _, .null | .text _, .boolean _
  | .text _, .number _ | .text _, .array _ | .text _, .object _ | .array _, .null
  | .array _, .boolean _ | .array _, .number _ | .array _, .text _ | .array _, .object _
  | .object _, .null | .object _, .boolean _ | .object _, .number _ | .object _, .text _
  | .object _, .array _ => .isFalse (by simp)
  termination_by structural value => value

def decideItems : (a b : List Json) → Decidable (a = b)
  | [], [] => .isTrue rfl
  | a :: rest, b :: others =>
    match decideEq a b, decideItems rest others with
    | .isTrue head, .isTrue tail => .isTrue (by rw [head, tail])
    | .isFalse head, _ => .isFalse (by simp [head])
    | _, .isFalse tail => .isFalse (by simp [tail])
  | [], _ :: _ | _ :: _, [] => .isFalse (by simp)

def decideField : (a b : String × Json) → Decidable (a = b)
  | (name, a), (other, b) =>
    match (inferInstance : Decidable (name = other)), decideEq a b with
    | .isTrue names, .isTrue values => .isTrue (by rw [names, values])
    | .isFalse names, _ => .isFalse (by simp [names])
    | _, .isFalse values => .isFalse (by simp [values])

def decideFields : (a b : List (String × Json)) → Decidable (a = b)
  | [], [] => .isTrue rfl
  | a :: rest, b :: others =>
    match decideField a b, decideFields rest others with
    | .isTrue head, .isTrue tail => .isTrue (by rw [head, tail])
    | .isFalse head, _ => .isFalse (by simp [head])
    | _, .isFalse tail => .isFalse (by simp [tail])
  | [], _ :: _ | _ :: _, [] => .isFalse (by simp)

end

instance : DecidableEq Json := decideEq

instance : Inhabited Json := ⟨.null⟩

end Json

end SharedGraph
