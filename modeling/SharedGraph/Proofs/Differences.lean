import Mathlib.Data.Finset.Basic
import SharedGraph.Proofs.LiveUpdates

/-! Differences between the contents of two maps. They are found key by key, first along the keys
of one map and then along the others of the other one, and together they say exactly how what a
reader sees of the first map becomes what a reader sees of the second. -/
namespace SharedGraph

/-! ## The values that are meant

Two values agree if the same is meant by them. For all values but undefined numbers this makes
agreement an equality, namely of the values without the sign of a zero. -/

/-- The two zeros are one number. -/
def Double.meant : Double → Double
  | .nan => .nan
  | .infinity negative => .infinity negative
  | .finite negative units held => .finite (negative && units != 0) units held

private theorem Double.meant_of_equal {a b : Double} (same : a.equal b = true) : a.meant = b.meant := by
  cases a <;> cases b <;>
    simp only [equal, Bool.false_eq_true, Bool.and_eq_true, Bool.or_eq_true, beq_iff_eq] at same
  case infinity => rw [same]
  case finite left units held right unitsToo heldToo =>
    obtain ⟨rfl, signs⟩ := same
    rcases signs with rfl | rfl
    · rfl
    · simp only [meant, bne_self_eq_false, Bool.and_false]

private theorem Double.equal_of_meant {a b : Double} (defined : a ≠ .nan) (same : a.meant = b.meant) :
    a.equal b = true := by
  cases a with
  | nan => exact absurd rfl defined
  | infinity negative =>
    cases b with
    | infinity other =>
      cases same
      exact beq_self_eq_true negative
    | nan | finite => cases same
  | finite negative units held =>
    cases b with
    | nan | infinity => cases same
    | finite other unitsToo heldToo =>
      obtain ⟨signs, rfl⟩ := Double.finite.inj same
      simp only [equal, beq_self_eq_true, Bool.true_and, Bool.or_eq_true, beq_iff_eq]
      by_cases zero : units = 0
      · exact .inr zero
      · simp only [bne_iff_ne.2 zero, Bool.and_true] at signs
        exact .inl signs

def JsonNumber.meant : JsonNumber → JsonNumber
  | .integer value => .integer value
  | .double value => .double value.meant

private theorem JsonNumber.meant_of_agrees {a b : JsonNumber} (same : a.agrees b = true) :
    a.meant = b.meant := by
  cases a <;> cases b <;> simp only [agrees, Bool.false_eq_true, beq_iff_eq] at same
  case integer => rw [same]
  case double => exact congrArg double (Double.meant_of_equal same)

private theorem JsonNumber.agrees_of_meant {a b : JsonNumber} (finite : a.isFinite = true)
    (same : a.meant = b.meant) : a.agrees b = true := by
  cases a with
  | integer value =>
    cases b with
    | integer other =>
      cases same
      exact beq_self_eq_true value
    | double => cases same
  | double value =>
    cases b with
    | integer => cases same
    | double other =>
      refine Double.equal_of_meant ?_ (JsonNumber.double.inj same)
      rintro rfl
      cases finite

namespace Json

mutual

def meant : Json → Json
  | .null => .null
  | .boolean value => .boolean value
  | .number value => .number value.meant
  | .text value => .text value
  | .array items => .array (itemsMeant items)
  | .object fields => .object (fieldsMeant fields)
  termination_by structural value => value

def itemsMeant : List Json → List Json
  | [] => []
  | item :: rest => item.meant :: itemsMeant rest

def fieldMeant : String × Json → String × Json
  | (name, value) => (name, value.meant)

def fieldsMeant : List (String × Json) → List (String × Json)
  | [] => []
  | field :: rest => fieldMeant field :: fieldsMeant rest

end

mutual

private theorem meant_of_agrees (a b : Json) (same : a.agrees b = true) : a.meant = b.meant := by
  cases a <;> cases b <;> simp only [agrees, Bool.false_eq_true, beq_iff_eq] at same
  case null => rfl
  case boolean => rw [same]
  case number => exact congrArg number (JsonNumber.meant_of_agrees same)
  case text => rw [same]
  case array => exact congrArg array (itemsMeant_of_agrees _ _ same)
  case object => exact congrArg object (fieldsMeant_of_agrees _ _ same)
  termination_by structural a

private theorem itemsMeant_of_agrees (a b : List Json) (same : agreeItems a b = true) :
    itemsMeant a = itemsMeant b := by
  cases a <;> cases b <;> simp only [agreeItems, Bool.false_eq_true, Bool.and_eq_true] at same
  case nil => rfl
  case cons => rw [itemsMeant, itemsMeant, meant_of_agrees _ _ same.1, itemsMeant_of_agrees _ _ same.2]
  termination_by structural a

private theorem fieldMeant_of_agrees (a b : String × Json) (same : agreeField a b = true) :
    fieldMeant a = fieldMeant b := by
  obtain ⟨name, value⟩ := a
  obtain ⟨other, valueToo⟩ := b
  simp only [agreeField, Bool.and_eq_true, beq_iff_eq] at same
  rw [fieldMeant, fieldMeant, same.1, meant_of_agrees value valueToo same.2]
  termination_by structural a

private theorem fieldsMeant_of_agrees (a b : List (String × Json)) (same : agreeFields a b = true) :
    fieldsMeant a = fieldsMeant b := by
  cases a <;> cases b <;> simp only [agreeFields, Bool.false_eq_true, Bool.and_eq_true] at same
  case nil => rfl
  case cons =>
    rw [fieldsMeant, fieldsMeant, fieldMeant_of_agrees _ _ same.1, fieldsMeant_of_agrees _ _ same.2]
  termination_by structural a

end

mutual

private theorem agrees_of_meant (a b : Json) (finite : a.isFinite = true) (same : a.meant = b.meant) :
    a.agrees b = true := by
  cases a <;> cases b <;> simp only [meant, reduceCtorEq, boolean.injEq, number.injEq, text.injEq,
    array.injEq, object.injEq] at same
  case null => rfl
  case boolean => exact beq_iff_eq.2 same
  case number => exact JsonNumber.agrees_of_meant finite same
  case text => exact beq_iff_eq.2 same
  case array => exact agreeItems_of_meant _ _ finite same
  case object => exact agreeFields_of_meant _ _ finite same
  termination_by structural a

private theorem agreeItems_of_meant (a b : List Json) (finite : itemsFinite a = true)
    (same : itemsMeant a = itemsMeant b) : agreeItems a b = true := by
  cases a <;> cases b <;> simp only [itemsMeant, reduceCtorEq, List.cons.injEq] at same
  case nil => rfl
  case cons =>
    simp only [itemsFinite, Bool.and_eq_true] at finite
    simp only [agreeItems, Bool.and_eq_true]
    exact ⟨agrees_of_meant _ _ finite.1 same.1, agreeItems_of_meant _ _ finite.2 same.2⟩
  termination_by structural a

private theorem agreeField_of_meant (a b : String × Json) (finite : fieldFinite a = true)
    (same : fieldMeant a = fieldMeant b) : agreeField a b = true := by
  obtain ⟨name, value⟩ := a
  obtain ⟨other, valueToo⟩ := b
  simp only [fieldMeant, Prod.mk.injEq] at same
  simp only [agreeField, Bool.and_eq_true, beq_iff_eq]
  exact ⟨same.1, agrees_of_meant value valueToo finite same.2⟩
  termination_by structural a

private theorem agreeFields_of_meant (a b : List (String × Json)) (finite : fieldsFinite a = true)
    (same : fieldsMeant a = fieldsMeant b) : agreeFields a b = true := by
  cases a <;> cases b <;> simp only [fieldsMeant, reduceCtorEq, List.cons.injEq] at same
  case nil => rfl
  case cons =>
    simp only [fieldsFinite, Bool.and_eq_true] at finite
    simp only [agreeFields, Bool.and_eq_true]
    exact ⟨agreeField_of_meant _ _ finite.1 same.1, agreeFields_of_meant _ _ finite.2 same.2⟩
  termination_by structural a

end

end Json

def Data.meant : Data → Data
  | .number value => .number value.meant
  | .json value => .json value.meant
  | .reference id => .reference id
  | .text value => .text value
  | .boolean value => .boolean value
  | .bytes value => .bytes value

/-- Values agree exactly if the same is meant, unless they are undefined. -/
theorem Data.agrees_iff_meant {a b : Data} (definite : a.isDefinite = true) :
    a.agrees b = true ↔ a.meant = b.meant := by
  cases a <;> cases b <;> simp only [agrees, meant, Bool.false_eq_true, reduceCtorEq, beq_iff_eq,
    reference.injEq, text.injEq, boolean.injEq, bytes.injEq, number.injEq, json.injEq]
  case number => exact ⟨Double.meant_of_equal, Double.equal_of_meant (bne_iff_ne.1 definite)⟩
  case json => exact ⟨Json.meant_of_agrees _ _, Json.agrees_of_meant _ _ definite⟩

/-! ## What a reader sees -/

/-- A key changed exactly if something else is meant, and then the value after tells how. -/
theorem KeyChange.between_eq {before after : Option Data}
    (definite : ∀ data ∈ before, data.isDefinite = true) :
    KeyChange.between before after =
      if before.map Data.meant = after.map Data.meant then none
      else if after.isSome then some .updated else some .removed := by
  cases before with
  | none => cases after <;> rfl
  | some old =>
    cases after with
    | none => rfl
    | some new =>
      simp only [between, Data.agrees_iff_meant (definite old rfl), Option.map_some, Option.some.injEq,
        Option.isSome_some, ↓reduceIte]

namespace Entries

private theorem definite_iff {entries : Entries} :
    entries.Definite ↔ ∀ data ∈ entries.values.filterMap Entry.value?, data.isDefinite = true := by
  simp only [Definite, List.mem_filterMap, SortedMap.mem_values_iff]
  exact ⟨fun definite data ⟨entry, ⟨key, present⟩, value⟩ => definite key entry data present value,
    fun all key entry data present value => all data ⟨entry, ⟨key, present⟩, value⟩⟩

/-- What a map shows under a key, with one zero. -/
def shown? (entries : Entries) (key : String) : Option Data :=
  ((entries.get? key).bind Entry.value?).map Data.meant

/-- The keys under which a map shows something. -/
def shownKeys (entries : Entries) : Finset String :=
  (entries.keys.filter fun key => (entries.shown? key).isSome).toFinset

private theorem mem_shownKeys {entries : Entries} {key : String} :
    key ∈ entries.shownKeys ↔ (entries.shown? key).isSome = true := by
  rw [shownKeys, List.mem_toFinset, List.mem_filter, and_iff_right_iff_imp]
  intro shown
  obtain ⟨data, shows⟩ := Option.isSome_iff_exists.1 shown
  obtain ⟨value, valueSame, -⟩ := Option.map_eq_some_iff.1 shows
  obtain ⟨entry, present, -⟩ := Option.bind_eq_some_iff.1 valueSame
  exact SortedMap.mem_keys_iff.2 ⟨entry, present⟩

/-- What the differences say of a key, in terms of what the two maps show. -/
theorem Definite.get?_diffEntries {before : Entries} (definite : before.Definite) (after : Entries)
    (key : String) :
    (diffEntries before after).get? key =
      if before.shown? key = after.shown? key then none
      else if (after.shown? key).isSome then some .updated else some .removed := by
  have shows : ∀ data ∈ (before.get? key).bind Entry.value?, data.isDefinite = true := by
    intro data shown
    obtain ⟨entry, present, value⟩ := Option.bind_eq_some_iff.1 shown
    exact definite key entry data present value
  rw [Entries.get?_diffEntries, KeyChange.ofEntries, KeyChange.between_eq shows]
  simp only [shown?, Option.isSome_map]

end Entries

namespace KeyChanges

/-- Carries changes out, one after the other, on keys alone. -/
def replay (changes : KeyChanges) (keys : Finset String) : Finset String :=
  changes.toList.foldl (fun keys (key, change) =>
    match change with
    | .updated => insert key keys
    | .removed => keys.erase key) keys

/-- Since each key is changed once, the order of the changes does not matter. -/
theorem mem_replay {changes : KeyChanges} {keys : Finset String} {key : String} :
    key ∈ changes.replay keys ↔
      changes.get? key = some .updated ∨ key ∈ keys ∧ changes.get? key ≠ some .removed := by
  obtain ⟨entries, ordered⟩ := changes
  change key ∈ entries.foldl _ keys ↔ Ascending.find key entries = some .updated ∨
    key ∈ keys ∧ Ascending.find key entries ≠ some .removed
  induction entries generalizing keys with
  | nil => simp [Ascending.find]
  | cons entry rest ih =>
    obtain ⟨below, restOrdered⟩ := List.pairwise_cons.1 ordered
    obtain ⟨changed, change⟩ := entry
    rw [List.foldl_cons, ih restOrdered, Ascending.find]
    simp only [Keyed.text_eq_iff]
    by_cases same : key = changed
    · subst same
      rw [Ascending.find_eq_none_of_below below]
      cases change <;> simp
    · cases change <;> simp [same]

end KeyChanges

open Entries in
/-- The changes between two maps hold for each key what a comparison of its entries gives: that the
key was updated if the second map shows something under it that the first one does not show, and
that it was removed if only the first one shows something. There are none exactly if both maps show
the same, and the keys that the second map shows are those of the first after the changes. -/
theorem differences_exact (before after : Entries) (definite : before.Definite) :
    let changes := diffEntries before after
    (∀ key, changes.get? key = KeyChange.ofEntries (before.get? key) (after.get? key)) ∧
      (∀ key, changes.get? key = some .updated ↔
        (after.shown? key).isSome = true ∧ before.shown? key ≠ after.shown? key) ∧
      (∀ key, changes.get? key = some .removed ↔
        (before.shown? key).isSome = true ∧ after.shown? key = none) ∧
      (changes.isEmpty = true ↔ before.shown? = after.shown?) ∧
      changes.replay before.shownKeys = after.shownKeys := by
  intro changes
  have change (key : String) : changes.get? key = _ := definite.get?_diffEntries after key
  refine ⟨get?_diffEntries before after, ?_, ?_, ?_, ?_⟩
  · intro key
    rw [change]
    cases before.shown? key <;> cases after.shown? key <;> simp
  · intro key
    rw [change]
    cases before.shown? key <;> cases after.shown? key <;> simp
  · rw [SortedMap.isEmpty_iff, funext_iff]
    refine forall_congr' fun key => ?_
    rw [change]
    split
    case isTrue same => exact iff_of_true rfl same
    case isFalse other => exact iff_of_false (by split <;> nofun) other
  · ext key
    rw [KeyChanges.mem_replay, mem_shownKeys, mem_shownKeys, change]
    cases before.shown? key <;> cases after.shown? key <;> simp

private def monday : Entries := .ofList [
  ("blank", ⟨false, some ⟨"01"⟩, none, none⟩), ("changed", .live (.text "a") (some ⟨"01"⟩)),
  ("dropped", .live (.boolean true) (some ⟨"01"⟩)), ("gone", .removed (some ⟨"01"⟩) 5),
  ("removed", .live (.bytes [1]) (some ⟨"01"⟩)), ("zero", .live (.number (.zero true)) (some ⟨"01"⟩))]

private def tuesday : Entries := .ofList [
  ("added", .live (.reference .root) (some ⟨"02"⟩)), ("blank", ⟨true, some ⟨"01"⟩, some (.text "x"), none⟩),
  ("changed", .live (.text "b") (some ⟨"02"⟩)), ("gone", .removed (some ⟨"03"⟩) 6),
  ("removed", .removed (some ⟨"02"⟩) 6), ("zero", .live (.number (.zero false)) (some ⟨"09"⟩))]

/-- Entries without data, removals that repeat, and a zero that changes its sign are no changes. -/
theorem differences_exact_weekdays :
    monday.Definite ∧
      (diffEntries monday tuesday).toList =
        [("added", .updated), ("changed", .updated), ("dropped", .removed), ("removed", .removed)] ∧
      monday.shownKeys = {"changed", "dropped", "removed", "zero"} ∧
      KeyChanges.replay (diffEntries monday tuesday) monday.shownKeys = tuesday.shownKeys ∧
      tuesday.shownKeys = {"added", "changed", "zero"} := by
  have definite : monday.Definite := Entries.definite_iff.2 (by decide +kernel)
  have exact := differences_exact monday tuesday definite
  exact ⟨definite, by decide +kernel, by decide +kernel, exact.2.2.2.2, by decide +kernel⟩

end SharedGraph
