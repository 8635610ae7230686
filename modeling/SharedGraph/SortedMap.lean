/-! Finite maps whose entries stand in ascending order of their keys' texts. The
order is what every listing of keys shows, and because equal keys cannot repeat,
two maps with the same look-ups are the same map (`SortedMap.ext`). -/
namespace SharedGraph

/-- A key is ordered by its text, and the text says which key it is. -/
class Keyed (κ : Type) where
  text : κ → String
  text_injective : ∀ a b : κ, text a = text b → a = b

instance : Keyed String := ⟨id, fun _ _ same => same⟩

variable {κ α β : Type} [Keyed κ]

/-- Entries with strictly ascending key texts. -/
def Ascending (entries : List (κ × α)) : Prop :=
  entries.Pairwise fun a b => Keyed.text a.1 < Keyed.text b.1

namespace Ascending

/-- The entry of a key, if the list has one. -/
def find (key : κ) : List (κ × α) → Option α
  | [] => none
  | entry :: rest => if Keyed.text key = Keyed.text entry.1 then some entry.2 else find key rest

/-- Writes a key at its place in the order. -/
def put (key : κ) (value : α) : List (κ × α) → List (κ × α)
  | [] => [(key, value)]
  | entry :: rest =>
    if Keyed.text key < Keyed.text entry.1 then (key, value) :: entry :: rest
    else if Keyed.text key = Keyed.text entry.1 then (key, value) :: rest
    else entry :: put key value rest

private theorem mem_put {key : κ} {value : α} {entries : List (κ × α)} {entry : κ × α}
    (member : entry ∈ put key value entries) : entry = (key, value) ∨ entry ∈ entries := by
  induction entries with
  | nil => simpa [put] using member
  | cons first rest ih =>
    unfold put at member
    split at member
    · simpa using member
    · split at member
      · rcases List.mem_cons.1 member with same | later
        · exact .inl same
        · exact .inr (List.mem_cons_of_mem _ later)
      · rcases List.mem_cons.1 member with same | later
        · exact .inr (same ▸ List.mem_cons_self)
        · exact (ih later).imp_right (List.mem_cons_of_mem _)

private theorem put_ascending (key : κ) (value : α) {entries : List (κ × α)}
    (ordered : Ascending entries) : Ascending (put key value entries) := by
  induction entries with
  | nil => simp [put, Ascending]
  | cons first rest ih =>
    obtain ⟨below, restOrdered⟩ := List.pairwise_cons.1 ordered
    unfold put
    split
    case isTrue before =>
      refine List.pairwise_cons.2 ⟨?_, ordered⟩
      intro entry member
      rcases List.mem_cons.1 member with rfl | later
      · exact before
      · exact String.lt_trans before (below entry later)
    case isFalse notBefore =>
      split
      case isTrue same =>
        exact List.pairwise_cons.2 ⟨fun entry member => same ▸ below entry member, restOrdered⟩
      case isFalse different =>
        refine List.pairwise_cons.2 ⟨?_, ih restOrdered⟩
        intro entry member
        rcases mem_put member with rfl | later
        · have ordering := Std.lt_trichotomy (Keyed.text key) (Keyed.text first.1)
          rcases ordering with less | equal | greater
          · exact absurd less notBefore
          · exact absurd equal different
          · exact greater
        · exact below entry later

private theorem filter_ascending (keep : κ × α → Bool) {entries : List (κ × α)}
    (ordered : Ascending entries) : Ascending (entries.filter keep) :=
  List.Pairwise.filter keep ordered

private theorem map_ascending (change : κ → α → β) {entries : List (κ × α)}
    (ordered : Ascending entries) :
    Ascending (entries.map fun entry => (entry.1, change entry.1 entry.2)) :=
  List.Pairwise.map _ (fun _ _ less => less) ordered

theorem find_eq_none_of_below {key : κ} {entries : List (κ × α)}
    (below : ∀ entry ∈ entries, Keyed.text key < Keyed.text entry.1) : find key entries = none := by
  induction entries with
  | nil => rfl
  | cons first rest ih =>
    have less := below first List.mem_cons_self
    have different : Keyed.text key ≠ Keyed.text first.1 := fun same =>
      String.lt_irrefl _ (same ▸ less)
    simp only [find, different, ↓reduceIte]
    exact ih fun entry member => below entry (List.mem_cons_of_mem _ member)

private theorem find_eq_some_iff {key : κ} {value : α} {entries : List (κ × α)}
    (ordered : Ascending entries) : find key entries = some value ↔ (key, value) ∈ entries := by
  induction entries with
  | nil => simp [find]
  | cons first rest ih =>
    obtain ⟨below, restOrdered⟩ := List.pairwise_cons.1 ordered
    unfold find
    split
    case isTrue same =>
      have sameKey := Keyed.text_injective _ _ same
      constructor
      · intro found
        cases found
        exact sameKey ▸ List.mem_cons_self
      · intro member
        rcases List.mem_cons.1 member with same | later
        · rw [← same]
        · exact absurd (sameKey ▸ below _ later) (String.lt_irrefl _)
    case isFalse different =>
      rw [ih restOrdered, List.mem_cons]
      constructor
      · exact .inr
      · rintro (same | later)
        · exact absurd (by rw [← same]) different
        · exact later

private theorem find_put (key other : κ) (value : α) (entries : List (κ × α)) :
    find other (put key value entries) =
      if Keyed.text other = Keyed.text key then some value else find other entries := by
  induction entries with
  | nil => simp [put, find]
  | cons first rest ih =>
    unfold put
    split
    · simp [find]
    · split
      case isTrue same =>
        simp only [find]
        split
        · rfl
        case isFalse different => rw [if_neg (same ▸ different)]
      case isFalse different =>
        simp only [find, ih]
        split
        case isTrue same => rw [if_neg fun equal => different (equal.symm.trans same)]
        · rfl

private theorem find_filter (keep : κ → α → Bool) (key : κ) {entries : List (κ × α)}
    (ordered : Ascending entries) :
    find key (entries.filter fun entry => keep entry.1 entry.2) = (find key entries).filter (keep key) := by
  apply Option.ext
  intro value
  have kept : Ascending (entries.filter fun entry => keep entry.1 entry.2) :=
    filter_ascending _ ordered
  rw [find_eq_some_iff kept, Option.filter_eq_some_iff, find_eq_some_iff ordered, List.mem_filter]

private theorem find_map (change : κ → α → β) (key : κ) (entries : List (κ × α)) :
    find key (entries.map fun entry => (entry.1, change entry.1 entry.2)) =
      (find key entries).map (change key) := by
  induction entries with
  | nil => rfl
  | cons first rest ih =>
    simp only [List.map_cons, find]
    split
    case isTrue same => rw [Keyed.text_injective _ _ same]; rfl
    · exact ih

/-- The order leaves no choice: the look-ups fix the list. -/
theorem eq_of_find {left right : List (κ × α)} (leftOrdered : Ascending left)
    (rightOrdered : Ascending right) (same : ∀ key, find key left = find key right) :
    left = right := by
  induction left generalizing right with
  | nil =>
    cases right with
    | nil => rfl
    | cons first rest => simpa [find] using same first.1
  | cons first rest ih =>
    cases right with
    | nil => simpa [find] using same first.1
    | cons second others =>
      obtain ⟨belowLeft, restOrdered⟩ := List.pairwise_cons.1 leftOrdered
      obtain ⟨belowRight, othersOrdered⟩ := List.pairwise_cons.1 rightOrdered
      have mem_iff : ∀ entry : κ × α, entry ∈ first :: rest ↔ entry ∈ second :: others := by
        intro entry
        rw [← find_eq_some_iff leftOrdered, ← find_eq_some_iff rightOrdered, same]
      have heads : first = second := by
        rcases List.mem_cons.1 ((mem_iff first).1 List.mem_cons_self) with equal | later
        · exact equal
        · rcases List.mem_cons.1 ((mem_iff second).2 List.mem_cons_self) with equal | earlier
          · exact equal.symm
          · exact absurd (belowRight _ later) (String.lt_asymm (belowLeft _ earlier))
      subst heads
      congr 1
      apply ih restOrdered othersOrdered
      intro key
      by_cases atHead : Keyed.text key = Keyed.text first.1
      · have sameKey := Keyed.text_injective _ _ atHead
        rw [sameKey, find_eq_none_of_below belowLeft, find_eq_none_of_below belowRight]
      · simpa [find, atHead] using same key

end Ascending

/-- A finite map in key order. -/
structure SortedMap (κ α : Type) [Keyed κ] where
  toList : List (κ × α)
  ascending : Ascending toList

namespace SortedMap

instance [DecidableEq κ] [DecidableEq α] : DecidableEq (SortedMap κ α) := fun a b =>
  if same : a.toList = b.toList then
    .isTrue (by cases a; cases b; cases same; rfl)
  else .isFalse fun equal => same (equal ▸ rfl)

def empty : SortedMap κ α := ⟨[], List.Pairwise.nil⟩

instance : EmptyCollection (SortedMap κ α) := ⟨empty⟩

instance : Inhabited (SortedMap κ α) := ⟨empty⟩

def get? (map : SortedMap κ α) (key : κ) : Option α := Ascending.find key map.toList

def contains (map : SortedMap κ α) (key : κ) : Bool := (map.get? key).isSome

/-- A later write to a key replaces the earlier one. -/
def insert (map : SortedMap κ α) (key : κ) (value : α) : SortedMap κ α :=
  ⟨Ascending.put key value map.toList, Ascending.put_ascending key value map.ascending⟩

def filter (keep : κ → α → Bool) (map : SortedMap κ α) : SortedMap κ α :=
  ⟨map.toList.filter fun entry => keep entry.1 entry.2, Ascending.filter_ascending _ map.ascending⟩

def erase (map : SortedMap κ α) (key : κ) : SortedMap κ α :=
  map.filter fun other _ => decide (Keyed.text other ≠ Keyed.text key)

def map (change : κ → α → β) (entries : SortedMap κ α) : SortedMap κ β :=
  ⟨entries.toList.map fun entry => (entry.1, change entry.1 entry.2),
    Ascending.map_ascending change entries.ascending⟩

/-- Of several pairs with one key the last counts. -/
def ofList (entries : List (κ × α)) : SortedMap κ α :=
  entries.foldl (fun map entry => map.insert entry.1 entry.2) empty

def keys (map : SortedMap κ α) : List κ := map.toList.map Prod.fst

def values (map : SortedMap κ α) : List α := map.toList.map Prod.snd

def size (map : SortedMap κ α) : Nat := map.toList.length

def isEmpty (map : SortedMap κ α) : Bool := map.toList.isEmpty

@[ext] theorem ext {left right : SortedMap κ α} (same : ∀ key, left.get? key = right.get? key) :
    left = right := by
  obtain ⟨leftEntries, leftOrdered⟩ := left
  obtain ⟨rightEntries, rightOrdered⟩ := right
  have : leftEntries = rightEntries := Ascending.eq_of_find leftOrdered rightOrdered same
  subst this
  rfl

@[simp] theorem get?_empty (key : κ) : (empty : SortedMap κ α).get? key = none := rfl

theorem get?_eq_some_iff {map : SortedMap κ α} {key : κ} {value : α} :
    map.get? key = some value ↔ (key, value) ∈ map.toList :=
  Ascending.find_eq_some_iff map.ascending

theorem get?_insert (map : SortedMap κ α) (key other : κ) (value : α) :
    (map.insert key value).get? other =
      if Keyed.text other = Keyed.text key then some value else map.get? other :=
  Ascending.find_put key other value map.toList

@[simp] theorem get?_insert_self (map : SortedMap κ α) (key : κ) (value : α) :
    (map.insert key value).get? key = some value := by simp [get?_insert]

theorem get?_insert_of_ne (map : SortedMap κ α) {key other : κ} (value : α)
    (different : other ≠ key) : (map.insert key value).get? other = map.get? other := by
  rw [get?_insert, if_neg fun same => different (Keyed.text_injective _ _ same)]

@[simp] theorem get?_filter (keep : κ → α → Bool) (map : SortedMap κ α) (key : κ) :
    (map.filter keep).get? key = (map.get? key).filter (keep key) :=
  Ascending.find_filter keep key map.ascending

@[simp] theorem get?_map (change : κ → α → β) (entries : SortedMap κ α) (key : κ) :
    (entries.map change).get? key = (entries.get? key).map (change key) :=
  Ascending.find_map change key entries.toList

theorem get?_erase (map : SortedMap κ α) (key other : κ) :
    (map.erase key).get? other =
      if Keyed.text other = Keyed.text key then none else map.get? other := by
  rw [erase, get?_filter]
  split
  · cases map.get? other <;> simp_all [Option.filter]
  · cases map.get? other <;> simp_all [Option.filter]

theorem contains_eq_true_iff {map : SortedMap κ α} {key : κ} :
    map.contains key = true ↔ key ∈ map.keys := by
  rw [contains, Option.isSome_iff_exists]
  simp only [get?_eq_some_iff, keys, List.mem_map, Prod.exists, exists_and_right, exists_eq_right]

end SortedMap

end SharedGraph
