import SharedGraph.Update

/-! Look-ups in finite maps, in the form in which the proofs about the graph use them:
with equality of keys in place of equality of their texts, through lists that maps are
built from, and through lists that are read off a map key by key. -/
namespace SharedGraph

theorem Keyed.text_eq_iff {κ : Type} [Keyed κ] {a b : κ} : Keyed.text a = Keyed.text b ↔ a = b :=
  ⟨Keyed.text_injective a b, fun same => same ▸ rfl⟩

namespace SortedMap
variable {κ α β : Type} [Keyed κ]

theorem get?_insert_ite [DecidableEq κ] (map : SortedMap κ α) (key other : κ) (value : α) :
    (map.insert key value).get? other = if other = key then some value else map.get? other := by
  simp only [get?_insert, Keyed.text_eq_iff]

theorem get?_erase_ite [DecidableEq κ] (map : SortedMap κ α) (key other : κ) :
    (map.erase key).get? other = if other = key then none else map.get? other := by
  simp only [get?_erase, Keyed.text_eq_iff]

theorem contains_eq_isSome (map : SortedMap κ α) (key : κ) :
    map.contains key = (map.get? key).isSome := rfl

theorem mem_values_iff {map : SortedMap κ α} {value : α} :
    value ∈ map.values ↔ ∃ key, map.get? key = some value := by
  simp only [values, List.mem_map, Prod.exists, exists_eq_right, get?_eq_some_iff]

theorem mem_keys_iff {map : SortedMap κ α} {key : κ} :
    key ∈ map.keys ↔ ∃ value, map.get? key = some value := by
  rw [← contains_eq_true_iff, contains_eq_isSome, Option.isSome_iff_exists]

theorem isEmpty_iff {map : SortedMap κ α} : map.isEmpty = true ↔ ∀ key, map.get? key = none := by
  constructor
  · intro none key
    rw [isEmpty, List.isEmpty_iff] at none
    cases found : map.get? key with
    | none => rfl
    | some value => simp [get?_eq_some_iff, none] at found
  · intro none
    rw [isEmpty, List.isEmpty_iff, List.eq_nil_iff_forall_not_mem]
    rintro ⟨key, value⟩ member
    rw [← get?_eq_some_iff, none] at member
    cases member

@[simp] theorem keys_map (change : κ → α → β) (map : SortedMap κ α) : (map.map change).keys = map.keys := by
  simp only [keys, SortedMap.map, List.map_map]
  rfl

theorem length_keys (map : SortedMap κ α) : map.keys.length = map.size := List.length_map ..

theorem nodup_keys (map : SortedMap κ α) : map.keys.Nodup := by
  apply List.pairwise_map.2
  refine map.ascending.imp ?_
  intro entry other less same
  rw [same] at less
  exact String.lt_irrefl _ less

private theorem keys_filter (keep : κ → Bool) (map : SortedMap κ α) :
    (map.filter fun key _ => keep key).keys = map.keys.filter keep := by
  simp only [keys, SortedMap.filter, List.filter_map]
  rfl

/-- Taking a key out makes a map smaller by one, if the key was there. -/
theorem size_erase [DecidableEq κ] {map : SortedMap κ α} {key : κ} (present : map.contains key = true) :
    (map.erase key).size + 1 = map.size := by
  have listed : key ∈ map.keys := contains_eq_true_iff.1 present
  have rest : (map.erase key).keys = map.keys.erase key := by
    rw [erase, keys_filter, map.nodup_keys.erase_eq_filter]
    apply List.filter_congr
    intro other _
    rw [Bool.eq_iff_iff, decide_eq_true_iff, bne_iff_ne, ne_eq, Keyed.text_eq_iff]
  rw [← length_keys, ← length_keys, rest, List.length_erase_of_mem listed]
  exact Nat.sub_add_cancel (List.length_pos_of_mem listed)

/-- Writing what stands there already changes nothing. -/
theorem insert_of_get? [DecidableEq κ] {map : SortedMap κ α} {key : κ} {value : α}
    (present : map.get? key = some value) : map.insert key value = map := by
  ext1 other
  rw [get?_insert_ite]
  split
  case isTrue same => rw [same, present]
  case isFalse => rfl

/-- What a list of writes leaves under a key is what it wrote there last. -/
theorem get?_foldl_insert [DecidableEq κ] (entries : List (κ × α)) (map : SortedMap κ α) (key : κ) :
    (entries.foldl (fun map entry => map.insert entry.1 entry.2) map).get? key =
      ((entries.filter fun entry => entry.1 = key).getLast?.map Prod.snd).or (map.get? key) := by
  induction entries generalizing map with
  | nil => rfl
  | cons entry rest ih =>
    rw [List.foldl_cons, ih, get?_insert_ite, List.filter_cons]
    by_cases same : entry.1 = key
    · simp only [same, decide_true, ↓reduceIte, List.getLast?_cons, Option.map_some, Option.some_or]
      cases (rest.filter fun entry => entry.1 = key).getLast? <;> rfl
    · simp only [same, Ne.symm same, decide_false, ↓reduceIte, Bool.false_eq_true]

theorem get?_ofList [DecidableEq κ] (entries : List (κ × α)) (key : κ) :
    (ofList entries).get? key = (entries.filter fun entry => entry.1 = key).getLast?.map Prod.snd := by
  rw [ofList, get?_foldl_insert, get?_empty, Option.or_none]

/-- What is read off a map entry by entry holds at most one item for each key. -/
theorem filter_filterMap_toList [DecidableEq κ] (map : SortedMap κ α) (read : κ × α → Option β)
    (keyOf : β → κ) (keyed : ∀ entry item, read entry = some item → keyOf item = entry.1) (key : κ) :
    (map.toList.filterMap read).filter (fun item => keyOf item = key) =
      ((map.get? key).bind fun value => read (key, value)).toList := by
  obtain ⟨entries, ordered⟩ := map
  change List.filter _ (entries.filterMap read) =
    ((Ascending.find key entries).bind fun value => read (key, value)).toList
  induction entries with
  | nil => rfl
  | cons entry rest ih =>
    obtain ⟨below, restOrdered⟩ := List.pairwise_cons.1 ordered
    specialize ih restOrdered
    simp only [Ascending.find, Keyed.text_eq_iff]
    by_cases same : key = entry.1
    · have later : Ascending.find key rest = none := by
        rw [same]
        exact Ascending.find_eq_none_of_below below
      simp only [later, Option.bind_none, Option.toList_none] at ih
      simp only [same, ↓reduceIte, Option.bind_some]
      cases found : read entry with
      | none => simpa [found, same] using ih
      | some item => simpa [found, keyed entry item found, same] using ih
    · simp only [same, ↓reduceIte]
      cases found : read entry with
      | none => simpa [found] using ih
      | some item => simpa [found, keyed entry item found, Ne.symm same] using ih

end SortedMap

/-- A change is collected under every key that is looked at and has one. -/
theorem get?_changesOf (keys : List String) (change : String → Option KeyChange) (key : String) :
    (changesOf keys change).get? key = if key ∈ keys then change key else none := by
  rw [changesOf, SortedMap.get?_ofList]
  cases found : ((keys.filterMap fun key => (change key).map fun found => (key, found)).filter
      fun entry => entry.1 = key).getLast? with
  | none =>
    rw [List.getLast?_eq_none_iff, List.filter_eq_nil_iff] at found
    split
    case isTrue member =>
      cases changed : change key with
      | none => rfl
      | some kind =>
        exact absurd (by simp) (found (key, kind)
          (List.mem_filterMap.2 ⟨key, member, by rw [changed]; rfl⟩))
    case isFalse => rfl
  | some entry =>
    have member := List.mem_of_getLast? found
    simp only [List.mem_filter, List.mem_filterMap, Option.map_eq_some_iff, decide_eq_true_eq] at member
    obtain ⟨⟨other, looked, kind, changed, rfl⟩, rfl⟩ := member
    simp only [looked, ↓reduceIte, changed, Option.map_some]

theorem mem_bothKeys {before after : Entries} {key : String} :
    key ∈ bothKeys before after ↔ (before.get? key).isSome ∨ (after.get? key).isSome := by
  simp only [bothKeys, List.mem_append, List.mem_filter, SortedMap.contains_eq_isSome,
    ← SortedMap.contains_eq_true_iff, Bool.not_eq_true', Option.isSome_eq_false_iff]
  cases before.get? key <;> simp

end SharedGraph
