import SharedGraph.Proofs.ByteTexts
import SharedGraph.Proofs.Maps
import SharedGraph.Proofs.Texts
import SharedGraph.Wire.Codec

/-! Values are read back from the trees that were written for them. A record is written without
the fields that hold nothing, and a reader takes a field that is missing for one that holds
nothing. Readers count how deep they are, so a tree can be read as long as it is not deeper than
they may go. -/
namespace SharedGraph

namespace WireTree

/-! ## Depth -/

mutual

/-- How many arrays and objects are nested in each other. -/
def depth : WireTree → Nat
  | .array items => itemsDepth items + 1
  | .object fields => fieldsDepth fields + 1
  | _ => 0
  termination_by structural tree => tree

def itemsDepth : List WireTree → Nat
  | [] => 0
  | item :: rest => max (depth item) (itemsDepth rest)

def valueDepth : String × WireTree → Nat
  | (_, value) => depth value

def fieldsDepth : List (String × WireTree) → Nat
  | [] => 0
  | field :: rest => max (valueDepth field) (fieldsDepth rest)

end

/-- Whoever may enter so many arrays and objects has room for an array, and for its items in it. -/
theorem depth_array_le {items : List WireTree} {room : Nat} (shallow : (array items).depth ≤ room) :
    ∃ more, room = more + 1 ∧ ∀ item ∈ items, item.depth ≤ more := by
  have all (items : List WireTree) : ∀ item ∈ items, item.depth ≤ itemsDepth items := by
    induction items with
    | nil => simp
    | cons item rest ih =>
      rw [itemsDepth, List.forall_mem_cons]
      exact ⟨Nat.le_max_left .., fun other member => Nat.le_trans (ih other member) (Nat.le_max_right ..)⟩
  rw [depth] at shallow
  refine ⟨room - 1, by omega, fun item member => ?_⟩
  have within := all items item member
  omega

private theorem depth_object_le {fields : List (String × WireTree)} {room : Nat}
    (shallow : (object fields).depth ≤ room) :
    ∃ more, room = more + 1 ∧ ∀ field ∈ fields, field.2.depth ≤ more := by
  have all (fields : List (String × WireTree)) : ∀ field ∈ fields, field.2.depth ≤ fieldsDepth fields := by
    induction fields with
    | nil => simp
    | cons field rest ih =>
      rw [fieldsDepth, List.forall_mem_cons, valueDepth]
      exact ⟨Nat.le_max_left .., fun other member => Nat.le_trans (ih other member) (Nat.le_max_right ..)⟩
  rw [depth] at shallow
  refine ⟨room - 1, by omega, fun field member => ?_⟩
  have within := all fields field member
  omega

/-! ## Literals that have a text -/

/-- All integers of the tree have 64 bits, and all its literals stand for values. -/
structure Sound (tree : WireTree) : Prop where
  bounded : tree.Bounded
  whole : broken ∉ tree.leaves

private theorem sound_array {items : List WireTree} (sound : ∀ item ∈ items, item.Sound) :
    (array items).Sound where
  bounded := bounded_array.2 fun item member => (sound item member).bounded
  whole := by
    rw [leaves_array, List.mem_flatMap]
    rintro ⟨item, member, leaf⟩
    exact (sound item member).whole leaf

private theorem sound_object {fields : List (String × WireTree)}
    (sound : ∀ field ∈ fields, field.2.Sound) : (object fields).Sound where
  bounded := bounded_object.2 fun field member => (sound field member).bounded
  whole := by
    rw [leaves_object, List.mem_flatMap]
    rintro ⟨field, member, leaf⟩
    exact (sound field member).whole leaf

private theorem sound_integer {value : Int} (fits : Fits value) : (number (.integer value)).Sound :=
  ⟨bounded_integer fits, fun member => nomatch List.mem_singleton.1 member⟩

/-- A literal that is no integer. -/
theorem sound_leaf {tree : WireTree} (literal : tree.leaves = [tree]) (stands : tree ≠ broken)
    (other : ∀ value, tree ≠ number (.integer value)) : tree.Sound where
  bounded value member := by
    rw [literal, List.mem_singleton] at member
    exact absurd member.symm (other value)
  whole := by
    rw [literal, List.mem_singleton]
    exact stands.symm

end WireTree

namespace Wire

/-- A writer carries a value to a reader: what is written has a text, and the reader reads the
value back wherever there is room for what was written. -/
structure Carries {α : Type} (decode : Decoder α) (encode : α → WireTree) (value : α) : Prop where
  sound : (encode value).Sound
  undone : ∀ room, (encode value).depth ≤ room → decode room (encode value) = some value

/-! ## Records -/

/-- What a reader knows of a record is what was written. -/
structure Fields.Holds (known : Fields) (fields : List (String × Option WireTree)) : Prop where
  find?_eq : ∀ name, known.find? name = (fields.lookup name).join
  shallow : ∀ name tree, known.find? name = some tree → tree.depth ≤ known.room

/-- The fields that are written. -/
def present (fields : List (String × Option WireTree)) : List (String × WireTree) :=
  fields.filterMap fun (name, tree) => tree.map fun value => (name, value)

private theorem names_present (fields : List (String × Option WireTree)) :
    ((present fields).map Prod.fst).Sublist (fields.map Prod.fst) := by
  induction fields with
  | nil => exact .slnil
  | cons field rest ih =>
    obtain ⟨name, _ | tree⟩ := field
    · exact .cons _ ih
    · exact .cons_cons _ ih

private theorem find?_present {fields : List (String × Option WireTree)}
    (distinct : (fields.map Prod.fst).Nodup) (name : String) :
    ((present fields).find? fun field => field.1 == name).map Prod.snd = (fields.lookup name).join := by
  induction fields with
  | nil => rfl
  | cons field rest ih =>
    obtain ⟨other, tree⟩ := field
    obtain ⟨fresh, distinctRest⟩ := List.nodup_cons.1 distinct
    rw [List.lookup_cons]
    by_cases same : other = name
    · subst same
      rw [beq_self_eq_true]
      cases tree with
      | some value => simp [present]
      | none =>
        have absent : rest.lookup other = none := by
          rw [List.lookup_eq_none_iff]
          rintro ⟨name, tree⟩ member
          have listed : name ∈ rest.map Prod.fst := List.mem_map_of_mem (f := Prod.fst) member
          exact bne_iff_ne.2 fun same => fresh (same ▸ listed)
        have found := ih distinctRest
        rw [absent] at found
        exact found
    · rw [beq_false_of_ne (Ne.symm same)]
      cases tree with
      | some value =>
        rw [present, List.filterMap_cons_some (by rfl), List.find?_cons_of_neg (by simpa using same)]
        exact ih distinctRest
      | none => exact ih distinctRest

theorem depth_record_le {fields : List (String × Option WireTree)} {room : Nat}
    (shallow : (record fields).depth ≤ room) :
    ∃ more, room = more + 1 ∧ ∀ field ∈ present fields, field.2.depth ≤ more :=
  WireTree.depth_object_le shallow

theorem Fields.ofTree_record {fields : List (String × Option WireTree)} (names : List String)
    (named : fields.map Prod.fst = names) (distinct : names.Nodup) {room : Nat}
    (shallow : (record fields).depth ≤ room) :
    ∃ known, Fields.ofTree names room (record fields) = some known ∧ known.Holds fields := by
  subst named
  obtain ⟨room, rfl, within⟩ := depth_record_le shallow
  have known : ((present fields).filter fun field => (fields.map Prod.fst).contains field.1) =
      present fields := by
    rw [List.filter_eq_self]
    intro field member
    exact List.contains_iff_mem.2 ((names_present fields).subset (List.mem_map_of_mem member))
  have distinctToo : ((present fields).map Prod.fst).Nodup := (names_present fields).nodup distinct
  refine ⟨⟨room, present fields⟩, ?_, find?_present distinct, fun name tree found => ?_⟩
  · have opened : Fields.ofTree (fields.map Prod.fst) (room + 1) (record fields) =
        let known := (present fields).filter fun field => (fields.map Prod.fst).contains field.1
        if (known.map Prod.fst).Nodup then some ⟨room, known⟩ else none := rfl
    simp only [opened, known, distinctToo, ↓reduceIte]
  · obtain ⟨field, listed, rfl⟩ := Option.map_eq_some_iff.1 found
    exact within field (List.mem_of_find?_eq_some listed)

/-- A record has a text if its fields have. -/
theorem sound_record {fields : List (String × Option WireTree)}
    (sound : ∀ field ∈ fields, ∀ tree ∈ field.2, tree.Sound) : (record fields).Sound := by
  refine WireTree.sound_object fun field member => ?_
  obtain ⟨⟨name, tree⟩, listed, made⟩ := List.mem_filterMap.1 member
  obtain ⟨value, same, rfl⟩ := Option.map_eq_some_iff.1 made
  exact sound _ listed value same

theorem Carries.sound_map {α : Type} {decode : Decoder α} {encode : α → WireTree} {value : Option α}
    (carries : ∀ item ∈ value, Carries decode encode item) : ∀ tree ∈ value.map encode, tree.Sound := by
  intro tree member
  obtain ⟨item, same, rfl⟩ := Option.map_eq_some_iff.1 member
  exact (carries item same).sound

theorem Carries.sound_some {α : Type} {decode : Decoder α} {encode : α → WireTree} {value : α}
    (carries : Carries decode encode value) : ∀ tree ∈ some (encode value), tree.Sound := by
  rintro tree ⟨⟩
  exact carries.sound

namespace Fields.Holds

variable {α : Type} {known : Fields} {fields : List (String × Option WireTree)} {decode : Decoder α}
  {encode : α → WireTree}

theorem required {value : α} (holds : known.Holds fields) (name : String)
    (listed : fields.lookup name = some (some (encode value))) (carries : Carries decode encode value) :
    known.required name decode = some value := by
  have found : known.find? name = some (encode value) := by rw [holds.find?_eq, listed, Option.join_some]
  rw [Fields.required, found, Option.bind_some, carries.undone _ (holds.shallow name _ found)]

theorem withDefault {value : α} (holds : known.Holds fields) (name : String)
    (listed : fields.lookup name = some (some (encode value))) (carries : Carries decode encode value)
    (default : α) : known.withDefault name decode default = some value := by
  have found : known.find? name = some (encode value) := by rw [holds.find?_eq, listed, Option.join_some]
  simp only [Fields.withDefault, found, carries.undone _ (holds.shallow name _ found)]

theorem optional {value : Option α} (holds : known.Holds fields) (name : String)
    (listed : fields.lookup name = some (value.map encode))
    (carries : ∀ item ∈ value, Carries decode encode item)
    (speaks : ∀ item, encode item ≠ .null) : known.optional name decode = some value := by
  cases value with
  | none =>
    have found : known.find? name = none := by rw [holds.find?_eq, listed]; rfl
    simp only [Fields.optional, found]
  | some item =>
    have found : known.find? name = some (encode item) := by rw [holds.find?_eq, listed]; rfl
    rw [Fields.optional, found]
    split
    case h_1 none => cases none
    case h_2 null => exact absurd (Option.some.inj null) (speaks item)
    case h_3 same =>
      cases same
      rw [(carries item rfl).undone _ (holds.shallow name _ found), Option.map_some]

end Fields.Holds

/-! ## Literals -/

theorem carries_text (value : String) : Carries Decoder.text .text value :=
  ⟨WireTree.sound_leaf rfl (by simp) (by simp), fun _ _ => rfl⟩

theorem carries_texts (value : Option String) : ∀ text ∈ value, Carries Decoder.text .text text :=
  fun text _ => carries_text text

theorem carries_id (id : ObjectId) : Carries toId ofId id :=
  ⟨(carries_text id.text).sound, fun _ _ => rfl⟩

theorem carries_serial (serial : Serial) : Carries toSerial ofSerial serial :=
  ⟨(carries_text serial.text).sound, fun _ _ => rfl⟩

theorem carries_action (action : Action) : Carries toAction ofAction action :=
  ⟨(carries_text (actionName action)).sound, fun _ _ => by cases action <;> rfl⟩

theorem carries_boolean (value : Bool) : Carries Decoder.boolean .boolean value :=
  ⟨WireTree.sound_leaf rfl (by simp) (by simp), fun _ _ => rfl⟩

theorem carries_double (value : Double) : Carries Decoder.double ofDouble value :=
  ⟨WireTree.sound_leaf rfl (by simp [ofDouble]) (by simp [ofDouble]), fun _ _ => rfl⟩

theorem carries_time {time : Int} (fits : isTime time = true) : Carries Decoder.time ofInteger time := by
  simp only [isTime, Bool.and_eq_true, decide_eq_true_eq] at fits
  refine ⟨WireTree.sound_integer ⟨fits.1, ?_⟩, fun _ _ => if_pos fits⟩
  refine Int.lt_of_le_of_lt fits.2 ?_
  decide

/-- Bytes are carried as a text. -/
def ofBytes (bytes : List UInt8) : WireTree := .text (String.ofList (Base64.encodePadded bytes))

theorem carries_bytes (bytes : List UInt8) : Carries toBytes ofBytes bytes := by
  refine ⟨(carries_text _).sound, fun _ _ => ?_⟩
  simp only [toBytes, ofBytes, Decoder.text, Option.bind_some, String.toList_ofList,
    Base64.decodePadded?_encodePadded]

/-! ## Maps -/

/-- A list is read back item by item. -/
theorem mapM_eq_self {α : Type} {list : List α} {read : α → Option α}
    (same : ∀ item ∈ list, read item = some item) : list.mapM read = some list := by
  induction list with
  | nil => rfl
  | cons item rest ih =>
    rw [List.forall_mem_cons] at same
    rw [List.mapM_cons, same.1, ih same.2]
    rfl

private theorem mapM_fields {α : Type} {read : WireTree → Option α} {encode : α → WireTree}
    {entries : List (String × α)} (undone : ∀ entry ∈ entries, read (encode entry.2) = some entry.2) :
    (entries.map fun (name, value) => (name, encode value)).mapM
      (fun (name, tree) => (read tree).map fun value => (name, value)) = some entries := by
  rw [List.mapM_map]
  refine mapM_eq_self fun entry member => ?_
  simp only [Function.comp, undone entry member, Option.map_some]

/-- A map is the map of its own entries. -/
theorem ofList_toList {α : Type} (map : SortedMap String α) : SortedMap.ofList map.toList = map := by
  ext1 key
  have found := SortedMap.filter_filterMap_toList map some Prod.fst (fun _ _ same => by cases same; rfl) key
  rw [List.filterMap_some] at found
  rw [SortedMap.get?_ofList, found]
  cases map.get? key <;> rfl

/-- A map is carried if all that it holds is. -/
theorem carries_map {α : Type} {decode : Decoder α} {encode : α → WireTree} {entries : SortedMap String α}
    (carries : ∀ value ∈ entries.values, Carries decode encode value) :
    Carries (Decoder.map decode) (ofMap encode) entries := by
  have listed {entry : String × α} (member : entry ∈ entries.toList) : Carries decode encode entry.2 :=
    carries entry.2 (List.mem_map_of_mem member)
  refine ⟨WireTree.sound_object ?_, fun room shallow => ?_⟩
  · simp only [List.forall_mem_map]
    exact fun entry member => (listed member).sound
  · obtain ⟨room, rfl, within⟩ := WireTree.depth_object_le shallow
    simp only [List.forall_mem_map] at within
    have read : (entries.toList.map fun (name, value) => (name, encode value)).mapM
        (fun (name, tree) => (decode room tree).map fun value => (name, value)) = some entries.toList :=
      mapM_fields fun entry member => (listed member).undone room (within entry member)
    simp only [ofMap, Decoder.map, read, bind, Option.bind_some, ofList_toList]

end Wire

/-! ## JSON values -/

namespace Json

mutual

/-- What a JSON value can be: its integers have 64 bits, and the fields of its objects stand in
the order of their names. -/
def Canonical : Json → Prop
  | .number (.integer value) => WireTree.Fits value
  | .array items => CanonicalItems items
  | .object fields => Ascending fields ∧ CanonicalFields fields
  | _ => True
  termination_by structural value => value

def CanonicalItems : List Json → Prop
  | [] => True
  | item :: rest => Canonical item ∧ CanonicalItems rest

def CanonicalField : String × Json → Prop
  | (_, value) => Canonical value

def CanonicalFields : List (String × Json) → Prop
  | [] => True
  | field :: rest => CanonicalField field ∧ CanonicalFields rest

end

theorem canonicalItems_iff {items : List Json} : CanonicalItems items ↔ ∀ item ∈ items, item.Canonical := by
  induction items with
  | nil => simp [CanonicalItems]
  | cons item rest ih => rw [CanonicalItems, List.forall_mem_cons, ih]

theorem canonicalFields_iff {fields : List (String × Json)} :
    CanonicalFields fields ↔ ∀ field ∈ fields, field.2.Canonical := by
  induction fields with
  | nil => simp [CanonicalFields]
  | cons field rest ih => rw [CanonicalFields, List.forall_mem_cons, ih, CanonicalField]

end Json

namespace Wire

private theorem ofItems_eq (items : List Json) : WireTree.ofItems items = items.map WireTree.ofJson := by
  induction items with
  | nil => rfl
  | cons item rest ih => rw [WireTree.ofItems, ih, List.map_cons]

private theorem ofFields_eq (fields : List (String × Json)) :
    WireTree.ofFields fields = fields.map fun (name, value) => (name, WireTree.ofJson value) := by
  induction fields with
  | nil => rfl
  | cons field rest ih => rw [WireTree.ofFields, ih, List.map_cons, WireTree.ofField]

theorem toItems_eq (items : List WireTree) (room : Nat) :
    Decoder.toItems items room = items.mapM fun item => Decoder.toJson item room := by
  induction items with
  | nil => rfl
  | cons item rest ih =>
    rw [Decoder.toItems, List.mapM_cons, ih]
    cases Decoder.toJson item room with
    | none => rfl
    | some value => cases rest.mapM fun item => Decoder.toJson item room <;> rfl

theorem toFields_eq (fields : List (String × WireTree)) (room : Nat) :
    Decoder.toFields fields room = fields.mapM fun (name, tree) =>
      (Decoder.toJson tree room).map fun value => (name, value) := by
  induction fields with
  | nil => rfl
  | cons field rest ih =>
    obtain ⟨name, tree⟩ := field
    simp only [Decoder.toFields, Decoder.toField, List.mapM_cons, ih]
    cases Decoder.toJson tree room with
    | none => rfl
    | some value =>
      cases rest.mapM fun (name, tree) => (Decoder.toJson tree room).map fun value => (name, value) <;> rfl

private theorem carries_null : Carries Decoder.json .ofJson .null :=
  ⟨WireTree.sound_leaf rfl (by simp [WireTree.ofJson]) (by simp [WireTree.ofJson]), fun _ _ => rfl⟩

private theorem carries_array {items : List Json}
    (carries : ∀ item ∈ items, Carries Decoder.json .ofJson item) :
    Carries Decoder.json .ofJson (.array items) := by
  have tree : WireTree.ofJson (.array items) = .array (items.map .ofJson) := by
    rw [WireTree.ofJson, ofItems_eq]
  refine ⟨?_, fun room shallow => ?_⟩
  · rw [tree]
    refine WireTree.sound_array ?_
    simp only [List.forall_mem_map]
    exact fun item member => (carries item member).sound
  · rw [tree] at shallow ⊢
    obtain ⟨room, rfl, within⟩ := WireTree.depth_array_le shallow
    simp only [List.forall_mem_map] at within
    have read : (items.map WireTree.ofJson).mapM (fun item => Decoder.toJson item room) = some items := by
      rw [List.mapM_map]
      exact mapM_eq_self fun item member => (carries item member).undone room (within item member)
    rw [Decoder.json, Decoder.toJson, toItems_eq, read, Option.map_some]

private theorem carries_object {fields : List (String × Json)} (ordered : Ascending fields)
    (carries : ∀ field ∈ fields, Carries Decoder.json .ofJson field.2) :
    Carries Decoder.json .ofJson (.object fields) := by
  have tree : WireTree.ofJson (.object fields) =
      .object (fields.map fun (name, value) => (name, WireTree.ofJson value)) := by
    rw [WireTree.ofJson, ofFields_eq]
  refine ⟨?_, fun room shallow => ?_⟩
  · rw [tree]
    refine WireTree.sound_object ?_
    simp only [List.forall_mem_map]
    exact fun field member => (carries field member).sound
  · rw [tree] at shallow ⊢
    obtain ⟨room, rfl, within⟩ := WireTree.depth_object_le shallow
    simp only [List.forall_mem_map] at within
    have read : (fields.map fun (name, value) => (name, WireTree.ofJson value)).mapM
        (fun (name, tree) => (Decoder.toJson tree room).map fun value => (name, value)) = some fields :=
      mapM_fields fun field member => (carries field member).undone room (within field member)
    have same : Json.ofFields fields = .object fields :=
      congrArg (fun (map : SortedMap String Json) => Json.object map.toList) (ofList_toList ⟨fields, ordered⟩)
    rw [Decoder.json, Decoder.toJson, toFields_eq, read, Option.map_some, same]

mutual

theorem carries_json (value : Json) (canonical : value.Canonical) : Carries Decoder.json .ofJson value := by
  cases value with
  | null => exact carries_null
  | boolean value => exact ⟨(carries_boolean value).sound, fun _ _ => rfl⟩
  | text value => exact ⟨(carries_text value).sound, fun _ _ => rfl⟩
  | number value =>
    cases value with
    | integer value => exact ⟨WireTree.sound_integer canonical, fun _ _ => rfl⟩
    | double value => exact ⟨(carries_double value).sound, fun _ _ => rfl⟩
  | array items => exact carries_array (carries_items items canonical)
  | object fields => exact carries_object canonical.1 (carries_fields fields canonical.2)
  termination_by structural value

private theorem carries_items (items : List Json) (canonical : Json.CanonicalItems items) :
    ∀ item ∈ items, Carries Decoder.json .ofJson item := by
  cases items with
  | nil => simp
  | cons item rest =>
    exact List.forall_mem_cons.2 ⟨carries_json item canonical.1, carries_items rest canonical.2⟩
  termination_by structural items

private theorem carries_field (field : String × Json) (canonical : Json.CanonicalField field) :
    Carries Decoder.json .ofJson field.2 := by
  obtain ⟨name, value⟩ := field
  exact carries_json value canonical
  termination_by structural field

private theorem carries_fields (fields : List (String × Json)) (canonical : Json.CanonicalFields fields) :
    ∀ field ∈ fields, Carries Decoder.json .ofJson field.2 := by
  cases fields with
  | nil => simp
  | cons field rest =>
    exact List.forall_mem_cons.2 ⟨carries_field field canonical.1, carries_fields rest canonical.2⟩
  termination_by structural fields

end

end Wire

end SharedGraph
