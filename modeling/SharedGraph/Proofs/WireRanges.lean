import SharedGraph.Proofs.Records

/-! What readers give. A text holds integers of 64 bits only, and the fields of an object are put
in order when they are read; so every message that is read has all its times in the range of
times and all its JSON values in their canonical form. -/
namespace SharedGraph

/-! ## What a message can hold -/

/-- A JSON value is in its canonical form. -/
def Data.InRange : Data → Prop
  | .json value => value.Canonical
  | _ => True

structure Entry.InRange (entry : Entry) : Prop where
  data : ∀ data ∈ entry.data, data.InRange
  tombstonedAt : ∀ time ∈ entry.tombstonedAt, isTime time = true

def Entries.InRange (entries : Entries) : Prop := ∀ entry ∈ entries.values, entry.InRange

structure Operation.InRange (operation : Operation) : Prop where
  keyEdit : ∀ edit ∈ operation.keyEdit, ∀ data ∈ edit.data, data.InRange
  entries : ∀ entries ∈ operation.entries, Entries.InRange entries

structure ObjectState.InRange (state : ObjectState) : Prop where
  createOp : ∀ operation ∈ state.createOp, operation.InRange
  entries : ∀ entries ∈ state.entries, Entries.InRange entries

/-- All times have 64 bits, and all JSON values are canonical. -/
structure Message.InRange (message : Message) : Prop where
  timestamp : ∀ time ∈ message.timestamp, isTime time = true
  operation : ∀ operation ∈ message.operation, operation.InRange
  state : ∀ state ∈ message.state, state.InRange

namespace Wire

/-- All that a reader reads, from a tree whose integers have 64 bits, has a property. -/
def Decoder.Ensures {α : Type} (decode : Decoder α) (holds : α → Prop) : Prop :=
  ∀ room tree value, tree.Bounded → decode room tree = some value → holds value

/-! ## Records and maps -/

/-- What is known of a record whose integers have 64 bits. -/
def Fields.Bounded (known : Fields) : Prop := ∀ name tree, known.find? name = some tree → tree.Bounded

private theorem Fields.bounded_of_ofTree {names : List String} {room : Nat} {tree : WireTree}
    {known : Fields}
    (bounded : tree.Bounded) (opened : Fields.ofTree names room tree = some known) : known.Bounded := by
  have listed : ∀ field ∈ known.known, field.2.Bounded := by
    unfold Fields.ofTree at opened
    split at opened
    case h_1 =>
      dsimp only at opened
      split at opened <;> cases opened
      exact fun field member => WireTree.bounded_object.1 bounded field (List.mem_filter.1 member).1
    case h_2 =>
      split at opened <;> cases opened
      exact fun field member => WireTree.bounded_array.1 bounded field.2 (List.of_mem_zip member).2
    case h_3 => cases opened
  intro name tree found
  obtain ⟨field, first, rfl⟩ := Option.map_eq_some_iff.1 found
  exact listed field (List.mem_of_find?_eq_some first)

namespace Decoder.Ensures

variable {α : Type} {decode : Decoder α} {holds : α → Prop} {known : Fields} {name : String}

theorem optional {value : Option α} (ensures : decode.Ensures holds) (bounded : known.Bounded)
    (read : known.optional name decode = some value) : ∀ item ∈ value, holds item := by
  rintro item ⟨⟩
  unfold Fields.optional at read
  split at read
  case h_1 => cases read
  case h_2 => cases read
  case h_3 tree _ found =>
    obtain ⟨other, decoded, same⟩ := Option.map_eq_some_iff.1 read
    cases same
    exact ensures _ tree _ (bounded name tree found) decoded

theorem withDefault {value default : α} (ensures : decode.Ensures holds) (initial : holds default)
    (bounded : known.Bounded) (read : known.withDefault name decode default = some value) : holds value := by
  unfold Fields.withDefault at read
  split at read
  case h_1 =>
    cases read
    exact initial
  case h_2 tree found => exact ensures _ tree _ (bounded name tree found) read

end Decoder.Ensures

/-- What is read from a list is read from its items. -/
theorem exists_of_mem_mapM {α β : Type} {read : α → Option β} {list : List α} {values : List β}
    (found : list.mapM read = some values) : ∀ value ∈ values, ∃ item ∈ list, read item = some value := by
  induction list generalizing values with
  | nil =>
    cases found
    simp
  | cons item rest ih =>
    simp only [List.mapM_cons, bind, Option.bind_eq_some_iff, pure, Option.some.injEq] at found
    obtain ⟨first, readFirst, others, readRest, rfl⟩ := found
    rw [List.forall_mem_cons]
    refine ⟨⟨item, List.mem_cons_self .., readFirst⟩, fun value member => ?_⟩
    obtain ⟨other, listed, same⟩ := ih readRest value member
    exact ⟨other, List.mem_cons_of_mem _ listed, same⟩

/-- A map built from a list holds what is in the list. -/
theorem mem_of_mem_ofList {α : Type} {fields : List (String × α)} {field : String × α}
    (member : field ∈ (SortedMap.ofList fields).toList) : field ∈ fields := by
  rw [← SortedMap.get?_eq_some_iff, SortedMap.get?_ofList] at member
  obtain ⟨⟨name, value⟩, last, rfl⟩ := Option.map_eq_some_iff.1 member
  have listed := List.mem_of_getLast? last
  rw [List.mem_filter, decide_eq_true_eq] at listed
  obtain ⟨listed, rfl⟩ := listed
  exact listed

private theorem ensures_map {α : Type} {decode : Decoder α} {holds : α → Prop}
    (ensures : decode.Ensures holds) :
    (Decoder.map decode).Ensures fun entries => ∀ value ∈ entries.values, holds value := by
  intro room tree entries bounded read
  unfold Decoder.map at read
  split at read
  case h_2 => cases read
  case h_1 room fields =>
    simp only [bind, Option.bind_eq_some_iff, Option.some.injEq] at read
    obtain ⟨found, readAll, rfl⟩ := read
    intro value held
    obtain ⟨field, member, rfl⟩ := List.mem_map.1 held
    obtain ⟨⟨name, tree⟩, listed, made⟩ := exists_of_mem_mapM readAll field (mem_of_mem_ofList member)
    obtain ⟨value, decoded, rfl⟩ := Option.map_eq_some_iff.1 made
    exact ensures room tree value (WireTree.bounded_object.1 bounded _ listed) decoded

/-! ## JSON values -/

mutual

private theorem canonical_of_toJson (tree : WireTree) (bounded : tree.Bounded) :
    ∀ room value, Decoder.toJson tree room = some value → value.Canonical := by
  intro room value read
  cases tree with
  | null | boolean | text =>
    cases read
    trivial
  | number number =>
    cases read
    cases number with
    | integer value => exact bounded value (List.mem_singleton.2 rfl)
    | double => trivial
  | broken => cases read
  | array items =>
    have each := canonical_of_items items (WireTree.bounded_array.1 bounded)
    cases room with
    | zero => cases read
    | succ room =>
      rw [Decoder.toJson, toItems_eq] at read
      obtain ⟨values, readAll, rfl⟩ := Option.map_eq_some_iff.1 read
      refine Json.canonicalItems_iff.2 fun value member => ?_
      obtain ⟨item, listed, decoded⟩ := exists_of_mem_mapM readAll value member
      exact each item listed room value decoded
  | object fields =>
    have each := canonical_of_fields fields (WireTree.bounded_object.1 bounded)
    cases room with
    | zero => cases read
    | succ room =>
      rw [Decoder.toJson, toFields_eq] at read
      obtain ⟨values, readAll, rfl⟩ := Option.map_eq_some_iff.1 read
      refine ⟨(SortedMap.ofList values).ascending, Json.canonicalFields_iff.2 fun field member => ?_⟩
      obtain ⟨⟨name, tree⟩, listed, made⟩ := exists_of_mem_mapM readAll field (mem_of_mem_ofList member)
      obtain ⟨value, decoded, rfl⟩ := Option.map_eq_some_iff.1 made
      exact each (name, tree) listed room value decoded
  termination_by structural tree

private theorem canonical_of_items (items : List WireTree) (bounded : ∀ item ∈ items, item.Bounded) :
    ∀ item ∈ items, ∀ room value, Decoder.toJson item room = some value → value.Canonical := by
  cases items with
  | nil => simp
  | cons item rest =>
    rw [List.forall_mem_cons] at bounded ⊢
    exact ⟨canonical_of_toJson item bounded.1, canonical_of_items rest bounded.2⟩
  termination_by structural items

private theorem canonical_of_field (field : String × WireTree) (bounded : field.2.Bounded) :
    ∀ room value, Decoder.toJson field.2 room = some value → value.Canonical := by
  obtain ⟨name, tree⟩ := field
  exact canonical_of_toJson tree bounded
  termination_by structural field

private theorem canonical_of_fields (fields : List (String × WireTree))
    (bounded : ∀ field ∈ fields, field.2.Bounded) :
    ∀ field ∈ fields, ∀ room value, Decoder.toJson field.2 room = some value → value.Canonical := by
  cases fields with
  | nil => simp
  | cons field rest =>
    rw [List.forall_mem_cons] at bounded ⊢
    exact ⟨canonical_of_field field bounded.1, canonical_of_fields rest bounded.2⟩
  termination_by structural fields

end

/-! ## Messages and their parts -/

private theorem ensures_time : Decoder.time.Ensures fun time => isTime time = true := by
  intro room tree time bounded read
  unfold Decoder.time Decoder.integer at read
  split at read
  case h_2 => cases read
  case h_1 =>
    split at read <;> cases read
    rename_i fits
    rw [isTime, Bool.and_eq_true, decide_eq_true_eq, decide_eq_true_eq]
    exact fits

private theorem ensures_data : toData.Ensures Data.InRange := by
  intro room tree data bounded read
  unfold toData Decoder.alternative at read
  split at read
  case h_2 => cases read
  case h_1 room name tree =>
    have within : tree.Bounded := WireTree.bounded_object.1 bounded (name, tree) (List.mem_singleton.2 rfl)
    dsimp only at read
    split at read
    case h_6 =>
      obtain ⟨value, decoded, rfl⟩ := Option.map_eq_some_iff.1 read
      exact canonical_of_toJson tree within room value decoded
    case h_7 => cases read
    all_goals
      obtain ⟨value, -, rfl⟩ := Option.map_eq_some_iff.1 read
      trivial

private theorem ensures_entry : toEntry.Ensures Entry.InRange := by
  intro room tree entry bounded read
  simp only [toEntry, bind, Option.bind_eq_some_iff, Option.some.injEq] at read
  obtain ⟨known, opened, tombstone, -, serial, -, data, readData, time, readTime, rfl⟩ := read
  have within := Fields.bounded_of_ofTree bounded opened
  exact ⟨ensures_data.optional within readData, ensures_time.optional within readTime⟩

private theorem ensures_entries : toEntries.Ensures Entries.InRange := by
  intro room tree entries bounded read
  simp only [toEntries, bind, Option.bind_eq_some_iff] at read
  obtain ⟨known, opened, rule, -, readEntries⟩ := read
  have within := Fields.bounded_of_ofTree bounded opened
  have none : Entries.InRange .empty := by simp [Entries.InRange, SortedMap.values, SortedMap.empty]
  exact (ensures_map ensures_entry).withDefault none within readEntries

private theorem ensures_keyEdit : toKeyEdit.Ensures fun edit => ∀ data ∈ edit.data, data.InRange := by
  intro room tree edit bounded read
  simp only [toKeyEdit, bind, Option.bind_eq_some_iff, Option.some.injEq] at read
  obtain ⟨known, opened, key, -, data, readData, rfl⟩ := read
  exact ensures_data.optional (Fields.bounded_of_ofTree bounded opened) readData

private theorem ensures_operation : toOperation.Ensures Operation.InRange := by
  intro room tree operation bounded read
  simp only [toOperation, bind, Option.bind_eq_some_iff, Option.some.injEq] at read
  obtain ⟨known, opened, action, -, target, -, edit, readEdit, amount, -, entries, readEntries, count, -,
    nonce, -, initial, -, rfl⟩ := read
  have within := Fields.bounded_of_ofTree bounded opened
  exact ⟨ensures_keyEdit.optional within readEdit, ensures_entries.optional within readEntries⟩

private theorem ensures_state : toState.Ensures ObjectState.InRange := by
  intro room tree state bounded read
  simp only [toState, bind, Option.bind_eq_some_iff, Option.some.injEq] at read
  obtain ⟨known, opened, id, -, serials, -, tombstone, -, create, readCreate, entries, readEntries, count, -,
    rfl⟩ := read
  have within := Fields.bounded_of_ofTree bounded opened
  exact ⟨ensures_operation.optional within readCreate, ensures_entries.optional within readEntries⟩

theorem ensures_message : toMessage.Ensures Message.InRange := by
  intro room tree message bounded read
  simp only [toMessage, bind, Option.bind_eq_some_iff, Option.some.injEq] at read
  obtain ⟨known, opened, id, -, time, readTime, client, -, connection, -, serial, -, site, -, operation,
    readOperation, state, readState, rfl⟩ := read
  have within := Fields.bounded_of_ofTree bounded opened
  exact ⟨ensures_time.optional within readTime, ensures_operation.optional within readOperation,
    ensures_state.optional within readState⟩

end Wire

end SharedGraph
