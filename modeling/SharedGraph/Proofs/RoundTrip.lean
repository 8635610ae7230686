import SharedGraph.Proofs.WireRanges

/-! Messages read back from the texts that were written for them. Only the digits of doubles are not
to be relied on: they are the fewest that tell a double from its neighbours, and the reader, who rounds
twice, takes some of them for a neighbour. So that the doubles of a message read back is assumed, for
each of them. -/
namespace SharedGraph

namespace Wire

/-! ## Writing and reading -/

private theorem carries_data {data : Data} (inRange : data.InRange) : Carries toData ofData data := by
  have alone {α : Type} {decode : Decoder α} {encode : α → WireTree} {value : α} {name : String}
      {make : α → Data} (carries : Carries decode encode value)
      (written : ofData (make value) = record [(name, some (encode value))])
      (read : ∀ room tree, toData (room + 1) (.object [(name, tree)]) = (decode room tree).map make) :
      Carries toData ofData (make value) := by
    refine ⟨?_, fun room shallow => ?_⟩
    · rw [written]
      refine sound_record ?_
      rw [List.forall_mem_singleton]
      exact carries.sound_some
    · rw [written] at shallow ⊢
      obtain ⟨room, rfl, within⟩ := depth_record_le shallow
      have fits : (encode value).depth ≤ room := within (name, encode value) (List.mem_singleton.2 rfl)
      refine (read room (encode value)).trans ?_
      rw [carries.undone room fits, Option.map_some]
  cases data with
  | reference id => exact alone (carries_id id) rfl fun _ _ => rfl
  | text value => exact alone (carries_text value) rfl fun _ _ => rfl
  | number value => exact alone (carries_double value) rfl fun _ _ => rfl
  | boolean value => exact alone (carries_boolean value) rfl fun _ _ => rfl
  | bytes value => exact alone (carries_bytes value) rfl fun _ _ => rfl
  | json value => exact alone (carries_json value inRange) rfl fun _ _ => rfl

private theorem ofData_ne_null (data : Data) : ofData data ≠ .null := by
  cases data <;> simp [ofData, record]

private theorem carries_entry {entry : Entry} (inRange : entry.InRange) :
    Carries toEntry ofEntry entry := by
  have serial : ∀ serial ∈ entry.serial, Carries toSerial ofSerial serial := fun _ _ => carries_serial _
  have data : ∀ data ∈ entry.data, Carries toData ofData data :=
    fun _ held => carries_data (inRange.data _ held)
  have time : ∀ time ∈ entry.tombstonedAt, Carries Decoder.time ofInteger time :=
    fun _ held => carries_time (inRange.tombstonedAt _ held)
  refine ⟨sound_record ?_, fun room shallow => ?_⟩
  · simp only [List.forall_mem_cons, List.not_mem_nil, false_implies, implies_true, and_true]
    exact ⟨(carries_boolean entry.tombstone).sound_some, Carries.sound_map serial, Carries.sound_map data,
      Carries.sound_map time⟩
  · obtain ⟨known, opened, holds⟩ :=
      Fields.ofTree_record ["tombstone", "timeserial", "data", "tombstonedAt"] rfl (by decide) shallow
    have readTombstone := holds.withDefault "tombstone" rfl (carries_boolean entry.tombstone) false
    have readSerial := holds.optional "timeserial" rfl serial (by simp [ofSerial])
    have readData := holds.optional "data" rfl data ofData_ne_null
    have readTime := holds.optional "tombstonedAt" rfl time (by simp [ofInteger])
    rw [← ofEntry] at opened
    simp only [toEntry, opened, bind, Option.bind_some, readTombstone, readSerial, readData, readTime]

def ofMergeRule (_ : Unit) : WireTree := .text mergeRule

private theorem carries_mergeRule : Carries toMergeRule ofMergeRule () :=
  ⟨(carries_text mergeRule).sound, fun _ _ => rfl⟩

private theorem carries_entries {entries : Entries} (inRange : Entries.InRange entries) :
    Carries toEntries ofEntries entries := by
  have held : Carries (Decoder.map toEntry) (ofMap ofEntry) entries :=
    carries_map fun entry member => carries_entry (inRange entry member)
  refine ⟨sound_record ?_, fun room shallow => ?_⟩
  · simp only [List.forall_mem_cons, List.not_mem_nil, false_implies, implies_true, and_true]
    exact ⟨carries_mergeRule.sound_some, held.sound_some⟩
  · obtain ⟨known, opened, holds⟩ := Fields.ofTree_record ["semantics", "entries"] rfl (by decide) shallow
    have readRule :=
      holds.withDefault "semantics" (show _ = some (some (ofMergeRule ())) from rfl) carries_mergeRule ()
    have readEntries := holds.withDefault "entries" rfl held .empty
    rw [← ofEntries] at opened
    simp only [toEntries, opened, bind, Option.bind_some, readRule, readEntries]

private theorem carries_count (count : Double) : Carries toCount ofCount count := by
  refine ⟨sound_record ?_, fun room shallow => ?_⟩
  · rw [List.forall_mem_singleton]
    exact (carries_double count).sound_some
  · obtain ⟨known, opened, holds⟩ := Fields.ofTree_record ["count"] rfl (by decide) shallow
    have readCount := holds.withDefault "count" rfl (carries_double count) (.zero false)
    rw [← ofCount] at opened
    simp only [toCount, opened, bind, Option.bind_some, readCount]

private theorem carries_amount (amount : Double) : Carries toAmount ofAmount amount := by
  refine ⟨sound_record ?_, fun room shallow => ?_⟩
  · rw [List.forall_mem_singleton]
    exact (carries_double amount).sound_some
  · obtain ⟨known, opened, holds⟩ := Fields.ofTree_record ["amount"] rfl (by decide) shallow
    have readAmount := holds.required "amount" rfl (carries_double amount)
    rw [← ofAmount] at opened
    simp only [toAmount, opened, bind, Option.bind_some, readAmount]

private theorem carries_keyEdit {edit : KeyEdit} (inRange : ∀ data ∈ edit.data, data.InRange) :
    Carries toKeyEdit ofKeyEdit edit := by
  have data : ∀ data ∈ edit.data, Carries toData ofData data := fun _ held => carries_data (inRange _ held)
  refine ⟨sound_record ?_, fun room shallow => ?_⟩
  · simp only [List.forall_mem_cons, List.not_mem_nil, false_implies, implies_true, and_true]
    exact ⟨(carries_text edit.key).sound_some, Carries.sound_map data⟩
  · obtain ⟨known, opened, holds⟩ := Fields.ofTree_record ["key", "data"] rfl (by decide) shallow
    have readKey := holds.required "key" rfl (carries_text edit.key)
    have readData := holds.optional "data" rfl data ofData_ne_null
    rw [← ofKeyEdit] at opened
    simp only [toKeyEdit, opened, bind, Option.bind_some, readKey, readData]

private theorem carries_operation {operation : Operation} (inRange : operation.InRange) :
    Carries toOperation ofOperation operation := by
  have keyEdit : ∀ edit ∈ operation.keyEdit, Carries toKeyEdit ofKeyEdit edit :=
    fun _ held => carries_keyEdit (inRange.keyEdit _ held)
  have amount : ∀ amount ∈ operation.amount, Carries toAmount ofAmount amount := fun _ _ => carries_amount _
  have entries : ∀ entries ∈ operation.entries, Carries toEntries ofEntries entries :=
    fun _ held => carries_entries (inRange.entries _ held)
  have count : ∀ count ∈ operation.count, Carries toCount ofCount count := fun _ _ => carries_count _
  refine ⟨sound_record ?_, fun room shallow => ?_⟩
  · simp only [List.forall_mem_cons, List.not_mem_nil, false_implies, implies_true, and_true]
    exact ⟨(carries_action operation.action).sound_some, (carries_id operation.target).sound_some,
      Carries.sound_map keyEdit, Carries.sound_map amount, Carries.sound_map entries, Carries.sound_map count,
      Carries.sound_map (carries_texts operation.nonce), Carries.sound_map (carries_texts operation.initialValue)⟩
  · obtain ⟨known, opened, holds⟩ := Fields.ofTree_record operationFields rfl (by decide) shallow
    have readAction := holds.required "action" rfl (carries_action operation.action)
    have readTarget := holds.required "objectId" rfl (carries_id operation.target)
    have readEdit := holds.optional "mapOp" rfl keyEdit (by simp [ofKeyEdit, record])
    have readAmount := holds.optional "counterOp" rfl amount (by simp [ofAmount, record])
    have readEntries := holds.optional "map" rfl entries (by simp [ofEntries, record])
    have readCount := holds.optional "counter" rfl count (by simp [ofCount, record])
    have readNonce := holds.optional "nonce" rfl (carries_texts operation.nonce) (by simp)
    have readInitial := holds.optional "initialValue" rfl (carries_texts operation.initialValue) (by simp)
    rw [← ofOperation] at opened
    simp only [toOperation, opened, bind, Option.bind_some, readAction, readTarget, readEdit, readAmount,
      readEntries, readCount, readNonce, readInitial]

private theorem carries_state {state : ObjectState} (inRange : state.InRange) :
    Carries toState ofState state := by
  have serials : Carries toSerials ofSerials state.serials :=
    carries_map fun serial _ => carries_serial serial
  have createOp : ∀ operation ∈ state.createOp, Carries toOperation ofOperation operation :=
    fun _ held => carries_operation (inRange.createOp _ held)
  have entries : ∀ entries ∈ state.entries, Carries toEntries ofEntries entries :=
    fun _ held => carries_entries (inRange.entries _ held)
  have count : ∀ count ∈ state.count, Carries toCount ofCount count := fun _ _ => carries_count _
  refine ⟨sound_record ?_, fun room shallow => ?_⟩
  · simp only [List.forall_mem_cons, List.not_mem_nil, false_implies, implies_true, and_true]
    exact ⟨(carries_id state.id).sound_some, serials.sound_some, (carries_boolean state.tombstone).sound_some,
      Carries.sound_map createOp, Carries.sound_map entries, Carries.sound_map count⟩
  · obtain ⟨known, opened, holds⟩ := Fields.ofTree_record stateFields rfl (by decide) shallow
    have readId := holds.required "objectId" rfl (carries_id state.id)
    have readSerials := holds.withDefault "siteTimeserials" rfl serials .empty
    have readTombstone := holds.withDefault "tombstone" rfl (carries_boolean state.tombstone) false
    have readCreate := holds.optional "createOp" rfl createOp (by simp [ofOperation, record])
    have readEntries := holds.optional "map" rfl entries (by simp [ofEntries, record])
    have readCount := holds.optional "counter" rfl count (by simp [ofCount, record])
    rw [← ofState] at opened
    simp only [toState, opened, bind, Option.bind_some, readId, readSerials, readTombstone, readCreate,
      readEntries, readCount]

private theorem carries_message {message : Message} (inRange : message.InRange) :
    Carries toMessage ofMessage message := by
  have time : ∀ time ∈ message.timestamp, Carries Decoder.time ofInteger time :=
    fun _ held => carries_time (inRange.timestamp _ held)
  have serial : ∀ serial ∈ message.serial, Carries toSerial ofSerial serial := fun _ _ => carries_serial _
  have operation : ∀ operation ∈ message.operation, Carries toOperation ofOperation operation :=
    fun _ held => carries_operation (inRange.operation _ held)
  have state : ∀ state ∈ message.state, Carries toState ofState state :=
    fun _ held => carries_state (inRange.state _ held)
  refine ⟨sound_record ?_, fun room shallow => ?_⟩
  · simp only [List.forall_mem_cons, List.not_mem_nil, false_implies, implies_true, and_true]
    exact ⟨Carries.sound_map (carries_texts message.id), Carries.sound_map time,
      Carries.sound_map (carries_texts message.clientId), Carries.sound_map (carries_texts message.connectionId),
      Carries.sound_map serial, Carries.sound_map (carries_texts message.site),
      Carries.sound_map operation, Carries.sound_map state⟩
  · obtain ⟨known, opened, holds⟩ := Fields.ofTree_record messageFields rfl (by decide) shallow
    have readId := holds.optional "id" rfl (carries_texts message.id) (by simp)
    have readTime := holds.optional "timestamp" rfl time (by simp [ofInteger])
    have readClient := holds.optional "clientId" rfl (carries_texts message.clientId) (by simp)
    have readConnection := holds.optional "connectionId" rfl (carries_texts message.connectionId) (by simp)
    have readSerial := holds.optional "serial" rfl serial (by simp [ofSerial])
    have readSite := holds.optional "siteCode" rfl (carries_texts message.site) (by simp)
    have readOperation := holds.optional "operation" rfl operation (by simp [ofOperation, record])
    have readState := holds.optional "object" rfl state (by simp [ofState, record])
    rw [← ofMessage] at opened
    simp only [toMessage, opened, bind, Option.bind_some, readId, readTime, readClient, readConnection,
      readSerial, readSite, readOperation, readState]

end Wire

/-! ## Texts of messages -/

/-- The double that a literal is, if it is one. -/
def WireTree.double? : WireTree → Option Double
  | .number (.double value) => some value
  | _ => none

/-- The doubles that are written in a text. -/
def WireTree.doubles (tree : WireTree) : List Double := tree.leaves.filterMap WireTree.double?

/-- The text of the double is read as the double. -/
def Double.ReadsBack (value : Double) : Prop :=
  ((WireTree.readNumber (NumberLayout.wire.render value).toList).map fun (tree, rest) => (tree.double?, rest)) =
    some (some value, [])

instance (value : Double) : Decidable value.ReadsBack := inferInstanceAs (Decidable (_ = _))

private theorem WireTree.legible_double {value : Double} (finite : value.isFinite = true)
    (back : value.ReadsBack) : (WireTree.number (.double value)).Legible := by
  obtain ⟨⟨tree, rest⟩, read, same⟩ := Option.map_eq_some_iff.1 back
  rw [Prod.mk.injEq] at same
  obtain ⟨double, rfl⟩ := same
  have written : tree = .number (.double value) := by
    unfold double? at double
    split at double
    case h_1 =>
      cases double
      rfl
    case h_2 => cases double
  rw [Legible, writeNumber, if_pos finite, read, written]

/-- A tree that has a text is legible if its doubles are. -/
theorem WireTree.Sound.legible {tree : WireTree} (sound : tree.Sound)
    (numbers : ∀ value ∈ tree.doubles, value.isFinite = true ∧ value.ReadsBack) :
    ∀ leaf ∈ tree.leaves, leaf.Legible := by
  intro leaf member
  cases leaf with
  | null | boolean | text | array | object => trivial
  | broken => exact (sound.whole member).elim
  | number number =>
    cases number with
    | integer value => exact readNumber_writeInteger (sound.bounded value member)
    | double value =>
      obtain ⟨finite, back⟩ := numbers value (List.mem_filterMap.2 ⟨_, member, rfl⟩)
      exact legible_double finite back

namespace Message

/-- The text of the message keeps its numbers, and readers can go as deep as it is. -/
structure Portable (message : Message) : Prop where
  numbers : ∀ value ∈ (Wire.ofMessage message).doubles, value.isFinite = true ∧ value.ReadsBack
  shallow : (Wire.ofMessage message).depth < 128

theorem ofText?_toText {message : Message} (inRange : message.InRange)
    (portable : message.Portable) : ofText? message.toText = some message := by
  have carries := Wire.carries_message inRange
  have tree := WireTree.ofText?_render (carries.sound.legible portable.numbers)
  have within : (Wire.ofMessage message).depth ≤ Wire.nestingLimit := Nat.le_of_lt_succ portable.shallow
  rw [ofText?, toText, tree, Option.bind_some, Wire.Decoder.run, carries.undone _ within]

private theorem inRange_of_ofText? {text : String} {message : Message}
    (read : ofText? text = some message) : message.InRange := by
  obtain ⟨tree, found, decoded⟩ := Option.bind_eq_some_iff.1 read
  exact Wire.ensures_message _ tree message (WireTree.bounded_of_ofText? found) decoded

/-- A message is read back from its text, whatever it holds, if the doubles in it are finite and
read back themselves, and if its text is not too deep. So what is read from any text stays the
same when it is written and read again. -/
theorem round_trip :
    (∀ message : Message, message.InRange → message.Portable → ofText? message.toText = some message) ∧
      ∀ text message, ofText? text = some message → message.Portable →
        ofText? message.toText = some message :=
  ⟨fun _ inRange portable => ofText?_toText inRange portable,
    fun _ _ read portable => ofText?_toText (inRange_of_ofText? read) portable⟩

private def fractionUnits : Nat := 5 * Nat.pow 2 1073

/-- This is 2.5. -/
private def fraction : Double :=
  .finite false fractionUnits ⟨by decide +kernel, 5, 1073, by decide, by decide +kernel⟩

private theorem readsBack_fraction : fraction.ReadsBack := by
  have shortest : Decimal.shortest .toEven fractionUnits = ⟨25, -1⟩ := by
    -- it takes long to compute the length of a text, but not that of the list of its characters
    simp only [Decimal.shortest, Decimal.magnitude, ← String.length_toList, Nat.toList_repr]
    decide +kernel
  have written : NumberLayout.wire.unsigned fractionUnits = "2.5".toList := by
    have positive : fractionUnits ≠ 0 := by decide +kernel
    simp only [NumberLayout.unsigned, positive, ↓reduceIte, NumberLayout.wire, shortest]
    decide +kernel
  have rendered : NumberLayout.wire.render fraction = "2.5" := by
    change String.ofList ([] ++ NumberLayout.wire.unsigned fractionUnits) = _
    rw [written]
    rfl
  rw [Double.ReadsBack, rendered]
  decide +kernel

private def noted : Message :=
  { id := some "m"
    timestamp := some (-7)
    serial := some ⟨"01"⟩
    site := some "a"
    operation := some
      { action := .mapSet
        target := .root
        keyEdit := some ⟨"a \"quoted\" key",
          some (.json (.object [("", .null), ("n", .number (.integer 5))]))⟩
        amount := some fraction } }

/-- A message with a JSON value and a fraction in it. -/
theorem round_trip_noted : ofText? noted.toText = some noted := by
  have inRange : noted.InRange := by
    refine ⟨?_, ?_, by simp [noted]⟩
    · rintro time ⟨⟩
      decide
    · rintro operation ⟨⟩
      refine ⟨?_, by simp⟩
      rintro edit ⟨⟩ data ⟨⟩
      have ordered : Ascending [("", Json.null), ("n", .number (.integer 5))] :=
        List.pairwise_pair.2 (by decide)
      have fits : WireTree.Fits 5 := ⟨by decide, by decide⟩
      exact ⟨ordered, trivial, fits, trivial⟩
  have numbers : ∀ value ∈ (Wire.ofMessage noted).doubles, value = fraction := by
    decide +kernel
  refine round_trip.1 noted inRange ⟨fun value member => ?_, by decide +kernel⟩
  rw [numbers value member]
  exact ⟨rfl, readsBack_fraction⟩

/-- A text of sixteen digits need not be read as the double that is nearest to it. -/
example : (WireTree.readNumber "970.8101817341505".toList).bind (fun found => found.1.double?) ≠
    some (.ofQuotient 9708101817341505 10000000000000) := by decide +kernel

end Message

end SharedGraph
