import SharedGraph.Proofs.Snapshots

/-! Where the contents of maps come from. Whatever stands in a map was brought there by an
operation that had it checked, and what it points to became known together with it. So a
graph that only operations changed can be described, and its description is complete. -/
namespace SharedGraph

namespace Entries

theorem settle_cases (recorded : Option Entry) (entry : Entry) :
    recorded = some (settle recorded entry) ∨ settle recorded entry = entry := by
  unfold settle
  split
  case h_1 old =>
    split
    · exact .inr rfl
    · exact .inl rfl
  case h_2 => exact .inr rfl

theorem check_eq_ok {entries : Entries} : Entries.check entries = .ok () ↔
    ∀ key entry data, entries.get? key = some entry → entry.data = some data → data.check = .ok () := by
  simp only [Entries.check, forM_eq_ok, List.mem_filterMap, SortedMap.mem_values_iff]
  constructor
  · intro fine key entry data present held
    exact fine data ⟨entry, ⟨key, present⟩, held⟩
  · rintro fine data ⟨entry, ⟨key, present⟩, held⟩
    exact fine key entry data present held

end Entries

theorem Entry.data_of_value? {entry : Entry} {data : Data} (value : entry.value? = some data) :
    entry.data = some data := by
  unfold Entry.value? at value
  split at value
  · cases value
  · exact value

theorem Data.isValid_of_check {data : Data} (fine : data.check = .ok ()) {id : ObjectId}
    (points : data.target? = some id) : id.isValid = true := by
  cases data with
  | reference target =>
    cases points
    simp only [Data.check] at fine
    split at fine
    case isTrue valid => exact valid
    case isFalse => cases fine
  | text | number | boolean | bytes | json => cases points

/-- Entries whose data is in order point to valid names only. -/
theorem Entries.isValid_of_check {entries : Entries} (fine : Entries.check entries = .ok ()) {id : ObjectId}
    (points : id ∈ entries.references) : id.isValid = true := by
  obtain ⟨entry, stored, points⟩ := List.mem_filterMap.1 points
  obtain ⟨key, present⟩ := SortedMap.mem_values_iff.1 stored
  obtain ⟨data, value, pointsToo⟩ := Option.bind_eq_some_iff.1 points
  have checked := Entries.check_eq_ok.1 fine key entry data present (Entry.data_of_value? value)
  exact Data.isValid_of_check checked pointsToo

/-- An operation whose parts are in order points to valid names only. -/
theorem Operation.isValid_references {operation : Operation}
    (edited : ∀ edit data, operation.keyEdit = some edit → edit.data = some data → data.check = .ok ())
    (first : Entries.check operation.firstEntries = .ok ()) :
    ∀ id ∈ operation.references, id.isValid = true := by
  intro id referenced
  rcases List.mem_append.1 referenced with inEdit | inEntries
  · rw [Option.mem_toList, Option.bind_eq_some_iff] at inEdit
    obtain ⟨data, held, points⟩ := inEdit
    obtain ⟨edit, given, written⟩ := Option.bind_eq_some_iff.1 held
    exact Data.isValid_of_check (edited edit data given written) points
  · exact Entries.isValid_of_check first inEntries

/-- An entry that the operation may leave in a map: its data is in order, and if it points
to an object, then to one that the operation mentions. -/
def Operation.Brings (operation : Operation) (entry : Entry) : Prop :=
  ∀ data, entry.data = some data →
    data.check = .ok () ∧ ∀ id, data.target? = some id → id ∈ operation.references

namespace Operation

variable {operation : Operation}

private theorem brings_live {key : String} {data : Data}
    (edited : operation.keyEdit = some ⟨key, some data⟩)
    (fine : data.check = .ok ()) (serial : Option Serial) : operation.Brings (.live data serial) := by
  intro held same
  cases same
  refine ⟨fine, fun id points => ?_⟩
  simp only [references, edited, Option.bind_some, points, Option.toList_some, List.mem_append,
    List.mem_singleton, true_or]

private theorem brings_removed (operation : Operation) (serial : Option Serial) (time : Int) :
    operation.Brings (.removed serial time) := by
  intro data held
  cases held

theorem check_firstEntries (fine : operation.checkCreate = .ok ()) :
    Entries.check operation.firstEntries = .ok () := by
  unfold checkCreate at fine
  unfold firstEntries
  split at fine
  case isTrue => cases fine
  case isFalse =>
    cases given : operation.entries with
    | none => rfl
    | some entries => rwa [given, Option.map_some, Option.getD_some] at fine

theorem brings_initialWrite (fine : operation.checkCreate = .ok ()) {key : String} {entry : Entry}
    (brought : operation.firstEntries.get? key = some entry) (time : Int) :
    operation.Brings (Entries.initialWrite time entry) := by
  unfold Entries.initialWrite
  cases value : entry.value? with
  | none => exact brings_removed operation _ _
  | some data =>
    intro held same
    cases same
    refine ⟨Entries.check_eq_ok.1 (check_firstEntries fine) key entry data brought
      (Entry.data_of_value? value), ?_⟩
    intro id points
    refine List.mem_append.2 (.inr (List.mem_filterMap.2 ⟨entry, ?_, ?_⟩))
    · exact SortedMap.mem_values_iff.2 ⟨key, brought⟩
    · rw [Entry.target?, value, Option.bind_some, points]

end Operation

namespace LiveObject

variable {object : LiveObject} {operation : Operation} {step : Step}

theorem entry?_of_kind (counter : object.kind = .counter) (key : String) : object.entry? key = none := by
  obtain ⟨count, held⟩ := exists_count counter
  exact entry?_of_counter held key

private theorem asks_of_stepFor? {effect : MapEffect} {entries : Entries}
    (asked : object.stepFor? operation = some (.map effect entries)) :
    operation.Asks (.onMap effect) := by
  obtain ⟨-, found, complete, made⟩ := effect_of_stepFor? asked
  have asks := (Operation.asks_of_effect complete).2
  rw [show object.contents = .map entries from fits_of_stepFor? asked] at made
  cases found with
  | delete => cases made
  | onCounter other => cases made
  | onMap other =>
    cases made
    exact asks

/-- What a step leaves in a map stood there before or was brought by the operation. -/
theorem entry?_run (asked : object.stepFor? operation = some step) (origin : String × Serial) (time : Int)
    {key : String} {entry : Entry}
    (present : LiveObject.entry? ((object.admitting origin).run step origin.2 time).2 key = some entry) :
    object.entry? key = some entry ∨ operation.Brings entry := by
  have fits : step.Fits (object.admitting origin).contents := fits_of_stepFor? asked
  cases step with
  | delete =>
    have emptied : ((object.admitting origin).run .delete origin.2 time).2.contents =
        .initial object.kind := rfl
    rw [entry?_initial emptied] at present
    cases present
  | counter change count =>
    have held : object.contents = .counter count := fits
    have counter : (object.admitting origin).kind = .counter := by
      rw [kind, show (object.admitting origin).contents = _ from held]
      rfl
    rw [entry?_of_kind ((run_kind fits origin.2 time).trans counter)] at present
    cases present
  | map change entries =>
    have held : object.contents = .map entries := fits
    have settled {new : Entry} (brings : operation.Brings new) {probe : String}
        (same : some (Entries.settle (entries.get? probe) new) = some entry) :
        object.entry? probe = some entry ∨ operation.Brings entry := by
      rw [entry?_of_map held]
      rcases Entries.settle_cases (entries.get? probe) new with kept | wins
      · exact .inl (kept.trans same)
      · rw [wins, Option.some.injEq] at same
        exact .inr (same ▸ brings)
    have written {target : String} {new : Entry} (brings : operation.Brings new)
        (same : (Entries.write entries target new).2.get? key = some entry) :
        object.entry? key = some entry ∨ operation.Brings entry := by
      rw [Entries.get?_write] at same
      split at same
      case isTrue equal => exact settled brings (equal ▸ same)
      case isFalse => exact .inl ((entry?_of_map held key).trans same)
    cases asks_of_stepFor? asked with
    | set acts edited fine =>
      rw [entry?_of_map rfl] at present
      exact written (Operation.brings_live edited fine _) present
    | remove acts edited =>
      rw [entry?_of_map rfl] at present
      exact written (operation.brings_removed _ _) present
    | createMap acts fine =>
      simp only [run, mergeEntries] at present
      split at present
      case isTrue => exact .inl present
      case isFalse =>
        rw [entry?_of_map rfl, Entries.get?_mergeInitial] at present
        cases brought : operation.firstEntries.get? key with
        | none =>
          rw [brought, Option.map_none, Option.none_or] at present
          exact .inl ((entry?_of_map held key).trans present)
        | some first =>
          rw [brought, Option.map_some, Option.some_or] at present
          exact settled (Operation.brings_initialWrite fine brought time) present

private theorem entry?_take (object : LiveObject) (operation : Operation) (message : Message)
    {key : String}
    {entry : Entry} (present : LiveObject.entry? (object.take operation message) key = some entry) :
    object.entry? key = some entry ∨ operation.Brings entry := by
  rcases object.take_cases operation message with same | ⟨step, origin, asked, -, -, same⟩
  · exact .inl (same ▸ present)
  · rw [same, carry] at present
    split at present
    case isTrue => exact .inl present
    case isFalse => exact entry?_run asked origin _ present

end LiveObject

/-- A message as a hub hands it out: dated, and with a complete operation that points to
valid names only. -/
structure Message.Issued (message : Message) : Prop where
  dated : message.timestamp.isSome = true
  stateless : message.state = none
  complete : ∃ operation, message.operation = some operation ∧ operation.check = .ok () ∧
    ∀ id ∈ operation.references, id.isValid = true

theorem Operation.isValid_target {operation : Operation} (complete : operation.check = .ok ()) :
    operation.target.isValid = true := by
  obtain ⟨effect, effectSame⟩ := effect_of_check complete
  have checked := (asks_of_effect effectSame).1
  unfold checkTarget at checked
  split at checked
  case isTrue => cases checked
  split at checked
  case isTrue => cases checked
  case isFalse valid => simpa only [Bool.not_eq_true', Bool.not_eq_false] using valid

theorem Message.Issued.isValid {message : Message} (issued : message.Issued) {id : ObjectId}
    (mentioned : id ∈ message.mentioned) : id.isValid = true := by
  obtain ⟨operation, carried, complete, valid⟩ := issued.complete
  rw [mentioned_of_check carried complete, List.mem_cons] at mentioned
  rcases mentioned with rfl | referenced
  · exact Operation.isValid_target complete
  · exact valid id referenced

namespace Graph

/-- What keeps a graph in one piece: the root is there, all data is in order, and whatever
a map points to is known. -/
structure Orderly (graph : Graph) : Prop where
  sound : graph.Sound
  rooted : (graph.get? .root).isSome = true
  fine : ∀ id object key entry data, graph.get? id = some object → object.entry? key = some entry →
    entry.data = some data → data.check = .ok ()
  closed : ∀ id object key entry target, graph.get? id = some object → object.entry? key = some entry →
    entry.target? = some target → (graph.get? target).isSome = true

theorem orderly_initial : Orderly .initial where
  sound := sound_initial
  rooted := by
    rw [initial, SortedMap.get?_insert_self]
    rfl
  fine id object key entry data present written := by
    rw [(get?_initial present).2, LiveObject.entry?_of_map rfl] at written
    cases written
  closed id object key entry target present written := by
    rw [(get?_initial present).2, LiveObject.entry?_of_map rfl] at written
    cases written

/-- A graph that can be described as a whole: all names are valid, all data is in order,
and whatever a map points to is known. -/
structure Presentable (graph : Graph) : Prop where
  sound : graph.Sound
  rooted : (graph.get? .root).isSome = true
  valid : ∀ id object, graph.get? id = some object → id.isValid = true
  fine : ∀ id object key entry data, graph.get? id = some object → object.entry? key = some entry →
    entry.data = some data → data.check = .ok ()
  closed : ∀ id object key entry target, graph.get? id = some object → object.entry? key = some entry →
    entry.target? = some target → (graph.get? target).isSome = true

theorem Presentable.orderly {graph : Graph} (presentable : graph.Presentable) : graph.Orderly :=
  ⟨presentable.sound, presentable.rooted, presentable.fine, presentable.closed⟩

theorem Orderly.presentable {graph : Graph} (orderly : graph.Orderly)
    (valid : ∀ id object, graph.get? id = some object → id.isValid = true) : graph.Presentable :=
  ⟨orderly.sound, orderly.rooted, valid, orderly.fine, orderly.closed⟩

theorem presentable_initial : Presentable .initial :=
  orderly_initial.presentable fun id object present => by
    rw [(get?_initial present).1]
    rfl

variable {graph : Graph}

/-- Nothing that was known is forgotten when a message is delivered. -/
theorem isSome_deliver (sound : graph.Sound) (message : Message) (now : Int) {id : ObjectId}
    (known : (graph.get? id).isSome = true) : ((graph.deliver message now).2.get? id).isSome = true := by
  obtain ⟨object, present⟩ := Option.isSome_iff_exists.1 known
  rw [get?_deliver sound.keyed, orPlaceholder_of_get? present, present, ite_self]
  rfl

/-- Whatever a message mentions is known from then on, if its name shows a kind. -/
theorem isSome_deliver_of_mentioned (sound : graph.Sound) {message : Message} (now : Int) {id : ObjectId}
    (mentioned : id ∈ message.mentioned) (valid : id.isValid = true) :
    ((graph.deliver message now).2.get? id).isSome = true := by
  obtain ⟨kind, shown⟩ := Option.isSome_iff_exists.1 (ObjectId.isSome_kind?_of_isValid valid)
  rw [get?_deliver sound.keyed, if_pos mentioned, Option.isSome_map, ← objectOr_of_kind graph shown]
  rfl

/-- An entry after a delivery was there before or was brought by the message. -/
theorem entry?_deliver (sound : graph.Sound) {message : Message} {operation : Operation}
    (carried : message.operation = some operation) (now : Int) {id : ObjectId} {object : LiveObject}
    {key : String} {entry : Entry} (present : (graph.deliver message now).2.get? id = some object)
    (written : object.entry? key = some entry) :
    (∃ before, graph.get? id = some before ∧ before.entry? key = some entry) ∨ operation.Brings entry := by
  rw [get?_deliver sound.keyed, Option.map_eq_some_iff] at present
  obtain ⟨before, known, rfl⟩ := present
  have heard : before.hear (message.stampedAt now) = before.take operation (message.stampedAt now) := by
    simp only [LiveObject.hear, Message.stampedAt, carried]
  rw [heard] at written
  rcases before.entry?_take operation _ written with kept | brought
  · exact .inl ⟨before, get?_of_written known kept, kept⟩
  · exact .inr brought

/-- Whatever message is delivered, the maps stay in order. -/
theorem Orderly.deliver (orderly : graph.Orderly) (message : Message) (now : Int) :
    (graph.deliver message now).2.Orderly := by
  rcases complete_or_idle message with ⟨operation, carried, complete⟩ | ⟨idle, -⟩
  case inr =>
    rw [Graph.deliver, idle]
    exact orderly
  have sound := orderly.sound
  refine ⟨sound.deliver message now, isSome_deliver sound message now orderly.rooted, ?_, ?_⟩
  · intro id object key entry data present written held
    rcases entry?_deliver sound carried now present written with ⟨before, known, kept⟩ | brought
    · exact orderly.fine id before key entry data known kept held
    · exact (brought data held).1
  · intro id object key entry target present written points
    rcases entry?_deliver sound carried now present written with ⟨before, known, kept⟩ | brought
    · exact isSome_deliver sound message now (orderly.closed id before key entry target known kept points)
    · obtain ⟨data, value, pointsToo⟩ := Option.bind_eq_some_iff.1 points
      obtain ⟨fine, referenced⟩ := brought data (Entry.data_of_value? value)
      refine isSome_deliver_of_mentioned sound now ?_ (Data.isValid_of_check fine pointsToo)
      rw [Message.mentioned_of_check carried complete]
      exact List.mem_cons_of_mem _ (referenced target pointsToo)

/-- A graph stays presentable as long as hubs hand out its messages. -/
theorem Presentable.deliver (presentable : graph.Presentable) {message : Message} (issued : message.Issued)
    (now : Int) : (graph.deliver message now).2.Presentable := by
  refine (presentable.orderly.deliver message now).presentable fun id object present => ?_
  rw [get?_deliver presentable.sound.keyed, Option.map_eq_some_iff] at present
  obtain ⟨before, known, -⟩ := present
  split at known
  case isTrue mentioned => exact issued.isValid mentioned
  case isFalse => exact presentable.valid id before known

/-- The description of an object of an orderly graph is accepted if its name is valid. -/
theorem Orderly.check_toState_iff (orderly : graph.Orderly) {id : ObjectId} {object : LiveObject}
    (present : graph.get? id = some object) : object.toState.check = .ok () ↔ id.isValid = true := by
  have named : object.toState.id = id := orderly.sound.keyed id object present
  have shown := orderly.sound.kinds id object present
  have kindFine : object.toState.kind = .ok object.kind := by
    rw [LiveObject.kind_toState, orderly.sound.keyed id object present, shown, if_pos]
    simp only [Option.all_some, beq_self_eq_true]
  have entriesFine : (object.toState.entries.map Entries.check).getD (.ok ()) = .ok () := by
    unfold LiveObject.toState LiveObject.entries?
    cases held : object.contents with
    | counter count => rfl
    | map entries =>
      refine Entries.check_eq_ok.2 fun key entry data written carried => ?_
      exact orderly.fine id object key entry data present
        ((LiveObject.entry?_of_map held key).trans written) carried
  have plain : object.toState.checkCreate = .ok () := rfl
  cases valid : id.isValid with
  | true => simp only [ObjectState.check, named, valid, ↓reduceIte, kindFine, plain, entriesFine, bind, Except.bind]
  | false => simp only [ObjectState.check, named, valid, Bool.false_eq_true, ↓reduceIte, bind, Except.bind, reduceCtorEq]

/-- The description of each object of a presentable graph is in order. -/
theorem Presentable.check_toState (presentable : graph.Presentable) {id : ObjectId} {object : LiveObject}
    (present : graph.get? id = some object) : object.toState.check = .ok () :=
  (presentable.orderly.check_toState_iff present).2 (presentable.valid id object present)

theorem Presentable.check_describe (presentable : graph.Presentable) :
    ∀ state ∈ graph.describe, state.check = .ok () := by
  intro state member
  obtain ⟨object, held, rfl⟩ := List.mem_map.1 member
  obtain ⟨id, present⟩ := SortedMap.mem_values_iff.1 held
  exact presentable.check_toState present

end Graph

end SharedGraph
