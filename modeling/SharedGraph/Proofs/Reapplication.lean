import SharedGraph.Proofs.Overriding

/-! A complete description that is applied again. What it lists is as it says already. Yet the
first time it brought placeholders of objects along to which it points without listing them; the
second time these are objects that the service does not know, and they are deleted like all
others. After that nothing changes any more. -/
namespace SharedGraph

/-! ## Values that equal themselves -/

namespace Double

private theorem equal_self {value : Double} (finite : value.isFinite = true) :
    value.equal value = true := by
  cases value with
  | finite negative units held => simp only [equal, beq_self_eq_true, Bool.true_or, Bool.and_self]
  | nan | infinity => cases finite

theorem sub_self {value : Double} (finite : value.isFinite = true) : value.sub value = zero false := by
  cases value with
  | nan | infinity => cases finite
  | finite negative units held => cases negative <;> simp [sub, neg, add]

/-- An infinite number and an undefined one have no difference. -/
theorem sub_self_of_infinite {value : Double} (infinite : value.isFinite = false) :
    value.sub value = .nan := by
  cases value with
  | finite => cases infinite
  | nan => rfl
  | infinity negative => cases negative <;> rfl

end Double

def JsonNumber.isFinite : JsonNumber → Bool
  | .integer _ => true
  | .double value => value.isFinite

namespace Json

mutual

/-- Whether all numbers are finite, as in every JSON text. -/
def isFinite : Json → Bool
  | .number value => value.isFinite
  | .array items => itemsFinite items
  | .object fields => fieldsFinite fields
  | _ => true
  termination_by structural value => value

def itemsFinite : List Json → Bool
  | [] => true
  | item :: rest => item.isFinite && itemsFinite rest

def fieldFinite : String × Json → Bool
  | (_, value) => value.isFinite

def fieldsFinite : List (String × Json) → Bool
  | [] => true
  | field :: rest => fieldFinite field && fieldsFinite rest

end

mutual

theorem agrees_self (value : Json) (finite : value.isFinite = true) : value.agrees value = true := by
  cases value with
  | null => rfl
  | boolean => simp only [agrees, beq_self_eq_true]
  | text => simp only [agrees, beq_self_eq_true]
  | number number =>
    cases number with
    | integer => simp only [agrees, JsonNumber.agrees, beq_self_eq_true]
    | double => exact Double.equal_self finite
  | array items => exact agreeItems_self items finite
  | object fields => exact agreeFields_self fields finite
  termination_by structural value

private theorem agreeItems_self (items : List Json) (finite : itemsFinite items = true) :
    agreeItems items items = true := by
  cases items with
  | nil => rfl
  | cons item rest =>
    simp only [itemsFinite, Bool.and_eq_true] at finite
    simp only [agreeItems, Bool.and_eq_true]
    exact ⟨agrees_self item finite.1, agreeItems_self rest finite.2⟩
  termination_by structural items

private theorem agreeField_self (field : String × Json) (finite : fieldFinite field = true) :
    agreeField field field = true := by
  obtain ⟨name, value⟩ := field
  simp only [agreeField, beq_self_eq_true, Bool.true_and]
  exact agrees_self value finite
  termination_by structural field

private theorem agreeFields_self (fields : List (String × Json)) (finite : fieldsFinite fields = true) :
    agreeFields fields fields = true := by
  cases fields with
  | nil => rfl
  | cons field rest =>
    simp only [fieldsFinite, Bool.and_eq_true] at finite
    simp only [agreeFields, Bool.and_eq_true]
    exact ⟨agreeField_self field finite.1, agreeFields_self rest finite.2⟩
  termination_by structural fields

end

end Json

/-- What passes its check equals itself, unless there is an undefined number inside of it. -/
theorem Data.agrees_self {data : Data} (checked : data.check = .ok ())
    (finite : ∀ value, data = .json value → value.isFinite = true) : data.agrees data = true := by
  cases data with
  | number value =>
    simp only [check] at checked
    split at checked
    case isTrue fine => exact Double.equal_self fine
    case isFalse => cases checked
  | json value => exact value.agrees_self (finite value rfl)
  | reference | text | boolean | bytes => simp only [agrees, beq_self_eq_true]

namespace LiveObject

variable {object : LiveObject} {state : ObjectState}

/-- What is reported when a live description is taken over. -/
theorem takeOver_update_of_live (live : state.tombstone = false) (time : Int) :
    (object.takeOver state time).1 =
      match object.contents with
      | .map before => .ofKeys object.id (diffEntries before (state.entriesAt time))
      | .counter before => .ofAmount object.id (state.total.sub before) := by
  unfold takeOver
  rw [if_neg (Bool.eq_false_iff.1 live)]
  unfold adopt ObjectState.entriesAt ObjectState.total
  simp only [relisted]
  cases object.contents <;> cases state.createOp <;> rfl

/-- An object that takes the same description over once more stays as it is. -/
theorem takeOver_again (sound : object.Sound) (state : ObjectState) (time : Int) :
    ((object.takeOver state time).2.takeOver state time).2 = (object.takeOver state time).2 := by
  obtain ⟨named, kindSame, dead, fine⟩ := takeOver_spec sound state time
  by_cases deleted : state.tombstone = true
  · rw [takeOver_of_dead fine deleted, kindSame, dead.trans deleted, takeOver_of_dead sound deleted]
    rfl
  · have live := Bool.eq_false_iff.2 deleted
    rw [takeOver_of_live live, named, kindSame, takeOver_of_live live]

/-- What it reports then is how its contents differ from themselves. -/
theorem takeOver_update_again (sound : object.Sound) (state : ObjectState) (time : Int) {next : LiveObject}
    (took : (object.takeOver state time).2 = next) :
    (next.takeOver state time).1 =
      match next.contents with
      | .map entries => .ofKeys next.id (diffEntries entries entries)
      | .counter count => .ofAmount next.id (count.sub count) := by
  obtain ⟨-, -, dead, fine⟩ := takeOver_spec sound state time
  rw [took] at dead fine
  by_cases deleted : state.tombstone = true
  · have gone : next.tombstone = true := dead.trans deleted
    have told : (next.takeOver state time).1 = next.emptyUpdate := by
      unfold takeOver
      rw [if_pos deleted, if_pos gone]
      rfl
    rw [told, emptyUpdate, fine.emptied gone]
    cases next.kind with
    | map => rfl
    | counter =>
      simp only [Contents.initial]
      rw [Double.sub_self rfl]
  · have live := Bool.eq_false_iff.2 deleted
    have held : next.contents = state.contentsAt object.kind time := by rw [← took, takeOver_of_live live]
    rw [takeOver_update_of_live live, held]
    unfold ObjectState.contentsAt
    rw [if_neg deleted]
    cases object.kind <;> rfl

end LiveObject

namespace Graph

variable {graph next last : Graph} {states : List ObjectState} {now : Int} {updates : List Update}
  {id : ObjectId} {object : LiveObject}

/-- A name that a complete description brought into the graph without describing it: something
that it describes points there. -/
def stranded (before next : Graph) (states : List ObjectState) (id : ObjectId) : Bool :=
  next.contains id && !before.contains id && !(describedStates states).contains id

/-- What is not described is deleted, or it is a placeholder that was not there before. -/
theorem of_get?_undescribed (sound : graph.Sound)
    (applied : graph.applySnapshot states now = .ok (updates, next))
    (missing : (describedStates states).get? id = none) (present : next.get? id = some object) :
    object.tombstone = true ∧ stranded graph next states id = false ∨
      (∃ kind, object = .placeholder id kind) ∧ stranded graph next states id = true := by
  obtain ⟨working, graphSame, -, result⟩ := applySnapshot_eq sound (check_of_applySnapshot applied) now
  rw [applied, Except.ok.injEq, Prod.mk.injEq] at result
  obtain ⟨-, rfl⟩ := result
  have became : graph.replaced states now id = (graph.get? id).map fun known => absentObject known now := by
    rw [replaced, missing]
  simp only [stranded, SortedMap.contains_eq_isSome, present, missing, Option.isSome_some, Option.isSome_none,
    Bool.true_and, Bool.not_false, Bool.and_true, Bool.not_eq_false', Bool.not_eq_true',
    Option.isSome_eq_false_iff, Option.isNone_iff_eq_none]
  rcases grown_closeReferences working.graph id with same | ⟨unknown, kind, -, placed⟩
  · rw [present, graphSame, became, eq_comm, Option.map_eq_some_iff] at same
    obtain ⟨result, taken, rfl⟩ := same
    obtain ⟨known, there, rfl⟩ := Option.map_eq_some_iff.1 taken
    exact .inl ⟨tombstone_absentObject known now, by rw [there]; rfl⟩
  · rw [graphSame, became, Option.map_eq_none_iff, Option.map_eq_none_iff] at unknown
    exact .inr ⟨⟨kind, Option.some.inj (present.symm.trans placed)⟩, unknown⟩

private theorem undescribed_of_stranded (new : stranded graph next states id = true) :
    (describedStates states).get? id = none := by
  simp only [stranded, Bool.and_eq_true, Bool.not_eq_true'] at new
  exact Option.isNone_iff_eq_none.1 (Option.isSome_eq_false_iff.1 new.2)

private theorem exists_placeholder_of_stranded (sound : graph.Sound)
    (applied : graph.applySnapshot states now = .ok (updates, next))
    (new : stranded graph next states id = true) : ∃ kind, next.get? id = some (.placeholder id kind) := by
  have known : next.contains id = true := by
    simp only [stranded, Bool.and_eq_true] at new
    exact new.1.1
  obtain ⟨object, present⟩ := Option.isSome_iff_exists.1 known
  rcases of_get?_undescribed sound applied (undescribed_of_stranded new) present with ⟨-, kept⟩ | ⟨⟨kind, rfl⟩, -⟩
  · rw [kept] at new
    cases new
  · exact ⟨kind, present⟩

/-- When the description comes again, it deletes what it brought along without describing it. -/
theorem replaced_again_of_stranded (sound : graph.Sound)
    (applied : graph.applySnapshot states now = .ok (updates, next)) (present : next.get? id = some object)
    (new : stranded graph next states id = true) :
    next.replaced states now id = some (some (object.delete now).1, (object.delete now).2) := by
  obtain ⟨kind, placed⟩ := exists_placeholder_of_stranded sound applied new
  obtain rfl := Option.some.inj (present.symm.trans placed)
  rw [replaced, undescribed_of_stranded new, present]
  rfl

/-- It leaves every other object as it is, and what it says of it is how it differs from itself. -/
theorem replaced_again_of_kept (sound : graph.Sound)
    (applied : graph.applySnapshot states now = .ok (updates, next)) (present : next.get? id = some object)
    (kept : stranded graph next states id = false) :
    ∃ told, next.replaced states now id = some (told, object) ∧
      (∀ update, told = some update → ∃ change, update = { id, change }) ∧
      ∀ count, object.contents = .counter count →
        (told.filter fun update => !update.isNoop) =
          if count.isFinite then none else some (.ofAmount id .nan) := by
  have checked := check_of_applySnapshot applied
  have nextSound := sound.applySnapshot applied
  cases described : (describedStates states).get? id with
  | none =>
    rcases of_get?_undescribed sound applied described present with ⟨dead, -⟩ | ⟨-, new⟩
    case inr =>
      rw [kept] at new
      cases new
    have silent (update : Update) (told : none = some update) : ∃ change, update = { id, change } := by
      cases told
    refine ⟨none, ?_, silent, fun count held => ?_⟩
    · rw [replaced, described, present, Option.map_some, absentObject, if_pos dead]
    · have empty := (nextSound.objects id object present).emptied dead
      rw [LiveObject.kind, held] at empty
      obtain rfl : count = .zero false := Contents.counter.inj empty
      rfl
  | some state =>
    obtain ⟨known, placed, same⟩ := exists_orPlaceholder graph checked described
    obtain ⟨twin, placedNext, sameNext⟩ := exists_orPlaceholder next checked described
    obtain rfl : object = twin := Option.some.inj ((orPlaceholder_of_get? present).symm.trans placedNext)
    have took : (known.takeOver state now).2 = object := by
      rw [← same]
      exact Option.some.inj ((get?_of_described sound applied described).symm.trans present)
    have fine := (sound.orPlaceholder placed).2.2
    have stays : (object.takeOver state now).2 = object := by rw [← took, LiveObject.takeOver_again fine]
    have told := LiveObject.takeOver_update_again fine state now took
    rw [nextSound.keyed id object present] at told
    refine ⟨some (object.takeOver state now).1, ?_, fun update same => ?_, fun count held => ?_⟩
    · simp only [replaced, described, sameNext, stays]
    · obtain rfl := Option.some.inj same
      rw [told]
      cases object.contents <;> exact ⟨_, rfl⟩
    · rw [told, held, Option.filter_some]
      cases finite : count.isFinite with
      | true =>
        simp only [Double.sub_self finite]
        rfl
      | false =>
        simp only [Double.sub_self_of_infinite finite]
        rfl

/-- The keys of a map under which readers lose something when other objects are deleted. -/
def hiddenKeys (gone : ObjectId → Bool) (entries : Entries) : KeyChanges :=
  (entries.filter fun _ entry => entry.target?.any gone).map fun _ _ => .removed

/-- What is reported of an object when nothing changes but that others are deleted. The
difference of an infinite count to itself is not zero. -/
def repeatUpdate (gone : ObjectId → Bool) (id : ObjectId) (object : LiveObject) : Option Update :=
  if gone id then some { object.emptyUpdate with tombstone := true }
  else
    match object.contents with
    | .map entries =>
      if (hiddenKeys gone entries).isEmpty then none else some (.ofKeys id (hiddenKeys gone entries))
    | .counter count => if count.isFinite then none else some (.ofAmount id .nan)

/-- The graph without some of its live objects. -/
structure Hidden (gone : ObjectId → Bool) (next last : Graph) : Prop where
  fresh : ∀ id, gone id = true → next.isTombstoned id = false
  dead : ∀ id, last.isTombstoned id = (gone id || next.isTombstoned id)

private theorem Hidden.between_valueOf {gone : ObjectId → Bool} (hidden : Hidden gone next last)
    {entry : Entry} (definite : ∀ data, entry.value? = some data → data.agrees data = true) :
    KeyChange.between (next.valueOf entry) (last.valueOf entry) =
      if entry.target?.any gone then some .removed else none := by
  unfold valueOf Entry.target?
  cases shows : entry.value? with
  | none => rfl
  | some data =>
    have same := definite data shows
    rw [Option.bind_some]
    cases points : data.target? with
    | none =>
      simp only [Option.filter_some, points, Option.any_none, Bool.not_false, ↓reduceIte, KeyChange.between,
        same, Bool.false_eq_true]
    | some target =>
      simp only [Option.filter_some, points, Option.any_some, hidden.dead target]
      by_cases vanishes : gone target = true
      · simp only [vanishes, hidden.fresh target vanishes, Bool.true_or, Bool.not_true, Bool.not_false,
          Bool.false_eq_true, ↓reduceIte, KeyChange.between]
      · simp only [vanishes, Bool.false_or, Bool.false_eq_true, ↓reduceIte]
        by_cases dead : next.isTombstoned target = true
        · simp only [dead, Bool.not_true, Bool.false_eq_true, ↓reduceIte, KeyChange.between]
        · simp only [dead, Bool.not_false, ↓reduceIte, KeyChange.between, same]

/-- Of a map that stays as it is, the keys that point to what was deleted are reported. -/
theorem Hidden.readerChanges {gone : ObjectId → Bool} (hidden : Hidden gone next last) {entries : Entries}
    (present : next.get? id = some object) (held : object.contents = .map entries)
    (definite : ∀ key entry data, entries.get? key = some entry → entry.value? = some data →
      data.agrees data = true) :
    readerChanges next last id entries = hiddenKeys gone entries := by
  have known : ((next.get? id).bind LiveObject.entries?).getD .empty = entries := by
    rw [present, Option.bind_some, LiveObject.entries?, held]
    rfl
  ext1 key
  unfold Graph.readerChanges hiddenKeys
  simp only [known, get?_changesOf, mem_bothKeys, or_self, SortedMap.get?_map, SortedMap.get?_filter]
  cases written : entries.get? key with
  | none => rfl
  | some entry =>
    have reported := hidden.between_valueOf fun data => definite key entry data written
    simp only [Option.isSome_some, ↓reduceIte, Option.bind_some, reported, Option.filter_some]
    split <;> rfl

/-- Every value that a map shows equals itself. -/
def Definite (graph : Graph) : Prop :=
  ∀ id object key entry data, graph.get? id = some object → object.entry? key = some entry →
    entry.value? = some data → data.agrees data = true

theorem Orderly.definite (orderly : graph.Orderly)
    (applied : graph.applySnapshot states now = .ok (updates, next))
    (finite : ∀ state ∈ states, ∀ value, .json value ∈ state.values → value.isFinite = true) :
    Definite next := by
  intro id object key entry data present written shows
  have nextOrderly := orderly.applySnapshot applied
  have checked := nextOrderly.fine id object key entry data present written (Entry.data_of_value? shows)
  cases described : (describedStates states).get? id with
  | none =>
    rcases of_get?_undescribed orderly.sound applied described present with ⟨dead, -⟩ | ⟨⟨kind, rfl⟩, -⟩
    · have live := (nextOrderly.sound.objects id object present).live_of_written written
      rw [dead] at live
      cases live
    · rw [LiveObject.entry?_initial rfl] at written
      cases written
  | some state =>
    obtain rfl := Option.some.inj ((get?_of_described orderly.sound applied described).symm.trans present)
    obtain ⟨given, -, listed⟩ := mem_values_of_takenOver orderly.sound
      (check_of_applySnapshot applied) described written shows
    exact Data.agrees_self checked fun value same => finite state given value (same ▸ listed)

/-- The graph that the description leaves behind when it comes again. -/
def withoutStranded (before next : Graph) (states : List ObjectState) (now : Int) : Graph :=
  next.map fun id object => if stranded before next states id then (object.delete now).2 else object

private theorem hidden_withoutStranded (sound : graph.Sound)
    (applied : graph.applySnapshot states now = .ok (updates, next)) :
    Hidden (stranded graph next states) next (withoutStranded graph next states now) where
  fresh id new := by
    obtain ⟨kind, placed⟩ := exists_placeholder_of_stranded sound applied new
    rw [isTombstoned, placed]
    rfl
  dead id := by
    unfold isTombstoned withoutStranded
    rw [SortedMap.get?_map]
    cases present : next.get? id with
    | none =>
      simp only [stranded, SortedMap.contains_eq_isSome, present, Option.isSome_none, Bool.false_and,
        Option.map_none, Option.any_none, Bool.or_self]
    | some object =>
      rw [Option.map_some, Option.any_some, Option.any_some]
      by_cases new : stranded graph next states id = true
      · rw [if_pos new, new]
        rfl
      · rw [if_neg new, Bool.eq_false_iff.2 new, Bool.false_or]

/-- What is reported of one object when the description comes again. -/
theorem finalUpdate_again (sound : graph.Sound)
    (applied : graph.applySnapshot states now = .ok (updates, next)) (definite : Definite next)
    {told : SortedMap ObjectId Update} (listed : told.get? id = (next.replaced states now id).bind Prod.fst)
    (present : next.get? id = some object) :
    ((finalUpdate next (withoutStranded graph next states now) told
        (id, if stranded graph next states id then (object.delete now).2 else object)).filter
          fun update => !update.isNoop) =
      repeatUpdate (stranded graph next states) id object := by
  have hidden := hidden_withoutStranded sound applied
  unfold repeatUpdate
  by_cases new : stranded graph next states id = true
  · obtain ⟨kind, placed⟩ := exists_placeholder_of_stranded sound applied new
    obtain rfl := Option.some.inj (present.symm.trans placed)
    rw [replaced_again_of_stranded sound applied present new, Option.bind_some] at listed
    simp only [new, ↓reduceIte]
    cases kind with
    | counter =>
      have same : finalUpdate next (withoutStranded graph next states now) told
          (id, ((LiveObject.placeholder id .counter).delete now).2) = told.get? id := rfl
      have zero : (Double.zero false).sub (.zero false) = .zero false := Double.sub_self rfl
      rw [same, listed]
      simp only [LiveObject.delete, LiveObject.placeholder, Contents.initial, zero, Option.filter_some]
      rfl
    | map =>
      have nothing : readerChanges next (withoutStranded graph next states now) id .empty = .empty :=
        hidden.readerChanges present rfl fun key entry data written => by cases written
      simp only [finalUpdate, LiveObject.delete, LiveObject.kind, LiveObject.placeholder, Contents.initial,
        Contents.kind, listed, nothing, Option.getD_some, Option.filter_some]
      rfl
  · have kept := Bool.eq_false_iff.2 new
    obtain ⟨update, became, named, counted⟩ := replaced_again_of_kept sound applied present kept
    rw [became, Option.bind_some] at listed
    simp only [kept, Bool.false_eq_true, ↓reduceIte]
    cases held : object.contents with
    | counter count =>
      simp only [finalUpdate, held, listed]
      exact counted count held
    | map entries =>
      have changes := hidden.readerChanges present held fun key entry data written =>
        definite id object key entry data present ((LiveObject.entry?_of_map held key).trans written)
      have reported : finalUpdate next (withoutStranded graph next states now) told (id, object) =
          some (.ofKeys id (hiddenKeys (stranded graph next states) entries)) := by
        simp only [finalUpdate, held, listed, changes]
        cases update with
        | none => rfl
        | some given =>
          obtain ⟨change, rfl⟩ := named given rfl
          rfl
      rw [reported, Option.filter_some]
      simp only [Update.isNoop, Update.ofKeys, Bool.not_false, Bool.true_and, Bool.not_eq_true']
      by_cases nothing : (hiddenKeys (stranded graph next states) entries).isEmpty = true
      · rw [if_pos nothing, if_neg (by rw [nothing]; exact Bool.noConfusion)]
      · rw [if_neg nothing, if_pos (Bool.eq_false_iff.2 nothing)]

/-- A description that comes again is accepted, deletes what it left without a description, and
reports that and nothing else. -/
theorem Orderly.applySnapshot_again (orderly : graph.Orderly)
    (applied : graph.applySnapshot states now = .ok (updates, next))
    (finite : ∀ state ∈ states, ∀ value, .json value ∈ state.values → value.isFinite = true) :
    next.applySnapshot states now = .ok
      (next.toList.filterMap (fun entry => repeatUpdate (stranded graph next states) entry.1 entry.2),
        withoutStranded graph next states now) := by
  have definite := orderly.definite applied finite
  have nextOrderly := orderly.applySnapshot applied
  obtain ⟨working, graphSame, updatesSame, result⟩ :=
    applySnapshot_eq nextOrderly.sound (check_of_applySnapshot applied) now
  have rebuilt : working.graph = withoutStranded graph next states now := by
    ext1 id
    rw [graphSame, withoutStranded, SortedMap.get?_map]
    cases present : next.get? id with
    | none =>
      cases described : (describedStates states).get? id with
      | none => simp only [replaced, described, present, Option.map_none]
      | some state =>
        have there := get?_of_described orderly.sound applied described
        rw [present] at there
        cases there
    | some object =>
      by_cases new : stranded graph next states id = true
      · rw [replaced_again_of_stranded orderly.sound applied present new, Option.map_some, Option.map_some,
          if_pos new]
      · obtain ⟨told, became, -⟩ :=
          replaced_again_of_kept orderly.sound applied present (Bool.eq_false_iff.2 new)
        rw [became, Option.map_some, Option.map_some, if_neg new]
  have complete : closeReferences (withoutStranded graph next states now) =
      withoutStranded graph next states now := by
    refine closeReferences_of_known fun target referenced => ?_
    obtain ⟨object, held, points⟩ := List.mem_flatMap.1 referenced
    obtain ⟨owner, present⟩ := SortedMap.mem_values_iff.1 held
    rw [withoutStranded, SortedMap.get?_map, Option.map_eq_some_iff] at present
    obtain ⟨before, there, rfl⟩ := present
    split at points
    case isTrue => cases points
    case isFalse =>
      obtain ⟨key, entry, written, pointsToo⟩ := LiveObject.exists_entry?_of_mem_references points
      have known := nextOrderly.closed owner before key entry target there written pointsToo
      rw [withoutStranded, SortedMap.get?_map, Option.isSome_map, known]
  rw [result, rebuilt, complete, finalUpdates_eq]
  have reported : (withoutStranded graph next states now).toList = next.toList.map fun entry =>
      (entry.1, if stranded graph next states entry.1 then (entry.2.delete now).2 else entry.2) := rfl
  rw [reported, List.filterMap_map]
  refine congrArg (fun told => Except.ok (told, _)) (List.filterMap_congr ?_)
  rintro ⟨id, object⟩ member
  have present := SortedMap.get?_eq_some_iff.2 member
  exact finalUpdate_again orderly.sound applied definite (updatesSame id) present

/-! ## When nothing is left to do -/

private theorem withoutStranded_of_none (none : ∀ id, stranded graph next states id = false) (now : Int) :
    withoutStranded graph next states now = next := by
  ext1 id
  rw [withoutStranded, SortedMap.get?_map]
  simp only [none id, Bool.false_eq_true, ↓reduceIte, Option.map_id']

private theorem withoutStranded_eq_iff (sound : graph.Sound)
    (applied : graph.applySnapshot states now = .ok (updates, next)) :
    withoutStranded graph next states now = next ↔ ∀ id, stranded graph next states id = false := by
  constructor
  · intro same id
    rw [Bool.eq_false_iff]
    intro new
    obtain ⟨kind, present⟩ := exists_placeholder_of_stranded sound applied new
    have deleted := congrArg (fun graph => SortedMap.get? graph id) same
    simp only [withoutStranded, SortedMap.get?_map, present, Option.map_some, new, ↓reduceIte,
      Option.some.injEq] at deleted
    have dead := congrArg LiveObject.tombstone deleted
    cases dead
  · intro none
    exact withoutStranded_of_none none now

private theorem repeatUpdate_eq_none {gone : ObjectId → Bool} (none : ∀ id, gone id = false)
    (finite : ∀ count, object.contents = .counter count → count.isFinite = true) :
    repeatUpdate gone id object = Option.none := by
  unfold repeatUpdate
  simp only [none id, Bool.false_eq_true, ↓reduceIte]
  cases held : object.contents with
  | counter count => exact if_pos (finite count held)
  | map entries =>
    refine if_pos (SortedMap.isEmpty_iff.2 fun key => ?_)
    rw [hiddenKeys, SortedMap.get?_map, SortedMap.get?_filter]
    cases entries.get? key with
    | none => rfl
    | some entry =>
      have stays : entry.target?.any gone = false := by
        cases entry.target? with
        | none => rfl
        | some target => exact none target
      rw [Option.filter_some, stays]
      rfl

private theorem gone_of_silent {gone : ObjectId → Bool} (silent : repeatUpdate gone id object = none) :
    gone id = false := by
  rw [Bool.eq_false_iff]
  intro deleted
  rw [repeatUpdate, if_pos deleted] at silent
  cases silent

private theorem isFinite_of_silent {gone : ObjectId → Bool} (silent : repeatUpdate gone id object = none)
    {count : Double} (held : object.contents = .counter count) : count.isFinite = true := by
  unfold repeatUpdate at silent
  simp only [gone_of_silent silent, Bool.false_eq_true, ↓reduceIte, held] at silent
  by_contra infinite
  rw [if_neg infinite] at silent
  cases silent

private theorem repeats_eq_nil_iff (before next : Graph) (states : List ObjectState) :
    next.toList.filterMap (fun entry => repeatUpdate (stranded before next states) entry.1 entry.2) = [] ↔
      (∀ id, stranded before next states id = false) ∧ ∀ id, (next.countOf id).isFinite = true := by
  rw [List.filterMap_eq_nil_iff]
  constructor
  · intro silent
    have told {id : ObjectId} {object : LiveObject} (present : next.get? id = some object) :
        repeatUpdate (stranded before next states) id object = none :=
      silent (id, object) (SortedMap.get?_eq_some_iff.1 present)
    constructor
    · intro id
      cases present : next.get? id with
      | none => simp only [stranded, SortedMap.contains_eq_isSome, present, Option.isSome_none, Bool.false_and]
      | some object => exact gone_of_silent (told present)
    · intro id
      unfold countOf
      cases present : next.get? id with
      | none => rfl
      | some object =>
        rw [Option.bind_some]
        cases held : object.contents with
        | map entries => rfl
        | counter count => exact isFinite_of_silent (told present) held
  · rintro ⟨none, finite⟩ ⟨id, object⟩ member
    have present := SortedMap.get?_eq_some_iff.2 member
    refine repeatUpdate_eq_none none fun count held => ?_
    have counted := finite id
    rwa [countOf_of_counter present held] at counted

end Graph

open SharedGraph.Graph in
/-- Of a complete description that comes twice the second copy is accepted, too. It deletes the
placeholders that the first one brought along without describing them, and leaves all other
objects as they are; so nothing changes if there are none, and nothing changes any more after
that. What it reports are these deletions, the keys that readers lose by them, and the counters
whose described counts add up to no finite number; if there is none of these, it reports
nothing. -/
theorem repeated_description (config : Config) (history : List (Input × Int)) {states : List ObjectState}
    (finite : ∀ state ∈ states, ∀ value, .json value ∈ state.values → value.isFinite = true) {now : Int}
    {updates : List Update} {next : Graph}
    (applied : ((Replica.new config).after history).graph.applySnapshot states now = .ok (updates, next)) :
    let gone := stranded ((Replica.new config).after history).graph next states
    ∃ again last, next.applySnapshot states now = .ok (again, last) ∧
      (∀ id, last.get? id =
        (next.get? id).map fun object => if gone id then (object.delete now).2 else object) ∧
      (∀ id, gone id = true → ∃ kind, next.get? id = some (.placeholder id kind)) ∧
      again = next.toList.filterMap (fun entry => repeatUpdate gone entry.1 entry.2) ∧
      (last = next ↔ ∀ id, gone id = false) ∧
      (again = [] ↔ (∀ id, gone id = false) ∧ ∀ id, (next.countOf id).isFinite = true) ∧
      ∃ further, last.applySnapshot states now = .ok (further, last) := by
  intro gone
  have orderly : ((Replica.new config).after history).graph.Orderly :=
    Replica.orderly_after orderly_initial history
  have nextOrderly := orderly.applySnapshot applied
  have appliedAgain := orderly.applySnapshot_again applied finite
  have appliedFurther := nextOrderly.applySnapshot_again appliedAgain finite
  have settled (id : ObjectId) :
      stranded next (withoutStranded ((Replica.new config).after history).graph next states now) states id =
        false := by
    rw [stranded, withoutStranded, SortedMap.contains_eq_isSome, SortedMap.get?_map, Option.isSome_map,
      SortedMap.contains_eq_isSome]
    cases (next.get? id).isSome <;> rfl
  rw [withoutStranded_of_none settled] at appliedFurther
  exact ⟨_, _, appliedAgain, fun id => SortedMap.get?_map _ _ id,
    fun id => exists_placeholder_of_stranded orderly.sound applied, rfl,
    withoutStranded_eq_iff orderly.sound applied, repeats_eq_nil_iff _ next states, _, appliedFurther⟩

/-- The root points to a counter that the service does not describe. -/
def danglingStates : List ObjectState :=
  [{ id := .root
     entries := some (SortedMap.ofList [("c", .live (.reference ⟨"counter:later@1"⟩) (some ⟨"01"⟩))]) }]

theorem repeated_description_dangling :
    ∃ updates next again last further,
      (Replica.new {}).graph.applySnapshot danglingStates 5 = .ok (updates, next) ∧
        next.applySnapshot danglingStates 5 = .ok (again, last) ∧
        last.applySnapshot danglingStates 5 = .ok (further, last) := by
  have finite : ∀ state ∈ danglingStates, ∀ value, Data.json value ∈ state.values → value.isFinite = true := by
    intro state member value listed
    obtain rfl := List.mem_singleton.1 member
    cases List.mem_singleton.1 listed
  have checked : ∀ state ∈ danglingStates, state.check = .ok () := by
    rw [← forM_eq_ok]
    decide +kernel
  obtain ⟨⟨updates, next⟩, applied⟩ :=
    (Graph.sound_initial.exists_applySnapshot_iff danglingStates 5).2 checked
  obtain ⟨again, last, appliedAgain, -, -, -, -, -, further, appliedFurther⟩ :=
    repeated_description {} [] finite applied
  exact ⟨updates, next, again, last, further, applied, appliedAgain, appliedFurther⟩

/-- The second copy of the description deletes the counter, and the root loses its key. -/
theorem second_copy_deletes_placeholder :
    ∃ updates next again last,
      Graph.initial.applySnapshot danglingStates 5 = .ok (updates, next) ∧
        next.applySnapshot danglingStates 5 = .ok (again, last) ∧ again ≠ [] ∧ last ≠ next := by
  have twice : ((Graph.initial.applySnapshot danglingStates 5).bind fun first =>
      (first.2.applySnapshot danglingStates 5).map fun second =>
        decide (second.1 ≠ [] ∧ second.2 ≠ first.2)) = .ok true := by decide +kernel
  cases applied : Graph.initial.applySnapshot danglingStates 5 with
  | error fault =>
    rw [applied] at twice
    cases twice
  | ok first =>
    rw [applied] at twice
    cases appliedAgain : first.2.applySnapshot danglingStates 5 with
    | error fault =>
      simp only [Except.bind, appliedAgain, Except.map, reduceCtorEq] at twice
    | ok second =>
      simp only [Except.bind, appliedAgain, Except.map, Except.ok.injEq, decide_eq_true_eq] at twice
      exact ⟨first.1, first.2, second.1, second.2, rfl, appliedAgain, twice⟩

end SharedGraph
