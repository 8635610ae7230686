import SharedGraph.Proofs.Buffering
import SharedGraph.Proofs.Overriding
import SharedGraph.Proofs.RootDeletion

/-! What a removal leaves behind. A removed entry stays in its map, so that older writes can be told
from newer ones, and it is dated, so that it can be forgotten in time. It has no data any more if it
was removed by an operation, be it as one of the first contents that a create operation brings along.
A description is taken over as it is, however, and if it lists a removed entry together with its data,
the data lingers in the map until the key is written again or described anew. -/
namespace SharedGraph

/-- The entry was removed, but its data is still there. -/
def Entry.Lingers (entry : Entry) (data : Data) : Prop :=
  entry.tombstone = true ∧ entry.data = some data

namespace Entries

variable {entries initial : Entries} {key other : String} {entry : Entry} {data : Data}

/-- Data that is still there under a key that was removed. -/
def Lingers (entries : Entries) (key : String) (data : Data) : Prop :=
  ∃ entry, entries.get? key = some entry ∧ entry.Lingers data

private theorem not_lingers_initialWrite (time : Int) (entry : Entry) (data : Data) :
    ¬ (initialWrite time entry).Lingers data := by
  unfold initialWrite
  cases entry.value? with
  | none =>
    rintro ⟨-, held⟩
    cases held
  | some value =>
    rintro ⟨dead, -⟩
    cases dead

/-- A write that leaves nothing behind itself leaves behind what was there before at most. -/
theorem Lingers.of_write (clean : ¬ entry.Lingers data)
    (lingers : (write entries key entry).2.Lingers other data) : entries.Lingers other data := by
  obtain ⟨found, present, left⟩ := lingers
  rw [get?_write] at present
  split at present
  case isFalse => exact ⟨found, present, left⟩
  case isTrue same =>
    rw [Option.some.injEq] at present
    rcases settle_cases (entries.get? key) entry with kept | wins
    · exact ⟨found, by rw [same, kept, present], left⟩
    · exact absurd (wins ▸ present ▸ left) clean

/-- First contents that are merged replace what lingers unless it is newer. -/
theorem lingers_mergeInitial_iff {time : Int} :
    (mergeInitial entries initial time).2.Lingers key data ↔
      ∃ entry, entries.get? key = some entry ∧ entry.Lingers data ∧
        ∀ first, initial.get? key = some first → Serial.isNewer first.serial entry.serial = false := by
  simp only [Lingers, get?_mergeInitial]
  cases brought : initial.get? key with
  | none =>
    simp only [Option.map_none, Option.none_or, reduceCtorEq, false_imp_iff, implies_true, and_true]
  | some first =>
    simp only [Option.map_some, Option.some_or, Option.some.injEq, forall_eq', exists_eq_left']
    cases recorded : entries.get? key with
    | none =>
      simp only [settle, not_lingers_initialWrite, reduceCtorEq, false_and, exists_false]
    | some old =>
      simp only [Option.some.injEq, exists_eq_left']
      cases newer : Serial.isNewer first.serial old.serial with
      | true =>
        rw [settle_of_newer (by rwa [initialWrite_serial])]
        simp only [not_lingers_initialWrite, Bool.true_eq_false, and_false]
      | false =>
        rw [settle_of_not_newer (by rwa [initialWrite_serial])]
        simp only [and_true]

/-- Dating the removals changes nothing else about them. -/
theorem exists_ofState_iff (entries : Entries) (time : Int) (key : String) (data : Data)
    (written : Option Serial → Prop) :
    (∃ entry, (ofState entries time).get? key = some entry ∧ entry.Lingers data ∧ written entry.serial) ↔
      ∃ entry, entries.get? key = some entry ∧ entry.Lingers data ∧ written entry.serial := by
  rw [ofState, SortedMap.get?_map]
  cases entries.get? key with
  | none => simp only [Option.map_none, reduceCtorEq, false_and, exists_false]
  | some entry =>
    simp only [Option.map_some, Option.some.injEq, exists_eq_left']
    split <;> rfl

end Entries

namespace ObjectState

variable {state : ObjectState} {key : String} {data : Data}

/-- Data that whoever takes the description over will hold under a removed key: it is listed so, for
an object that lives, and no first contents of a create operation replace it. -/
def Lingers (state : ObjectState) (key : String) (data : Data) : Prop :=
  state.tombstone = false ∧
    ∃ listed, (state.entries.getD .empty).get? key = some listed ∧ listed.Lingers data ∧
      ∀ operation, state.createOp = some operation → ∀ first, operation.firstEntries.get? key = some first →
        Serial.isNewer first.serial listed.serial = false

private theorem lingers_entriesAt_iff (live : state.tombstone = false) (time : Int) :
    (state.entriesAt time).Lingers key data ↔ state.Lingers key data := by
  have listed : (state.entries.map fun entries => Entries.ofState entries time).getD .empty =
      Entries.ofState (state.entries.getD .empty) time := by
    cases state.entries <;> rfl
  have dated := Entries.exists_ofState_iff (state.entries.getD .empty) time key data
  unfold entriesAt Lingers
  simp only [listed, live, true_and]
  cases created : state.createOp with
  | none =>
    simpa only [Entries.Lingers, reduceCtorEq, false_imp_iff, implies_true, and_true] using
      dated fun _ => True
  | some operation =>
    simp only [Option.some.injEq, forall_eq', Entries.lingers_mergeInitial_iff]
    exact dated fun serial => ∀ first, operation.firstEntries.get? key = some first →
      Serial.isNewer first.serial serial = false

/-- A map is described as a map. -/
theorem kind?_of_listed (checked : state.check = .ok ()) {entries : Entries}
    (listed : state.entries = some entries) : state.id.kind? = some .map := by
  obtain ⟨kind, shown, named⟩ := kind_of_check checked
  rw [named]
  unfold ObjectState.kind contentKind at shown
  rw [listed, named] at shown
  cases counted : state.count with
  | some count => simp [counted, bind, Except.bind] at shown
  | none =>
    simp only [counted, bind, Except.bind, List.flatMap_cons, Option.toList_some, List.singleton_append] at shown
    split at shown
    case isTrue => rw [← Except.ok.inj shown]
    case isFalse => cases shown

end ObjectState

namespace LiveObject

variable {object : LiveObject} {state : ObjectState} {key : String} {data : Data}

def Lingers (object : LiveObject) (key : String) (data : Data) : Prop :=
  ∃ entry, object.entry? key = some entry ∧ entry.Lingers data

private theorem lingers_of_map {entries : Entries} (held : object.contents = .map entries) :
    object.Lingers key data ↔ entries.Lingers key data := by
  unfold Lingers Entries.Lingers
  simp only [entry?_of_map held]

private theorem not_lingers_initial {kind : Kind} (held : object.contents = .initial kind) :
    ¬ object.Lingers key data := by
  rintro ⟨entry, present, -⟩
  rw [entry?_initial held] at present
  cases present

private theorem not_lingers_of_counter (counter : object.kind = .counter) :
    ¬ object.Lingers key data := by
  rintro ⟨entry, present, -⟩
  rw [entry?_of_kind counter] at present
  cases present

/-- No step leaves data behind under a removed key. -/
theorem Lingers.of_run {step : Step} (fits : step.Fits object.contents) {serial : Serial} {time : Int}
    (lingers : (object.run step serial time).2.Lingers key data) : object.Lingers key data := by
  cases step with
  | delete => exact absurd lingers (not_lingers_initial rfl)
  | counter change count =>
    have held : object.contents = .counter count := fits
    have counter : object.kind = .counter := by rw [kind, held]; rfl
    exact absurd lingers (not_lingers_of_counter ((run_kind fits serial time).trans counter))
  | map change entries =>
    have held : object.contents = .map entries := fits
    rw [lingers_of_map held]
    cases change with
    | set target value =>
      rw [lingers_of_map rfl] at lingers
      exact lingers.of_write fun left => Bool.noConfusion left.1
    | remove target =>
      rw [lingers_of_map rfl] at lingers
      refine lingers.of_write fun left => ?_
      cases left.2
    | create first =>
      simp only [run, mergeEntries] at lingers
      split at lingers
      case isTrue => exact (lingers_of_map held).1 lingers
      case isFalse =>
        rw [lingers_of_map rfl, Entries.lingers_mergeInitial_iff] at lingers
        obtain ⟨entry, present, left, -⟩ := lingers
        exact ⟨entry, present, left⟩

private theorem Lingers.of_hear {message : Message} (lingers : (object.hear message).Lingers key data) :
    object.Lingers key data := by
  unfold hear at lingers
  cases carried : message.operation with
  | none =>
    rw [carried] at lingers
    exact lingers
  | some operation =>
    rw [carried] at lingers
    rcases object.take_cases operation message with same | ⟨step, origin, asked, -, -, same⟩
    · exact same ▸ lingers
    · simp only [same, carry] at lingers
      split at lingers
      case isTrue => exact lingers
      case isFalse =>
        have fits : step.Fits (object.admitting origin).contents := fits_of_stepFor? asked
        have before : (object.admitting origin).Lingers key data := lingers.of_run fits
        exact before

private theorem Lingers.of_dropExpired {cutoff : Int}
    (lingers : (object.dropExpired cutoff).Lingers key data) :
    object.Lingers key data := by
  obtain ⟨entry, present, left⟩ := lingers
  rw [entry?_dropExpired, Option.filter_eq_some_iff] at present
  exact ⟨entry, present.1, left⟩

private theorem Sound.not_lingers (sound : object.Sound) (dead : object.tombstone = true) :
    ¬ object.Lingers key data := not_lingers_initial (sound.emptied dead)

theorem Sound.dated (sound : object.Sound) {entry : Entry} (written : object.entry? key = some entry)
    (removed : entry.tombstone = true) : ∃ time, entry.tombstonedAt = some time := by
  cases held : object.contents with
  | counter count =>
    rw [entry?_of_counter held] at written
    cases written
  | map entries =>
    rw [entry?_of_map held] at written
    exact Option.isSome_iff_exists.1 (sound.timed entries held key entry written removed)

/-- Of a description exactly that lingers which is listed so. -/
theorem lingers_takeOver_iff (sound : object.Sound) (shown : state.id.kind? = some object.kind)
    (checked : state.check = .ok ()) (time : Int) :
    (object.takeOver state time).2.Lingers key data ↔ state.Lingers key data := by
  obtain ⟨-, kindSame, deadSame, fine⟩ := takeOver_spec sound state time
  cases dead : state.tombstone with
  | true =>
    have unlisted : ¬ state.Lingers key data := by
      rintro ⟨live, -⟩
      rw [dead] at live
      cases live
    exact iff_of_false (fine.not_lingers (deadSame.trans dead)) unlisted
  | false =>
    cases kind : object.kind with
    | counter =>
      have unlisted : ¬ state.Lingers key data := by
        rintro ⟨-, listed, present, -⟩
        cases given : state.entries with
        | none =>
          rw [given] at present
          cases present
        | some entries =>
          rw [ObjectState.kind?_of_listed checked given, kind] at shown
          cases shown
      exact iff_of_false (not_lingers_of_counter (kindSame.trans kind)) unlisted
    | map =>
      have held : (object.takeOver state time).2.contents = .map (state.entriesAt time) := by
        simp only [takeOver_of_live dead, ObjectState.contentsAt, dead, kind, Bool.false_eq_true, ↓reduceIte]
      rw [lingers_of_map held]
      exact ObjectState.lingers_entriesAt_iff dead time

end LiveObject

namespace Graph

variable {graph next : Graph} {states : List ObjectState} {id : ObjectId} {key : String} {data : Data}

/-- Some map of the graph still holds the data under a key that was removed. -/
def Lingers (graph : Graph) (id : ObjectId) (key : String) (data : Data) : Prop :=
  ∃ object, graph.get? id = some object ∧ object.Lingers key data

/-- What a complete description lists so; of several states for one object the last one counts. -/
def Listed (states : List ObjectState) (id : ObjectId) (key : String) (data : Data) : Prop :=
  ∃ state, lastState? states id = some state ∧ state.Lingers key data

private theorem not_lingers_initial : ¬ Graph.initial.Lingers id key data := by
  rintro ⟨object, present, lingers⟩
  have empty : object.contents = .initial .map := by
    rw [(get?_initial present).2]
    rfl
  exact LiveObject.not_lingers_initial empty lingers

theorem Lingers.of_grown {before after : Graph} (grown : Grown before after)
    (lingers : after.Lingers id key data) : before.Lingers id key data := by
  obtain ⟨object, present, entry, written, left⟩ := lingers
  exact ⟨object, grown.get?_of_written present written, entry, written, left⟩

private theorem Lingers.of_deliver (sound : graph.Sound) {message : Message} {now : Int}
    (lingers : (graph.deliver message now).2.Lingers id key data) : graph.Lingers id key data := by
  obtain ⟨object, present, left⟩ := lingers
  rw [get?_deliver sound.keyed, Option.map_eq_some_iff] at present
  obtain ⟨before, known, rfl⟩ := present
  obtain ⟨entry, written, remains⟩ := left.of_hear
  exact ⟨before, get?_of_written known written, entry, written, remains⟩

private theorem Lingers.of_collect {grace now : Int}
    (lingers : (graph.collect grace now).2.Lingers id key data) : graph.Lingers id key data := by
  obtain ⟨object, present, left⟩ := lingers
  obtain ⟨before, known, rfl⟩ := of_get?_collect present
  exact ⟨before, known, left.of_dropExpired⟩

/-- A root that nobody described has no entries. -/
theorem lastState?_of_lingers {state : ObjectState} (described : (describedStates states).get? id = some state)
    (listed : state.Lingers key data) : lastState? states id = some state := by
  rw [get?_describedStates] at described
  unfold lastState?
  cases last : (states.filter fun state => state.id = id).getLast? with
  | some found => rwa [last, Option.some_or] at described
  | none =>
    rw [last, Option.none_or] at described
    split at described
    case isFalse => cases described
    case isTrue =>
      cases described
      obtain ⟨-, entry, present, -⟩ := listed
      cases present

private theorem Sound.lingers_takenOver_iff (sound : graph.Sound)
    (checked : ∀ state ∈ states, state.check = .ok ())
    {state : ObjectState} (described : (describedStates states).get? id = some state) (now : Int) :
    (graph.takenOver now state).2.Lingers key data ↔ state.Lingers key data := by
  obtain ⟨known, placed, same⟩ := exists_orPlaceholder graph checked described
  obtain ⟨-, shown, fine⟩ := sound.orPlaceholder placed
  obtain ⟨rfl, from?⟩ := of_get?_describedStates described
  have stateChecked : state.check = .ok () := by
    rcases from? with given | rfl
    · exact checked state given
    · rfl
  rw [same]
  exact LiveObject.lingers_takeOver_iff fine shown stateChecked now

/-- Once a description is in place, exactly what it lists lingers, whatever was there before. -/
theorem Sound.lingers_applySnapshot_iff (sound : graph.Sound) {now : Int} {updates : List Update}
    (applied : graph.applySnapshot states now = .ok (updates, next)) :
    next.Lingers id key data ↔ Listed states id key data := by
  have checked := check_of_applySnapshot applied
  constructor
  · intro lingers
    obtain ⟨working, graphSame, -, result⟩ := applySnapshot_eq sound checked now
    rw [applied, Except.ok.injEq, Prod.mk.injEq] at result
    rw [result.2] at lingers
    obtain ⟨object, present, left⟩ := lingers.of_grown (grown_closeReferences working.graph)
    rw [graphSame, Option.map_eq_some_iff] at present
    obtain ⟨⟨update, _⟩, became, rfl⟩ := present
    have fine := (sound.replaced checked became).2.2
    cases described : (describedStates states).get? id with
    | some state =>
      rw [Graph.replaced, described] at became
      cases became
      have listed := (sound.lingers_takenOver_iff checked described now).1 left
      exact ⟨state, lastState?_of_lingers described listed, listed⟩
    | none =>
      rw [Graph.replaced, described, Option.map_eq_some_iff] at became
      obtain ⟨before, -, same⟩ := became
      have dead := tombstone_absentObject before now
      rw [same] at dead
      exact absurd left (fine.not_lingers dead)
  · rintro ⟨state, last, listed⟩
    have described := get?_describedStates_of_last last
    exact ⟨_, get?_of_described sound applied described,
      (sound.lingers_takenOver_iff checked described now).2 listed⟩

/-! ## Runs -/

/-- A move that puts no description in place leaves nothing behind. -/
theorem Lingers.of_move (sound : graph.Sound) {move : Move}
    (lingers : (graph.move move).2.Lingers id key data) :
    (move.adopted? = none ∧ graph.Lingers id key data) ∨
      ∃ states, move.adopted? = some states ∧ Listed states id key data := by
  cases move with
  | deliver message now => exact .inl ⟨rfl, lingers.of_deliver sound⟩
  | collect grace now => exact .inl ⟨rfl, lingers.of_collect⟩
  | describe states now =>
    rcases sound.move_describe states now with ⟨refused, same⟩ | ⟨updates, next, applied, adopted, same⟩
    · exact .inl ⟨refused, same ▸ lingers⟩
    · rw [same] at lingers
      exact .inr ⟨states, adopted, (sound.lingers_applySnapshot_iff applied).1 lingers⟩

/-- Whatever lingers was listed by the description that was put in place last. -/
theorem listed_of_lingers {moves : List Move}
    (lingers : (Graph.initial.moveAll moves).2.Lingers id key data) :
    ∃ states, (moves.filterMap Move.adopted?).getLast? = some states ∧ Listed states id key data := by
  induction moves using List.reverseRecOn with
  | nil => exact absurd lingers not_lingers_initial
  | append_singleton earlier move ih =>
    rw [moveAll_append] at lingers
    rcases Lingers.of_move (sound_initial.moveAll earlier) lingers with ⟨silent, before⟩ | ⟨states, adopted, listed⟩
    · rw [List.filterMap_append, List.filterMap_cons_none silent, List.filterMap_nil, List.append_nil]
      exact ih before
    · refine ⟨states, ?_, listed⟩
      rw [List.filterMap_append, List.filterMap_cons_some adopted, List.filterMap_nil, List.getLast?_concat]

/-- What an accepted description lists lingers as soon as it is in place. -/
theorem lingers_of_listed {moves : List Move} (adopted : states ∈ moves.filterMap Move.adopted?)
    (listed : Listed states id key data) :
    ∃ before, before <+: moves ∧ (Graph.initial.moveAll before).2.Lingers id key data := by
  obtain ⟨move, member, adopts⟩ := List.mem_filterMap.1 adopted
  obtain ⟨earlier, later, rfl⟩ := List.append_of_mem member
  refine ⟨earlier ++ [move], ⟨later, by rw [List.append_assoc, List.singleton_append]⟩, ?_⟩
  have sound := sound_initial.moveAll earlier
  rw [moveAll_append]
  cases move with
  | deliver message now => cases adopts
  | collect grace now => cases adopts
  | describe described now =>
    rcases sound.move_describe described now with ⟨refused, -⟩ | ⟨updates, next, applied, same, became⟩
    · rw [refused] at adopts
      cases adopts
    · rw [same, Option.some.injEq] at adopts
      subst adopts
      have after : next.Lingers id key data := (sound.lingers_applySnapshot_iff applied).2 listed
      exact became ▸ after

/-- Every removal in a map is dated, and a collection that is due since then forgets it. -/
def Dated (graph : Graph) : Prop :=
  ∀ id object key entry, graph.get? id = some object → object.entry? key = some entry →
    entry.tombstone = true → ∃ time, entry.tombstonedAt = some time ∧
      ∀ grace now, time ≤ clampTime (now - grace) →
        ((graph.collect grace now).2.get? id).bind (fun object => object.entry? key) = none

theorem Sound.dated (sound : graph.Sound) : graph.Dated := by
  intro id object key entry present written removed
  obtain ⟨time, dated⟩ := (sound.objects id object present).dated written removed
  refine ⟨time, dated, fun grace now due => ?_⟩
  rcases get?_collect graph grace now id with kept | ⟨gone, -⟩
  · have expired : Entries.isExpired (clampTime (now - grace)) entry = true := by
      rw [Entries.isExpired, removed, dated, Option.any_some, decide_eq_true due, Bool.and_self]
    rw [kept, present, Option.map_some, Option.bind_some, LiveObject.entry?_dropExpired, written,
      Option.filter_some, expired, Bool.not_true, if_neg Bool.false_ne_true]
  · rw [gone, Option.bind_none]

end Graph

/-- The graphs that a participant goes through in the course of its inputs, those in the middle of an
input included. -/
def Replica.Reaches (replica : Replica) (inputs : List (Input × Int)) (graph : Graph) : Prop :=
  ∃ moves, moves <+: replica.movesAfter inputs ∧ (replica.graph.moveAll moves).2 = graph

/-- Whatever a participant goes through, every removal is dated, and it is forgotten by a collection
that is due. Data lingers under a removed key if and only if a description that was put in place lists
it there; in the end, only what the last one lists can be left. -/
theorem lingering_iff_listed (config : Config) (inputs : List (Input × Int)) :
    let start := Replica.new config
    let descriptions := (start.movesAfter inputs).filterMap Move.adopted?
    start.Reaches inputs (start.after inputs).graph ∧
      (∀ graph, start.Reaches inputs graph → graph.Dated) ∧
      ∀ id key data,
        ((∃ graph, start.Reaches inputs graph ∧ graph.Lingers id key data) ↔
          ∃ states ∈ descriptions, Graph.Listed states id key data) ∧
        ((start.after inputs).graph.Lingers id key data →
          ∃ states, descriptions.getLast? = some states ∧ Graph.Listed states id key data) := by
  intro start descriptions
  refine ⟨⟨_, List.prefix_rfl, (start.reactions_moves inputs).2.symm⟩, ?_, fun id key data => ⟨⟨?_, ?_⟩, ?_⟩⟩
  · rintro _ ⟨moves, -, rfl⟩
    exact (Graph.sound_initial.moveAll moves).dated
  · rintro ⟨_, ⟨moves, earlier, rfl⟩, lingers⟩
    obtain ⟨states, last, listed⟩ := Graph.listed_of_lingers lingers
    exact ⟨states, (earlier.filterMap _).subset (List.mem_of_getLast? last), listed⟩
  · rintro ⟨states, adopted, listed⟩
    obtain ⟨moves, earlier, lingers⟩ := Graph.lingers_of_listed adopted listed
    exact ⟨_, ⟨moves, earlier, rfl⟩, lingers⟩
  · intro lingers
    rw [(start.reactions_moves _).2] at lingers
    exact Graph.listed_of_lingers lingers

private def struckOut : Entry := ⟨true, some ⟨"01"⟩, some (.text "v"), none⟩

private def rootWithRemains : ObjectState := { id := .root, entries := some (.ofList [("k", struckOut)]) }

/-- A description with nothing but a removed entry and its data is in order, and whoever takes it over
holds the data. -/
theorem removed_entry_keeps_data :
    rootWithRemains.check = .ok () ∧
      ¬ ∀ (inputs : List (Input × Int)) (id : ObjectId) (object : LiveObject) (key : String) (entry : Entry),
        ((Replica.new {}).after inputs).graph.get? id = some object → object.entry? key = some entry →
          entry.tombstone = true → entry.data = none ∧ entry.tombstonedAt.isSome = true := by
  refine ⟨by decide +kernel, fun always => ?_⟩
  have held : (((Replica.new {}).after [(.snapshot [rootWithRemains], 0)]).graph.get? .root).bind
      (fun object => object.entry? "k") = some { struckOut with tombstonedAt := some 0 } := by
    decide +kernel
  obtain ⟨object, present, written⟩ := Option.bind_eq_some_iff.1 held
  have dropped := (always _ _ object "k" _ present written rfl).1
  cases dropped

end SharedGraph
