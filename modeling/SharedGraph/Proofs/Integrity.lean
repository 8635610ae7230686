import SharedGraph.Proofs.Provenance
import SharedGraph.Proofs.Runs

/-! Graphs stay in one piece. Messages, descriptions and collections each write to the graph
in their own way; all of them leave the root where it is, objects under their own names, and
no map that points to an object which is not there. -/
namespace SharedGraph

namespace Operation

variable {operation : Operation}

/-- First contents are checked whatever is created. -/
theorem checkCreate_of_check (create : operation.action.isCreate = true)
    (complete : operation.check = .ok ()) : operation.checkCreate = .ok () := by
  obtain ⟨effect, found⟩ := effect_of_check complete
  have target := (asks_of_effect found).1
  cases fine : operation.checkCreate with
  | ok => rfl
  | error fault =>
    unfold Operation.effect at found
    cases acts : operation.action with
    | mapCreate => simp [target, acts, fine, bind, Except.bind] at found
    | counterCreate => simp [target, acts, fine, bind, Except.bind] at found
    | mapSet | mapRemove | counterInc | objectDelete =>
      rw [acts] at create
      cases create

end Operation

namespace ObjectState

variable {state : ObjectState}

/-- All data that a description can leave in a map was checked with it. -/
theorem fine_of_check (checked : state.check = .ok ()) :
    Entries.check (state.entries.getD .empty) = .ok () ∧
      ∀ operation, state.createOp = some operation → operation.checkCreate = .ok () := by
  obtain ⟨kind, shown, -⟩ := kind_of_check checked
  unfold check at checked
  cases valid : state.id.isValid with
  | false => simp [valid, bind, Except.bind] at checked
  | true =>
    cases created : state.checkCreate with
    | error fault => simp [valid, shown, created, bind, Except.bind] at checked
    | ok =>
      simp only [valid, ↓reduceIte, shown, created, bind, Except.bind] at checked
      constructor
      · cases given : state.entries with
        | none => rfl
        | some entries => rwa [given, Option.map_some, Option.getD_some] at checked
      · intro operation given
        simp only [checkCreate, given] at created
        split at created
        case isFalse => cases created
        case isTrue own =>
          rw [Bool.and_eq_true] at own
          exact Operation.checkCreate_of_check own.1 created

end ObjectState

namespace LiveObject

variable {object : LiveObject} {state : ObjectState} {key : String} {entry : Entry} {data : Data}

/-- A deleted object holds nothing. -/
theorem Sound.live_of_written (sound : object.Sound) (written : object.entry? key = some entry) :
    object.tombstone = false := by
  rw [← Bool.not_eq_true]
  intro dead
  rw [entry?_initial (sound.emptied dead)] at written
  cases written

/-- Contents that are taken over as described hold the described data. -/
private theorem check_of_described (fine : Entries.check (state.entries.getD .empty) = .ok ())
    {time : Int}
    (present : SortedMap.get? ((state.entries.map fun entries => Entries.ofState entries time).getD .empty)
      key = some entry) (held : entry.data = some data) : data.check = .ok () := by
  cases given : state.entries with
  | none =>
    rw [given, Option.map_none, Option.getD_none, SortedMap.get?_empty] at present
    cases present
  | some entries =>
    rw [given, Option.getD_some] at fine
    rw [given, Option.map_some, Option.getD_some, Entries.ofState, SortedMap.get?_map,
      Option.map_eq_some_iff] at present
    obtain ⟨known, stored, rfl⟩ := present
    refine Entries.check_eq_ok.1 fine key known data stored ?_
    split at held <;> exact held

private theorem check_of_entry?_adopt (checked : state.check = .ok ()) {time : Int}
    (present : LiveObject.entry? (object.adopt state time).2 key = some entry)
    (held : entry.data = some data) : data.check = .ok () := by
  obtain ⟨fine, fineFirst⟩ := state.fine_of_check checked
  cases contents : object.contents with
  | counter count =>
    have counter : (object.adopt state time).2.kind = .counter := by
      rw [(object.adopt_spec state time).2.1, kind, contents]
      rfl
    rw [entry?_of_kind counter] at present
    cases present
  | map before =>
    simp only [adopt, contents] at present
    cases created : state.createOp with
    | none =>
      simp only [created] at present
      rw [entry?_of_map rfl] at present
      exact check_of_described fine present held
    | some operation =>
      simp only [created, mergeEntries, Bool.false_eq_true, ↓reduceIte] at present
      rw [entry?_of_map rfl, Entries.get?_mergeInitial] at present
      cases brought : operation.firstEntries.get? key with
      | none =>
        rw [brought, Option.map_none, Option.none_or] at present
        exact check_of_described fine present held
      | some first =>
        rw [brought, Option.map_some, Option.some_or, Option.some.injEq] at present
        rcases Entries.settle_cases _ (Entries.initialWrite time first) with kept | wins
        · exact check_of_described fine (kept.trans (congrArg some present)) held
        · rw [wins] at present
          have brings := Operation.brings_initialWrite (fineFirst operation created) brought time
          exact (brings data (present ▸ held)).1

/-- What a described object holds was checked with its description. -/
theorem check_of_entry?_takeOver (sound : object.Sound) (checked : state.check = .ok ()) {time : Int}
    (present : LiveObject.entry? (object.takeOver state time).2 key = some entry)
    (held : entry.data = some data) : data.check = .ok () := by
  unfold takeOver at present
  by_cases deleted : state.tombstone = true
  · rw [if_pos deleted] at present
    by_cases dead : object.tombstone = true
    · rw [if_pos dead] at present
      have live := (sound.relisted state.serials).live_of_written present
      rw [show (object.relisted state.serials).tombstone = _ from dead] at live
      cases live
    · rw [if_neg dead, entry?_initial rfl] at present
      cases present
  · rw [if_neg deleted] at present
    exact check_of_entry?_adopt checked present held

end LiveObject

namespace Graph

variable {graph : Graph} {states : List ObjectState} {id : ObjectId} {object : LiveObject}

/-! ## Descriptions -/

/-- The root is always described. -/
theorem exists_replaced_root (graph : Graph) (states : List ObjectState) (now : Int) :
    ∃ state, (describedStates states).get? .root = some state ∧
      graph.replaced states now .root =
        some (some (graph.takenOver now state).1, (graph.takenOver now state).2) := by
  have described : ∃ state, (describedStates states).get? .root = some state := by
    rw [get?_describedStates, if_pos rfl]
    cases (states.filter fun state => state.id = .root).getLast? with
    | none => exact ⟨emptyRoot, rfl⟩
    | some state => exact ⟨state, rfl⟩
  obtain ⟨state, described⟩ := described
  refine ⟨state, described, ?_⟩
  simp only [replaced, described]

/-- Data after a complete description was checked with it, or it was there before. -/
theorem Orderly.check_of_replaced (orderly : graph.Orderly)
    (checked : ∀ state ∈ states, state.check = .ok ()) {now : Int} {update : Option Update}
    (became : graph.replaced states now id = some (update, object)) {key : String} {entry : Entry}
    {data : Data} (written : object.entry? key = some entry) (held : entry.data = some data) :
    data.check = .ok () := by
  unfold replaced at became
  cases described : (describedStates states).get? id with
  | some state =>
    rw [described] at became
    cases became
    obtain ⟨known, placed, same⟩ := exists_orPlaceholder graph checked described
    rw [same] at written
    have stateChecked : state.check = .ok () := by
      rcases (of_get?_describedStates described).2 with given | rfl
      · exact checked state given
      · rfl
    exact LiveObject.check_of_entry?_takeOver (orderly.sound.orPlaceholder placed).2.2 stateChecked
      written held
  | none =>
    rw [described] at became
    obtain ⟨known, present, same⟩ := Option.map_eq_some_iff.1 became
    unfold absentObject at same
    split at same
    · cases same
      exact orderly.fine id _ key entry data present written held
    · cases same
      rw [LiveObject.entry?_initial rfl] at written
      cases written

private theorem isSome_closeReferences {target : ObjectId} (known : target ∈ graph.referenced)
    (valid : target.isValid = true) : ((closeReferences graph).get? target).isSome = true := by
  obtain ⟨kind, shown⟩ := Option.isSome_iff_exists.1 (ObjectId.isSome_kind?_of_isValid valid)
  have closed : (closeReferences graph).get? target =
      if target ∈ graph.referenced then graph.orPlaceholder target else graph.get? target :=
    get?_ensureAll _ graph target
  rw [closed, if_pos known, ← objectOr_of_kind graph shown]
  rfl

theorem Orderly.applySnapshot (orderly : graph.Orderly) {now : Int} {updates : List Update} {next : Graph}
    (applied : Graph.applySnapshot graph states now = .ok (updates, next)) : next.Orderly := by
  have sound := orderly.sound
  have checked := check_of_applySnapshot applied
  have nextSound := sound.applySnapshot applied
  obtain ⟨state, -, rootBecame⟩ := exists_replaced_root graph states now
  have rooted : (next.get? .root).isSome = true := by
    rw [get?_of_applySnapshot sound applied rootBecame]
    rfl
  obtain ⟨working, graphSame, -, result⟩ := applySnapshot_eq sound checked now
  rw [applied] at result
  cases result
  have placed {id : ObjectId} {object : LiveObject} {key : String} {entry : Entry}
      (present : (closeReferences working.graph).get? id = some object)
      (written : object.entry? key = some entry) :
      working.graph.get? id = some object ∧ ∀ data, entry.data = some data → data.check = .ok () := by
    have known := (grown_closeReferences working.graph).get?_of_written present written
    rw [graphSame, Option.map_eq_some_iff] at known
    obtain ⟨⟨update, found⟩, became, rfl⟩ := known
    exact ⟨by rw [graphSame, became, Option.map_some],
      fun data held => orderly.check_of_replaced checked became written held⟩
  refine ⟨nextSound, rooted, ?_, ?_⟩
  · intro id object key entry data present written held
    exact (placed present written).2 data held
  · intro id object key entry target present written points
    obtain ⟨known, fine⟩ := placed present written
    have live := (nextSound.objects id object present).live_of_written written
    obtain ⟨data, value, pointsToo⟩ := Option.bind_eq_some_iff.1 points
    exact isSome_closeReferences (mem_referenced known live written points)
      (Data.isValid_of_check (fine data (Entry.data_of_value? value)) pointsToo)

/-! ## Collections -/

/-- What a live map points to is not forgotten, and neither is the root. -/
theorem Orderly.collect (orderly : graph.Orderly) (grace now : Int) :
    (graph.collect grace now).2.Orderly := by
  have sound := orderly.sound
  have came {id : ObjectId} {object : LiveObject} {key : String} {entry : Entry}
      (present : (graph.collect grace now).2.get? id = some object)
      (written : object.entry? key = some entry) :
      ∃ before, graph.get? id = some before ∧ before.entry? key = some entry := by
    obtain ⟨before, known, rfl⟩ := of_get?_collect present
    rw [LiveObject.entry?_dropExpired, Option.filter_eq_some_iff] at written
    exact ⟨before, known, written.1⟩
  refine ⟨sound.collect grace now, ?_, ?_, ?_⟩
  · rw [get?_collect_root sound, Option.isSome_map]
    exact orderly.rooted
  · intro id object key entry data present written held
    obtain ⟨before, known, kept⟩ := came present written
    exact orderly.fine id before key entry data known kept held
  · intro id object key entry target present written points
    obtain ⟨before, known, kept⟩ := came present written
    have live := (sound.objects id before known).live_of_written kept
    rcases get?_collect graph grace now target with same | ⟨-, unknown, -⟩
    · rw [same, Option.isSome_map]
      exact orderly.closed id before key entry target known kept points
    · exact absurd (mem_referenced known live kept points) unknown

/-! ## Runs -/

theorem Orderly.move (orderly : graph.Orderly) (move : Move) : (graph.move move).2.Orderly := by
  cases move with
  | deliver message now => exact orderly.deliver message now
  | describe states now =>
    simp only [Graph.move]
    cases applied : graph.applySnapshot states now with
    | ok result => exact orderly.applySnapshot applied
    | error fault => exact orderly
  | collect grace now => exact orderly.collect grace now

theorem Orderly.moveAll (orderly : graph.Orderly) (moves : List Move) :
    (graph.moveAll moves).2.Orderly := by
  induction moves generalizing graph with
  | nil => exact orderly
  | cons move rest ih => exact ih (orderly.move move)

/-- A graph in one piece: the root is a map, every object stands under its own name and is of
the kind that the name shows, and no live entry of a live map points to nothing. -/
structure WellFormed (graph : Graph) : Prop where
  root : ∃ object, graph.get? .root = some object ∧ object.kind = .map
  named : ∀ id object, graph.get? id = some object → object.id = id ∧ id.kind? = some object.kind
  closed : ∀ id object key entry target, graph.get? id = some object → object.tombstone = false →
    object.entry? key = some entry → entry.target? = some target → (graph.get? target).isSome = true

theorem Orderly.wellFormed (orderly : graph.Orderly) : graph.WellFormed where
  root := by
    obtain ⟨object, present⟩ := Option.isSome_iff_exists.1 orderly.rooted
    have shown := orderly.sound.kinds .root object present
    exact ⟨object, present, (Option.some.inj shown).symm⟩
  named id object present := ⟨orderly.sound.keyed id object present, orderly.sound.kinds id object present⟩
  closed id object key entry target present _ written points :=
    orderly.closed id object key entry target present written points

end Graph

theorem Replica.orderly_after {replica : Replica} (orderly : replica.graph.Orderly)
    (inputs : List (Input × Int)) : (replica.after inputs).graph.Orderly := by
  induction inputs generalizing replica with
  | nil => exact orderly
  | cons input rest ih =>
    refine ih ?_
    rw [(Replica.step_moves replica input.1 input.2).2]
    exact orderly.moveAll _

/-- Whatever a participant goes through, accepted or refused, its graph stays in one piece. -/
theorem wellFormed_after (config : Config) (inputs : List (Input × Int)) :
    ((Replica.new config).after inputs).graph.WellFormed := by
  have orderly : (Replica.new config).graph.Orderly := Graph.orderly_initial
  exact (Replica.orderly_after orderly inputs).wellFormed

end SharedGraph
