import SharedGraph.Proofs.Integrity

/-! Who deletes the root. Operations do not, collections do not, and neither does a
participant on its own behalf or a description that leaves the root out. A description that
lists the root as deleted is accepted like any other, and then the root is deleted until a
later description brings it back. -/
namespace SharedGraph

/-- No operation that is complete deletes the root. -/
theorem Operation.target_of_delete {operation : Operation} (complete : operation.effect = .ok .delete) :
    operation.target.isRoot = false := by
  have acts : operation.action = .objectDelete := by
    cases (asks_of_effect complete).2 with
    | delete acts => exact acts
  have target := (asks_of_effect complete).1
  unfold Operation.effect at complete
  simp only [target, acts, bind, Except.bind] at complete
  split at complete
  case isTrue => cases complete
  case isFalse other => exact Bool.eq_false_iff.2 other

namespace LiveObject

variable {object : LiveObject} {operation : Operation}

private theorem other_of_stepFor?_delete (asked : object.stepFor? operation = some .delete) :
    object.id ≠ .root := by
  obtain ⟨addressed, effect, complete, made⟩ := effect_of_stepFor? asked
  have deletes : effect = .delete := by
    cases effect with
    | delete => rfl
    | onMap effect => cases held : object.contents <;> simp [held, Effect.on?] at made
    | onCounter effect => cases held : object.contents <;> simp [held, Effect.on?] at made
  have other := Operation.target_of_delete (deletes ▸ complete)
  intro root
  rw [addressed, root] at other
  cases other

private theorem take_tombstone_of_root (root : object.id = .root) (operation : Operation)
    (message : Message) : (object.take operation message).tombstone = object.tombstone := by
  rcases object.take_cases operation message with same | ⟨step, origin, asked, -, -, same⟩
  · rw [same]
  · rw [same, carry]
    split
    case isTrue => rfl
    case isFalse =>
      have other : step ≠ .delete := by
        rintro rfl
        exact other_of_stepFor?_delete asked root
      have fits : step.Fits (object.admitting origin).contents := fits_of_stepFor? asked
      rw [run_tombstone other fits]
      rfl

/-- The root stays as deleted, or as alive, as it is, whatever operation it is offered. -/
theorem hear_tombstone_of_root (root : object.id = .root) (message : Message) :
    (object.hear message).tombstone = object.tombstone := by
  unfold hear
  cases message.operation with
  | none => rfl
  | some operation => exact take_tombstone_of_root root operation message

end LiveObject

/-- Whether a description says that the root is deleted. If it lists the root more than
once, the last state counts. -/
def deletesRoot (states : List ObjectState) : Bool :=
  (states.filter fun state => state.id = .root).getLast?.any fun state => state.tombstone

/-- The description that a move puts in place, unless it is refused. -/
def Move.adopted? : Move → Option (List ObjectState)
  | .describe states _ => if (states.forM ObjectState.check).isOk then some states else none
  | .deliver .. | .collect .. => none

/-- Whether the root is deleted after some descriptions: the last one of them decides. -/
def rootAfter (dead : Bool) (descriptions : List (List ObjectState)) : Bool :=
  (descriptions.getLast?.map deletesRoot).getD dead

private theorem rootAfter_append (dead : Bool) (descriptions more : List (List ObjectState)) :
    rootAfter dead (descriptions ++ more) = rootAfter (rootAfter dead descriptions) more := by
  unfold rootAfter
  rw [List.getLast?_append]
  cases more.getLast? <;> rfl

namespace Graph

variable {graph : Graph} {states : List ObjectState} {dead : Bool}

/-- The root is in the graph, and it is deleted or not. -/
def HasRoot (graph : Graph) (dead : Bool) : Prop :=
  ∃ root, graph.get? .root = some root ∧ root.tombstone = dead

private theorem hasRoot_initial : HasRoot .initial false := by
  refine ⟨.placeholder .root .map, ?_, rfl⟩
  rw [initial, SortedMap.get?_insert_self]

theorem HasRoot.deliver (rooted : graph.HasRoot dead) (sound : graph.Sound) (message : Message) (now : Int) :
    (graph.deliver message now).2.HasRoot dead := by
  obtain ⟨root, present, same⟩ := rooted
  refine ⟨root.hear (message.stampedAt now), ?_, ?_⟩
  · rw [get?_deliver sound.keyed, orPlaceholder_of_get? present, present, ite_self, Option.map_some]
  · rw [LiveObject.hear_tombstone_of_root (sound.keyed .root root present), same]

theorem HasRoot.collect (rooted : graph.HasRoot dead) (sound : graph.Sound) (grace now : Int) :
    (graph.collect grace now).2.HasRoot dead := by
  obtain ⟨root, present, same⟩ := rooted
  refine ⟨root.dropExpired (clampTime (now - grace)), ?_, ?_⟩
  · rw [get?_collect_root sound, present, Option.map_some]
  · rw [LiveObject.dropExpired_tombstone, same]

/-- A description decides whether the root is deleted; one without the root revives it. -/
theorem hasRoot_applySnapshot (sound : graph.Sound) {now : Int} {updates : List Update} {next : Graph}
    (applied : graph.applySnapshot states now = .ok (updates, next)) : next.HasRoot (deletesRoot states) := by
  obtain ⟨state, described, became⟩ := exists_replaced_root graph states now
  obtain ⟨known, placed, same⟩ := exists_orPlaceholder graph (check_of_applySnapshot applied) described
  have fine := (sound.orPlaceholder placed).2.2
  refine ⟨(graph.takenOver now state).2, get?_of_applySnapshot sound applied became, ?_⟩
  rw [same, (LiveObject.takeOver_spec fine state now).2.2.1, deletesRoot]
  rw [get?_describedStates, if_pos rfl] at described
  cases last : (states.filter fun state => state.id = .root).getLast? with
  | none =>
    rw [last, Option.none_or] at described
    cases described
    rfl
  | some found =>
    rw [last, Option.some_or] at described
    cases described
    rfl

/-- A description is put in place exactly if it is not refused. -/
theorem Sound.move_describe (sound : graph.Sound) (states : List ObjectState) (now : Int) :
    ((Move.describe states now).adopted? = none ∧ (graph.move (.describe states now)).2 = graph) ∨
      ∃ updates next, graph.applySnapshot states now = .ok (updates, next) ∧
        (Move.describe states now).adopted? = some states ∧ (graph.move (.describe states now)).2 = next := by
  by_cases checked : ∀ state ∈ states, state.check = .ok ()
  · obtain ⟨working, -, -, applied⟩ := applySnapshot_eq sound checked now
    refine .inr ⟨_, _, applied, ?_, ?_⟩
    · simp only [Move.adopted?, forM_eq_ok.2 checked]
      rfl
    · simp only [Graph.move, applied]
  · have refused : states.forM ObjectState.check ≠ .ok () := fun fine => checked (forM_eq_ok.1 fine)
    cases found : states.forM ObjectState.check with
    | ok => exact absurd found refused
    | error fault =>
      refine .inl ⟨?_, ?_⟩
      · simp only [Move.adopted?, found]
        rfl
      · simp only [Graph.move, Graph.applySnapshot, found, bind, Except.bind]

theorem HasRoot.move (rooted : graph.HasRoot dead) (sound : graph.Sound) (move : Move) :
    (graph.move move).2.HasRoot (rootAfter dead move.adopted?.toList) := by
  cases move with
  | deliver message now => exact rooted.deliver sound message now
  | collect grace now => exact rooted.collect sound grace now
  | describe states now =>
    rcases sound.move_describe states now with ⟨refused, same⟩ | ⟨updates, next, applied, adopted, became⟩
    · rw [refused, same]
      exact rooted
    · rw [adopted, became]
      exact hasRoot_applySnapshot sound applied

theorem HasRoot.moveAll (rooted : graph.HasRoot dead) (sound : graph.Sound) (moves : List Move) :
    (graph.moveAll moves).2.HasRoot (rootAfter dead (moves.filterMap Move.adopted?)) := by
  induction moves generalizing graph dead with
  | nil => exact rooted
  | cons move rest ih =>
    have later := ih (rooted.move sound move) (sound.move move)
    rw [← rootAfter_append] at later
    rw [List.filterMap_cons]
    cases adopted : move.adopted? with
    | none =>
      rw [adopted] at later
      exact later
    | some states =>
      rw [adopted] at later
      exact later

/-- A participant that deletes on its own behalf deletes nothing or one other object than
the root. -/
theorem delete_cases {id : ObjectId} {time : Int} {update : Option Update} {next : Graph}
    (deleted : graph.delete id time = .ok (update, next)) :
    next = graph ∨ id ≠ .root ∧ ∃ object, graph.get? id = some object ∧
      next = graph.insert id (object.delete time).2 := by
  unfold delete at deleted
  split at deleted
  case isTrue => cases deleted
  case isFalse other =>
    split at deleted
    case h_1 =>
      cases deleted
      exact .inl rfl
    case h_2 object present =>
      split at deleted
      case isTrue =>
        cases deleted
        exact .inl rfl
      case isFalse =>
        cases deleted
        refine .inr ⟨?_, object, present, rfl⟩
        rintro rfl
        exact other rfl

theorem HasRoot.delete (rooted : graph.HasRoot dead) {id : ObjectId} {time : Int}
    {update : Option Update} {next : Graph} (deleted : graph.delete id time = .ok (update, next)) :
    next.HasRoot dead := by
  rcases delete_cases deleted with rfl | ⟨other, object, -, rfl⟩
  · exact rooted
  · obtain ⟨root, present, same⟩ := rooted
    exact ⟨root, by rw [SortedMap.get?_insert_of_ne _ _ (Ne.symm other), present], same⟩

theorem Sound.delete (sound : graph.Sound) {id : ObjectId} {time : Int} {update : Option Update}
    {next : Graph} (deleted : graph.delete id time = .ok (update, next)) : next.Sound := by
  rcases delete_cases deleted with rfl | ⟨-, object, present, rfl⟩
  · exact sound
  refine .of_objects fun other found stored => ?_
  rw [SortedMap.get?_insert_ite] at stored
  split at stored
  case isTrue same =>
    cases stored
    refine ⟨(sound.keyed id object present).trans same.symm, ?_, LiveObject.sound_delete object time⟩
    rw [same, sound.kinds id object present]
    exact congrArg some (LiveObject.kind_initial object.kind).symm
  case isFalse =>
    exact ⟨sound.keyed other found stored, sound.kinds other found stored, sound.objects other found stored⟩

/-- A deleted object holds nothing, so no data and no reference is new. -/
theorem Orderly.delete (orderly : graph.Orderly) {id : ObjectId} {time : Int} {update : Option Update}
    {next : Graph} (deleted : graph.delete id time = .ok (update, next)) : next.Orderly := by
  have sound := orderly.sound.delete deleted
  rcases delete_cases deleted with rfl | ⟨-, object, present, rfl⟩
  · exact orderly
  have known {other : ObjectId} (stored : (graph.get? other).isSome = true) :
      ((graph.insert id (object.delete time).2).get? other).isSome = true := by
    rw [SortedMap.get?_insert_ite]
    split
    · rfl
    · exact stored
  have held {other : ObjectId} {found : LiveObject} {key : String} {entry : Entry}
      (stored : (graph.insert id (object.delete time).2).get? other = some found)
      (written : found.entry? key = some entry) : graph.get? other = some found := by
    rw [SortedMap.get?_insert_ite] at stored
    split at stored
    · cases stored
      rw [LiveObject.entry?_initial rfl] at written
      cases written
    · exact stored
  refine ⟨sound, known orderly.rooted, ?_, ?_⟩
  · intro other found key entry data stored written
    exact orderly.fine other found key entry data (held stored written) written
  · intro other found key entry target stored written points
    exact known (orderly.closed other found key entry target (held stored written) written points)

end Graph

namespace Replica

variable {replica : Replica} {dead : Bool}

/-- What may happen to a participant: an input, or a deletion on its own behalf. -/
inductive Event where
  | input (input : Input) (now : Int)
  | delete (id : ObjectId) (time : Int)

/-- The participant after an event; a deletion that is refused changes nothing. -/
def undergo (replica : Replica) : Event → Replica
  | .input input now => (replica.step input now).2
  | .delete id time =>
    match replica.graph.delete id time with
    | .ok (_, graph) => { replica with graph }
    | .error _ => replica

def undergoAll (replica : Replica) (events : List Event) : Replica := events.foldl undergo replica

/-- The descriptions that an event puts in place. -/
def adopts (replica : Replica) : Event → List (List ObjectState)
  | .input input now => (replica.moves input now).filterMap Move.adopted?
  | .delete .. => []

/-- The descriptions that a participant puts in place in the course of events. -/
def adoptsAll (replica : Replica) : List Event → List (List ObjectState)
  | [] => []
  | event :: rest => replica.adopts event ++ (replica.undergo event).adoptsAll rest

private theorem hasRoot_undergo (rooted : replica.graph.HasRoot dead) (sound : replica.graph.Sound)
    (event : Event) :
    (replica.undergo event).graph.HasRoot (rootAfter dead (replica.adopts event)) ∧
      (replica.undergo event).graph.Sound := by
  cases event with
  | input input now =>
    simp only [undergo, (replica.step_moves input now).2]
    exact ⟨rooted.moveAll sound _, sound.moveAll _⟩
  | delete id time =>
    simp only [undergo]
    cases deleted : replica.graph.delete id time with
    | error failure => exact ⟨rooted, sound⟩
    | ok result => exact ⟨rooted.delete deleted, sound.delete deleted⟩

private theorem orderly_undergo (orderly : replica.graph.Orderly) (event : Event) :
    (replica.undergo event).graph.Orderly := by
  cases event with
  | input input now =>
    simp only [undergo, (replica.step_moves input now).2]
    exact orderly.moveAll _
  | delete id time =>
    simp only [undergo]
    cases deleted : replica.graph.delete id time with
    | error failure => exact orderly
    | ok result => exact orderly.delete deleted

theorem orderly_undergoAll (orderly : replica.graph.Orderly) (events : List Event) :
    (replica.undergoAll events).graph.Orderly := by
  induction events generalizing replica with
  | nil => exact orderly
  | cons event rest ih => exact ih (orderly_undergo orderly event)

private theorem hasRoot_undergoAll (rooted : replica.graph.HasRoot dead) (sound : replica.graph.Sound)
    (events : List Event) :
    (replica.undergoAll events).graph.HasRoot (rootAfter dead (replica.adoptsAll events)) := by
  induction events generalizing replica dead with
  | nil => exact rooted
  | cons event rest ih =>
    obtain ⟨rootedNext, soundNext⟩ := hasRoot_undergo rooted sound event
    have later := ih rootedNext soundNext
    rw [← rootAfter_append] at later
    exact later

end Replica

/-- Whatever a participant goes through, the root is there, and it is deleted exactly if the
description that was put in place last lists it as deleted. -/
theorem root_tombstone_eq (config : Config) (events : List Replica.Event) :
    ∃ root, ((Replica.new config).undergoAll events).graph.get? .root = some root ∧
      root.tombstone = ((Replica.new config).adoptsAll events).getLast?.any deletesRoot := by
  have rooted : (Replica.new config).graph.HasRoot false := Graph.hasRoot_initial
  obtain ⟨root, present, same⟩ := Replica.hasRoot_undergoAll rooted Graph.sound_initial events
  refine ⟨root, present, same.trans ?_⟩
  unfold rootAfter
  cases ((Replica.new config).adoptsAll events).getLast? <;> rfl

private def deletedRoot : ObjectState := { id := .root, tombstone := true, entries := some .empty }

/-- A description with nothing but a deleted root is in order, and it deletes the root. -/
theorem root_deleted_by_description :
    deletedRoot.check = .ok () ∧
      ¬ ∀ events : List Replica.Event,
        ((Replica.new {}).undergoAll events).graph.isTombstoned .root = false := by
  refine ⟨by decide +kernel, fun never => ?_⟩
  have alive := never [.input (.snapshot [deletedRoot]) 0]
  revert alive
  decide +kernel

end SharedGraph
