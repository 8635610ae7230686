import Mathlib.Data.List.Induction
import SharedGraph.Proofs.Forgetting
import SharedGraph.Proofs.Provenance

/-! Graphs that follow a log. Such a graph describes every object as the log does, but may
have lost the marks that descriptions do not carry. The marks matter for create operations
alone, so a log that creates no object twice is followed all the same. -/
namespace SharedGraph

/-- The object that a message creates. -/
def Message.creates? (message : Message) : Option ObjectId :=
  message.operation.bind fun operation => if operation.action.isCreate then some operation.target else none

/-- The objects that a log creates, in the order of the log. -/
def created (log : List Message) : List ObjectId := log.filterMap Message.creates?

private theorem created_append (log more : List Message) :
    created (log ++ more) = created log ++ created more :=
  List.filterMap_append ..

theorem created_concat (log : List Message) (message : Message) :
    created (log ++ [message]) = created log ++ message.creates?.toList := by
  rw [created_append]
  cases same : message.creates? with
  | none => simp only [created, List.filterMap_cons, same, List.filterMap_nil, Option.toList_none]
  | some id => simp only [created, List.filterMap_cons, same, List.filterMap_nil, Option.toList_some]

private theorem mem_created {log : List Message} {message : Message} {id : ObjectId}
    (member : message ∈ log) (creates : message.creates? = some id) :
    id ∈ created log :=
  List.mem_filterMap.2 ⟨message, member, creates⟩

namespace LiveObject

variable {object other : LiveObject} {operation : Operation} {message : Message}

/-- What is alike is there on both sides. -/
theorem exists_alike {left right : Option LiveObject}
    (same : left.map toState = right.map toState) (present : left = some object) :
    ∃ other, right = some other ∧ other.toState = object.toState := by
  rwa [present, Option.map_some, eq_comm, Option.map_eq_some_iff] at same

private theorem creates_of_acceptsCreate (carried : message.operation = some operation)
    {envelope : Message}
    (accepts : object.acceptsCreate operation envelope = true) : message.creates? = some object.id := by
  simp only [acceptsCreate, Bool.and_eq_true] at accepts
  obtain ⟨step, asked⟩ := Option.isSome_iff_exists.1 accepts.1.1.2
  rw [Message.creates?, carried, Option.bind_some, if_pos accepts.1.1.1, (effect_of_stepFor? asked).1]

/-- Objects that are described alike stay so, whatever they hear, unless they are created. -/
theorem hear_congr (same : object.toState = other.toState)
    (agree : message.creates? = some object.id → object.createMerged = other.createMerged) :
    (object.hear message).toState = (other.hear message).toState := by
  unfold hear
  cases carried : message.operation with
  | none => exact same
  | some operation =>
    exact (take_congr same fun accepts => agree (creates_of_acceptsCreate carried accepts)).symm

/-- An object that has merged first contents did so before, or because of this message. -/
theorem hear_createMerged (merged : (object.hear message).createMerged = true) :
    object.createMerged = true ∨ message.creates? = some object.id := by
  unfold hear at merged
  cases carried : message.operation with
  | none =>
    rw [carried] at merged
    exact .inl merged
  | some operation =>
    simp only [carried, take_createMerged, Bool.or_eq_true] at merged
    exact merged.imp_right (creates_of_acceptsCreate carried)

/-- The gate of an object is part of its description. -/
theorem settled_congr (same : object.toState = other.toState) (settled : object.Settled operation message) :
    other.Settled operation message := by
  rw [eq_remark_of_toState same]
  exact settled

end LiveObject

namespace Graph

variable {graph : Graph} {log : List Message} {message : Message}

/-- The graph after a log of dated messages; when it was handed out does not matter. -/
def replay (graph : Graph) (log : List Message) : Graph :=
  graph.deliverAll (log.map fun message => (message, 0))

private theorem replay_append (graph : Graph) (log more : List Message) :
    graph.replay (log ++ more) = (graph.replay log).replay more := by
  simp only [replay, deliverAll, List.map_append, List.foldl_append]

theorem replay_concat (graph : Graph) (log : List Message) (message : Message) :
    graph.replay (log ++ [message]) = ((graph.replay log).deliver message 0).2 :=
  replay_append graph log [message]

private theorem deliver_of_dated (dated : message.timestamp.isSome = true) (graph : Graph)
    (now later : Int) : graph.deliver message now = graph.deliver message later := by
  simp only [deliver, deliverIn, Message.stampedAt_of_isSome dated]

theorem deliverAll_of_dated (dated : ∀ message ∈ log, message.timestamp.isSome = true) (graph : Graph)
    (now : Int) : graph.deliverAll (log.map fun message => (message, now)) = graph.replay log := by
  induction log generalizing graph with
  | nil => rfl
  | cons message rest ih =>
    have same := deliver_of_dated (dated message (List.mem_cons_self ..)) graph now 0
    refine (ih (fun later member => dated later (List.mem_cons_of_mem _ member)) _).trans ?_
    simp only [same]
    rfl

theorem Sound.replay (sound : graph.Sound) (log : List Message) : (graph.replay log).Sound := by
  induction log generalizing graph with
  | nil => exact sound
  | cons message rest ih => exact ih (sound.deliver message 0)

theorem Presentable.replay (presentable : graph.Presentable) (issued : ∀ message ∈ log, message.Issued) :
    (graph.replay log).Presentable := by
  induction log generalizing graph with
  | nil => exact presentable
  | cons message rest ih =>
    exact ih (presentable.deliver (issued message (List.mem_cons_self ..)) 0)
      fun later member => issued later (List.mem_cons_of_mem _ member)

private theorem isSome_replay (sound : graph.Sound) (log : List Message) {id : ObjectId}
    (known : (graph.get? id).isSome = true) : ((graph.replay log).get? id).isSome = true := by
  induction log generalizing graph with
  | nil => exact known
  | cons message rest ih => exact ih (sound.deliver message 0) (isSome_deliver sound message 0 known)

/-- Only what the log creates has merged first contents. -/
def Marked (graph : Graph) (log : List Message) : Prop :=
  ∀ id object, graph.get? id = some object → object.createMerged = true → id ∈ created log

theorem Marked.orPlaceholder (marked : graph.Marked log) {id : ObjectId} {object : LiveObject}
    (known : graph.orPlaceholder id = some object) (merged : object.createMerged = true) :
    id ∈ created log := by
  unfold Graph.orPlaceholder at known
  cases present : graph.get? id with
  | some found =>
    rw [present, Option.some_or] at known
    exact marked id object (present.trans known) merged
  | none =>
    rw [present, Option.none_or, Option.map_eq_some_iff] at known
    obtain ⟨kind, -, rfl⟩ := known
    cases merged

theorem Marked.deliver (marked : graph.Marked log) (sound : graph.Sound) (message : Message) (now : Int) :
    (graph.deliver message now).2.Marked (log ++ [message]) := by
  intro id object present merged
  rw [get?_deliver sound.keyed, Option.map_eq_some_iff] at present
  obtain ⟨before, known, rfl⟩ := present
  have placed : graph.orPlaceholder id = some before := by
    split at known
    · exact known
    · exact orPlaceholder_of_get? known
  rw [created_append, List.mem_append]
  rcases LiveObject.hear_createMerged merged with mergedBefore | creates
  · exact .inl (marked.orPlaceholder placed mergedBefore)
  · refine .inr (mem_created (List.mem_singleton.2 rfl) ?_)
    rw [← (sound.orPlaceholder placed).1]
    exact creates

theorem marked_replay (log : List Message) : (replay .initial log).Marked log := by
  induction log using List.reverseRecOn with
  | nil =>
    intro id object present merged
    rw [(get?_initial present).2] at merged
    cases merged
  | append_singleton log message ih =>
    rw [replay_concat]
    exact ih.deliver (sound_initial.replay log) message 0

/-- The graph knows the objects of a log and describes each of them as the log does. -/
structure Follows (graph : Graph) (log : List Message) : Prop where
  sound : graph.Sound
  same : ∀ id, (graph.get? id).map LiveObject.toState = ((replay .initial log).get? id).map LiveObject.toState
  marked : graph.Marked log

theorem follows_replay (log : List Message) : (replay .initial log).Follows log :=
  ⟨sound_initial.replay log, fun _ => rfl, marked_replay log⟩

namespace Follows

private theorem isSome_iff (follows : graph.Follows log) (id : ObjectId) :
    (graph.get? id).isSome = ((replay .initial log).get? id).isSome := by
  have same := congrArg Option.isSome (follows.same id)
  rwa [Option.isSome_map, Option.isSome_map] at same

/-- What a log mentions is alike in all graphs that follow it. -/
theorem orPlaceholder (follows : graph.Follows log) (id : ObjectId) :
    (graph.orPlaceholder id).map LiveObject.toState =
      ((replay .initial log).orPlaceholder id).map LiveObject.toState := by
  unfold Graph.orPlaceholder
  rw [Option.map_or, Option.map_or, follows.same id]

/-- A message that creates nothing anew is followed. -/
theorem deliver (follows : graph.Follows log) (dated : message.timestamp.isSome = true)
    (fresh : ∀ id, message.creates? = some id → id ∉ created log) (now : Int) :
    (graph.deliver message now).2.Follows (log ++ [message]) := by
  refine ⟨follows.sound.deliver message now, fun id => ?_, follows.marked.deliver follows.sound message now⟩
  have reference := follows_replay log
  rw [replay_concat, get?_deliver follows.sound.keyed, get?_deliver reference.sound.keyed,
    Message.stampedAt_of_isSome dated, Message.stampedAt_of_isSome dated]
  have alike : ((if id ∈ message.mentioned then graph.orPlaceholder id else graph.get? id).map
      LiveObject.toState) = (if id ∈ message.mentioned then (Graph.replay .initial log).orPlaceholder id
        else (Graph.replay .initial log).get? id).map LiveObject.toState := by
    split
    · exact follows.orPlaceholder id
    · exact follows.same id
  have known {any : Graph} {object : LiveObject}
      (chosen : (if id ∈ message.mentioned then any.orPlaceholder id else any.get? id) = some object) :
      any.orPlaceholder id = some object := by
    split at chosen
    · exact chosen
    · exact orPlaceholder_of_get? chosen
  cases mine : (if id ∈ message.mentioned then graph.orPlaceholder id else graph.get? id) with
  | none =>
    rw [mine, Option.map_none, eq_comm, Option.map_eq_none_iff] at alike
    rw [alike]
  | some object =>
    obtain ⟨other, theirs, same⟩ := LiveObject.exists_alike alike mine
    rw [theirs, Option.map_some, Option.map_some, Option.map_some, Option.map_some, Option.some.injEq]
    have placed := known mine
    have placedToo := known theirs
    apply LiveObject.hear_congr same.symm
    intro creates
    rw [(follows.sound.orPlaceholder placed).1] at creates
    have unmarked := fun merged => fresh id creates (follows.marked.orPlaceholder placed merged)
    have unmarkedToo := fun merged => fresh id creates (reference.marked.orPlaceholder placedToo merged)
    rw [Bool.eq_false_iff.2 unmarked, Bool.eq_false_iff.2 unmarkedToo]

/-- A graph that follows a log goes on following it, as long as nothing is created twice. -/
theorem replay {more : List Message} (follows : graph.Follows log)
    (dated : ∀ message ∈ more, message.timestamp.isSome = true) (distinct : (created (log ++ more)).Nodup) :
    (graph.replay more).Follows (log ++ more) := by
  induction more generalizing graph log with
  | nil => rwa [List.append_nil]
  | cons message rest ih =>
    have split : log ++ message :: rest = log ++ [message] ++ rest := by
      rw [List.append_assoc, List.singleton_append]
    rw [split] at distinct ⊢
    refine ih (follows.deliver (dated message (List.mem_cons_self ..)) (fun id creates member => ?_) 0)
      (fun later member => dated later (List.mem_cons_of_mem _ member)) distinct
    rw [created_append, created_append] at distinct
    have apart := (List.nodup_append.1 (List.nodup_append.1 distinct).1).2.2
    exact apart id member id (mem_created (List.mem_singleton.2 rfl) creates) rfl

/-- What a graph has heard leaves no trace when it is delivered again, even if the graph
was restored from a description in between. -/
theorem deliver_again (follows : graph.Follows log) (issued : message.Issued) (member : message ∈ log)
    (allDated : ∀ message ∈ log, message.timestamp.isSome = true) (now : Int) :
    (graph.deliver message now).2 = graph := by
  have heard (id : ObjectId) : (Graph.replay .initial log).get? id =
      (if ∃ delivery ∈ log.map (fun message => (message, (0 : Int))), id ∈ delivery.1.mentioned then
        Graph.initial.orPlaceholder id else Graph.initial.get? id).map
          fun object => log.foldl LiveObject.hear object := by
    have dated : ∀ delivery ∈ log.map (fun message => (message, (0 : Int))),
        delivery.1.timestamp.isSome = true := by
      intro delivery member
      obtain ⟨message, inLog, rfl⟩ := List.mem_map.1 member
      exact allDated message inLog
    rw [Graph.replay, get?_deliverAll keyed_initial]
    congr 1
    funext object
    rw [LiveObject.hearAll_of_dated dated, List.map_map]
    exact congrArg (List.foldl _ object) (List.map_id log)
  ext1 id
  rw [get?_deliver follows.sound.keyed, Message.stampedAt_of_isSome issued.dated]
  have known : (if id ∈ message.mentioned then graph.orPlaceholder id else graph.get? id) = graph.get? id := by
    split
    case isFalse => rfl
    case isTrue mentioned =>
      have present : ((Graph.replay .initial log).get? id).isSome = true := by
        obtain ⟨kind, shown⟩ := Option.isSome_iff_exists.1
          (ObjectId.isSome_kind?_of_isValid (issued.isValid mentioned))
        rw [heard, if_pos ⟨(message, 0), List.mem_map.2 ⟨message, member, rfl⟩, mentioned⟩,
          Option.isSome_map, ← objectOr_of_kind _ shown]
        rfl
      rw [← follows.isSome_iff] at present
      obtain ⟨object, presentToo⟩ := Option.isSome_iff_exists.1 present
      rw [orPlaceholder_of_get? presentToo, presentToo]
  rw [known]
  cases present : graph.get? id with
  | none => rfl
  | some object =>
    obtain ⟨operation, carried, -⟩ := issued.complete
    have same := follows.same id
    rw [present, Option.map_some, heard, Option.map_map, eq_comm, Option.map_eq_some_iff] at same
    obtain ⟨start, -, alike⟩ := same
    have settled := LiveObject.settled_congr alike (LiveObject.settled_foldl_hear start member carried)
    simp only [Option.map_some, LiveObject.hear, carried, LiveObject.take_of_settled settled]

theorem replay_again {again : List Message} (follows : graph.Follows log)
    (issued : ∀ message ∈ log, message.Issued) (within : ∀ message ∈ again, message ∈ log) :
    graph.replay again = graph := by
  induction again with
  | nil => rfl
  | cons message rest ih =>
    have member := within message (List.mem_cons_self ..)
    have same := follows.deliver_again (issued message member) member
      (fun message member => (issued message member).dated) 0
    have unfolded : graph.replay (message :: rest) = (graph.deliver message 0).2.replay rest := rfl
    rw [unfolded, same]
    exact ih fun later member => within later (List.mem_cons_of_mem _ member)

end Follows

/-! ## Restoring from a description -/

/-- The description of a graph says of every name what the graph says. -/
theorem get?_describedStates_describe (sound : graph.Sound) (rooted : (graph.get? .root).isSome = true)
    (id : ObjectId) :
    (describedStates graph.describe).get? id = (graph.get? id).map LiveObject.toState := by
  have listed : graph.describe =
      graph.toList.filterMap fun entry => some { entry.2.toState with id := entry.1 } := by
    rw [List.filterMap_eq_map', describe, SortedMap.values, List.map_map]
    apply List.map_congr_left
    intro entry member
    have same := sound.keyed entry.1 entry.2 (SortedMap.get?_eq_some_iff.2 member)
    rw [Function.comp_apply, ← same]
    rfl
  have single : graph.describe.filter (fun state => state.id = id) =
      ((graph.get? id).map LiveObject.toState).toList := by
    rw [listed, SortedMap.filter_filterMap_toList _ _ ObjectState.id]
    · cases present : graph.get? id with
      | none => rfl
      | some object =>
        rw [Option.bind_some, Option.map_some, ← sound.keyed id object present]
        rfl
    · intro entry state made
      cases made
      rfl
  rw [get?_describedStates, single]
  cases present : graph.get? id with
  | some object => rfl
  | none =>
    rw [if_neg]
    · rfl
    · rintro rfl
      rw [present] at rooted
      cases rooted

private theorem references_congr {object other : LiveObject} (same : object.toState = other.toState) :
    object.references = other.references := by
  rw [LiveObject.eq_remark_of_toState same]
  rfl

/-- A graph that describes itself like a presentable one lacks nothing that it points to. -/
theorem closeReferences_of_presentable {other : Graph} (presentable : other.Presentable)
    (same : ∀ id, (graph.get? id).map LiveObject.toState = (other.get? id).map LiveObject.toState) :
    closeReferences graph = graph := by
  refine closeReferences_of_known fun id referenced => ?_
  obtain ⟨object, held, points⟩ := List.mem_flatMap.1 referenced
  obtain ⟨owner, present⟩ := SortedMap.mem_values_iff.1 held
  obtain ⟨twin, presentToo, alike⟩ := LiveObject.exists_alike (same owner) present
  rw [← references_congr alike] at points
  obtain ⟨key, entry, written, target⟩ := LiveObject.exists_entry?_of_mem_references points
  have known := presentable.closed owner twin key entry id presentToo written target
  obtain ⟨there, presentThere⟩ := Option.isSome_iff_exists.1 known
  obtain ⟨here, presentHere, -⟩ := LiveObject.exists_alike (same id).symm presentThere
  rw [presentHere]
  rfl

private theorem takeOver_createMerged_of_plain {known : LiveObject} {state : ObjectState}
    (plain : state.createOp = none) {now : Int} (merged : (known.takeOver state now).2.createMerged = true) : known.createMerged = true := by
  by_cases live : state.tombstone = false
  · rw [LiveObject.takeOver_createMerged live plain] at merged
    cases merged
  · unfold LiveObject.takeOver at merged
    rw [if_pos (Bool.not_eq_false _ ▸ live)] at merged
    split at merged <;> exact merged

/-- A graph that heard a part of a log is replaced by what the whole log leads to, and every
object is taken over from there. -/
theorem Follows.replaced_describe {more : List Message} (follows : graph.Follows log)
    (issued : ∀ message ∈ log ++ more, message.Issued) (now : Int) (id : ObjectId) :
    (graph.replaced (Graph.replay .initial (log ++ more)).describe now id).map Prod.snd =
      ((Graph.replay .initial (log ++ more)).get? id).bind fun described =>
        (graph.orPlaceholder id).map fun known => (known.takeOver described.toState now).2 := by
  have presentable := presentable_initial.replay issued
  have stated := get?_describedStates_describe presentable.sound presentable.rooted id
  rw [replaced]
  cases described : (Graph.replay .initial (log ++ more)).get? id with
  | some found =>
    rw [described, Option.map_some] at stated
    obtain ⟨known, placed, taken⟩ := exists_orPlaceholder graph presentable.check_describe stated
    rw [stated, placed, Option.bind_some, Option.map_some, Option.map_some, taken]
  | none =>
    have missing : graph.get? id = none := by
      rw [← Option.not_isSome_iff_eq_none, follows.isSome_iff]
      intro known
      have later := isSome_replay (sound_initial.replay log) more known
      rw [← replay_append, described] at later
      cases later
    rw [described, Option.map_none] at stated
    rw [stated, missing, Option.map_none, Option.map_none, Option.bind_none]

/-- A graph that follows a part of a log follows all of it, once it has taken over what the
whole log leads to. -/
theorem Follows.restore {more : List Message} (follows : graph.Follows log)
    (issued : ∀ message ∈ log ++ more, message.Issued) (now : Int) :
    ∃ updates next,
      graph.applySnapshot (Graph.replay .initial (log ++ more)).describe now = .ok (updates, next) ∧
        next.Follows (log ++ more) := by
  have presentable := presentable_initial.replay issued
  obtain ⟨working, graphSame, -, applied⟩ := applySnapshot_eq follows.sound presentable.check_describe now
  have same (id : ObjectId) : (working.graph.get? id).map LiveObject.toState =
      ((Graph.replay .initial (log ++ more)).get? id).map LiveObject.toState := by
    rw [graphSame, follows.replaced_describe issued]
    cases there : (Graph.replay .initial (log ++ more)).get? id with
    | none => rfl
    | some described =>
      have shownToo := presentable.sound.kinds id described there
      have namedToo := presentable.sound.keyed id described there
      have placed := objectOr_of_kind graph shownToo
      obtain ⟨named, shown, fine⟩ := follows.sound.orPlaceholder placed.symm
      have sameKind := Option.some.inj (shown.symm.trans shownToo)
      rw [Option.bind_some, ← placed, Option.map_some, Option.map_some, Option.map_some,
        LiveObject.takeOver_toState (presentable.sound.objects id described there) fine
          (named.trans namedToo.symm) sameKind]
  rw [closeReferences_of_presentable presentable same] at applied
  refine ⟨_, working.graph, applied, follows.sound.applySnapshot applied, same, ?_⟩
  intro id object present merged
  rw [graphSame, follows.replaced_describe issued, Option.bind_eq_some_iff] at present
  obtain ⟨described, -, taken⟩ := present
  obtain ⟨known, placed, rfl⟩ := Option.map_eq_some_iff.1 taken
  rw [created_append, List.mem_append]
  exact .inl (follows.marked.orPlaceholder placed (takeOver_createMerged_of_plain rfl merged))

end Graph

end SharedGraph
