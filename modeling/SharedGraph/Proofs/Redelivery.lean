import SharedGraph.Engine
import SharedGraph.Proofs.Provenance
import SharedGraph.Proofs.Refusals

/-! Batches that are delivered more than once. A graph is done with a message once it holds
the names that the message mentions and the target would turn its operation away. Every message
makes the graph be done with it, and no other message changes that, because a gate only ever
closes further: a batch that comes again finds nothing to do. -/
namespace SharedGraph

namespace Graph

variable {graph : Graph} {operation : Operation} {message : Message}

/-- What a settled object answers sends the operation away. -/
theorem turnsAway_of_settled {object : LiveObject}
    (target : graph.orPlaceholder operation.target = some object)
    (settled : object.Settled operation message) : graph.TurnsAway operation message := by
  have sentAway {fault : Fault} (same : object.apply operation message = .error fault) :
      graph.TurnsAway operation message :=
    .refused target (by rw [LiveObject.answer, same, Except.map])
  cases asked : object.stepFor? operation with
  | none =>
    obtain ⟨fault, same⟩ := LiveObject.apply_of_refused (.inl asked : _ ∨ message.origin? = none)
    exact sentAway same
  | some step =>
    cases from? : message.origin? with
    | none =>
      obtain ⟨fault, same⟩ :=
        LiveObject.apply_of_refused (.inr from? : object.stepFor? operation = none ∨ _)
      exact sentAway same
    | some origin =>
      have closed := settled origin (by rw [asked]; rfl) from?
      refine .stale target ?_
      simp only [LiveObject.answer, LiveObject.apply_of_step asked from?, closed, Bool.false_eq_true,
        ↓reduceIte, Except.map]

/-- The graph has nothing left to do for a message. -/
structure DoneWith (graph : Graph) (message : Message) : Prop where
  known : ∀ id ∈ message.mentioned, id.kind?.isSome = true → graph.contains id = true
  settled : ∀ operation, message.operation = some operation → operation.check = .ok () →
    ∃ object, graph.get? operation.target = some object ∧ object.Settled operation message

private theorem doneWith_deliver (sound : graph.Sound) (message : Message) (now : Int) :
    (graph.deliver message now).2.DoneWith message where
  known id mentioned named := by
    obtain ⟨kind, shown⟩ := Option.isSome_iff_exists.1 named
    rw [SortedMap.contains_eq_isSome, get?_deliver sound.keyed, if_pos mentioned, Option.isSome_map,
      ← objectOr_of_kind graph shown]
    rfl
  settled operation carried complete := by
    obtain ⟨kind, shown, -⟩ := Operation.kind_of_check complete
    obtain ⟨object, -, delivered⟩ := deliver_of_check carried complete shown now
    have heard : object.hear (message.stampedAt now) = object.take operation (message.stampedAt now) := by
      simp only [LiveObject.hear, Message.stampedAt, carried]
    refine ⟨object.hear (message.stampedAt now), ?_, ?_⟩
    · rw [delivered, SortedMap.get?_insert_self]
    · rw [heard]
      exact LiveObject.settled_take object operation (message.stampedAt now)

/-- Other messages do not open a gate again. -/
theorem DoneWith.deliver (done : graph.DoneWith message) (sound : graph.Sound) (other : Message)
    (now : Int) : (graph.deliver other now).2.DoneWith message where
  known id mentioned named := isSome_deliver sound other now (done.known id mentioned named)
  settled operation carried complete := by
    obtain ⟨object, present, settled⟩ := done.settled operation carried complete
    refine ⟨object.hear (other.stampedAt now), ?_, settled.hear _⟩
    rw [get?_deliver sound.keyed, orPlaceholder_of_get? present, present, ite_self, Option.map_some]

theorem DoneWith.deliverAll (done : graph.DoneWith message) (sound : graph.Sound)
    (stream : List (Message × Int)) : (graph.deliverAll stream).DoneWith message := by
  induction stream generalizing graph with
  | nil => exact done
  | cons other rest ih =>
    exact ih (done.deliver sound other.1 other.2) (sound.deliver other.1 other.2)

/-- The gate closes when the message passes, and the rest of the stream leaves it closed. -/
theorem doneWith_deliverAll (sound : graph.Sound) {stream : List (Message × Int)}
    {delivery : Message × Int} (member : delivery ∈ stream) :
    (graph.deliverAll stream).DoneWith delivery.1 := by
  induction stream generalizing graph with
  | nil => cases member
  | cons other rest ih =>
    have fine := sound.deliver other.1 other.2
    rcases List.mem_cons.1 member with rfl | later
    · exact (doneWith_deliver sound delivery.1 delivery.2).deliverAll fine rest
    · exact ih fine later

/-- A message that the graph is done with does nothing, whenever it comes. -/
theorem DoneWith.deliver_eq (done : graph.DoneWith message) (now : Int) :
    graph.deliver message now = ([], graph) := by
  rcases complete_or_idle message with ⟨operation, carried, complete⟩ | ⟨idle, -⟩
  case inr => exact idle .byName graph now
  obtain ⟨object, present, settled⟩ := done.settled operation carried complete
  have stopped : object.Settled operation (message.stampedAt now) := settled
  have turned := turnsAway_of_settled (orPlaceholder_of_get? present) stopped
  exact Prod.ext (deliver_of_turnsAway carried turned).1
    ((deliver_eq_self_iff carried turned).2 done.known)

private theorem moveAll_deliveries_of_done {messages : List Message}
    (done : ∀ message ∈ messages, graph.DoneWith message) (now : Int) :
    graph.moveAll (Replica.deliveries messages now) = ([], graph) := by
  induction messages with
  | nil => rfl
  | cons message rest ih =>
    have idle : graph.move (.deliver message now) = ([], graph) :=
      (done message (List.mem_cons_self ..)).deliver_eq now
    have restIdle := ih fun later member => done later (List.mem_cons_of_mem _ member)
    simp only [Replica.deliveries, List.map_cons, moveAll_cons, idle] at restIdle ⊢
    simp only [restIdle, List.nil_append]

end Graph

namespace Replica

variable {replica : Replica}

/-- Once a batch was handled, the same batch is silent and leaves every object as it is. -/
theorem routeAll_again (sound : replica.graph.Sound) (batch : List Message) (now later : Int) :
    let first := (replica.routeAll batch now).2
    (first.routeAll batch later).1 = [] ∧ (first.routeAll batch later).2.graph = first.graph ∧
      (replica.appliesNow = true → (first.routeAll batch later).2 = first) := by
  intro first
  have sameMode : first.appliesNow = replica.appliesNow := appliesNow_routeAll replica batch now
  obtain ⟨updates, graph⟩ := first.routeAll_moves batch later
  by_cases applies : replica.appliesNow = true
  · have appliesFirst := sameMode.trans applies
    have delivered : first = { replica with
        graph := replica.graph.deliverAll (batch.map fun message => (message, now)) } := by
      simp only [first, routeAll_of_appliesNow applies, applyAll_eq, moveAll_deliveries]
    have done : ∀ message ∈ batch, first.graph.DoneWith message := by
      intro message member
      rw [delivered]
      exact Graph.doneWith_deliverAll sound (List.mem_map_of_mem member)
    have idle := Graph.moveAll_deliveries_of_done done later
    rw [routeAll_of_appliesNow appliesFirst, applyAll_eq, idle]
    exact ⟨rfl, rfl, fun _ => rfl⟩
  · have waits : first.appliesNow = false := sameMode.trans (Bool.eq_false_iff.2 applies)
    simp only [routeMoves, waits, Bool.false_eq_true, ↓reduceIte, Graph.moveAll] at updates graph
    exact ⟨updates, graph, fun applied => absurd applied applies⟩

end Replica

/-- Whatever a participant has been through, a batch of operations that comes a second time
right after the first leaves every object as it is and calls no listener. If operations are
applied as they come, nothing else changes either. -/
theorem redelivery_changes_nothing (config : Config) (history : List (Input × Int))
    (subscriptions : Subscriptions) {batch : List Message}
    (plain : ∀ message ∈ batch, message.state = none) (now later : Int) :
    let engine : Engine := { replica := (Replica.new config).after history, subscriptions }
    let first := (engine.handle (.messages batch) now).2
    let again := first.handle (.messages batch) later
    again.1 = {} ∧ again.2.graph = first.graph ∧
      (engine.replica.appliesNow = true → again.2 = first) := by
  intro engine first again
  have sound : engine.replica.graph.Sound := Replica.sound_after Graph.sound_initial history
  have firstReplica : first.replica = (engine.replica.routeAll batch now).2 := by
    simp only [first, Engine.handle, engine.replica.step_of_plain plain]
  obtain ⟨silent, graphSame, replicaSame⟩ := Replica.routeAll_again sound batch now later
  rw [← firstReplica] at silent graphSame replicaSame
  have handled : again =
      ({}, { first with replica := (first.replica.routeAll batch later).2 }) := by
    simp only [again, Engine.handle, first.replica.step_of_plain plain, silent, Subscriptions.dispatch]
  rw [handled]
  refine ⟨rfl, graphSame, fun applies => ?_⟩
  rw [replicaSame applies]

/-- Operations that are accepted, stopped at their gate, refused, and without a date. -/
def mixedBatch : List Message :=
  [numberedWrite "02" (.mapSet .root "k" (.reference ⟨"counter:c@1"⟩)), numberedWrite "02" (.mapRemove .root "k"),
    unplacedWrite, (Message.ofOperation (.counterInc ⟨"counter:c@1"⟩ (.zero false))).withOrigin "b" ⟨"01"⟩,
    numberedWrite "03" (.objectDelete ⟨"counter:c@1"⟩), Message.ofOperation (.objectDelete .root)]

theorem redelivery_changes_nothing_mixed :
    let engine : Engine := {
      replica := (Replica.new {}).after [(.channel (.attached false), 1)]
      subscriptions := Subscriptions.subscribe {} .root ⟨"reader", []⟩ }
    let first := engine.handle (.messages mixedBatch) 7
    first.1.calls.length = 2 ∧ first.2.handle (.messages mixedBatch) 8 = ({}, first.2) := by
  have plain : ∀ message ∈ mixedBatch, message.state = none := by decide +kernel
  obtain ⟨silent, -, same⟩ := redelivery_changes_nothing {} [(.channel (.attached false), 1)]
    (Subscriptions.subscribe {} .root ⟨"reader", []⟩) plain 7 8
  exact ⟨by decide +kernel, Prod.ext silent (same (by decide +kernel))⟩

end SharedGraph
