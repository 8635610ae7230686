import SharedGraph.Proofs.Runs
import SharedGraph.Proofs.Visibility

/-! Operations that are turned away, because they are incomplete, because the object that they
are for refuses them, or because it stops them at the gate of their site. Nobody is told about
such an operation, and no object changes. Yet the names that it mentions are made known before
the object is asked, so a name that the graph did not hold, or had already forgotten, is in the
graph from then on. -/
namespace SharedGraph

namespace Graph

variable {graph : Graph} {operation : Operation} {message : Message} {now : Int}

/-- The ways in which an operation is turned away. An object that is not known answers as a
placeholder of its name does. -/
inductive TurnsAway (graph : Graph) (operation : Operation) (message : Message) : Prop
  | incomplete {fault : Fault} (found : operation.check = .error fault)
  | refused {object : LiveObject} {fault : Fault}
      (target : graph.orPlaceholder operation.target = some object)
      (answered : object.answer operation message = .error fault)
  | stale {object : LiveObject} (target : graph.orPlaceholder operation.target = some object)
      (answered : object.answer operation message = .ok .stale)

private theorem conclude_of_error (listing : Listing) (prepared : Graph) {object : LiveObject}
    {fault : Fault} (answered : object.answer operation message = .error fault) :
    conclude listing prepared operation object (object.apply operation message) = ([], prepared) := by
  unfold LiveObject.answer at answered
  cases applied : object.apply operation message with
  | error other => rfl
  | ok result =>
    rw [applied] at answered
    cases answered

private theorem conclude_of_stale (listing : Listing) (prepared : Graph) {object : LiveObject}
    (answered : object.answer operation message = .ok .stale) :
    conclude listing prepared operation object (object.apply operation message) = ([], prepared) := by
  unfold LiveObject.answer at answered
  cases applied : object.apply operation message with
  | error fault => rfl
  | ok result =>
    obtain ⟨outcome, next⟩ := result
    rw [applied] at answered
    cases answered
    rfl

/-- All that is left of an operation that was turned away are the names that it mentions. -/
theorem deliver_of_turnsAway (carried : message.operation = some operation)
    (turned : graph.TurnsAway operation (message.stampedAt now)) :
    (graph.deliver message now).1 = [] ∧
      ∀ id, (graph.deliver message now).2.get? id =
        if id ∈ message.mentioned then graph.orPlaceholder id else graph.get? id := by
  rcases complete_or_idle message with ⟨other, carriedToo, complete⟩ | ⟨idle, none⟩
  case inr =>
    rw [deliver, idle, none]
    exact ⟨rfl, fun id => (if_neg List.not_mem_nil).symm⟩
  obtain rfl := Option.some.inj (carried.symm.trans carriedToo)
  obtain ⟨kind, shown, -⟩ := Operation.kind_of_check complete
  obtain ⟨object, held, -, delivered⟩ := deliver_of_complete carried complete shown now
  have prepared : graph.deliver message now = ([], prepare graph operation kind) := by
    rw [deliver, delivered]
    cases turned with
    | incomplete found =>
      rw [complete] at found
      cases found
    | refused target answered =>
      obtain rfl := Option.some.inj (held.symm.trans target)
      exact conclude_of_error _ _ answered
    | stale target answered =>
      obtain rfl := Option.some.inj (held.symm.trans target)
      exact conclude_of_stale _ _ answered
  rw [prepared, Message.mentioned_of_check carried complete]
  exact ⟨rfl, get?_prepare graph shown⟩

private theorem orPlaceholder_eq_get?_iff {id : ObjectId} :
    graph.orPlaceholder id = graph.get? id ↔ (id.kind?.isSome = true → graph.contains id = true) := by
  unfold orPlaceholder
  rw [SortedMap.contains_eq_isSome]
  cases graph.get? id with
  | some object => simp only [Option.some_or, Option.isSome_some, implies_true]
  | none =>
    cases id.kind? with
    | some kind => simp
    | none => simp

/-- It leaves no trace at all exactly if the graph holds all names that it mentions and that
can be those of objects. -/
theorem deliver_eq_self_iff (carried : message.operation = some operation)
    (turned : graph.TurnsAway operation (message.stampedAt now)) :
    (graph.deliver message now).2 = graph ↔
      ∀ id ∈ message.mentioned, id.kind?.isSome = true → graph.contains id = true := by
  have known := (deliver_of_turnsAway carried turned).2
  constructor
  · intro same id mentioned
    rw [← orPlaceholder_eq_get?_iff]
    have found := known id
    rw [same, if_pos mentioned] at found
    exact found.symm
  · intro held
    ext1 id
    rw [known id]
    split
    case isTrue mentioned => exact orPlaceholder_eq_get?_iff.2 (held id mentioned)
    case isFalse => rfl

end Graph

open SharedGraph.Graph in
/-- An operation that is turned away is not reported, no object changes, and readers notice
nothing. What it may leave behind are placeholders of the names that it mentions; it leaves
none exactly if it is not applied at all or the graph holds these names. -/
theorem turned_away_leaves_placeholders (replica : Replica) {message : Message} {operation : Operation}
    (plain : message.state = none) (carried : message.operation = some operation) {now : Int}
    (turned : replica.graph.TurnsAway operation (message.stampedAt now)) :
    let (reaction, next) := replica.step (.messages [message]) now
    reaction.updates = [] ∧ reaction.result = .ok () ∧
      (∀ id, next.graph.get? id =
        if replica.appliesNow = true ∧ id ∈ message.mentioned then replica.graph.orPlaceholder id
        else replica.graph.get? id) ∧
      (next.graph = replica.graph ↔
        (replica.appliesNow = true → ∀ id ∈ message.mentioned, id.kind?.isSome = true →
          replica.graph.contains id = true)) ∧
      ∀ id key, next.graph.read id key = replica.graph.read id key := by
  have alone : ∀ other ∈ [message], other.state = none := by
    intro other member
    exact List.mem_singleton.1 member ▸ plain
  have routed := replica.step_of_plain alone now
  obtain ⟨updates, graph⟩ := replica.routeAll_moves [message] now
  obtain ⟨silent, known⟩ := deliver_of_turnsAway carried turned
  rw [routed]
  unfold Replica.routeMoves at updates graph
  by_cases applies : replica.appliesNow = true
  · rw [if_pos applies] at updates graph
    have delivered : (replica.routeAll [message] now).2.graph = (replica.graph.deliver message now).2 :=
      graph
    simp only [applies, true_and, true_implies, delivered]
    refine ⟨?_, known, deliver_eq_self_iff carried turned, (grown_of_get? known).read_eq⟩
    rw [updates]
    exact (List.append_nil _).trans silent
  · rw [if_neg applies] at updates graph
    have same : (replica.routeAll [message] now).2.graph = replica.graph := graph
    simp only [applies, Bool.false_eq_true, false_and, ↓reduceIte, false_implies, iff_true, true_and]
    exact ⟨updates, fun id => by rw [same], same, fun id key => by rw [same]⟩

/-- A write to a key that says neither where nor in which place it was made. -/
def unplacedWrite : Message :=
  { timestamp := some 7, operation := some (.mapSet .root "k" (.reference ⟨"counter:c@1"⟩)) }

theorem turned_away_leaves_placeholders_unplaced :
    let (reaction, next) := (Replica.new {}).step (.messages [unplacedWrite]) 7
    reaction.updates = [] ∧
      next.graph.get? ⟨"counter:c@1"⟩ = some (.placeholder ⟨"counter:c@1"⟩ .counter) := by
  have answered : (LiveObject.placeholder .root .map).answer
      (.mapSet .root "k" (.reference ⟨"counter:c@1"⟩)) (unplacedWrite.stampedAt 7) =
        .error (.missing .serial .mapSet .root) := by decide +kernel
  have plain : unplacedWrite.state = none := rfl
  obtain ⟨silent, -, known, -⟩ :=
    turned_away_leaves_placeholders (Replica.new {}) plain rfl (.refused (by decide +kernel) answered)
  exact ⟨silent, (known _).trans (by decide +kernel)⟩

/-- The write is refused for want of a serial, and yet the graph is not the same. -/
theorem refused_write_adds_object :
    (LiveObject.placeholder .root .map).answer (.mapSet .root "k" (.reference ⟨"counter:c@1"⟩))
        (unplacedWrite.stampedAt 7) = .error (.missing .serial .mapSet .root) ∧
      ((Replica.new {}).step (.messages [unplacedWrite]) 7).2.graph ≠ (Replica.new {}).graph := by
  decide +kernel

/-- An operation as the site `a` sends it. -/
def numberedWrite (serial : String) (operation : Operation) : Message :=
  ((Message.ofOperation operation).withOrigin "a" ⟨serial⟩).withTimestamp 7

-- A deleted counter that was forgotten comes back to life when an old write is sent again.
example :
    let write := numberedWrite "01" (.mapSet .root "k" (.reference ⟨"counter:c@1"⟩))
    let removals := [numberedWrite "02" (.objectDelete ⟨"counter:c@1"⟩), numberedWrite "03" (.mapRemove .root "k")]
    let replica := (Replica.new {}).after [(.messages (write :: removals), 7), (.collect 86400007, 86400007)]
    replica.graph.contains ⟨"counter:c@1"⟩ = false ∧
      (replica.step (.messages [write]) 86400008).2.graph.isTombstoned ⟨"counter:c@1"⟩ = false ∧
      (replica.step (.messages [write]) 86400008).2.graph.contains ⟨"counter:c@1"⟩ = true := by
  decide +kernel

end SharedGraph
