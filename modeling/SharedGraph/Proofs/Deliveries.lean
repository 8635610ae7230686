import SharedGraph.Replica
import SharedGraph.Proofs.Objects

/-! What a graph holds after messages were delivered to it, name by name. An object is in
the graph once it is mentioned, and what it is then depends on the messages alone that were
offered to it: the graph is a family of objects that each hear every message. -/
namespace SharedGraph

/-- The objects that a message makes known: its target and those that it refers to, if its
operation is complete. -/
def Message.mentioned (message : Message) : List ObjectId :=
  match message.operation with
  | some operation => if operation.check.isOk then operation.target :: operation.references else []
  | none => []

theorem Message.mentioned_of_check {message : Message} {operation : Operation}
    (carried : message.operation = some operation) (complete : operation.check = .ok ()) :
    message.mentioned = operation.target :: operation.references := by
  simp only [mentioned, carried, complete, Except.isOk, Except.toBool, ↓reduceIte]

theorem Message.stampedAt_of_isSome {message : Message} (stamped : message.timestamp.isSome = true)
    (now : Int) : message.stampedAt now = message := by
  obtain ⟨time, same⟩ := Option.isSome_iff_exists.1 stamped
  obtain ⟨id, timestamp, clientId, connectionId, serial, site, operation, state⟩ := message
  simp only at same
  simp only [Message.stampedAt, same, Option.getD_some]

/-- A valid name shows the kind of its object. -/
theorem ObjectId.isSome_kind?_of_isValid {id : ObjectId} (valid : id.isValid = true) :
    id.kind?.isSome = true := by
  rw [isValid, Bool.or_eq_true, Bool.and_eq_true] at valid
  rcases valid with root | named
  · rw [kind?, if_pos root]
    rfl
  · exact named.1

namespace Operation

theorem effect_of_check {operation : Operation} (complete : operation.check = .ok ()) :
    ∃ effect, operation.effect = .ok effect := by
  unfold check at complete
  cases found : operation.effect with
  | ok effect => exact ⟨effect, rfl⟩
  | error fault => simp only [found, Except.map, reduceCtorEq] at complete

/-- A complete operation is for a name that shows its kind. -/
theorem kind_of_check {operation : Operation} (complete : operation.check = .ok ()) :
    ∃ kind, operation.target.kind? = some kind ∧
      operation.action.kind?.or operation.target.kind? = some kind := by
  have checked : operation.checkTarget = .ok () := by
    obtain ⟨effect, effectSame⟩ := effect_of_check complete
    exact (asks_of_effect effectSame).1
  unfold checkTarget at checked
  split at checked
  case isTrue => cases checked
  split at checked
  case isTrue => cases checked
  case isFalse valid =>
    rw [Bool.not_eq_true, Bool.not_eq_false'] at valid
    obtain ⟨kind, kindSame⟩ := Option.isSome_iff_exists.1 (ObjectId.isSome_kind?_of_isValid valid)
    refine ⟨kind, kindSame, ?_⟩
    cases expects : operation.action.kind? with
    | none => rw [Option.none_or, kindSame]
    | some expected =>
      simp only [expects, kindSame] at checked
      split at checked
      case isTrue same => rw [Option.some_or, same]
      case isFalse => cases checked

end Operation

namespace LiveObject

/-- An object takes no notice of a message for another one. -/
theorem hear_of_other {object : LiveObject} {message : Message}
    (other : ∀ operation, message.operation = some operation → operation.check = .ok () →
      operation.target ≠ object.id) (now : Int) : object.hear (message.stampedAt now) = object := by
  unfold hear
  simp only [Message.stampedAt]
  cases carried : message.operation with
  | none => rfl
  | some operation =>
    refine take_of_refused (.inl ?_)
    unfold stepFor?
    split
    case isFalse => rfl
    case isTrue addressed =>
      cases complete : operation.effect with
      | error fault => rfl
      | ok effect =>
        refine absurd addressed (other operation carried ?_)
        rw [Operation.check, complete]
        rfl

private theorem hear_of_unmentioned {object : LiveObject} {message : Message}
    (unmentioned : object.id ∉ message.mentioned) (now : Int) :
    object.hear (message.stampedAt now) = object := by
  refine hear_of_other (fun operation carried complete addressed => unmentioned ?_) now
  rw [Message.mentioned_of_check carried complete, addressed]
  exact List.mem_cons_self ..

end LiveObject

namespace Graph

/-- Every object stands under its own name. -/
def Keyed (graph : Graph) : Prop := ∀ id object, graph.get? id = some object → object.id = id

/-- The object of a name once it is mentioned, if the name can be that of an object. -/
def orPlaceholder (graph : Graph) (id : ObjectId) : Option LiveObject :=
  (graph.get? id).or (id.kind?.map (LiveObject.placeholder id))

theorem orPlaceholder_of_get? {graph : Graph} {id : ObjectId} {object : LiveObject}
    (present : graph.get? id = some object) : graph.orPlaceholder id = some object := by
  rw [orPlaceholder, present, Option.some_or]

theorem objectOr_of_kind (graph : Graph) {id : ObjectId} {kind : Kind} (shown : id.kind? = some kind) :
    some (graph.objectOr id kind) = graph.orPlaceholder id := by
  unfold objectOr orPlaceholder
  cases graph.get? id with
  | none => rw [shown]; rfl
  | some object => rfl

private theorem get?_ensure (graph : Graph) {id : ObjectId} {kind : Kind} (shown : id.kind? = some kind)
    (other : ObjectId) :
    (ensure graph id kind).get? other = if other = id then graph.orPlaceholder id else graph.get? other := by
  unfold ensure
  rw [SortedMap.contains_eq_isSome]
  cases present : graph.get? id with
  | none =>
    simp only [Option.isSome_none, Bool.false_eq_true, ↓reduceIte, SortedMap.get?_insert_ite,
      orPlaceholder, present, Option.none_or, shown, Option.map_some]
  | some object =>
    simp only [Option.isSome_some, ↓reduceIte, orPlaceholder, present, Option.some_or]
    split
    case isTrue same => rw [same, present]
    case isFalse => rfl

private theorem get?_ensureReferenced (graph : Graph) (id other : ObjectId) :
    (ensureReferenced graph id).get? other =
      if other = id then graph.orPlaceholder id else graph.get? other := by
  unfold ensureReferenced
  cases shown : id.kind? with
  | some kind => exact get?_ensure graph shown other
  | none =>
    by_cases same : other = id
    · rw [if_pos same, same, orPlaceholder, shown, Option.map_none, Option.or_none]
    · rw [if_neg same]

/-- Names that are mentioned one after another are all in the graph. -/
theorem get?_ensureAll (ids : List ObjectId) (graph : Graph) (other : ObjectId) :
    (ids.foldl ensureReferenced graph).get? other =
      if other ∈ ids then graph.orPlaceholder other else graph.get? other := by
  induction ids generalizing graph with
  | nil => simp
  | cons id rest ih =>
    rw [List.foldl_cons, ih]
    by_cases same : other = id
    · subst same
      simp only [orPlaceholder, get?_ensureReferenced, ↓reduceIte, List.mem_cons, true_or]
      split
      · cases graph.get? other <;> cases other.kind? <;> rfl
      · rfl
    · simp only [orPlaceholder, get?_ensureReferenced, same, ↓reduceIte, List.mem_cons, false_or]

theorem get?_prepare (graph : Graph) {operation : Operation} {kind : Kind}
    (shown : operation.target.kind? = some kind) (other : ObjectId) :
    (prepare graph operation kind).get? other =
      if other ∈ operation.target :: operation.references then graph.orPlaceholder other
      else graph.get? other := by
  unfold prepare
  rw [get?_ensure _ shown]
  by_cases same : other = operation.target
  · subst same
    simp only [↓reduceIte, orPlaceholder, get?_ensureAll, List.mem_cons, true_or]
    split
    · cases graph.get? operation.target <;> cases operation.target.kind? <;> rfl
    · rfl
  · simp only [same, ↓reduceIte, get?_ensureAll, List.mem_cons, false_or]

theorem get?_initial {id : ObjectId} {object : LiveObject} (present : initial.get? id = some object) :
    id = .root ∧ object = .placeholder .root .map := by
  rw [initial, SortedMap.get?_insert_ite, SortedMap.get?_empty] at present
  split at present
  case isTrue same =>
    cases present
    exact ⟨same, rfl⟩
  case isFalse => cases present

theorem keyed_initial : Keyed .initial := by
  intro id object present
  obtain ⟨rfl, rfl⟩ := get?_initial present
  rfl

theorem Keyed.orPlaceholder {graph : Graph} (keyed : graph.Keyed) {id : ObjectId} {object : LiveObject}
    (present : graph.orPlaceholder id = some object) : object.id = id := by
  unfold Graph.orPlaceholder at present
  cases known : graph.get? id with
  | some found =>
    rw [known, Option.some_or, Option.some.injEq] at present
    exact present ▸ keyed id found known
  | none =>
    rw [known, Option.none_or, Option.map_eq_some_iff] at present
    obtain ⟨kind, -, rfl⟩ := present
    rfl

/-- What a delivery leads to, once all that is mentioned is known, by the answer of the target. -/
def conclude (listing : Listing) (prepared : Graph) (operation : Operation) (object : LiveObject) :
    Except Fault (Outcome × LiveObject) → List Update × Graph
  | .error _ | .ok (.stale, _) => ([], prepared)
  | .ok (.applied none, next) => ([], prepared.insert operation.target next)
  | .ok (.applied (some update), next) =>
    let changed := prepared.insert operation.target next
    (report listing changed operation object next update, changed)

/-- A complete message is offered to its target, once all that it mentions is known. -/
theorem deliver_of_complete {graph : Graph} {message : Message} {operation : Operation} {kind : Kind}
    (carried : message.operation = some operation) (complete : operation.check = .ok ())
    (shown : operation.target.kind? = some kind) (now : Int) :
    ∃ object, graph.orPlaceholder operation.target = some object ∧
      (prepare graph operation kind).get? operation.target = some object ∧
      ∀ listing, graph.deliverIn listing message now =
        conclude listing (prepare graph operation kind) operation object
          (object.apply operation (message.stampedAt now)) := by
  obtain ⟨other, otherShown, chosen⟩ := Operation.kind_of_check complete
  obtain rfl : kind = other := Option.some.inj (shown.symm.trans otherShown)
  have prepared : (prepare graph operation kind).get? operation.target =
      graph.orPlaceholder operation.target := by
    rw [get?_prepare graph shown, if_pos (List.mem_cons_self ..)]
  have held := (objectOr_of_kind graph shown).symm
  generalize graph.objectOr operation.target kind = object at held
  have known := prepared.trans held
  have chosenObject : objectOr (prepare graph operation kind) operation.target kind = object := by
    rw [objectOr, known, Option.getD_some]
  refine ⟨object, held, known, fun listing => ?_⟩
  simp only [deliverIn, carried, complete, chosen, chosenObject]
  rcases object.apply operation (message.stampedAt now) with fault | ⟨_ | _ | update, next⟩ <;> rfl

/-- The target of a complete message hears it. -/
theorem deliver_of_check {graph : Graph} {message : Message} {operation : Operation} {kind : Kind}
    (carried : message.operation = some operation) (complete : operation.check = .ok ())
    (shown : operation.target.kind? = some kind) (now : Int) :
    ∃ object, graph.orPlaceholder operation.target = some object ∧
      (graph.deliver message now).2 =
        (prepare graph operation kind).insert operation.target (object.hear (message.stampedAt now)) := by
  obtain ⟨object, held, known, delivered⟩ := deliver_of_complete carried complete shown now
  refine ⟨object, held, ?_⟩
  have heard : (message.stampedAt now).operation = some operation := carried
  rw [deliver, delivered]
  simp only [LiveObject.hear, heard, LiveObject.take]
  cases answered : object.apply operation (message.stampedAt now) with
  | error fault => exact (SortedMap.insert_of_get? known).symm
  | ok result =>
    obtain ⟨outcome, next⟩ := result
    cases outcome with
    | stale =>
      rw [LiveObject.eq_of_apply_stale answered]
      exact (SortedMap.insert_of_get? known).symm
    | applied update => cases update <;> rfl

/-- A message carries a complete operation, or it does nothing and mentions nothing. -/
theorem complete_or_idle (message : Message) :
    (∃ operation, message.operation = some operation ∧ operation.check = .ok ()) ∨
      (∀ (listing : Listing) (graph : Graph) (now : Int),
        graph.deliverIn listing message now = ([], graph)) ∧
        message.mentioned = [] := by
  unfold deliverIn Message.mentioned
  cases carried : message.operation with
  | none => exact .inr ⟨fun _ _ _ => rfl, rfl⟩
  | some operation =>
    cases complete : operation.check with
    | ok => exact .inl ⟨operation, rfl, complete⟩
    | error fault =>
      refine .inr ⟨fun listing graph now => ?_, ?_⟩
      · simp only [complete]
      · simp only [complete, Except.isOk, Except.toBool, Bool.false_eq_true, ↓reduceIte]

/-- A delivered message is heard by every object, those included that it makes known. -/
theorem get?_deliver {graph : Graph} (keyed : graph.Keyed) (message : Message) (now : Int)
    (id : ObjectId) :
    (graph.deliver message now).2.get? id =
      (if id ∈ message.mentioned then graph.orPlaceholder id else graph.get? id).map
        fun object => object.hear (message.stampedAt now) := by
  rcases complete_or_idle message with ⟨operation, carried, complete⟩ | ⟨idle, none⟩
  case inr =>
    rw [deliver, idle, none, if_neg List.not_mem_nil]
    cases present : graph.get? id with
    | none => rfl
    | some object =>
      rw [Option.map_some, LiveObject.hear_of_unmentioned (none ▸ List.not_mem_nil)]
  case inl =>
    obtain ⟨kind, shown, -⟩ := Operation.kind_of_check complete
    obtain ⟨object, held, delivered⟩ := deliver_of_check carried complete shown now
    rw [delivered, SortedMap.get?_insert_ite, get?_prepare graph shown,
      ← Message.mentioned_of_check carried complete]
    by_cases addressed : id = operation.target
    · subst addressed
      rw [if_pos rfl, if_pos (Message.mentioned_of_check carried complete ▸ List.mem_cons_self ..),
        held, Option.map_some]
    · rw [if_neg addressed]
      generalize found : (if id ∈ message.mentioned then graph.orPlaceholder id else graph.get? id) = known
      cases known with
      | none => rfl
      | some object =>
        have named : object.id = id := by
          split at found
          · exact keyed.orPlaceholder found
          · exact keyed id object found
        rw [Option.map_some, LiveObject.hear_of_other]
        intro other carriedToo _ same
        obtain rfl := Option.some.inj (carried.symm.trans carriedToo)
        exact addressed (named.symm.trans same.symm)

private theorem orPlaceholder_deliver {graph : Graph} (keyed : graph.Keyed) (message : Message)
    (now : Int) (id : ObjectId) :
    (graph.deliver message now).2.orPlaceholder id =
      (graph.orPlaceholder id).map fun object => object.hear (message.stampedAt now) := by
  have known := get?_deliver keyed message now id
  cases present : graph.get? id with
  | some object =>
    rw [orPlaceholder_of_get? present, present, ite_self, Option.map_some] at known
    rw [orPlaceholder_of_get? known, orPlaceholder_of_get? present, Option.map_some]
  | none =>
    rw [present] at known
    have placed : graph.orPlaceholder id = id.kind?.map (LiveObject.placeholder id) := by
      rw [orPlaceholder, present, Option.none_or]
    by_cases mentioned : id ∈ message.mentioned
    · rw [if_pos mentioned] at known
      rw [orPlaceholder, known, placed]
      cases id.kind? <;> rfl
    · rw [if_neg mentioned, Option.map_none] at known
      rw [orPlaceholder, known, placed, Option.none_or]
      cases id.kind? with
      | none => rfl
      | some kind =>
        have foreign : (LiveObject.placeholder id kind).id ∉ message.mentioned := mentioned
        have same := LiveObject.hear_of_unmentioned foreign now
        rw [Option.map_some, Option.map_some, same]

theorem Keyed.deliver {graph : Graph} (keyed : graph.Keyed) (message : Message) (now : Int) :
    (graph.deliver message now).2.Keyed := by
  intro id object present
  rw [get?_deliver keyed, Option.map_eq_some_iff] at present
  obtain ⟨before, known, rfl⟩ := present
  rw [LiveObject.hear_id]
  split at known
  · exact keyed.orPlaceholder known
  · exact keyed id before known

/-- What holds of every graph: objects stand under their names, are of the kind that the
name shows, and are sound themselves. -/
structure Sound (graph : Graph) : Prop where
  keyed : graph.Keyed
  kinds : ∀ id object, graph.get? id = some object → id.kind? = some object.kind
  objects : ∀ id object, graph.get? id = some object → object.Sound

theorem Sound.of_objects {graph : Graph} (fine : ∀ id object, graph.get? id = some object →
    object.id = id ∧ id.kind? = some object.kind ∧ object.Sound) : graph.Sound where
  keyed id object present := (fine id object present).1
  kinds id object present := (fine id object present).2.1
  objects id object present := (fine id object present).2.2

theorem sound_initial : Sound .initial where
  keyed := keyed_initial
  kinds id object present := by
    obtain ⟨rfl, rfl⟩ := get?_initial present
    rfl
  objects id object present := by
    obtain ⟨rfl, rfl⟩ := get?_initial present
    exact LiveObject.sound_placeholder ..

namespace Sound

variable {graph : Graph}

theorem orPlaceholder (sound : graph.Sound) {id : ObjectId} {object : LiveObject}
    (present : graph.orPlaceholder id = some object) :
    object.id = id ∧ id.kind? = some object.kind ∧ object.Sound := by
  unfold Graph.orPlaceholder at present
  cases known : graph.get? id with
  | some found =>
    rw [known, Option.some_or, Option.some.injEq] at present
    subst present
    exact ⟨sound.keyed id found known, sound.kinds id found known, sound.objects id found known⟩
  | none =>
    rw [known, Option.none_or, Option.map_eq_some_iff] at present
    obtain ⟨kind, shown, rfl⟩ := present
    refine ⟨rfl, ?_, LiveObject.sound_placeholder id kind⟩
    rw [shown, LiveObject.kind, LiveObject.placeholder, LiveObject.kind_initial]

theorem deliver (sound : graph.Sound) (message : Message) (now : Int) :
    (graph.deliver message now).2.Sound := by
  refine .of_objects fun id object present => ?_
  rw [get?_deliver sound.keyed, Option.map_eq_some_iff] at present
  obtain ⟨before, known, rfl⟩ := present
  have placed : graph.orPlaceholder id = some before := by
    split at known
    · exact known
    · exact orPlaceholder_of_get? known
  obtain ⟨named, kindSame, fine⟩ := sound.orPlaceholder placed
  refine ⟨?_, ?_, fine.hear _⟩
  · rw [LiveObject.hear_id, named]
  · rw [LiveObject.hear_kind, kindSame]

end Sound

/-- Messages delivered one after another, each at its time. -/
def deliverAll (graph : Graph) (stream : List (Message × Int)) : Graph :=
  stream.foldl (fun current delivery => (current.deliver delivery.1 delivery.2).2) graph

end Graph

/-- An object after a list of messages, each at its time. -/
def LiveObject.hearAll (object : LiveObject) (stream : List (Message × Int)) : LiveObject :=
  stream.foldl (fun current delivery => current.hear (delivery.1.stampedAt delivery.2)) object

theorem LiveObject.hearAll_of_dated {stream : List (Message × Int)}
    (dated : ∀ delivery ∈ stream, delivery.1.timestamp.isSome) (object : LiveObject) :
    object.hearAll stream = (stream.map Prod.fst).foldl LiveObject.hear object := by
  induction stream generalizing object with
  | nil => rfl
  | cons delivery rest ih =>
    have same := Message.stampedAt_of_isSome (dated delivery (List.mem_cons_self ..)) delivery.2
    refine (ih (fun later member => dated later (List.mem_cons_of_mem _ member)) _).trans ?_
    simp only [same, List.map_cons, List.foldl_cons]

namespace Graph

/-- An object of the graph has heard all messages, those before it was known included. -/
theorem get?_deliverAll {graph : Graph} (keyed : graph.Keyed) (stream : List (Message × Int))
    (id : ObjectId) :
    (graph.deliverAll stream).get? id =
      (if ∃ delivery ∈ stream, id ∈ delivery.1.mentioned then graph.orPlaceholder id
        else graph.get? id).map fun object => object.hearAll stream := by
  induction stream generalizing graph with
  | nil => simp [deliverAll, LiveObject.hearAll]
  | cons delivery rest ih =>
    refine (ih (keyed.deliver delivery.1 delivery.2)).trans ?_
    rw [orPlaceholder_deliver keyed, get?_deliver keyed]
    simp only [List.mem_cons, exists_eq_or_imp]
    by_cases later : ∃ other ∈ rest, id ∈ other.1.mentioned
    · rw [if_pos later, if_pos (Or.inr later), Option.map_map]
      rfl
    · simp only [later, ↓reduceIte, or_false, Option.map_map]
      rfl

end Graph

namespace Replica

/-- A participant after a list of inputs, each at its time. -/
def after (replica : Replica) (inputs : List (Input × Int)) : Replica :=
  inputs.foldl (fun current input => (current.step input.1 input.2).2) replica

/-- The participant takes messages as they come: its channel works, and it is not waiting
for a description. -/
structure Live (replica : Replica) : Prop where
  usable : replica.channel.isUsable = true
  idle : replica.pending = none

private theorem route_of_live {replica : Replica} (live : replica.Live) (message : Message) (now : Int) :
    replica.route message now = replica.applyNow message now := by
  simp [route, live.usable, live.idle]

private theorem routeAll_of_live {replica : Replica} (live : replica.Live) (messages : List Message)
    (now : Int) :
    (replica.routeAll messages now).2 =
      { replica with graph := replica.graph.deliverAll (messages.map fun message => (message, now)) } := by
  unfold routeAll
  generalize ([] : List Update) = updates
  induction messages generalizing replica updates with
  | nil => rfl
  | cons message rest ih =>
    have next : (replica.applyNow message now).2.Live := ⟨live.usable, live.idle⟩
    simp only [List.foldl_cons, route_of_live live message now]
    exact ih next _

/-- A batch of operations has no states, and all of it are operations. -/
theorem halves_of_plain {batch : List Message} (plain : ∀ message ∈ batch, message.state = none) :
    batch.filterMap Message.state = [] ∧ (batch.filter fun message => message.state.isNone) = batch := by
  rw [List.filterMap_eq_nil_iff, List.filter_eq_self]
  exact ⟨plain, fun message member => plain message member ▸ rfl⟩

/-- A batch of operations is routed message by message; nothing else comes of it. -/
theorem step_of_plain (replica : Replica) {batch : List Message}
    (plain : ∀ message ∈ batch, message.state = none) (now : Int) :
    replica.step (.messages batch) now =
      ({ updates := (replica.routeAll batch now).1 }, (replica.routeAll batch now).2) := by
  obtain ⟨stateless, whole⟩ := halves_of_plain plain
  simp only [step, handleMessages, stateless, whole, List.isEmpty_nil, ↓reduceIte, List.nil_append]

/-- Operations are routed one after another, and no batch of them is refused. -/
theorem step_operations (replica : Replica) {batch : List Message}
    (plain : ∀ message ∈ batch, message.state = none) (now : Int) :
    (replica.step (.messages batch) now).1.result = .ok () ∧
      (replica.step (.messages batch) now).2 = (replica.routeAll batch now).2 := by
  rw [step_of_plain replica plain now]
  exact ⟨rfl, rfl⟩

/-- A batch of operations is delivered message by message. -/
theorem step_messages {replica : Replica} (live : replica.Live) {batch : List Message}
    (plain : ∀ message ∈ batch, message.state = none) (now : Int) :
    (replica.step (.messages batch) now).2 =
      { replica with graph := replica.graph.deliverAll (batch.map fun message => (message, now)) } := by
  rw [(step_operations replica plain now).2]
  exact routeAll_of_live live batch now

/-- How a list is cut into batches does not matter. -/
theorem after_messages {replica : Replica} (live : replica.Live) {batches : List (List Message × Int)}
    (plain : ∀ batch ∈ batches, ∀ message ∈ batch.1, message.state = none) :
    (replica.after (batches.map fun batch => (.messages batch.1, batch.2))).graph =
      replica.graph.deliverAll
        (batches.flatMap fun batch => batch.1.map fun message => (message, batch.2)) := by
  induction batches generalizing replica with
  | nil => rfl
  | cons batch rest ih =>
    have stepped := step_messages live (plain batch (List.mem_cons_self ..)) batch.2
    have next : (replica.step (.messages batch.1) batch.2).2.Live := by
      rw [stepped]
      exact ⟨live.usable, live.idle⟩
    refine (ih next fun later member => plain later (List.mem_cons_of_mem _ member)).trans ?_
    rw [stepped]
    simp only [Graph.deliverAll, List.flatMap_cons, List.foldl_append]

end Replica

end SharedGraph
