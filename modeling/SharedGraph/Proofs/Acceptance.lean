import SharedGraph.Hub
import SharedGraph.Proofs.Integrity

/-! When a hub's description is accepted. An operation is checked for what its action needs,
but all that it refers to becomes known, also in parts that its action does not look at. So
one message can bring in a name that no description may contain, and from then on nobody
accepts the hub's description; as long as there is no such message, everybody does. -/
namespace SharedGraph

namespace Operation

variable {operation : Operation} {id : ObjectId}

/-- What an operation refers to in parts that its action does not look at. -/
def overlooked (operation : Operation) : List ObjectId :=
  let edited := (operation.keyEdit.bind KeyEdit.data).bind Data.target?
  (if operation.action = .mapSet then [] else edited.toList) ++
    if operation.action.isCreate then [] else operation.firstEntries.values.filterMap Entry.target?

private theorem mem_references_of_overlooked (overlooked : id ∈ operation.overlooked) :
    id ∈ operation.references := by
  rcases List.mem_append.1 overlooked with edited | first
  · split at edited
    case isTrue => cases edited
    case isFalse => exact List.mem_append.2 (.inl edited)
  · split at first
    case isTrue => cases first
    case isFalse => exact List.mem_append.2 (.inr first)

/-- Whatever a complete operation refers to was checked or overlooked. -/
theorem isValid_or_overlooked (complete : operation.check = .ok ()) (referenced : id ∈ operation.references) :
    id.isValid = true ∨ id ∈ operation.overlooked := by
  rcases List.mem_append.1 referenced with inEdit | inEntries
  · by_cases sets : operation.action = .mapSet
    case neg => exact .inr (List.mem_append.2 (.inl (by rwa [if_neg sets])))
    obtain ⟨effect, found⟩ := effect_of_check complete
    cases (asks_of_effect found).2 with
    | set acts edited fine =>
      rw [Option.mem_toList, edited, Option.bind_some, Option.bind_some] at inEdit
      exact .inl (Data.isValid_of_check fine inEdit)
    | remove acts | add acts | createMap acts | createCounter acts | delete acts =>
      rw [acts] at sets
      cases sets
  · by_cases creates : operation.action.isCreate = true
    case neg => exact .inr (List.mem_append.2 (.inr (by rwa [if_neg creates])))
    have fine := check_firstEntries (checkCreate_of_check creates complete)
    exact .inl (Entries.isValid_of_check fine inEntries)

end Operation

namespace Message

variable {message : Message}

/-- What the operation of a message refers to without being checked for it are valid names,
or texts that show no kind. -/
def Tidy (message : Message) : Prop :=
  ∀ operation ∈ message.operation, operation.check = .ok () →
    ∀ id ∈ operation.overlooked, id.kind?.isSome = true → id.isValid = true

instance (message : Message) : Decidable message.Tidy :=
  inferInstanceAs (Decidable (∀ operation ∈ message.operation, operation.check = .ok () →
    ∀ id ∈ operation.overlooked, id.kind?.isSome = true → id.isValid = true))

/-- Only a complete operation makes names known. -/
theorem exists_of_mem_mentioned {id : ObjectId} (known : id ∈ message.mentioned) :
    ∃ operation ∈ message.operation, operation.check = .ok () ∧
      (id = operation.target ∨ id ∈ operation.references) := by
  rcases Graph.complete_or_idle message with ⟨operation, carried, complete⟩ | ⟨-, none⟩
  case inr =>
    rw [none] at known
    cases known
  rw [mentioned_of_check carried complete, List.mem_cons] at known
  exact ⟨operation, carried, complete, known⟩

/-- A message that is tidy, and no other one, makes valid names known alone. -/
theorem tidy_iff : message.Tidy ↔
    ∀ id ∈ message.mentioned, id.kind?.isSome = true → id.isValid = true := by
  constructor
  · intro tidy id known shown
    obtain ⟨operation, carried, complete, rfl | referenced⟩ := exists_of_mem_mentioned known
    · exact Operation.isValid_target complete
    · rcases Operation.isValid_or_overlooked complete referenced with valid | overlooked
      · exact valid
      · exact tidy operation carried complete id overlooked shown
  · intro valid operation carried complete id overlooked shown
    refine valid id ?_ shown
    rw [mentioned_of_check carried complete]
    exact List.mem_cons_of_mem _ (Operation.mem_references_of_overlooked overlooked)

end Message

namespace Graph

variable {graph : Graph} {log : List Message}

/-- The graph knows the root and what the messages of a log mention, if it can be an object. -/
def KnowsOf (graph : Graph) (log : List Message) : Prop :=
  ∀ id, (graph.get? id).isSome = true ↔
    id = .root ∨ id.kind?.isSome = true ∧ ∃ message ∈ log, id ∈ message.mentioned

private theorem knowsOf_initial : KnowsOf .initial [] := by
  intro id
  rw [initial, SortedMap.get?_insert_ite, SortedMap.get?_empty]
  split
  case isTrue root => simp only [root, Option.isSome_some, true_or]
  case isFalse other =>
    simp only [Option.isSome_none, Bool.false_eq_true, other, List.not_mem_nil, false_and, exists_false,
      and_false, or_self]

theorem KnowsOf.deliverAll (knows : graph.KnowsOf log) (keyed : graph.Keyed) (messages : List Message)
    (now : Int) :
    (graph.deliverAll (messages.map fun message => (message, now))).KnowsOf (log ++ messages) := by
  intro id
  rw [get?_deliverAll keyed, Option.isSome_map]
  have mentioned : (∃ delivery ∈ messages.map (fun message => (message, now)),
      id ∈ delivery.1.mentioned) ↔ ∃ message ∈ messages, id ∈ message.mentioned := by
    simp only [List.mem_map, exists_exists_and_eq_and]
  have placed : (graph.orPlaceholder id).isSome = true ↔
      (graph.get? id).isSome = true ∨ id.kind?.isSome = true := by
    rw [orPlaceholder, Option.isSome_or, Option.isSome_map, Bool.or_eq_true]
  simp only [mentioned, List.mem_append, or_and_right, exists_or]
  split
  case isTrue later =>
    rw [placed, knows id, or_assoc, or_iff_right_of_imp And.left]
    simp only [later, or_true, and_true]
  case isFalse unmentioned => rw [knows id, or_iff_left unmentioned]

/-- All names in a graph that came about by messages are valid, if all messages are tidy. -/
theorem KnowsOf.valid_iff (knows : graph.KnowsOf log) :
    (∀ id object, graph.get? id = some object → id.isValid = true) ↔ ∀ message ∈ log, message.Tidy := by
  have names : (∀ id object, graph.get? id = some object → id.isValid = true) ↔
      ∀ id, (graph.get? id).isSome = true → id.isValid = true := by
    simp only [Option.isSome_iff_exists, forall_exists_index]
  have known : ∀ id, (graph.get? id).isSome = true ↔ _ := knows
  simp only [names, Message.tidy_iff, known]
  constructor
  · intro valid message member id mentioned shown
    exact valid id (.inr ⟨shown, message, member, mentioned⟩)
  · rintro tidy id (rfl | ⟨shown, message, member, mentioned⟩)
    · rfl
    · exact tidy message member id mentioned shown

/-- An orderly graph can be described if its names are valid. -/
theorem Orderly.check_describe_iff (orderly : graph.Orderly) :
    (∀ state ∈ graph.describe, state.check = .ok ()) ↔
      ∀ id object, graph.get? id = some object → id.isValid = true := by
  constructor
  · intro checked id object present
    refine (orderly.check_toState_iff present).1 (checked object.toState ?_)
    exact List.mem_map.2 ⟨object, SortedMap.mem_values_iff.2 ⟨id, present⟩, rfl⟩
  · exact fun valid => (orderly.presentable valid).check_describe

end Graph

namespace Hub

variable {hub : Hub}

/-- What may happen at a hub. -/
inductive Event where
  | connect (site : String)
  | accepting (open? : Bool)
  | publish (connection : Connection) (messages : List Message) (now : Int)

/-- The hub after an event; messages that it does not take change nothing. -/
def undergo (hub : Hub) : Event → Hub
  | .connect site => (hub.connect site).2
  | .accepting open? => { hub with accepting := open? }
  | .publish connection messages now =>
    match hub.accept connection messages now with
    | .ok next => next
    | .error _ => hub

def undergoAll (hub : Hub) (events : List Event) : Hub := events.foldl undergo hub

/-- Nobody but the hub describes objects: what is published are operations. -/
def Event.Plain : Event → Prop
  | .connect _ | .accepting _ => True
  | .publish _ messages _ => ∀ message ∈ messages, message.state = none

private theorem state_of_mem_stampAll {messages : List Message}
    (plain : ∀ message ∈ messages, message.state = none) (connection : Connection) (now : Int) (place : Nat) :
    ∀ message ∈ stampAll connection now place messages, message.state = none := by
  induction messages generalizing place with
  | nil =>
    intro message member
    cases member
  | cons first rest ih =>
    intro message member
    rcases List.mem_cons.1 member with rfl | later
    · exact plain first (List.mem_cons_self ..)
    · exact ih (fun other among => plain other (List.mem_cons_of_mem _ among)) (place + 1) message later

theorem accept_of_closed (closed : hub.accepting = false) (connection : Connection) (messages : List Message)
    (now : Int) : hub.accept connection messages now = .error (.notAccepting hub.name) := by
  rw [accept, closed]
  rfl

/-- What an open hub takes is appended to its log and delivered to its own replica. -/
theorem accept_of_live (live : hub.server.Live) (accepts : hub.accepting = true) {messages : List Message}
    (plain : ∀ message ∈ messages, message.state = none) (connection : Connection) (now : Int) :
    hub.accept connection messages now =
      let stamped := stampAll connection now hub.log.length messages
      .ok { hub with
        log := hub.log ++ stamped
        server := { hub.server with
          graph := hub.server.graph.deliverAll (stamped.map fun message => (message, now)) } } := by
  have stampedPlain := state_of_mem_stampAll plain connection now hub.log.length
  have handled := Replica.step_messages live stampedPlain now
  simp only [Replica.step] at handled
  simp only [accept, accepts, Bool.not_true, Bool.false_eq_true, ↓reduceIte, handled]

/-- The hub's own replica takes messages as they come, its maps are in order, and it knows
what the log mentions. -/
structure Keeps (hub : Hub) : Prop where
  live : hub.server.Live
  orderly : hub.server.graph.Orderly
  knows : hub.server.graph.KnowsOf hub.log

theorem graph_new (name : String) : (Hub.new name).server.graph = .initial := by
  -- The name of a hub plays no part in its replica, which is a closed term therefore.
  have empty : ((Replica.new {}).handleChannel (.attached false) 0).2.graph = .initial := by decide +kernel
  exact empty

theorem keeps_new (name : String) : (Hub.new name).Keeps := by
  have server := graph_new name
  obtain ⟨-, -, channel, -, pending⟩ :=
    Replica.adoptSnapshot_moves { Replica.new {} with channel := .attached false } [] 0
  have channelToo : (Hub.new name).server.channel = .attached false := channel
  refine ⟨⟨by rw [channelToo]; rfl, pending⟩, ?_, ?_⟩
  · rw [server]
    exact Graph.orderly_initial
  · rw [server]
    exact Graph.knowsOf_initial

theorem Keeps.undergo (keeps : hub.Keeps) {event : Event} (plain : event.Plain) :
    (hub.undergo event).Keeps := by
  cases event with
  | connect site => exact ⟨keeps.live, keeps.orderly, keeps.knows⟩
  | accepting open? => exact ⟨keeps.live, keeps.orderly, keeps.knows⟩
  | publish connection messages now =>
    cases accepts : hub.accepting with
    | false =>
      rw [Hub.undergo, accept_of_closed accepts]
      exact keeps
    | true =>
      rw [Hub.undergo, accept_of_live keeps.live accepts plain]
      have plainToo := state_of_mem_stampAll plain connection now hub.log.length
      generalize stampAll connection now hub.log.length messages = stamped at plainToo
      have knows := keeps.knows.deliverAll keeps.orderly.sound.keyed stamped now
      refine ⟨⟨keeps.live.usable, keeps.live.idle⟩, ?_, knows⟩
      have orderly := Replica.orderly_after keeps.orderly [(.messages stamped, now)]
      exact congrArg Replica.graph (Replica.step_messages keeps.live plainToo now) ▸ orderly

theorem Keeps.undergoAll (keeps : hub.Keeps) {events : List Event} (plain : ∀ event ∈ events, event.Plain) :
    (hub.undergoAll events).Keeps := by
  induction events generalizing hub with
  | nil => exact keeps
  | cons event rest ih =>
    exact ih (keeps.undergo (plain event (List.mem_cons_self ..)))
      fun later member => plain later (List.mem_cons_of_mem _ member)

end Hub

/-- However operations are published at a hub: its names are valid, its description is in
order, and a participant takes that description over, whoever it is, exactly if no accepted
operation refers to an invalid name where nobody looks. -/
theorem snapshot_accepted_iff (name : String) {events : List Hub.Event}
    (plain : ∀ event ∈ events, event.Plain) :
    let hub := (Hub.new name).undergoAll events
    let tidy := ∀ message ∈ hub.log, message.Tidy
    ((∀ id object, hub.server.graph.get? id = some object → id.isValid = true) ↔ tidy) ∧
      ((∀ state ∈ hub.snapshot, state.check = .ok ()) ↔ tidy) ∧
      ∀ (config : Config) (inputs : List (Input × Int)) (now : Int),
        (∃ result, ((Replica.new config).after inputs).graph.applySnapshot hub.snapshot now = .ok result) ↔
          tidy := by
  intro hub tidy
  have keeps : hub.Keeps := (Hub.keeps_new name).undergoAll plain
  have valid := keeps.knows.valid_iff
  have checked := keeps.orderly.check_describe_iff.trans valid
  refine ⟨valid, checked, fun config inputs now => ?_⟩
  have sound : ((Replica.new config).after inputs).graph.Sound :=
    Replica.sound_after Graph.sound_initial inputs
  exact (sound.exists_applySnapshot_iff hub.snapshot now).trans checked

private def publication (messages : List Message) : List Hub.Event :=
  [.connect "a", .publish ⟨"a", "conn-1", 0⟩ messages 7]

private def ballot : List Message :=
  [.ofOperation (.counterCreate ⟨"counter:abc@1"⟩ (.ofInt 5) "n" ""),
    .ofOperation (.mapSet .root "votes" (.reference ⟨"counter:abc@1"⟩))]

/-- A hub that was told of a counter in the root is described to a newcomer. -/
theorem snapshot_accepted_ballot :
    (∀ event ∈ publication ballot, event.Plain) ∧
      ∃ result, ((Replica.new {}).after []).graph.applySnapshot
        ((Hub.new "polls").undergoAll (publication ballot)).snapshot 8 = .ok result := by
  have plain : ∀ event ∈ publication ballot, event.Plain := by
    simp only [publication, ballot, List.mem_cons, List.not_mem_nil, or_false, forall_eq_or_imp, forall_eq,
      Hub.Event.Plain, Message.ofOperation, and_self]
  exact ⟨plain, ((snapshot_accepted_iff "polls" plain).2.2 {} [] 8).2 (by decide +kernel)⟩

private def strayRemoval : Message :=
  .ofOperation { action := .mapRemove, target := .root, keyEdit := some ⟨"k", some (.reference ⟨"map:x"⟩)⟩ }

/-- A removal that carries an invalid name beside its key gets that name into the hub's graph,
and nobody takes the hub's description over any more. -/
theorem snapshot_refused_removal :
    let hub := (Hub.new "polls").undergoAll (publication [strayRemoval])
    hub.server.graph.contains ⟨"map:x"⟩ = true ∧ ObjectId.isValid ⟨"map:x"⟩ = false ∧
      (Graph.initial.applySnapshot hub.snapshot 8).isOk = false := by
  decide +kernel

end SharedGraph
