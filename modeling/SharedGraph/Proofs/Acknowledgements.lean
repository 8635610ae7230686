import SharedGraph.Proofs.HubConvergence
import SharedGraph.Proofs.Numbering
import SharedGraph.Proofs.Refusals

/-! What a hub makes of the writes that it takes. A participant checks an operation before it is
sent, the hub gives it a serial that is newer than all before, and the hub's own object is of the
kind that the name of the target shows: so it accepts every operation that it is asked to. A write
that is not sent leaves nothing behind, and the writer itself waits for the echo in either case. -/
namespace SharedGraph

/-! ## An object that cannot refuse -/

/-- A complete operation can be carried out by the object that it is for. -/
theorem LiveObject.exists_stepFor? {object : LiveObject} {operation : Operation}
    (complete : operation.check = .ok ()) (addressed : operation.target = object.id)
    (shown : operation.target.kind? = some object.kind) : ∃ step, object.stepFor? operation = some step := by
  obtain ⟨effect, effectSame⟩ := Operation.effect_of_check complete
  obtain ⟨kind, shownToo, chosen⟩ := Operation.kind_of_check complete
  obtain rfl : object.kind = kind := Option.some.inj (shown.symm.trans shownToo)
  have asked : object.stepFor? operation = effect.on? object.contents := by
    rw [stepFor?, if_pos addressed, effectSame]
    rfl
  rw [asked, ← Option.isSome_iff_exists, effect.isSome_on? (kind_initial object.kind).symm]
  have fits {expected : Kind} (acts : operation.action.kind? = some expected) : object.kind = expected := by
    rw [acts, Option.some_or] at chosen
    exact (Option.some.inj chosen).symm
  cases (Operation.asks_of_effect effectSame).2 with
  | set acts | remove acts | createMap acts =>
    have map : object.kind = .map := fits (by rw [acts]; rfl)
    rw [map]
    rfl
  | add acts | createCounter acts =>
    have counter : object.kind = .counter := fits (by rw [acts]; rfl)
    rw [counter]
    rfl
  | delete acts => rfl

namespace Graph

variable {graph : Graph} {operation : Operation} {message : Message} {origin : String × Serial} {now : Int}

private theorem not_turnsAway_of_applied {object : LiveObject} {update : Option Update}
    (complete : operation.check = .ok ()) (held : graph.orPlaceholder operation.target = some object)
    (answered : object.answer operation message = .ok (.applied update)) :
    ¬ graph.TurnsAway operation message := by
  intro turned
  cases turned with
  | incomplete found =>
    rw [complete] at found
    cases found
  | refused target refused =>
    obtain rfl := Option.some.inj (held.symm.trans target)
    rw [answered] at refused
    cases refused
  | stale target stale =>
    obtain rfl := Option.some.inj (held.symm.trans target)
    rw [answered] at stale
    cases stale

/-- A complete operation from somewhere is accepted if its target lets it through the gate. -/
theorem Sound.accepted (sound : graph.Sound) (carried : message.operation = some operation)
    (complete : operation.check = .ok ()) (from? : (message.stampedAt now).origin? = some origin)
    (open? : ∀ object, graph.orPlaceholder operation.target = some object → object.admits origin = true) :
    ¬ graph.TurnsAway operation (message.stampedAt now) ∧
      ∃ object, (graph.deliver message now).2.get? operation.target = some object ∧
        object.serials.get? origin.1 = some origin.2 := by
  obtain ⟨kind, shown, -⟩ := Operation.kind_of_check complete
  obtain ⟨object, held, delivered⟩ := deliver_of_check carried complete shown now
  obtain ⟨addressed, kindSame, -⟩ := sound.orPlaceholder held
  obtain ⟨step, asked⟩ := LiveObject.exists_stepFor? complete addressed.symm kindSame
  have lets := open? object held
  have answered : ∃ update, object.answer operation (message.stampedAt now) = .ok (.applied update) := by
    rw [LiveObject.answer, LiveObject.apply_of_step asked from?, if_pos lets]
    split <;> exact ⟨_, rfl⟩
  obtain ⟨update, answered⟩ := answered
  refine ⟨not_turnsAway_of_applied complete held answered, object.hear (message.stampedAt now), ?_, ?_⟩
  · rw [delivered, SortedMap.get?_insert_self]
  · have heard : (message.stampedAt now).operation = some operation := carried
    simp only [LiveObject.hear, heard]
    rw [LiveObject.take_of_step asked from?, if_pos lets, LiveObject.carry_serials, SiteSerials.record,
      SortedMap.get?_insert_self]

end Graph

/-! ## Calls -/

theorem Replica.state_of_mem_outgoing (replica : Replica) (operation : Operation) (messageId : String) :
    ∀ message ∈ [replica.outgoing operation messageId], message.state = none := by
  intro message member
  rw [List.mem_singleton.1 member]
  rfl

/-- A write as the one who calls sees it: the answer, and the hub afterwards. What is not sent
leaves the hub as it was. -/
def Client.call (client : Client) (write : Write) (messageId : String) (now : Int) (hub : Hub) :
    Except Failure Unit × Hub :=
  match client.send write messageId now hub with
  | .ok next => (.ok (), next)
  | .error failure => (.error failure, hub)

namespace Client

variable {client : Client} {write : Write} {messageId : String} {now : Int} {hub : Hub}

theorem call_of_ok (answered : (client.call write messageId now hub).1 = .ok ()) :
    client.send write messageId now hub = .ok (client.call write messageId now hub).2 := by
  unfold call at answered ⊢
  cases sent : client.send write messageId now hub with
  | ok next => rfl
  | error failure =>
    rw [sent] at answered
    cases answered

theorem call_of_error {failure : Failure}
    (answered : (client.call write messageId now hub).1 = .error failure) :
    (client.call write messageId now hub).2 = hub := by
  unfold call at answered ⊢
  cases sent : client.send write messageId now hub with
  | ok next =>
    rw [sent] at answered
    cases answered
  | error other => rfl

/-- A call succeeds exactly if the write makes a complete operation and everybody is open. -/
theorem call_eq_ok_iff (keeps : hub.Keeps) : (client.call write messageId now hub).1 = .ok () ↔
    (∃ operation, write.operation now = .ok operation ∧ operation.check = .ok ()) ∧
      client.engine.replica.channel.isUsable = true ∧ hub.accepting = true := by
  constructor
  · intro answered
    obtain ⟨operation, made, complete, usable, taken⟩ := send_eq_ok_iff.1 (call_of_ok answered)
    refine ⟨⟨operation, made, complete⟩, usable, ?_⟩
    by_contra closed
    rw [Hub.accept_of_closed (Bool.eq_false_iff.2 closed)] at taken
    cases taken
  · rintro ⟨⟨operation, made, complete⟩, usable, accepts⟩
    have plain := client.engine.replica.state_of_mem_outgoing operation messageId
    have taken := Hub.accept_of_live keeps.live accepts plain client.connection now
    have sent := send_eq_ok_iff.2 ⟨operation, made, complete, usable, taken⟩
    rw [call, sent]

/-- What is sent is stamped, appended to the log and delivered to the hub's own replica. -/
theorem call_taken (keeps : hub.Keeps) (answered : (client.call write messageId now hub).1 = .ok ()) :
    ∃ operation, write.operation now = .ok operation ∧ operation.check = .ok () ∧
      let message := Hub.stamp client.connection now hub.log.length
        (client.engine.replica.outgoing operation messageId)
      (client.call write messageId now hub).2.log = hub.log ++ [message] ∧
        (client.call write messageId now hub).2.server.graph = (hub.server.graph.deliver message now).2 := by
  obtain ⟨operation, made, complete, usable, taken⟩ := send_eq_ok_iff.1 (call_of_ok answered)
  have accepts := ((call_eq_ok_iff keeps).1 answered).2.2
  refine ⟨operation, made, complete, ?_⟩
  have plain := client.engine.replica.state_of_mem_outgoing operation messageId
  rw [Hub.accept_of_live keeps.live accepts plain] at taken
  rw [← Except.ok.inj taken]
  exact ⟨rfl, rfl⟩

end Client

namespace World

/-- Nothing but a delivery changes a participant. -/
theorem clients_attempt (world : World) {round : Round} {index : Nat}
    (apart : round.index = index → round.delivers = false) :
    (world.attempt round).2.clients[index]? = world.clients[index]? := by
  obtain ⟨turnOf, turn, tag, now⟩ := round
  have elsewhere (delivers : Round.delivers ⟨turnOf, turn, tag, now⟩ = true) (next : Client) :
      (world.clients.set turnOf next)[index]? = world.clients[index]? := by
    apply List.getElem?_set_ne
    intro same
    rw [apart same] at delivers
    cases delivers
  cases present : world.clients[turnOf]? with
  | none => simp only [attempt, step, present]
  | some client =>
    cases turn with
    | write write =>
      cases sent : client.send write ("msg-" ++ Nat.repr tag) now world.hub <;>
        simp only [attempt, step, present, sent, Except.map]
    | receive =>
      cases received : (client.receive world.hub now).2.1.result with
      | error failure => simp only [attempt, step, present, received, Except.map]
      | ok =>
        simp only [attempt, step, present, received, Except.map]
        exact elsewhere rfl _
    | resync size =>
      cases caught : client.resync world.hub ("seq-" ++ Nat.repr tag) size now with
      | error failure => simp only [attempt, step, present, caught, Except.map]
      | ok result =>
        simp only [attempt, step, present, caught, Except.map]
        exact elsewhere rfl _

private theorem clients_play (world : World) {rounds : List Round} {index : Nat}
    (apart : ∀ round ∈ rounds, round.index = index → round.delivers = false) :
    (world.play rounds).2.clients[index]? = world.clients[index]? := by
  induction rounds generalizing world with
  | nil => rfl
  | cons round rest ih =>
    have later := ih (world.attempt round).2 fun other member => apart other (List.mem_cons_of_mem _ member)
    have first := world.clients_attempt (apart round (List.mem_cons_self ..))
    rw [play_cons]
    exact later.trans first

end World

/-- Whatever operations were published at a hub before, a write that is acknowledged is accepted
there: it is one more message of the log, with the serial of its place, the hub's own replica does
not turn it away, and the object that it is for has recorded that serial for the writer's site. A
write is acknowledged exactly if it makes a complete operation while the writer's channel and the
hub are open, and if it is not, it leaves nothing behind. Either way the writer stays as it is
until something is delivered to it. All this holds while there are digits enough for the number of
the message, which is so for all numbers of 64 bits. -/
theorem acknowledged_write_accepted (name : String) {events : List Hub.Event}
    (plain : ∀ event ∈ events, event.Plain) (client : Client) (named : client.connection.site ≠ "")
    (write : Write) (messageId : String) (now : Int)
    (room : ((Hub.new name).undergoAll events).log.length + 1 < 10 ^ Hub.serialDigits) :
    let hub := (Hub.new name).undergoAll events
    let answer := (client.call write messageId now hub).1
    let next := (client.call write messageId now hub).2
    (answer = .ok () ↔
        (∃ operation, write.operation now = .ok operation ∧ operation.check = .ok ()) ∧
          client.engine.replica.channel.isUsable = true ∧ hub.accepting = true) ∧
      (answer = .ok () → ∃ operation message object,
        write.operation now = .ok operation ∧ message.operation = some operation ∧
          message.site = some client.connection.site ∧
          message.serial = some (Hub.serialAt hub.log.length) ∧
          next.log = hub.log ++ [message] ∧
          next.server.graph = (hub.server.graph.deliver message now).2 ∧
          ¬ hub.server.graph.TurnsAway operation (message.stampedAt now) ∧
          next.server.graph.get? operation.target = some object ∧
          object.serials.get? client.connection.site = message.serial) ∧
      (∀ failure, answer = .error failure →
        next.log = hub.log ∧ next.server.graph = hub.server.graph) ∧
      ∀ (clients : List Client) (index : Nat) (rounds : List Round), clients[index]? = some client →
        (∀ round ∈ rounds, round.index = index → round.delivers = false) →
        (World.play ⟨next, clients⟩ rounds).2.clients[index]? = some client := by
  intro hub answer next
  have keeps : hub.Keeps := (Hub.keeps_new name).undergoAll plain
  have numbered : hub.server.graph.Numbered hub.log.length :=
    (Hub.numbered_new name).undergoAll (Hub.keeps_new name) plain
  refine ⟨Client.call_eq_ok_iff keeps, ?_, ?_, ?_⟩
  · intro answered
    obtain ⟨operation, made, complete, log, graph⟩ := Client.call_taken keeps answered
    generalize stamped : Hub.stamp client.connection now hub.log.length
      (client.engine.replica.outgoing operation messageId) = message at log graph
    have carried : message.operation = some operation := by rw [← stamped]; rfl
    have from? : (message.stampedAt now).origin? =
        some (client.connection.site, Hub.serialAt hub.log.length) := by
      rw [← stamped]
      exact Hub.origin?_stamp named now hub.log.length _
    have open? : ∀ object, hub.server.graph.orPlaceholder operation.target = some object →
        object.admits (client.connection.site, Hub.serialAt hub.log.length) = true := by
      intro object held
      exact (numbered.orPlaceholder held).admits room client.connection.site
    obtain ⟨accepted, object, held, recorded⟩ :=
      keeps.orderly.sound.accepted carried complete from? open?
    rw [← graph] at held
    refine ⟨operation, message, object, made, carried, ?_, ?_, log, graph, accepted, held, ?_⟩
    · rw [← stamped]
      rfl
    · rw [← stamped]
      rfl
    · rw [recorded, ← stamped]
      rfl
  · intro failure answered
    have same : next = hub := Client.call_of_error answered
    rw [same]
    exact ⟨rfl, rfl⟩
  · intro clients index rounds present apart
    rw [World.clients_play _ apart]
    exact present

/-- A hub that somebody created a counter at. -/
private def opening : List Hub.Event :=
  [.connect "a",
    .publish ⟨"a", "conn-1", 0⟩ [.ofOperation (.counterCreate ⟨"counter:abc@1"⟩ (.ofInt 5) "n" "")] 7]

/-- Somebody who has not heard of it. -/
private def newcomer : Client := { engine := .new {}, connection := ⟨"b", "conn-2", 0⟩ }

/-- The hub accepts an increment of a counter that the writer does not know, and does not get to
know by writing once more. -/
theorem acknowledged_write_accepted_newcomer :
    let hub := (Hub.new "polls").undergoAll opening
    let called := newcomer.call (.increment ⟨"counter:abc@1"⟩ (.ofInt 2)) "m" 8 hub
    (∀ event ∈ opening, event.Plain) ∧ newcomer.connection.site ≠ "" ∧
      hub.log.length + 1 < 10 ^ Hub.serialDigits ∧ called.1 = .ok () ∧
      (∃ operation message object, message.operation = some operation ∧
        called.2.log = hub.log ++ [message] ∧
        ¬ hub.server.graph.TurnsAway operation (message.stampedAt 8) ∧
        called.2.server.graph.get? operation.target = some object ∧
        object.serials.get? "b" = message.serial) ∧
      (World.play ⟨called.2, [newcomer]⟩
        [⟨0, .write (.increment ⟨"counter:abc@1"⟩ (.ofInt 1)), 3, 9⟩]).2.clients[0]? = some newcomer := by
  have plain : ∀ event ∈ opening, event.Plain := by
    simp only [opening, List.mem_cons, List.not_mem_nil, or_false, forall_eq_or_imp, forall_eq,
      Hub.Event.Plain, Message.ofOperation, and_self]
  have named : newcomer.connection.site ≠ "" := by decide
  have room : ((Hub.new "polls").undergoAll opening).log.length + 1 < 10 ^ Hub.serialDigits := by
    decide +kernel
  obtain ⟨success, accepted, -, waits⟩ := acknowledged_write_accepted "polls" plain newcomer named
    (.increment ⟨"counter:abc@1"⟩ (.ofInt 2)) "m" 8 room
  have complete : ∃ operation,
      (Write.increment ⟨"counter:abc@1"⟩ (.ofInt 2)).operation 8 = .ok operation ∧ operation.check = .ok () :=
    ⟨.counterInc ⟨"counter:abc@1"⟩ (.ofInt 2), by decide +kernel, by decide +kernel⟩
  have answered := success.2 ⟨complete, rfl, by decide +kernel⟩
  obtain ⟨operation, message, object, -, carried, -, -, log, -, taken, held, recorded⟩ := accepted answered
  refine ⟨plain, named, room, answered, ?_, ?_⟩
  · exact ⟨operation, message, object, carried, log, taken, held, recorded⟩
  · apply waits [newcomer] 0 _ rfl
    intro round member _
    rw [List.mem_singleton.1 member]
    rfl

end SharedGraph
