import Mathlib.Data.List.Induction
import Mathlib.Data.List.Nodup
import SharedGraph.Proofs.Numbering

/-! What a hub hands out. The log only grows at its end, and the serials in it ascend. Whoever is
connected is handed the log piece by piece, each time from where the last piece ended: so nothing
is left out, nothing comes twice, and all of it comes in the order of the log. -/
namespace SharedGraph

namespace Hub

variable {hub : Hub}

/-- Publishing opens no connection. -/
theorem connections_undergo_publish (hub : Hub) (connection : Connection) (messages : List Message)
    (now : Int) : (hub.undergo (.publish connection messages now)).connections = hub.connections := by
  cases accepts : hub.accepting with
  | false => rw [undergo, accept_of_closed accepts]
  | true => simp [undergo, accept, accepts]

/-- Every message of the log carries the serial of its place. -/
def Ordered (hub : Hub) : Prop :=
  ∀ place message, hub.log[place]? = some message → message.serial = some (serialAt place)

private theorem getElem?_stampAll (connection : Connection) (now : Int) (place : Nat)
    (messages : List Message) (index : Nat) :
    (stampAll connection now place messages)[index]? =
      messages[index]?.map (stamp connection now (place + index)) := by
  induction messages generalizing place index with
  | nil => simp [stampAll]
  | cons message rest ih =>
    cases index with
    | zero => simp [stampAll]
    | succ index =>
      have shifted : place + 1 + index = place + (index + 1) := by omega
      simp [stampAll, ih, shifted]

/-- What an event adds to the log. -/
def taken (hub : Hub) : Event → List Message
  | .connect _ | .accepting _ => []
  | .publish connection messages now =>
    if hub.accepting then stampAll connection now hub.log.length messages else []

private theorem log_undergo (hub : Hub) (event : Event) :
    (hub.undergo event).log = hub.log ++ hub.taken event := by
  cases event with
  | connect site => simp [undergo, connect, taken]
  | accepting open? => simp [undergo, taken]
  | publish connection messages now =>
    cases accepts : hub.accepting with
    | false => simp [undergo, accept_of_closed accepts, taken, accepts]
    | true => simp [undergo, accept, taken, accepts]

theorem Ordered.undergo (ordered : hub.Ordered) (event : Event) : (hub.undergo event).Ordered := by
  intro place message present
  rw [log_undergo, List.getElem?_append] at present
  split at present
  case isTrue => exact ordered place message present
  case isFalse beyond =>
    cases event with
    | connect site => simp [taken] at present
    | accepting open? => simp [taken] at present
    | publish connection messages now =>
      simp only [taken] at present
      split at present
      case isFalse => simp at present
      case isTrue =>
        have restored : hub.log.length + (place - hub.log.length) = place := by omega
        rw [getElem?_stampAll, restored] at present
        obtain ⟨original, -, rfl⟩ := Option.map_eq_some_iff.1 present
        rfl

/-- Serials in the log ascend while there are digits enough. -/
theorem Ordered.ascending (ordered : hub.Ordered) (room : hub.log.length < 10 ^ serialDigits) :
    hub.log.Pairwise fun earlier later =>
      ∃ old new, earlier.serial = some old ∧ later.serial = some new ∧ old < new := by
  rw [List.pairwise_iff_getElem]
  intro place later inside insideLater less
  exact ⟨serialAt place, serialAt later, ordered place _ (List.getElem?_eq_getElem inside),
    ordered later _ (List.getElem?_eq_getElem insideLater), serialAt_lt less (by omega)⟩

/-- An object whose gates were left by earlier messages of the log may hear any of them, and still
lets a later one through. -/
theorem Ordered.admits (ordered : hub.Ordered) (room : hub.log.length < 10 ^ serialDigits) {place : Nat}
    {later : Message} (present : hub.log[place]? = some later) {object : LiveObject}
    (numbered : object.Numbered place) {heard : List Message}
    (earlier : ∀ message ∈ heard, message ∈ hub.log.take place) {site : String} {serial : Serial}
    (given : later.serial = some serial) :
    (heard.foldl LiveObject.hear object).admits (site, serial) = true := by
  have own : serial = serialAt place := Option.some.inj (given.symm.trans (ordered place later present))
  have inside : place < hub.log.length := (List.getElem?_eq_some_iff.1 present).1
  have stays : (heard.foldl LiveObject.hear object).Numbered place := by
    induction heard generalizing object with
    | nil => exact numbered
    | cons message rest ih =>
      obtain ⟨first, restEarlier⟩ := List.forall_mem_cons.1 earlier
      obtain ⟨index, before, same⟩ := List.mem_take_iff_getElem.1 first
      have placed := ordered index message (by rw [List.getElem?_eq_getElem (by omega), same])
      exact ih (numbered.hear_of_lt placed (by omega)) restEarlier
  rw [own]
  exact stays.admits (by omega) site

/-- The name of the connection that is opened after so many others. -/
def connectionName (others : Nat) : String := "conn-" ++ Nat.repr (others + 1)

private theorem connectionName_injective : Function.Injective connectionName := by
  intro first second same
  have texts : Nat.toDigits 10 (first + 1) = Nat.toDigits 10 (second + 1) := by
    have chars := congrArg String.toList same
    simpa [connectionName, String.toList_append, Nat.toList_repr] using chars
  have numbers := congrArg (fun digits => Nat.ofDigitChars 10 digits 0) texts
  simp only [Nat.ofDigitChars_ten_toDigits] at numbers
  omega

end Hub

/-- A hub and the connections that were opened at it, in their order. -/
structure Exchange where
  hub : Hub
  connections : List Connection := []

namespace Exchange

/-- What may happen at a hub, one thing after another. Connections are known by their place. -/
inductive Event where
  | connect (site : String)
  | accepting (open? : Bool)
  | publish (index : Nat) (messages : List Message) (now : Int)
  | drain (index : Nat)

/-- Nothing happens through a connection that was not opened. -/
def next (exchange : Exchange) : Event → Exchange
  | .connect site =>
    let (connection, hub) := exchange.hub.connect site
    { hub, connections := exchange.connections ++ [connection] }
  | .accepting open? => { exchange with hub := exchange.hub.undergo (.accepting open?) }
  | .publish index messages now =>
    match exchange.connections[index]? with
    | none => exchange
    | some connection => { exchange with hub := exchange.hub.undergo (.publish connection messages now) }
  | .drain index =>
    match exchange.connections[index]? with
    | none => exchange
    | some connection =>
      { exchange with connections := exchange.connections.set index (exchange.hub.drain connection).2 }

/-- What a connection is handed by an event, if it is drained. -/
def handed? (exchange : Exchange) (index : Nat) : Event → Option (List Message)
  | .connect _ | .accepting _ | .publish .. => none
  | .drain drained =>
    if drained = index then
      exchange.connections[index]?.map fun connection => (exchange.hub.drain connection).1
    else none

def after (exchange : Exchange) (events : List Event) : Exchange := events.foldl next exchange

/-- What a connection is handed by one drain after the other. -/
def drains (exchange : Exchange) (index : Nat) : List Event → List (List Message)
  | [] => []
  | event :: rest => (exchange.handed? index event).toList ++ (exchange.next event).drains index rest

private theorem drains_concat (exchange : Exchange) (index : Nat) (events : List Event) (event : Event) :
    exchange.drains index (events ++ [event]) =
      exchange.drains index events ++ ((exchange.after events).handed? index event).toList := by
  induction events generalizing exchange with
  | nil => simp [drains, after]
  | cons first rest ih => simp [drains, after, ih]

/-- The log carries the serials of its places, no two connections have the same name, and every
connection was handed the log up to its position. -/
structure Accounted (exchange : Exchange) (handedOut : Nat → List Message) : Prop where
  ordered : exchange.hub.Ordered
  names : exchange.connections.map Connection.id =
    (List.range exchange.hub.connections).map Hub.connectionName
  upTo : ∀ (index : Nat) connection, exchange.connections[index]? = some connection →
    connection.position ≤ exchange.hub.log.length ∧
      handedOut index = exchange.hub.log.take connection.position
  nobody : ∀ index, exchange.connections[index]? = none → handedOut index = []

variable {exchange : Exchange} {handedOut : Nat → List Message}

/-- Before anybody connects nothing is handed out. -/
theorem accounted_new (name : String) : Accounted { hub := .new name } fun _ => [] where
  ordered place message present := by cases present
  names := rfl
  upTo index connection present := by cases present
  nobody _ _ := rfl

/-- What goes to the end of the log was not handed out yet. -/
theorem Accounted.undergo (accounted : exchange.Accounted handedOut) (event : Hub.Event)
    (opened : (exchange.hub.undergo event).connections = exchange.hub.connections) :
    Accounted { exchange with hub := exchange.hub.undergo event } handedOut where
  ordered := accounted.ordered.undergo event
  names := by
    rw [opened]
    exact accounted.names
  upTo index connection present := by
    obtain ⟨within, upTo⟩ := accounted.upTo index connection present
    rw [Hub.log_undergo, List.length_append, List.take_append_of_le_length within]
    exact ⟨by omega, upTo⟩
  nobody := accounted.nobody

/-- A new connection was handed nothing yet. -/
theorem Accounted.connect (accounted : exchange.Accounted handedOut) (site : String) :
    (exchange.next (.connect site)).Accounted handedOut where
  ordered := accounted.ordered
  names := by
    simp only [next, Hub.connect, List.map_append, List.map_singleton, accounted.names, List.range_succ]
    rfl
  upTo index connection present := by
    simp only [next, Hub.connect, List.getElem?_append] at present
    split at present
    case isTrue => exact accounted.upTo index connection present
    case isFalse beyond =>
      obtain rfl := List.mem_singleton.1 (List.mem_of_getElem? present)
      exact ⟨Nat.zero_le _, accounted.nobody index (List.getElem?_eq_none (Nat.le_of_not_lt beyond))⟩
  nobody index absent := by
    apply accounted.nobody index
    simp only [next, Hub.connect, List.getElem?_eq_none_iff, List.length_append] at absent ⊢
    omega

/-- A drain hands out all that was not handed out to the connection yet. -/
theorem Accounted.drain (accounted : exchange.Accounted handedOut) {drained : Nat} {connection : Connection}
    (present : exchange.connections[drained]? = some connection) :
    Accounted
      { exchange with
        connections := exchange.connections.set drained (exchange.hub.drain connection).2 }
      fun index => handedOut index ++ if drained = index then exchange.hub.unread connection else [] where
  ordered := accounted.ordered
  names := by
    have named : (exchange.connections.map Connection.id)[drained]? =
        some (exchange.hub.drain connection).2.id := by
      rw [List.getElem?_map, present]
      rfl
    obtain ⟨inside, same⟩ := List.getElem?_eq_some_iff.1 named
    rw [List.map_set, ← same, List.set_getElem_self]
    exact accounted.names
  upTo index other presentNow := by
    by_cases same : drained = index
    · subst same
      obtain ⟨inside, -⟩ := List.getElem?_eq_some_iff.1 present
      rw [List.getElem?_set_self inside] at presentNow
      cases presentNow
      rw [if_pos rfl, (accounted.upTo drained connection present).2]
      exact ⟨Nat.le_refl _, (List.take_append_drop ..).trans List.take_length.symm⟩
    · rw [List.getElem?_set_ne same] at presentNow
      rw [if_neg same, List.append_nil]
      exact accounted.upTo index other presentNow
  nobody index absent := by
    rw [List.getElem?_eq_none_iff, List.length_set, ← List.getElem?_eq_none_iff] at absent
    have other : drained ≠ index := by
      rintro rfl
      rw [absent] at present
      cases present
    rw [if_neg other, List.append_nil]
    exact accounted.nobody index absent

/-- What every event keeps, and what it hands out. -/
theorem Accounted.next (accounted : exchange.Accounted handedOut) (event : Event) :
    (exchange.next event).Accounted fun index =>
      handedOut index ++ (exchange.handed? index event).toList.flatten := by
  have silent (same : ∀ index, exchange.handed? index event = none) :
      (fun index => handedOut index ++ (exchange.handed? index event).toList.flatten) = handedOut := by
    funext index
    simp [same]
  cases event with
  | connect site =>
    rw [silent fun _ => rfl]
    exact accounted.connect site
  | accepting open? =>
    rw [silent fun _ => rfl]
    exact accounted.undergo (.accepting open?) rfl
  | publish index messages now =>
    rw [silent fun _ => rfl]
    simp only [Exchange.next]
    split
    case h_1 => exact accounted
    case h_2 connection _ =>
      exact accounted.undergo _ (exchange.hub.connections_undergo_publish connection messages now)
  | drain drained =>
    cases present : exchange.connections[drained]? with
    | none =>
      have nobody : ∀ index, exchange.handed? index (.drain drained) = none := by
        intro index
        simp only [handed?]
        split
        case isTrue same => rw [← same, present, Option.map_none]
        case isFalse => rfl
      rw [silent nobody]
      simpa only [Exchange.next, present] using accounted
    | some connection =>
      have out : (fun index => handedOut index ++ (exchange.handed? index (.drain drained)).toList.flatten) =
          fun index => handedOut index ++ if drained = index then exchange.hub.unread connection else [] := by
        funext index
        simp only [handed?]
        split
        case isTrue same => simp [← same, present, Hub.drain]
        case isFalse => rfl
      rw [out]
      simpa only [Exchange.next, present] using accounted.drain present

/-- However things go at a new hub, the accounts are right. -/
theorem accounted_after (name : String) (events : List Event) :
    (after { hub := .new name } events).Accounted fun index =>
      (drains { hub := .new name } index events).flatten := by
  induction events using List.reverseRecOn with
  | nil => exact accounted_new name
  | append_singleton events event ih =>
    have one := ih.next event
    simp only [drains_concat, List.flatten_append]
    simpa only [after, List.foldl_append, List.foldl_cons, List.foldl_nil] using one

end Exchange

open Exchange in
/-- However connections are opened, messages are published and handed out at a hub, and whenever it
is closed for a while: the serials in its log ascend, as long as there are fewer than `2 ^ 64`
messages. So an object whose gates were left by earlier messages, and which may have heard any of
them meanwhile, lets every later message pass, whatever its site. No two connections have the same
name. What the hub refuses leaves it as it was, and what it accepts goes to its end, stamped.
And what a connection was handed so far, followed by what it can still be handed, is the log. -/
theorem log_ordered_and_drained_once (name : String) (events : List Exchange.Event)
    (few : (Exchange.after { hub := .new name } events).hub.log.length < 2 ^ 64) :
    let exchange := Exchange.after { hub := .new name } events
    let hub := exchange.hub
    (hub.log.Pairwise fun earlier later =>
        ∃ old new, earlier.serial = some old ∧ later.serial = some new ∧ old < new) ∧
      (∀ (place : Nat) later (object : LiveObject) (heard : List Message) site serial,
        hub.log[place]? = some later → object.Numbered place →
        (∀ message ∈ heard, message ∈ hub.log.take place) →
        later.site = some site → later.serial = some serial →
        (heard.foldl LiveObject.hear object).admits (site, serial) = true) ∧
      (exchange.connections.map Connection.id).Nodup ∧
      (∀ connection messages now, match hub.accept connection messages now with
        | .error _ => hub.undergo (.publish connection messages now) = hub
        | .ok next => next.log = hub.log ++ Hub.stampAll connection now hub.log.length messages) ∧
      ∀ (index : Nat) connection, exchange.connections[index]? = some connection →
        (Exchange.drains { hub := .new name } index events).flatten ++ hub.unread connection = hub.log := by
  intro exchange hub
  have accounted := accounted_after name events
  have room : hub.log.length < 10 ^ Hub.serialDigits := Nat.lt_of_lt_of_le few (by decide)
  refine ⟨accounted.ordered.ascending room, ?_, ?_, ?_, ?_⟩
  · intro place later object heard site serial present numbered earlier _ given
    exact accounted.ordered.admits room present numbered earlier given
  · rw [accounted.names]
    exact List.Nodup.map Hub.connectionName_injective List.nodup_range
  · intro connection messages now
    cases accepts : hub.accepting with
    | false => simp [Hub.undergo, Hub.accept_of_closed accepts]
    | true => simp [Hub.accept, accepts]
  · intro index connection present
    rw [(accounted.upTo index connection present).2]
    exact List.take_append_drop ..

private def handUp : Message := .ofOperation (.counterInc ⟨"counter:abc@1"⟩ (.ofInt 1))

private def assembly : List Exchange.Event :=
  [.connect "a", .connect "b", .publish 0 [handUp] 5, .drain 1, .accepting false,
    .publish 1 [handUp] 6, .accepting true, .publish 1 [handUp, handUp] 7, .drain 1, .publish 0 [handUp] 8]

/-- Two participants vote with their hands. One vote comes while the hub is closed, and the second
participant was handed three of the other four. -/
theorem log_ordered_and_drained_once_assembly :
    let exchange := Exchange.after { hub := .new "hall" } assembly
    let drains := Exchange.drains { hub := .new "hall" } 1 assembly
    exchange.hub.log.length = 4 ∧ drains.map List.length = [1, 2] ∧
      (exchange.hub.log.Pairwise fun earlier later =>
        ∃ old new, earlier.serial = some old ∧ later.serial = some new ∧ old < new) ∧
      (exchange.connections.map Connection.id).Nodup ∧
      ∀ connection, exchange.connections[1]? = some connection →
        drains.flatten ++ exchange.hub.unread connection = exchange.hub.log := by
  obtain ⟨ordered, -, names, -, drained⟩ :=
    log_ordered_and_drained_once "hall" assembly (by decide +kernel)
  exact ⟨by decide +kernel, by decide +kernel, ordered, names, drained 1⟩

end SharedGraph
