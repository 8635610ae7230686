import SharedGraph.StressTest
import SharedGraph.Proofs.Participants

/-! Everybody converges to the hub. Whoever writes what, and whoever is handed what is new
at which moment, with a description or without one: no delivery fails, and who was handed
everything has the objects of the hub. -/
namespace SharedGraph

/-! ## Writes -/

theorem Write.isValid_references {write : Write} {operation : Operation} {now : Int}
    (made : write.operation now = .ok operation) (complete : operation.check = .ok ()) :
    ∀ id ∈ operation.references, id.isValid = true := by
  have none (empty : operation.entries = none) : Entries.check operation.firstEntries = .ok () := by
    rw [Operation.firstEntries, empty]
    rfl
  cases write with
  | set map key data =>
    simp only [Write.operation, Write.checkData] at made
    cases fine : data.check with
    | error fault => simp only [fine, Except.mapError, Except.map, reduceCtorEq] at made
    | ok =>
      simp only [fine, Except.mapError, Except.map, Except.ok.injEq] at made
      subst made
      refine Operation.isValid_references (fun edit given => ?_) (none rfl)
      rintro same written
      cases same
      cases written
      exact fine
  | remove map key =>
    cases made
    refine Operation.isValid_references (fun edit given same written => ?_) (none rfl)
    cases same
    cases written
  | increment counter amount =>
    simp only [Write.operation] at made
    split at made <;> cases made
    exact Operation.isValid_references (fun edit given same => nomatch same) (none rfl)
  | delete id =>
    cases made
    exact Operation.isValid_references (fun edit given same => nomatch same) (none rfl)
  | createMap entries nonce =>
    simp only [Write.operation] at made
    cases fine : entries.forM fun entry => Write.checkData entry.2 with
    | error failure => simp only [fine, Except.map, reduceCtorEq] at made
    | ok =>
      simp only [fine, Except.map, Except.ok.injEq] at made
      have action : operation.action = .mapCreate := by rw [← made]; rfl
      obtain ⟨effect, effectSame⟩ := Operation.effect_of_check complete
      refine Operation.isValid_references (fun edit given same => ?_) ?_
      · rw [← made] at same
        exact nomatch same
      · cases (Operation.asks_of_effect effectSame).2 with
        | createMap acts checked => exact Operation.check_firstEntries checked
        | set acts | remove acts | add acts | createCounter acts | delete acts =>
          rw [action] at acts
          cases acts
  | createCounter count nonce =>
    simp only [Write.operation] at made
    split at made <;> cases made
    exact Operation.isValid_references (fun edit given same => nomatch same) (none rfl)

/-- The message that sends an operation. -/
def Replica.outgoing (replica : Replica) (operation : Operation) (messageId : String) : Message :=
  { Message.ofOperation operation with
    id := some messageId
    clientId := replica.config.clientId }

private theorem Replica.compose_eq_ok_iff {replica : Replica} {operation : Operation} {messageId : String}
    {message : Message} : replica.compose operation messageId = .ok message ↔
      operation.check = .ok () ∧ replica.channel.isUsable = true ∧
        replica.outgoing operation messageId = message := by
  unfold compose
  cases operation.check with
  | error fault => simp only [Except.mapError, bind, Except.bind, reduceCtorEq, false_and]
  | ok =>
    simp only [Except.mapError, bind, Except.bind, true_and]
    cases replica.channel.isUsable with
    | false => simp only [Bool.false_eq_true, ↓reduceIte, reduceCtorEq, false_and]
    | true =>
      simp only [↓reduceIte, Except.ok.injEq, true_and]
      rfl

/-- A write is sent exactly if it makes a complete operation and both the channel and the hub are
open; the hub takes one message then. -/
theorem Client.send_eq_ok_iff {client : Client} {write : Write} {messageId : String} {now : Int}
    {hub next : Hub} : client.send write messageId now hub = .ok next ↔
      ∃ operation, write.operation now = .ok operation ∧ operation.check = .ok () ∧
        client.engine.replica.channel.isUsable = true ∧
          hub.accept client.connection [client.engine.replica.outgoing operation messageId] now =
            .ok next := by
  unfold Client.send
  cases write.operation now with
  | error failure => simp only [bind, Except.bind, reduceCtorEq, false_and, exists_false]
  | ok operation =>
    simp only [bind, Except.bind, Except.ok.injEq, exists_eq_left']
    cases composed : client.engine.replica.compose operation messageId with
    | error failure =>
      simp only [reduceCtorEq, false_iff]
      rintro ⟨complete, usable, -⟩
      rw [Replica.compose_eq_ok_iff.2 ⟨complete, usable, rfl⟩] at composed
      cases composed
    | ok message =>
      obtain ⟨complete, usable, rfl⟩ := Replica.compose_eq_ok_iff.1 composed
      simp only [complete, usable, true_and]
      cases hub.accept client.connection _ now with
      | error refusal => simp only [Except.mapError, reduceCtorEq]
      | ok taken => simp only [Except.mapError, Except.ok.injEq]

/-- A write that the hub takes is one more message of the log. -/
theorem Client.send_spec {client : Client} {write : Write} {messageId : String} {now : Int} {hub next : Hub}
    (sent : client.send write messageId now hub = .ok next) :
    ∃ operation message, write.operation now = .ok operation ∧ message.operation = some operation ∧
      message.Issued ∧ next.log = hub.log ++ [message] ∧
      next.server = (hub.server.step (.messages [message]) now).2 := by
  obtain ⟨operation, made, complete, -, taken⟩ := Client.send_eq_ok_iff.1 sent
  unfold Hub.accept at taken
  split at taken
  case isTrue => cases taken
  case isFalse =>
    cases taken
    have issued := Write.isValid_references made complete
    exact ⟨operation, _, made, rfl, ⟨rfl, rfl, operation, rfl, complete, issued⟩, rfl, rfl⟩

/-! ## Rounds -/

/-- Somebody's turn at a moment. The tag goes into the names of messages and sequences. -/
structure Round where
  index : Nat
  turn : Turn
  tag : Nat
  now : Int

namespace Round

/-- What is new is handed out, with a description or without one. -/
def delivers (round : Round) : Bool :=
  match round.turn with
  | .write _ => false
  | .receive | .resync _ => true

/-- The object that the write of a round creates. -/
def creates? (round : Round) : Option ObjectId :=
  match round.turn with
  | .write write => (write.operation round.now).toOption.bind fun operation =>
    if operation.action.isCreate then some operation.target else none
  | .receive | .resync _ => none

private theorem creates?_of_delivers {round : Round} (delivers : round.delivers = true) :
    round.creates? = none := by
  unfold Round.delivers at delivers
  unfold creates?
  split at delivers
  · cases delivers
  · simp only [*]
  · simp only [*]

end Round

namespace World

/-- A round that fails leaves everything as it was. -/
def attempt (world : World) (round : Round) : Except Failure Nat × World :=
  match world.step round.index round.turn round.tag round.now with
  | .ok (count, next) => (.ok count, next)
  | .error failure => (.error failure, world)

/-- The rounds in their order, each with how many messages it handed out, or why it failed. -/
def play (world : World) : List Round → List (Round × Except Failure Nat) × World
  | [] => ([], world)
  | round :: rest =>
    let (answer, next) := world.attempt round
    let (answers, last) := next.play rest
    ((round, answer) :: answers, last)

/-- One more participant with the given site, which learns that there are no objects. -/
def welcome (world : World) (site : String) (now : Int) : World :=
  let (client, hub) := Client.join world.hub site {}
  { hub, clients := world.clients ++ [(client.handle (.channel (.attached false)) now).2] }

/-- A new hub with its participants, each of a site and welcomed at a time. -/
def gather (name : String) (members : List (String × Int)) : World :=
  members.foldl (fun world member => world.welcome member.1 member.2) { hub := .new name }

variable {world : World} {round : Round}

theorem play_cons (world : World) (round : Round) (rest : List Round) :
    world.play (round :: rest) = ((round, (world.attempt round).1) :: ((world.attempt round).2.play rest).1,
      ((world.attempt round).2.play rest).2) := rfl

private theorem play_append (world : World) (rounds more : List Round) :
    world.play (rounds ++ more) = ((world.play rounds).1 ++ ((world.play rounds).2.play more).1,
      ((world.play rounds).2.play more).2) := by
  induction rounds generalizing world with
  | nil => rfl
  | cons round rest ih => rw [List.cons_append, play_cons, play_cons, ih, List.cons_append]

/-- The hub has what its log led to, and so has everybody, up to a position in the log. -/
structure Consistent (world : World) : Prop where
  issued : ∀ message ∈ world.hub.log, message.Issued
  server : world.hub.server.Calm
  served : world.hub.server.graph.Follows world.hub.log
  clients : ∀ client ∈ world.clients, client.Follows world.hub.log

private theorem plain_sequence (tag : Nat) : ':' ∉ ("seq-" ++ Nat.repr tag).toList := by
  rw [String.toList_append, List.mem_append, not_or]
  refine ⟨by decide, fun member => ?_⟩
  rw [Nat.toList_repr] at member
  exact absurd (Nat.isDigit_of_mem_toDigits (by decide) (by decide) member) (by decide)

/-- A delivery never fails. It concerns one client, which has caught up afterwards. -/
theorem Consistent.step_of_delivers (consistent : world.Consistent) (distinct : (created world.hub.log).Nodup)
    (delivers : round.delivers = true) :
    world.clients[round.index]? = none ∧ world.attempt round = (.ok 0, world) ∨
      ∃ count next, next.Follows world.hub.log ∧ next.connection.position = world.hub.log.length ∧
        world.attempt round = (.ok count, { world with clients := world.clients.set round.index next }) := by
  obtain ⟨index, turn, tag, now⟩ := round
  cases present : world.clients[index]? with
  | none => exact .inl ⟨rfl, by simp only [attempt, step, present]⟩
  | some client =>
    refine .inr ?_
    have follows := consistent.clients client (List.mem_of_getElem? present)
    cases turn with
    | write write => cases delivers
    | receive =>
      obtain ⟨accepted, followsNext, position⟩ := follows.receive consistent.issued distinct now
      refine ⟨(client.receive world.hub now).1, (client.receive world.hub now).2.2, followsNext, position, ?_⟩
      simp only [attempt, step, present, accepted, Except.map]
    | resync size =>
      obtain ⟨count, next, caught, followsNext, position⟩ :=
        follows.resync consistent.issued consistent.served (plain_sequence tag) size now
      refine ⟨count, next, followsNext, position, ?_⟩
      simp only [attempt, step, present, caught, Except.map]

private theorem Consistent.set_client (consistent : world.Consistent) (index : Nat) {next : Client}
    (follows : next.Follows world.hub.log) :
    Consistent { world with clients := world.clients.set index next } where
  issued := consistent.issued
  server := consistent.server
  served := consistent.served
  clients client member := by
    rcases List.mem_or_eq_of_mem_set member with before | rfl
    · exact consistent.clients client before
    · exact follows

/-- A message goes to the end of the log; nobody but the hub has heard of it yet. -/
theorem Consistent.publish (consistent : world.Consistent) {message : Message} (issued : message.Issued)
    (distinct : (created (world.hub.log ++ [message])).Nodup) {next : Hub} {now : Int}
    (logNext : next.log = world.hub.log ++ [message])
    (serverNext : next.server = (world.hub.server.step (.messages [message]) now).2) :
    Consistent { world with hub := next } := by
  have stateless : ∀ other ∈ [message], other.state = none := by
    intro other member
    rw [List.mem_singleton.1 member]
    exact issued.stateless
  obtain ⟨-, calm, graphSame⟩ := consistent.server.messages stateless now
  constructor
  · intro other member
    simp only [logNext, List.mem_append, List.mem_singleton] at member
    rcases member with earlier | rfl
    · exact consistent.issued other earlier
    · exact issued
  · rw [serverNext]
    exact calm
  · simp only [serverNext, logNext]
    rw [graphSame]
    refine consistent.served.deliver issued.dated (fun id new old => ?_) now
    rw [created_concat, new] at distinct
    exact (List.nodup_append.1 distinct).2.2 id old id (Option.mem_toList.2 rfl) rfl
  · intro other member
    simp only [logNext]
    exact (consistent.clients other member).append [message]

/-- A write that is taken makes one message; one that is not leaves everything as it was. -/
theorem attempt_write_cases (world : World) (index : Nat) (write : Write) (tag : Nat) (now : Int) :
    (world.attempt ⟨index, .write write, tag, now⟩).2 = world ∨
      ∃ next operation message,
        (world.attempt ⟨index, .write write, tag, now⟩).2 = { world with hub := next } ∧
        write.operation now = .ok operation ∧ message.operation = some operation ∧ message.Issued ∧
        next.log = world.hub.log ++ [message] ∧
        next.server = (world.hub.server.step (.messages [message]) now).2 := by
  cases present : world.clients[index]? with
  | none => exact .inl (by simp only [attempt, step, present])
  | some client =>
    cases sent : client.send write ("msg-" ++ Nat.repr tag) now world.hub with
    | error failure => exact .inl (by simp only [attempt, step, present, sent, Except.map])
    | ok next =>
      obtain ⟨operation, message, taken⟩ := Client.send_spec sent
      exact .inr ⟨next, operation, message, by simp only [attempt, step, present, sent, Except.map], taken⟩

/-- What the message of a write creates is what the write creates. -/
theorem Consistent.attempt_write (consistent : world.Consistent) (writes : round.delivers = false)
    (distinct : (created world.hub.log ++ round.creates?.toList).Nodup) :
    (world.attempt round).2 = world ∨
      (world.attempt round).2.Consistent ∧ (world.attempt round).2.clients = world.clients ∧
        created (world.attempt round).2.hub.log = created world.hub.log ++ round.creates?.toList := by
  obtain ⟨index, turn, tag, now⟩ := round
  cases turn with
  | receive => cases writes
  | resync size => cases writes
  | write write =>
    rcases world.attempt_write_cases index write tag now with
      same | ⟨next, operation, message, attempted, made, carried, issued, logNext, serverNext⟩
    · exact .inl same
    · have creates : message.creates? = Round.creates? ⟨index, .write write, tag, now⟩ := by
        simp only [Message.creates?, carried, Option.bind_some, Round.creates?, made, Except.toOption]
      rw [← creates, ← created_concat] at distinct ⊢
      rw [attempted]
      exact .inr ⟨consistent.publish issued distinct logNext serverNext, rfl, congrArg created logNext⟩

/-- What every round keeps, and what it adds to what the log creates. -/
theorem Consistent.attempt (consistent : world.Consistent) (round : Round)
    (distinct : (created world.hub.log ++ round.creates?.toList).Nodup) :
    (world.attempt round).2.Consistent ∧
      (world.attempt round).2.clients.length = world.clients.length ∧
      (created (world.attempt round).2.hub.log).Sublist (created world.hub.log ++ round.creates?.toList) ∧
      (round.delivers = true → ∃ count, (world.attempt round).1 = .ok count) := by
  cases delivers : round.delivers with
  | false =>
    rcases consistent.attempt_write delivers distinct with same | ⟨next, clients, createdNext⟩
    · rw [same]
      exact ⟨consistent, rfl, List.sublist_append_left .., nofun⟩
    · rw [clients, createdNext]
      exact ⟨next, rfl, .refl _, nofun⟩
  | true =>
    have distinctLog : (created world.hub.log).Nodup := (List.nodup_append.1 distinct).1
    rcases consistent.step_of_delivers distinctLog delivers with
      ⟨-, attempted⟩ | ⟨count, next, follows, -, attempted⟩
    · rw [attempted]
      exact ⟨consistent, rfl, List.sublist_append_left .., fun _ => ⟨0, rfl⟩⟩
    · rw [attempted]
      exact ⟨consistent.set_client round.index follows, List.length_set .., List.sublist_append_left ..,
        fun _ => ⟨count, rfl⟩⟩

/-- However the rounds go, as long as no object is created twice: the participants stay
consistent, and no delivery fails. -/
theorem Consistent.play (consistent : world.Consistent) {rounds : List Round}
    (distinct : (created world.hub.log ++ rounds.filterMap Round.creates?).Nodup) :
    (world.play rounds).2.Consistent ∧
      (world.play rounds).2.clients.length = world.clients.length ∧
      (created (world.play rounds).2.hub.log).Nodup ∧
      ∀ answer ∈ (world.play rounds).1, answer.1.delivers = true → ∃ count, answer.2 = .ok count := by
  induction rounds generalizing world with
  | nil =>
    rw [List.filterMap_nil, List.append_nil] at distinct
    exact ⟨consistent, rfl, distinct, fun _ member => absurd member List.not_mem_nil⟩
  | cons round rest ih =>
    have split : (round :: rest).filterMap Round.creates? =
        round.creates?.toList ++ rest.filterMap Round.creates? := by
      rw [List.filterMap_cons]
      cases round.creates? <;> rfl
    rw [split, ← List.append_assoc] at distinct
    obtain ⟨next, length, createdNext, answered⟩ :=
      consistent.attempt round (List.nodup_append.1 distinct).1
    obtain ⟨last, lengthLast, distinctLast, answers⟩ :=
      ih next (distinct.sublist (createdNext.append_right _))
    refine ⟨last, lengthLast.trans length, distinctLast, ?_⟩
    rintro answer member delivers
    rw [play_cons, List.mem_cons] at member
    rcases member with rfl | later
    · exact answered delivers
    · exact answers answer later delivers

/-! ## The beginning and the end -/

theorem Consistent.welcome (consistent : world.Consistent) (empty : world.hub.log = []) (site : String)
    (now : Int) : (world.welcome site now).Consistent := by
  obtain ⟨calm, follows⟩ := Replica.calm_attached {} rfl now
  refine ⟨consistent.issued, consistent.server, consistent.served, fun client member => ?_⟩
  rcases List.mem_append.1 member with before | new
  · exact consistent.clients client before
  · rw [List.mem_singleton.1 new]
    have whole : (world.welcome site now).hub.log = [] := empty
    rw [whole]
    exact .of_whole calm rfl follows

/-- Those who are welcomed before anything is written start in agreement with the hub. -/
theorem consistent_gather (name : String) (members : List (String × Int)) :
    (gather name members).Consistent ∧ (gather name members).hub.log = [] ∧
      (gather name members).clients.length = members.length := by
  have start : Consistent { hub := .new name } := by
    obtain ⟨calm, follows⟩ := Replica.calm_attached {} rfl 0
    exact ⟨fun _ member => absurd member List.not_mem_nil, calm, follows,
      fun _ member => absurd member List.not_mem_nil⟩
  have welcomed (world : World) (consistent : world.Consistent) (empty : world.hub.log = []) :
      let last := members.foldl (fun world member => world.welcome member.1 member.2) world
      last.Consistent ∧ last.hub.log = [] ∧ last.clients.length = world.clients.length + members.length := by
    induction members generalizing world with
    | nil => exact ⟨consistent, empty, rfl⟩
    | cons member rest ih =>
      obtain ⟨last, lastEmpty, length⟩ :=
        ih (world.welcome member.1 member.2) (consistent.welcome empty member.1 member.2) empty
      refine ⟨last, lastEmpty, ?_⟩
      have one : (world.welcome member.1 member.2).clients.length = world.clients.length + 1 := by
        simp only [welcome, List.length_append, List.length_singleton]
      rw [List.foldl_cons, length, one, List.length_cons]
      omega
  obtain ⟨last, empty, length⟩ := welcomed { hub := .new name } start rfl
  exact ⟨last, empty, length.trans (Nat.zero_add _)⟩

/-- The participant was handed all of the log. -/
def CaughtUp (world : World) (index : Nat) : Prop :=
  ∀ client, world.clients[index]? = some client → client.connection.position = world.hub.log.length

/-- Whoever is handed what is new has caught up then, and the others are where they were. -/
theorem Consistent.caughtUp_attempt (consistent : world.Consistent) (distinct : (created world.hub.log).Nodup)
    (delivers : round.delivers = true) {index : Nat} (caughtUp : index = round.index ∨ world.CaughtUp index) :
    (world.attempt round).2.CaughtUp index := by
  rcases consistent.step_of_delivers distinct delivers with
    ⟨nobody, attempted⟩ | ⟨count, next, -, position, attempted⟩
  · rw [attempted]
    rcases caughtUp with rfl | before
    · intro client present
      rw [nobody] at present
      cases present
    · exact before
  · rw [attempted]
    intro client present
    simp only [List.getElem?_set] at present
    split at present
    case isTrue same =>
      split at present
      · rw [← Option.some.inj present]
        exact position
      · cases present
    case isFalse other =>
      rcases caughtUp with rfl | before
      · exact absurd rfl other
      · exact before client present

/-- After a number of deliveries everybody who took part in them has caught up. -/
theorem Consistent.caughtUp_play (consistent : world.Consistent) {rounds : List Round}
    (distinct : (created world.hub.log).Nodup) (deliver : ∀ round ∈ rounds, round.delivers = true)
    {index : Nat} (caughtUp : (∃ round ∈ rounds, round.index = index) ∨ world.CaughtUp index) :
    (world.play rounds).2.CaughtUp index := by
  induction rounds generalizing world with
  | nil =>
    rcases caughtUp with ⟨round, member, -⟩ | before
    · cases member
    · exact before
  | cons round rest ih =>
    have delivers := deliver round (List.mem_cons_self ..)
    have silent : round.creates?.toList = [] := by rw [Round.creates?_of_delivers delivers]; rfl
    obtain ⟨next, -, createdNext, -⟩ := consistent.attempt round (by rwa [silent, List.append_nil])
    rw [silent, List.append_nil] at createdNext
    refine ih next (distinct.sublist createdNext)
      (fun later member => deliver later (List.mem_cons_of_mem _ member)) ?_
    rcases caughtUp with ⟨found, member, same⟩ | before
    · rcases List.mem_cons.1 member with rfl | later
      · exact .inr (consistent.caughtUp_attempt distinct delivers (.inl same.symm))
      · exact .inl ⟨found, later, same⟩
    · exact .inr (consistent.caughtUp_attempt distinct delivers (.inr before))

/-- Who has caught up has the objects of the hub, in the same state. -/
theorem Consistent.describe_eq (consistent : world.Consistent) {index : Nat} {client : Client}
    (present : world.clients[index]? = some client) (caughtUp : world.CaughtUp index) :
    client.graph.describe = world.hub.snapshot := by
  have follows := (consistent.clients client (List.mem_of_getElem? present)).graph
  rw [caughtUp client present, List.take_length] at follows
  exact follows.describe_eq.trans consistent.served.describe_eq.symm

/-- A final delivery to everybody makes all of them have the objects of the hub. -/
theorem Consistent.converged (consistent : world.Consistent) {rounds final : List Round}
    (distinct : (created world.hub.log ++ rounds.filterMap Round.creates?).Nodup)
    (deliver : ∀ round ∈ final, round.delivers = true)
    (everybody : ∀ index < world.clients.length, ∃ round ∈ final, round.index = index) :
    let played := world.play (rounds ++ final)
    (∀ answer ∈ played.1, answer.1.delivers = true → ∃ count, answer.2 = .ok count) ∧
      played.2.clients.length = world.clients.length ∧
      (∀ client ∈ played.2.clients, client.graph.describe = played.2.hub.snapshot) ∧
      played.2.converged = true := by
  have silent : final.filterMap Round.creates? = [] := by
    rw [List.filterMap_eq_nil_iff]
    exact fun round member => Round.creates?_of_delivers (deliver round member)
  have distinctWhole : (created world.hub.log ++ (rounds ++ final).filterMap Round.creates?).Nodup := by
    rwa [List.filterMap_append, silent, List.append_nil]
  obtain ⟨last, length, -, answers⟩ := consistent.play distinctWhole
  have same : ∀ client ∈ (world.play (rounds ++ final)).2.clients,
      client.graph.describe = (world.play (rounds ++ final)).2.hub.snapshot := by
    intro client member
    obtain ⟨index, inside, same⟩ := List.getElem_of_mem member
    have present : (world.play (rounds ++ final)).2.clients[index]? = some client := by
      rw [List.getElem?_eq_getElem inside, same]
    obtain ⟨written, -, distinctWritten, -⟩ := consistent.play distinct
    refine last.describe_eq present ?_
    rw [play_append]
    exact written.caughtUp_play distinctWritten deliver (.inl (everybody index (length ▸ inside)))
  refine ⟨answers, length, same, ?_⟩
  rw [World.converged, List.all_eq_true]
  exact fun client member => beq_iff_eq.2 (same client member)

/-- A number of participants that join a stress test. -/
theorem start_eq_gather (name : String) (now : Int) (count : Nat) :
    start name now count =
      gather name ((List.range count).map fun index => ("site-" ++ Nat.repr index, now)) := by
  induction count with
  | zero => rfl
  | succ count ih =>
    have joined : (start name now count).clients.length = count := by
      rw [ih, (consistent_gather name _).2.2, List.length_map, List.length_range]
    have next : start name now (count + 1) =
        (start name now count).welcome ("site-" ++ Nat.repr (start name now count).clients.length) now := rfl
    rw [next, joined, ih, List.range_succ, List.map_append, gather, gather, List.foldl_append]
    rfl

private theorem consistent_start (name : String) (now : Int) (count : Nat) :
    (start name now count).Consistent ∧ (start name now count).hub.log = [] ∧
      (start name now count).clients.length = count := by
  obtain ⟨consistent, empty, length⟩ :=
    consistent_gather name ((List.range count).map fun index => ("site-" ++ Nat.repr index, now))
  rw [List.length_map, List.length_range] at length
  rw [start_eq_gather]
  exact ⟨consistent, empty, length⟩

/-- Turns that are taken at one moment, and numbered from a tag on. -/
def roundsAt (now : Int) : Nat → List (Nat × Turn) → List Round
  | _, [] => []
  | tag, (index, turn) :: rest => ⟨index, turn, tag, now⟩ :: roundsAt now (tag + 1) rest

private theorem roundsAt_append (now : Int) (tag : Nat) (turns more : List (Nat × Turn)) :
    roundsAt now tag (turns ++ more) = roundsAt now tag turns ++ roundsAt now (tag + turns.length) more := by
  induction turns generalizing tag with
  | nil => rfl
  | cons turn rest ih =>
    rw [List.cons_append, roundsAt, roundsAt, ih, List.cons_append, List.length_cons]
    congr 3
    omega

private theorem mem_roundsAt {now : Int} {tag : Nat} {turns : List (Nat × Turn)} {round : Round}
    (member : round ∈ roundsAt now tag turns) : (round.index, round.turn) ∈ turns := by
  induction turns generalizing tag with
  | nil => cases member
  | cons turn rest ih =>
    rcases List.mem_cons.1 member with rfl | later
    · exact List.mem_cons_self ..
    · exact List.mem_cons_of_mem _ (ih later)

private theorem exists_mem_roundsAt (now : Int) (tag : Nat) {turns : List (Nat × Turn)}
    {turn : Nat × Turn}
    (member : turn ∈ turns) : ∃ round ∈ roundsAt now tag turns, round.index = turn.1 := by
  induction turns generalizing tag with
  | nil => cases member
  | cons first rest ih =>
    rcases List.mem_cons.1 member with rfl | later
    · exact ⟨_, List.mem_cons_self .., rfl⟩
    · obtain ⟨round, found, same⟩ := ih (tag + 1) later
      exact ⟨round, List.mem_cons_of_mem _ found, same⟩

/-- A run that stops at the first failure, against one that goes on. -/
theorem run_play (world : World) (now : Int) (tag : Nat) (turns : List (Nat × Turn)) :
    (∀ count last, world.run now turns tag = .ok (count, last) →
      (world.play (roundsAt now tag turns)).2 = last) ∧
    ∀ failure, world.run now turns tag = .error failure →
      ∃ answer ∈ (world.play (roundsAt now tag turns)).1, answer.2 = .error failure := by
  induction turns generalizing world tag with
  | nil =>
    refine ⟨fun count last ran => ?_, fun failure ran => ?_⟩
    · cases ran
      rfl
    · cases ran
  | cons turn rest ih =>
    obtain ⟨index, turn⟩ := turn
    simp only [run, roundsAt, play_cons, bind, Except.bind]
    cases stepped : world.step index turn tag now with
    | error failure =>
      have attempted : world.attempt ⟨index, turn, tag, now⟩ = (.error failure, world) := by
        simp only [attempt, stepped]
      refine ⟨fun count last ran => (by cases ran), fun other ran => ?_⟩
      cases ran
      rw [attempted]
      exact ⟨_, List.mem_cons_self .., rfl⟩
    | ok result =>
      obtain ⟨count, next⟩ := result
      have attempted : world.attempt ⟨index, turn, tag, now⟩ = (.ok count, next) := by
        simp only [attempt, stepped]
      obtain ⟨finishes, fails⟩ := ih next (tag + 1)
      rw [attempted]
      simp only
      cases ran : run now rest (tag + 1) next with
      | error failure =>
        refine ⟨fun count last ran => (by cases ran), fun other same => ?_⟩
        cases same
        obtain ⟨answer, member, failed⟩ := fails failure ran
        exact ⟨answer, List.mem_cons_of_mem _ member, failed⟩
      | ok result =>
        obtain ⟨others, final⟩ := result
        refine ⟨fun total last same => ?_, fun failure same => (by cases same)⟩
        cases same
        exact finishes others final ran

end World

/-- Any number of participants, of any sites, write and are handed what is new in any order,
with descriptions in pages of any size. As long as no object is created twice, no delivery
fails, and once everybody was handed what was left, everybody has the objects of the hub. So
a stress test that comes to an outcome converges, and only a write can keep it from one. -/
theorem everybody_converges :
    (∀ (name : String) (members : List (String × Int)) (rounds final : List Round),
      (rounds.filterMap Round.creates?).Nodup →
      (∀ round ∈ final, round.turn = .receive) →
      (∀ index < members.length, ∃ round ∈ final, round.index = index) →
      let played := (World.gather name members).play (rounds ++ final)
      (∀ answer ∈ played.1, answer.1.delivers = true → ∃ count, answer.2 = .ok count) ∧
        played.2.clients.length = members.length ∧
        (∀ client ∈ played.2.clients, client.graph.describe = played.2.hub.snapshot) ∧
        played.2.converged = true) ∧
    ∀ (plan : StressTest.Plan) (clients : Nat) (now : Int),
      let rounds := World.roundsAt now 1 (plan.writes ++ plan.rounds)
      (rounds.filterMap Round.creates?).Nodup →
      (∀ turn ∈ plan.final, turn.2 = .receive) →
      (∀ index < clients, (index, .receive) ∈ plan.final) →
      (∀ outcome, plan.run clients now = .ok outcome → outcome.converged = true) ∧
        ∀ failure, plan.run clients now = .error failure → ∃ answer ∈
          ((World.start "stress" now clients).play
            (World.roundsAt now 1 (plan.writes ++ plan.rounds ++ plan.final))).1,
          answer.2 = .error failure ∧ answer.1.delivers = false := by
  constructor
  · intro name members rounds final distinct ends everybody
    obtain ⟨consistent, empty, length⟩ := World.consistent_gather name members
    rw [← length] at everybody ⊢
    refine consistent.converged (by rwa [empty]) (fun round member => ?_) everybody
    rw [Round.delivers, ends round member]
  intro plan clients now rounds distinct ends everybody
  obtain ⟨consistent, empty, length⟩ := World.consistent_start "stress" now clients
  have whole : World.roundsAt now 1 (plan.writes ++ plan.rounds ++ plan.final) =
      rounds ++ World.roundsAt now (1 + (plan.writes ++ plan.rounds).length) plan.final :=
    World.roundsAt_append ..
  have deliver : ∀ round ∈ World.roundsAt now (1 + (plan.writes ++ plan.rounds).length) plan.final,
      round.delivers = true := by
    intro round member
    have receives : round.turn = .receive := ends _ (World.mem_roundsAt member)
    rw [Round.delivers, receives]
  obtain ⟨answers, -, -, converged⟩ := consistent.converged (by rwa [empty]) deliver fun index inside =>
    World.exists_mem_roundsAt now _ (everybody index (length ▸ inside))
  rw [← whole] at answers converged
  obtain ⟨finishes, fails⟩ := (World.start "stress" now clients).run_play now 1
    (plan.writes ++ plan.rounds ++ plan.final)
  unfold StressTest.Plan.run
  cases ran : (World.start "stress" now clients).run now (plan.writes ++ plan.rounds ++ plan.final) 1 with
  | error failure =>
    refine ⟨fun outcome same => (by cases same), fun other same => ?_⟩
    cases same
    obtain ⟨answer, member, failed⟩ := fails failure ran
    refine ⟨answer, member, failed, Bool.eq_false_iff.2 fun delivers => ?_⟩
    obtain ⟨count, fine⟩ := answers answer member delivers
    rw [failed] at fine
    cases fine
  | ok result =>
    obtain ⟨delivered, last⟩ := result
    refine ⟨fun outcome same => ?_, fun failure same => (by cases same)⟩
    cases same
    rw [← finishes delivered last ran]
    exact converged

private def poll : Write := .createMap [("question", .text "tea?")] "abcdefghijklmnop"

private def ballots : Write := .createCounter (.ofInt 5) "abcdefghijklmnop"

private def meeting : List Round :=
  [⟨0, .write poll, 1, 1000⟩, ⟨1, .receive, 2, 1001⟩,
    ⟨0, .write (.set .root "poll" (.reference (StressTest.created poll 1000))), 3, 1002⟩,
    ⟨1, .write ballots, 4, 1003⟩, ⟨0, .resync 1, 5, 1004⟩,
    ⟨0, .write (.increment (StressTest.created ballots 1003) (.ofInt 2)), 6, 1005⟩,
    ⟨1, .write (.delete (StressTest.created poll 1000)), 7, 1006⟩]

private def farewell : List Round := [⟨0, .receive, 8, 2000⟩, ⟨1, .receive, 9, 2000⟩]

private def rehearsal : StressTest.Plan where
  writes := [(0, .write poll), (1, .write (.remove .root "poll"))]
  rounds := [(1, .resync 3), (0, .receive)]
  final := [(0, .receive), (1, .receive)]

/-- Two participants hold a poll. The first catches up from pages of one object just after a
counter was created and adds to it then, while the second deletes the poll. In the end both
have what the hub has; and so they have after a smaller stress test. -/
theorem everybody_converges_poll :
    ((World.gather "hall" [("ada", 0), ("bob", 5)]).play (meeting ++ farewell)).2.converged = true ∧
      ∀ outcome, rehearsal.run 2 1000 = .ok outcome → outcome.converged = true := by
  constructor
  · obtain ⟨-, -, -, converged⟩ := everybody_converges.1 "hall" [("ada", 0), ("bob", 5)] meeting farewell
      (by decide +kernel) (by decide) (by decide)
    exact converged
  · obtain ⟨outcomes, -⟩ := everybody_converges.2 rehearsal 2 1000 (by decide +kernel) (by decide) (by decide)
    exact outcomes

end SharedGraph
