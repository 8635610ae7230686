import SharedGraph.Client
import SharedGraph.Proofs.CatchingUp
import SharedGraph.Proofs.Logs

/-! Participants of a hub. Between two inputs nothing waits, so what a participant has is
what the log led to up to its position. A description that overtakes messages settles them:
they arrive while it is on its way, and change nothing once it is in place. -/
namespace SharedGraph

namespace Graph

variable {graph : Graph} {log : List Message}

theorem Follows.describe_eq (follows : graph.Follows log) :
    graph.describe = (Graph.replay .initial log).describe := by
  have same : graph.map (fun _ object => object.toState) =
      (Graph.replay .initial log).map fun _ object => object.toState := by
    ext1 id
    rw [SortedMap.get?_map, SortedMap.get?_map, follows.same]
  have listed (any : Graph) : any.describe = (any.map fun _ object => object.toState).values := by
    simp only [describe, SortedMap.values, SortedMap.map, List.map_map]
    rfl
  rw [listed, same, ← listed]

/-- An announcement that there are no objects describes the graph that everyone starts from. -/
theorem applySnapshot_nil (graph : Graph) (now : Int) :
    graph.applySnapshot [] now = graph.applySnapshot (describe .initial) now := by
  have described : describedStates [] = describedStates (describe .initial) := by
    ext1 id
    rw [get?_describedStates, get?_describedStates_describe sound_initial presentable_initial.rooted,
      initial, SortedMap.get?_insert_ite, SortedMap.get?_empty]
    split <;> rfl
  have checked : (describe .initial).forM ObjectState.check = .ok () :=
    forM_eq_ok.2 presentable_initial.check_describe
  simp only [applySnapshot, described, checked]
  rfl

/-- Whoever is told that there are no objects starts from the beginning of the log. -/
theorem follows_applySnapshot_nil (now : Int) :
    ∃ updates next, applySnapshot .initial [] now = .ok (updates, next) ∧ next.Follows [] := by
  rw [applySnapshot_nil]
  have issued : ∀ message ∈ ([] ++ [] : List Message), message.Issued :=
    fun _ member => absurd member List.not_mem_nil
  exact (follows_replay []).restore issued now

end Graph

namespace Replica

variable {replica : Replica} {graph : Graph} {sequence : String} {gathered : List ObjectState}
  {buffered : List Message}

/-- The participant takes messages as they come, nothing waits, and messages would wait for
a description. -/
structure Calm (replica : Replica) : Prop extends replica.Live where
  empty : replica.buffered = []
  buffers : replica.config.bufferDuringSync = true

/-- The participant gathers a description, and messages wait for it. -/
structure Gathers (replica : Replica) (graph : Graph) (sequence : String) (gathered : List ObjectState)
    (buffered : List Message) : Prop where
  usable : replica.channel.isUsable = true
  buffers : replica.config.bufferDuringSync = true
  kept : replica.graph = graph
  waiting : replica.buffered = buffered
  pending : ∃ pending, replica.pending = some pending ∧ pending.statesOf sequence = gathered

/-- An announced description is waited for. -/
theorem Calm.announce (calm : replica.Calm) (sequence : String) (now : Int) :
    (replica.step (.channel (.attached true)) now).1.result = .ok () ∧
      (replica.step (.channel (.attached true)) now).2.Gathers replica.graph sequence [] [] := by
  have begun : (replica.step (.channel (.attached true)) now).2 = { replica with
      channel := .attached true
      pending := some .fresh
      fallback := if replica.phase = .syncing then replica.fallback else replica.phase
      phase := .syncing } := by
    simp only [step, handleChannel, beginSync, calm.idle, PendingSync.start, ↓reduceIte]
  refine ⟨rfl, ?_⟩
  rw [begun]
  exact ⟨rfl, calm.buffers, rfl, calm.empty, .fresh, rfl, rfl⟩

private theorem Gathers.gatheredOf_eq (gathers : replica.Gathers graph sequence gathered buffered) :
    PendingSync.gatheredOf replica.pending sequence = gathered := by
  obtain ⟨pending, waits, known⟩ := gathers.pending
  rw [waits, ← known]
  rfl

/-- A page that others follow is put aside. -/
theorem Gathers.page (gathers : replica.Gathers graph sequence gathered buffered)
    (plain : ':' ∉ sequence.toList) {cursor : String} (named : cursor ≠ "") (states : List ObjectState)
    (now : Int) :
    let result := replica.step (.page (PageSerial.toText ⟨sequence, some cursor⟩) states) now
    result.1.result = .ok () ∧ result.2.Gathers graph sequence (gathered ++ states) buffered := by
  obtain ⟨pending, waits, -⟩ := gathers.pending
  have serial := PageSerial.ofText_toText (show ':' ∉ (PageSerial.mk sequence (some cursor)).sequence.toList
    from plain) fun same => named (Option.some.inj same)
  have stepped : replica.step (.page (PageSerial.toText ⟨sequence, some cursor⟩) states) now =
      ({}, { replica with pending := some ⟨some sequence, gathered ++ states⟩ }) := by
    rw [step_of_open_page gathers.usable (congrArg PageSerial.cursor serial), beginSync_of_pending waits, serial,
      gathers.gatheredOf_eq]
  intro result
  rw [show result = _ from stepped]
  refine ⟨rfl, gathers.usable, gathers.buffers, gathers.kept, gathers.waiting, _, rfl, ?_⟩
  simp only [PendingSync.statesOf, ↓reduceIte]

/-- Messages that arrive meanwhile wait for the description. -/
theorem Gathers.messages (gathers : replica.Gathers graph sequence gathered buffered) {batch : List Message}
    (plain : ∀ message ∈ batch, message.state = none) (now : Int) :
    (replica.step (.messages batch) now).1.result = .ok () ∧
      (replica.step (.messages batch) now).2.Gathers graph sequence gathered (buffered ++ batch) := by
  obtain ⟨accepted, routed⟩ := step_operations replica plain now
  refine ⟨accepted, ?_⟩
  rw [routed]
  clear plain accepted routed
  induction batch generalizing replica buffered with
  | nil => rwa [List.append_nil]
  | cons message rest ih =>
    obtain ⟨pending, waits, known⟩ := gathers.pending
    have waiting : (replica.route message now).2 =
        { replica with buffered := replica.buffered ++ [message] } := by
      simp only [route, gathers.usable, waits, gathers.buffers, Bool.not_true, Bool.false_eq_true,
        ↓reduceIte, Option.isSome_some, Bool.and_self]
    have next : (replica.route message now).2.Gathers graph sequence gathered (buffered ++ [message]) := by
      rw [waiting, ← gathers.waiting]
      exact ⟨gathers.usable, gathers.buffers, gathers.kept, rfl, pending, waits, known⟩
    rw [routeAll_cons, ← List.singleton_append, ← List.append_assoc]
    exact ih next

/-- The last page puts the description in place, and what waited is applied to it. -/
theorem Gathers.finish (gathers : replica.Gathers graph sequence gathered buffered)
    (plain : ':' ∉ sequence.toList) (states : List ObjectState) (now : Int) {updates : List Update}
    {next : Graph} (applied : graph.applySnapshot (gathered ++ states) now = .ok (updates, next)) :
    let result := replica.step (.page (PageSerial.toText ⟨sequence, none⟩) states) now
    result.1.result = .ok () ∧ result.2.Calm ∧
      result.2.graph = next.deliverAll (buffered.map fun message => (message, now)) := by
  obtain ⟨pending, waits, -⟩ := gathers.pending
  have kept : replica.graph.applySnapshot (gathered ++ states) now = .ok (updates, next) := by
    rw [gathers.kept, applied]
  have stepped : (replica.step (.page (PageSerial.toText ⟨sequence, none⟩) states) now).2 =
      { replica with
        pending := none
        buffered := []
        phase := .synced
        graph := next.deliverAll (buffered.map fun message => (message, now)) } ∧
      (replica.step (.page (PageSerial.toText ⟨sequence, none⟩) states) now).1.result = .ok () := by
    simp only [step_of_last_page gathers.usable plain, gathers.gatheredOf_eq, adoptSnapshot_of_pending waits,
      commit_of_ok kept, gathers.waiting, moveAll_deliveries, and_self]
  intro result
  refine ⟨stepped.2, ?_, congrArg Replica.graph stepped.1⟩
  rw [show result.2 = _ from stepped.1]
  exact ⟨⟨gathers.usable, rfl⟩, rfl, gathers.buffers⟩

/-- A calm participant applies messages at once. -/
theorem Calm.messages (calm : replica.Calm) {batch : List Message}
    (plain : ∀ message ∈ batch, message.state = none) (now : Int) :
    let result := replica.step (.messages batch) now
    result.1.result = .ok () ∧ result.2.Calm ∧
      result.2.graph = replica.graph.deliverAll (batch.map fun message => (message, now)) := by
  intro result
  refine ⟨(step_operations replica plain now).1, ?_⟩
  rw [show result.2 = _ from step_messages calm.toLive plain now]
  exact ⟨⟨⟨calm.usable, calm.idle⟩, calm.empty, calm.buffers⟩, rfl⟩

/-- A new participant that learns that there are no objects is calm. -/
theorem calm_attached (config : Config) (buffers : config.bufferDuringSync = true) (now : Int) :
    let result := (Replica.new config).step (.channel (.attached false)) now
    result.2.Calm ∧ result.2.graph.Follows [] := by
  obtain ⟨updates, next, applied, follows⟩ := Graph.follows_applySnapshot_nil now
  have stepped : ((Replica.new config).step (.channel (.attached false)) now).2 =
      { Replica.new config with
        channel := .attached false
        pending := none
        buffered := []
        phase := .synced
        fallback := .initialized
        graph := next } := by
    simp only [step, handleChannel, adoptSnapshot, beginSync, PendingSync.start, Replica.new, commit,
      applied, applyAll_eq, deliveries, ↓reduceIte, reduceCtorEq]
    rfl
  intro result
  rw [show result.2 = _ from stepped]
  exact ⟨⟨⟨rfl, rfl⟩, rfl, buffers⟩, follows⟩

end Replica

namespace Client

variable {client : Client} {hub : Hub} {graph : Graph} {sequence : String} {gathered : List ObjectState}
  {buffered : List Message}

/-- Listeners do not change what becomes of an input. -/
theorem handle_step (client : Client) {input : Input} (other : ∀ time, input ≠ .collect time) (now : Int) :
    (client.handle input now).1.result = (client.engine.replica.step input now).1.result ∧
      (client.handle input now).2.engine.replica = (client.engine.replica.step input now).2 ∧
      (client.handle input now).2.connection = client.connection := by
  cases input with
  | collect time => exact absurd rfl (other time)
  | messages batch => exact ⟨rfl, rfl, rfl⟩
  | page serial states => exact ⟨rfl, rfl, rfl⟩
  | snapshot states => exact ⟨rfl, rfl, rfl⟩
  | channel state => exact ⟨rfl, rfl, rfl⟩

private theorem handleAll_cons {input : Input} {now : Int}
    (accepted : (client.handle input now).1.result = .ok ())
    (rest : List Input) :
    client.handleAll (input :: rest) now = (client.handle input now).2.handleAll rest now := by
  simp only [handleAll, List.foldlM_cons, accepted, Except.map, bind, Except.bind]

/-- Pages that others follow are put aside one after another. -/
theorem handleAll_pages {pages : List (PageSerial × List ObjectState)} (plain : ':' ∉ sequence.toList)
    (more : ∀ page ∈ pages, ∃ number, page.1 = ⟨sequence, some ("page" ++ Nat.repr number)⟩)
    (gathers : client.engine.replica.Gathers graph sequence gathered buffered) (now : Int) :
    ∃ next, client.handleAll (pages.map fun page => .page page.1.toText page.2) now = .ok next ∧
      next.connection = client.connection ∧
      next.engine.replica.Gathers graph sequence (gathered ++ pages.flatMap Prod.snd) buffered := by
  induction pages generalizing client gathered with
  | nil => exact ⟨client, rfl, rfl, by rwa [List.flatMap_nil, List.append_nil]⟩
  | cons page rest ih =>
    obtain ⟨serial, states⟩ := page
    obtain ⟨number, rfl⟩ := more _ (List.mem_cons_self ..)
    have named : "page" ++ Nat.repr number ≠ "" := by
      intro empty
      have length := congrArg String.length empty
      simp only [String.length_append, String.length_empty] at length
      have positive : "page".length = 4 := rfl
      omega
    obtain ⟨accepted, gathersNext⟩ := gathers.page plain named states now
    obtain ⟨resultSame, replicaSame, connectionSame⟩ := client.handle_step (nofun : ∀ time,
      Input.page (PageSerial.toText ⟨sequence, some ("page" ++ Nat.repr number)⟩) states ≠ .collect time) now
    rw [← replicaSame] at gathersNext
    obtain ⟨next, handled, connection, gathersLast⟩ :=
      ih (fun later member => more later (List.mem_cons_of_mem _ member)) gathersNext
    refine ⟨next, ?_, connection.trans connectionSame, ?_⟩
    · rw [List.map_cons, handleAll_cons (resultSame.trans accepted)]
      exact handled
    · rw [List.flatMap_cons, ← List.append_assoc]
      exact gathersLast

/-- A resync that meets no failure on its way, from the announcement to the last page. -/
theorem resync_eq {size : Nat} {now : Int} {early : List (PageSerial × List ObjectState)}
    {last : List ObjectState} {begun : Client}
    (cut : PendingSync.pages sequence size hub.snapshot = early ++ [(⟨sequence, none⟩, last)])
    (started : client.handleAll (.channel (.attached true) ::
      early.map fun page => .page page.1.toText page.2) now = .ok begun)
    (taken : (begun.receive hub now).2.1.result = .ok ())
    (finished : ((begun.receive hub now).2.2.handle
      (.page (PageSerial.toText ⟨sequence, none⟩) last) now).1.result = .ok ()) :
    client.resync hub sequence size now = .ok ((begun.receive hub now).1,
      ((begun.receive hub now).2.2.handle (.page (PageSerial.toText ⟨sequence, none⟩) last) now).2) := by
  have pagesSame : ((hub.pages sequence size).map fun page => Input.page page.1 page.2) =
      (early.map fun page => Input.page page.1.toText page.2) ++
        [.page (PageSerial.toText ⟨sequence, none⟩) last] := by
    rw [Hub.pages, cut, List.map_map, List.map_append, List.map_singleton]
    rfl
  have ended := handleAll_cons finished []
  simp only [Client.resync, pagesSame, List.dropLast_concat, started, bind, Except.bind, taken,
    List.length_append, List.length_singleton, Nat.add_sub_cancel, List.drop_left, ended]
  rfl

/-- The client has what the log led to up to its position, and takes in what comes next. -/
structure Follows (client : Client) (log : List Message) : Prop where
  calm : client.engine.replica.Calm
  within : client.connection.position ≤ log.length
  graph : client.graph.Follows (log.take client.connection.position)

namespace Follows

/-- What others write does not concern a client until it is handed out. -/
theorem append {log : List Message} (follows : client.Follows log) (more : List Message) :
    client.Follows (log ++ more) := by
  refine ⟨follows.calm, ?_, ?_⟩
  · have within := follows.within
    rw [List.length_append]
    omega
  · rw [List.take_append_of_le_length follows.within]
    exact follows.graph

theorem of_whole {log : List Message} (calm : client.engine.replica.Calm)
    (caughtUp : client.connection.position = log.length) (graph : client.graph.Follows log) :
    client.Follows log := by
  refine ⟨calm, Nat.le_of_eq caughtUp, ?_⟩
  rw [caughtUp, List.take_length]
  exact graph

/-- Handing out what is new never fails, and lets the client catch up. -/
theorem receive (follows : client.Follows hub.log) (issued : ∀ message ∈ hub.log, message.Issued)
    (distinct : (created hub.log).Nodup) (now : Int) :
    let result := client.receive hub now
    result.2.1.result = .ok () ∧ result.2.2.Follows hub.log ∧
      result.2.2.connection.position = hub.log.length := by
  have later : ∀ message ∈ hub.unread client.connection, message.Issued :=
    fun message member => issued message (List.mem_of_mem_drop member)
  obtain ⟨accepted, calm, graphSame⟩ :=
    follows.calm.messages (fun message member => (later message member).stateless) now
  have dated : ∀ message ∈ hub.unread client.connection, message.timestamp.isSome = true :=
    fun message member => (later message member).dated
  have whole : hub.log.take client.connection.position ++ hub.unread client.connection = hub.log :=
    List.take_append_drop ..
  have followsNow := follows.graph.replay dated (by rwa [whole])
  rw [whole, ← Graph.deliverAll_of_dated dated _ now] at followsNow
  have arrived : (client.receive hub now).2.2.graph = client.graph.deliverAll
      ((hub.unread client.connection).map fun message => (message, now)) := graphSame
  refine ⟨accepted, .of_whole calm rfl ?_, rfl⟩
  rw [arrived]
  exact followsNow

/-- Catching up from a description never fails either. All that arrives on the way is part
of the description, and what is part of it changes nothing any more. -/
theorem resync (follows : client.Follows hub.log) (issued : ∀ message ∈ hub.log, message.Issued)
    (served : hub.server.graph.Follows hub.log) (plain : ':' ∉ sequence.toList) (size : Nat) (now : Int) :
    ∃ count next, client.resync hub sequence size now = .ok (count, next) ∧ next.Follows hub.log ∧
      next.connection.position = hub.log.length := by
  have whole : hub.log.take client.connection.position ++ hub.unread client.connection = hub.log :=
    List.take_append_drop ..
  have unheard : ∀ message ∈ hub.unread client.connection, message ∈ hub.log :=
    fun message member => List.mem_of_mem_drop member
  obtain ⟨updates, restored, applied, restoredFollows⟩ := follows.graph.restore (whole ▸ issued) now
  rw [whole, ← served.describe_eq] at applied
  rw [whole] at restoredFollows
  obtain ⟨early, last, cut, more, together⟩ := PendingSync.pages_spec sequence size hub.snapshot
  have cutApplied : client.graph.applySnapshot (early.flatMap Prod.snd ++ last) now =
      .ok (updates, restored) := by
    rw [together]
    exact applied
  -- The announcement, the pages but the last, what is new, and the last page, in this order.
  obtain ⟨announced, gathers⟩ := follows.calm.announce sequence now
  obtain ⟨resultSame, replicaSame, connectionSame⟩ :=
    client.handle_step (nofun : ∀ time, Input.channel (.attached true) ≠ .collect time) now
  rw [← replicaSame] at gathers
  obtain ⟨begun, handled, connection, gathersEarly⟩ := handleAll_pages plain more gathers now
  have unreadSame : hub.unread client.connection = hub.unread begun.connection := by
    rw [connection, connectionSame]
  rw [unreadSame] at unheard
  obtain ⟨accepted, gathersAll⟩ := gathersEarly.messages
    (fun message member => (issued message (unheard message member)).stateless) now
  rw [List.nil_append, List.nil_append] at gathersAll
  obtain ⟨finished, calm, graphSame⟩ := gathersAll.finish plain last now cutApplied
  rw [Graph.deliverAll_of_dated (fun message member => (issued message (unheard message member)).dated),
    restoredFollows.replay_again issued unheard] at graphSame
  obtain ⟨lastResult, lastReplica, lastConnection⟩ := (begun.receive hub now).2.2.handle_step
    (nofun : ∀ time, Input.page (PageSerial.toText ⟨sequence, none⟩) last ≠ .collect time) now
  have started : client.handleAll (.channel (.attached true) ::
      early.map fun page => .page page.1.toText page.2) now = .ok begun := by
    rw [handleAll_cons (resultSame.trans announced)]
    exact handled
  refine ⟨_, _, resync_eq cut started accepted (lastResult.trans finished), .of_whole ?_ ?_ ?_, ?_⟩
  · rw [lastReplica]
    exact calm
  · rw [lastConnection]
    rfl
  · have arrived : ((begun.receive hub now).2.2.handle
        (.page (PageSerial.toText ⟨sequence, none⟩) last) now).2.graph = restored := by
      rw [← graphSame]
      exact congrArg Replica.graph lastReplica
    rw [arrived]
    exact restoredFollows
  · rw [lastConnection]
    rfl

end Follows

end Client

end SharedGraph
