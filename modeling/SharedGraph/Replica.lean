import SharedGraph.Config
import SharedGraph.Graph.Collection
import SharedGraph.Graph.Delivery
import SharedGraph.Graph.Snapshot
import SharedGraph.Sync

/-! A participant's copy of the graph, and everything that may happen to it: batches
of messages, pages and complete descriptions, changes of the channel, and garbage
collection. Each input leads to a new state, to updates for subscribers and to events
about catching up; the time of an input is an argument. -/
namespace SharedGraph

/-- Whether the graph reflects a complete description. -/
inductive SyncPhase where
  | initialized
  | syncing
  | synced
  deriving DecidableEq, Repr

def SyncPhase.name : SyncPhase → String
  | .initialized => "initialized"
  | .syncing => "syncing"
  | .synced => "synced"

inductive SyncEvent where
  | syncing
  | synced
  | failed (reason : Failure)
  deriving DecidableEq

structure Replica where
  config : Config
  graph : Graph := .initial
  channel : ChannelState := .initialized
  phase : SyncPhase := .initialized
  /-- The phase to go back to if catching up comes to nothing. -/
  fallback : SyncPhase := .initialized
  pending : Option PendingSync := none
  /-- Operations that wait for the pending description. -/
  buffered : List Message := []

/-- What an input led to besides a new state. -/
structure Reaction where
  updates : List Update := []
  events : List SyncEvent := []
  result : Except Failure Unit := .ok ()

inductive Input where
  | messages (batch : List Message)
  /-- The serial is given as it was sent. -/
  | page (serial : String) (states : List ObjectState)
  | snapshot (states : List ObjectState)
  | channel (state : ChannelState)
  | collect (time : Int)

namespace Replica

def new (config : Config) : Replica := { config }

/-- Catching up begins, unless it is under way. -/
def beginSync (replica : Replica) : List SyncEvent × Replica :=
  let (new, pending) := PendingSync.start replica.pending
  if new then
    ([.syncing], { replica with
      pending := some pending
      fallback := if replica.phase = .syncing then replica.fallback else replica.phase
      phase := .syncing })
  else ([], { replica with pending := some pending })

/-- Applies one operation now. -/
def applyNow (replica : Replica) (message : Message) (now : Int) : List Update × Replica :=
  let (updates, graph) := replica.graph.deliver message now
  (updates, { replica with graph })

/-- Applies operations in their order. -/
def applyAll (replica : Replica) (messages : List Message) (now : Int) : List Update × Replica :=
  messages.foldl (fun (updates, replica) message =>
    let (more, next) := replica.applyNow message now
    (updates ++ more, next)) ([], replica)

/-- Puts a complete description in place, or refuses it, and then applies the
operations that waited for it in either case. -/
def commit (replica : Replica) (states : List ObjectState) (now : Int) : Reaction × Replica :=
  let released := { replica with pending := none, buffered := [] }
  match Graph.applySnapshot replica.graph states now with
  | .ok (updates, graph) =>
    let (more, next) := { released with graph, phase := .synced }.applyAll replica.buffered now
    ({ updates := updates ++ more, events := [.synced] }, next)
  | .error fault =>
    let failure := Failure.malformedSync fault
    let (updates, next) := { released with phase := replica.fallback }.applyAll replica.buffered now
    ({ updates, events := [.failed failure], result := .error failure }, next)

/-- A complete description takes the place of any pending one. -/
def adoptSnapshot (replica : Replica) (states : List ObjectState) (now : Int) : Reaction × Replica :=
  let (events, begun) := replica.beginSync
  let (reaction, next) := begun.commit states now
  ({ reaction with events := events ++ reaction.events }, next)

/-- Handles one operation of a batch: it is dropped, buffered or applied. -/
def route (replica : Replica) (message : Message) (now : Int) : List Update × Replica :=
  if !replica.channel.isUsable then ([], replica)
  else if replica.pending.isSome && replica.config.bufferDuringSync then
    ([], { replica with buffered := replica.buffered ++ [message] })
  else replica.applyNow message now

def routeAll (replica : Replica) (messages : List Message) (now : Int) : List Update × Replica :=
  messages.foldl (fun (updates, replica) message =>
    let (more, next) := replica.route message now
    (updates ++ more, next)) ([], replica)

/-- States in a batch form a complete description and come first; operations follow in
their order. A refused description fails the call, but not the operations. -/
def handleMessages (replica : Replica) (batch : List Message) (now : Int) : Reaction × Replica :=
  let states := batch.filterMap Message.state
  let operations := batch.filter fun message => message.state.isNone
  let (reaction, begun) :=
    if states.isEmpty then ({}, replica) else replica.adoptSnapshot states now
  let (updates, next) := begun.routeAll operations now
  ({ reaction with updates := reaction.updates ++ updates }, next)

/-- Pages are dropped while the channel is not usable; the last page of a sequence
puts the description in place. -/
def handlePage (replica : Replica) (serial : String) (states : List ObjectState) (now : Int) :
    Reaction × Replica :=
  if !replica.channel.isUsable then ({}, replica)
  else
    let (events, begun) := replica.beginSync
    let (complete, pending) := PendingSync.addPage begun.pending (.ofText serial) states
    let added := { begun with pending }
    match complete with
    | none => ({ events }, added)
    | some gathered =>
      let (reaction, next) := added.commit gathered now
      ({ reaction with events := events ++ reaction.events }, next)

/-- Gives up catching up, silently, together with the operations that waited for it. -/
def abandon (replica : Replica) : Replica :=
  { replica with
    phase := if replica.pending.isSome then replica.fallback else replica.phase
    pending := none
    buffered := [] }

/-- An attached channel announces a description, or says that the graph is empty. -/
def handleChannel (replica : Replica) (state : ChannelState) (now : Int) : Reaction × Replica :=
  let changed := { replica with channel := state }
  match state with
  | .attached true =>
    let (events, next) := changed.beginSync
    ({ events }, next)
  | .attached false =>
    let (reaction, next) := changed.adoptSnapshot [] now
    ({ reaction with result := .ok () }, next)
  | .suspended | .detached | .failed => ({}, changed.abandon)
  | .initialized | .attaching => ({}, changed)

def collectGarbage (replica : Replica) (time : Int) : Graph.Collection × Replica :=
  let (collection, graph) := replica.graph.collect replica.config.graceTime time
  (collection, { replica with graph })

/-- The one entry point: what an input does at a time. -/
def step (replica : Replica) (input : Input) (now : Int) : Reaction × Replica :=
  match input with
  | .messages batch => replica.handleMessages batch now
  | .page serial states => replica.handlePage serial states now
  | .snapshot states => replica.adoptSnapshot states now
  | .channel state => replica.handleChannel state now
  | .collect time => ({}, (replica.collectGarbage time).2)

/-! ## Events as an observer receives them -/

/-- An observer who fell too far behind learns how many events were lost. -/
inductive Notice where
  | lagged (lost : Nat)
  | event (event : SyncEvent)
  deriving DecidableEq

/-- What an observer receives who looks after all these events were sent: the newest
ones, as many as there is room for. -/
def notices (config : Config) (events : List SyncEvent) : List Notice :=
  let lost := events.length - config.eventRoom
  (if lost = 0 then [] else [.lagged lost]) ++ (events.drop lost).map .event

end Replica

end SharedGraph
