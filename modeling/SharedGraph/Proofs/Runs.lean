import SharedGraph.Clock
import SharedGraph.Proofs.Deliveries
import SharedGraph.Proofs.Forgetting

/-! Runs of a participant. Whatever the input, all that happens to the graph is a list of
moves: single messages, complete descriptions and collections. What every move preserves
is preserved by every run. -/
namespace SharedGraph

/-- One change of a graph as a whole. -/
inductive Move where
  | deliver (message : Message) (now : Int)
  | describe (states : List ObjectState) (now : Int)
  | collect (grace now : Int)

namespace Graph

variable {graph : Graph}

/-- What a move reports, and the graph after it. A refused description changes nothing. -/
def move (graph : Graph) : Move → List Update × Graph
  | .deliver message now => graph.deliver message now
  | .describe states now =>
    match graph.applySnapshot states now with
    | .ok result => result
    | .error _ => ([], graph)
  | .collect grace now => ([], (graph.collect grace now).2)

/-- The moves in their order. -/
def moveAll (graph : Graph) : List Move → List Update × Graph
  | [] => ([], graph)
  | move :: rest =>
    let (updates, next) := graph.move move
    let (more, last) := moveAll next rest
    (updates ++ more, last)

theorem moveAll_cons (graph : Graph) (move : Move) (rest : List Move) :
    graph.moveAll (move :: rest) =
      ((graph.move move).1 ++ ((graph.move move).2.moveAll rest).1, ((graph.move move).2.moveAll rest).2) :=
  rfl

theorem moveAll_append (graph : Graph) (moves more : List Move) :
    graph.moveAll (moves ++ more) =
      ((graph.moveAll moves).1 ++ ((graph.moveAll moves).2.moveAll more).1,
        ((graph.moveAll moves).2.moveAll more).2) := by
  induction moves generalizing graph with
  | nil => rfl
  | cons move rest ih =>
    rw [List.cons_append, moveAll_cons, moveAll_cons, ih]
    simp only [List.append_assoc]

theorem Sound.move (sound : graph.Sound) (move : Move) : (graph.move move).2.Sound := by
  cases move with
  | deliver message now => exact sound.deliver message now
  | describe states now =>
    simp only [Graph.move]
    cases applied : graph.applySnapshot states now with
    | ok result => exact sound.applySnapshot applied
    | error fault => exact sound
  | collect grace now => exact sound.collect grace now

theorem Sound.moveAll (sound : graph.Sound) (moves : List Move) : (graph.moveAll moves).2.Sound := by
  induction moves generalizing graph with
  | nil => exact sound
  | cons move rest ih => exact ih (sound.move move)

end Graph

namespace Replica

variable {replica : Replica}

def deliveries (messages : List Message) (now : Int) : List Move :=
  messages.map fun message => .deliver message now

theorem moveAll_deliveries (graph : Graph) (messages : List Message) (now : Int) :
    (graph.moveAll (deliveries messages now)).2 =
      graph.deliverAll (messages.map fun message => (message, now)) := by
  induction messages generalizing graph with
  | nil => rfl
  | cons message rest ih => exact ih _

def routeMoves (replica : Replica) (messages : List Message) (now : Int) : List Move :=
  if replica.appliesNow then deliveries messages now else []

/-- A complete description comes first, then what waited for it. -/
def commitMoves (replica : Replica) (states : List ObjectState) (now : Int) : List Move :=
  .describe states now :: deliveries replica.buffered now

/-- What an input makes a participant do with its graph. -/
def moves (replica : Replica) (input : Input) (now : Int) : List Move :=
  match input with
  | .messages batch =>
    let states := batch.filterMap Message.state
    let operations := batch.filter fun message => message.state.isNone
    if states.isEmpty then replica.routeMoves operations now
    else
      replica.commitMoves states now ++ { replica with pending := none }.routeMoves operations now
  | .page serial states =>
    if !replica.channel.isUsable then []
    else
      match (PendingSync.addPage replica.beginSync.2.pending (.ofText serial) states).1 with
      | none => []
      | some gathered => replica.commitMoves gathered now
  | .snapshot states => replica.commitMoves states now
  | .channel (.attached false) => replica.commitMoves [] now
  | .channel _ => []
  | .collect time => [.collect replica.config.graceTime time]

theorem moves_of_plain {batch : List Message} (plain : ∀ message ∈ batch, message.state = none) (now : Int) :
    replica.moves (.messages batch) now = replica.routeMoves batch now := by
  obtain ⟨stateless, whole⟩ := halves_of_plain plain
  simp only [moves, stateless, whole, List.isEmpty_nil, ↓reduceIte]

private theorem foldl_append_updates {α σ : Type} (step : σ → α → List Update × σ) (items : List α)
    (updates : List Update) (state : σ) :
    items.foldl (fun (updates, state) item =>
        let (more, next) := step state item
        (updates ++ more, next)) (updates, state) =
      let result := items.foldl (fun (updates, state) item =>
        let (more, next) := step state item
        (updates ++ more, next)) ([], state)
      (updates ++ result.1, result.2) := by
  induction items generalizing updates state with
  | nil => simp only [List.foldl_nil, List.append_nil]
  | cons item rest ih =>
    rw [List.foldl_cons, ih, List.foldl_cons, ih ([] ++ _)]
    simp only [List.nil_append, List.append_assoc]

private theorem applyAll_cons (replica : Replica) (message : Message) (rest : List Message) (now : Int) :
    replica.applyAll (message :: rest) now =
      ((replica.graph.deliver message now).1 ++
          ({ replica with graph := (replica.graph.deliver message now).2 }.applyAll rest now).1,
        ({ replica with graph := (replica.graph.deliver message now).2 }.applyAll rest now).2) :=
  foldl_append_updates (fun (replica : Replica) message => replica.applyNow message now) rest _ _

theorem applyAll_eq (replica : Replica) (messages : List Message) (now : Int) :
    replica.applyAll messages now =
      ((replica.graph.moveAll (deliveries messages now)).1,
        { replica with graph := (replica.graph.moveAll (deliveries messages now)).2 }) := by
  induction messages generalizing replica with
  | nil => rfl
  | cons message rest ih =>
    rw [applyAll_cons, ih]
    rfl

theorem routeAll_cons (replica : Replica) (message : Message) (rest : List Message) (now : Int) :
    replica.routeAll (message :: rest) now =
      ((replica.route message now).1 ++ ((replica.route message now).2.routeAll rest now).1,
        ((replica.route message now).2.routeAll rest now).2) :=
  foldl_append_updates (fun (replica : Replica) message => replica.route message now) rest _ _

private theorem route_of_appliesNow (applies : replica.appliesNow = true) (message : Message)
    (now : Int) : replica.route message now = replica.applyNow message now := by
  simp only [appliesNow, Bool.and_eq_true, Bool.not_eq_true'] at applies
  simp only [route, applies.1, applies.2, Bool.not_true, Bool.false_eq_true, ↓reduceIte]

theorem routeAll_of_appliesNow (applies : replica.appliesNow = true) (messages : List Message)
    (now : Int) : replica.routeAll messages now = replica.applyAll messages now := by
  induction messages generalizing replica with
  | nil => rfl
  | cons message rest ih =>
    have appliesNext : (replica.applyNow message now).2.appliesNow = true := applies
    rw [routeAll_cons, applyAll_cons, route_of_appliesNow applies, ih appliesNext]
    rfl

/-- A message that is not applied now is dropped or waits. -/
theorem route_of_waits (waits : replica.appliesNow = false) (message : Message) (now : Int) :
    (replica.route message now).1 = [] ∧ (replica.route message now).2.graph = replica.graph ∧
      (replica.route message now).2.appliesNow = false := by
  unfold route
  cases usable : replica.channel.isUsable with
  | false => exact ⟨rfl, rfl, waits⟩
  | true =>
    simp only [appliesNow, usable, Bool.true_and, Bool.not_eq_false'] at waits
    simp only [waits, Bool.not_true, Bool.false_eq_true, ↓reduceIte, appliesNow, Bool.and_false, and_self]

/-- Either the whole batch is applied message by message, or nothing happens to the graph. -/
theorem routeAll_moves (replica : Replica) (messages : List Message) (now : Int) :
    (replica.routeAll messages now).1 = (replica.graph.moveAll (replica.routeMoves messages now)).1 ∧
      (replica.routeAll messages now).2.graph =
        (replica.graph.moveAll (replica.routeMoves messages now)).2 := by
  unfold routeMoves
  by_cases applies : replica.appliesNow = true
  · rw [if_pos applies, routeAll_of_appliesNow applies, applyAll_eq]
    exact ⟨rfl, rfl⟩
  · rw [if_neg applies]
    have waits := Bool.eq_false_iff.2 applies
    clear applies
    induction messages generalizing replica with
    | nil => exact ⟨rfl, rfl⟩
    | cons message rest ih =>
      obtain ⟨silent, graphSame, waitsNext⟩ := route_of_waits waits message now
      obtain ⟨restSilent, restGraph⟩ := ih (replica.route message now).2 waitsNext
      rw [routeAll_cons, silent, restSilent, restGraph, graphSame]
      exact ⟨rfl, rfl⟩

/-- Routing does not touch the channel or the pending description. -/
theorem appliesNow_routeAll (replica : Replica) (messages : List Message) (now : Int) :
    (replica.routeAll messages now).2.appliesNow = replica.appliesNow := by
  by_cases applies : replica.appliesNow = true
  · rw [routeAll_of_appliesNow applies, applyAll_eq]
    rfl
  · have waits := Bool.eq_false_iff.2 applies
    rw [waits]
    clear applies
    induction messages generalizing replica with
    | nil => exact waits
    | cons message rest ih =>
      rw [routeAll_cons]
      exact ih _ (route_of_waits waits message now).2.2

theorem commit_moves (replica : Replica) (states : List ObjectState) (now : Int) :
    (replica.commit states now).1.updates = (replica.graph.moveAll (replica.commitMoves states now)).1 ∧
      (replica.commit states now).2.graph =
        (replica.graph.moveAll (replica.commitMoves states now)).2 ∧
      (replica.commit states now).2.channel = replica.channel ∧
      (replica.commit states now).2.config = replica.config ∧
      (replica.commit states now).2.pending = none := by
  simp only [commit, commitMoves, Graph.moveAll_cons, Graph.move]
  cases replica.graph.applySnapshot states now with
  | ok result => simp only [applyAll_eq, and_self]
  | error fault => simp only [applyAll_eq, List.nil_append, and_self]

@[simp] theorem beginSync_graph (replica : Replica) : replica.beginSync.2.graph = replica.graph := by
  unfold beginSync PendingSync.start
  cases replica.pending <;> rfl

@[simp] theorem beginSync_buffered (replica : Replica) : replica.beginSync.2.buffered = replica.buffered := by
  unfold beginSync PendingSync.start
  cases replica.pending <;> rfl

@[simp] theorem beginSync_channel (replica : Replica) : replica.beginSync.2.channel = replica.channel := by
  unfold beginSync PendingSync.start
  cases replica.pending <;> rfl

@[simp] theorem beginSync_config (replica : Replica) : replica.beginSync.2.config = replica.config := by
  unfold beginSync PendingSync.start
  cases replica.pending <;> rfl

theorem adoptSnapshot_moves (replica : Replica) (states : List ObjectState) (now : Int) :
    (replica.adoptSnapshot states now).1.updates =
        (replica.graph.moveAll (replica.commitMoves states now)).1 ∧
      (replica.adoptSnapshot states now).2.graph =
        (replica.graph.moveAll (replica.commitMoves states now)).2 ∧
      (replica.adoptSnapshot states now).2.channel = replica.channel ∧
      (replica.adoptSnapshot states now).2.config = replica.config ∧
      (replica.adoptSnapshot states now).2.pending = none := by
  have committed := commit_moves replica.beginSync.2 states now
  simp only [commitMoves, beginSync_graph, beginSync_buffered, beginSync_channel,
    beginSync_config] at committed
  exact committed

/-- What an input reports and does to the graph is what its moves report and do. -/
theorem step_moves (replica : Replica) (input : Input) (now : Int) :
    (replica.step input now).1.updates = (replica.graph.moveAll (replica.moves input now)).1 ∧
      (replica.step input now).2.graph = (replica.graph.moveAll (replica.moves input now)).2 := by
  cases input with
  | messages batch =>
    simp only [step, handleMessages, moves]
    generalize batch.filter (fun message => message.state.isNone) = operations
    generalize batch.filterMap Message.state = states
    split
    case isTrue =>
      obtain ⟨updatesSame, graphSame⟩ := routeAll_moves replica operations now
      exact ⟨by rw [updatesSame, List.nil_append], graphSame⟩
    case isFalse =>
      obtain ⟨updates, graphNow, channel, config, pending⟩ := adoptSnapshot_moves replica states now
      obtain ⟨moreUpdates, graphNext⟩ :=
        routeAll_moves (replica.adoptSnapshot states now).2 operations now
      have sameMoves : (replica.adoptSnapshot states now).2.routeMoves operations now =
          { replica with pending := none }.routeMoves operations now := by
        simp only [routeMoves, appliesNow, channel, config, pending]
        rfl
      rw [sameMoves, graphNow] at moreUpdates graphNext
      rw [Graph.moveAll_append, updates, moreUpdates]
      exact ⟨rfl, graphNext⟩
  | page serial states =>
    simp only [step, handlePage, moves]
    cases replica.channel.isUsable with
    | false => exact ⟨rfl, rfl⟩
    | true =>
      simp only [Bool.not_true, Bool.false_eq_true, ↓reduceIte]
      generalize PendingSync.addPage replica.beginSync.2.pending (.ofText serial) states = added
      obtain ⟨complete, pending⟩ := added
      cases complete with
      | none => exact ⟨rfl, beginSync_graph replica⟩
      | some gathered =>
        have committed := commit_moves { replica.beginSync.2 with pending } gathered now
        have sameMoves : { replica.beginSync.2 with pending }.commitMoves gathered now =
            replica.commitMoves gathered now := by simp only [commitMoves, beginSync_buffered]
        have sameResult : replica.beginSync.2.graph.moveAll (replica.commitMoves gathered now) =
            replica.graph.moveAll (replica.commitMoves gathered now) := by rw [beginSync_graph]
        rw [sameMoves] at committed
        exact ⟨committed.1.trans (congrArg Prod.fst sameResult),
          committed.2.1.trans (congrArg Prod.snd sameResult)⟩
  | snapshot states =>
    have adopted := adoptSnapshot_moves replica states now
    exact ⟨adopted.1, adopted.2.1⟩
  | channel state =>
    cases state with
    | attached announced =>
      cases announced with
      | true => exact ⟨rfl, beginSync_graph { replica with channel := .attached true }⟩
      | false =>
        have adopted := adoptSnapshot_moves { replica with channel := .attached false } [] now
        exact ⟨adopted.1, adopted.2.1⟩
    | initialized => exact ⟨rfl, rfl⟩
    | attaching => exact ⟨rfl, rfl⟩
    | detached => exact ⟨rfl, rfl⟩
    | suspended => exact ⟨rfl, rfl⟩
    | failed => exact ⟨rfl, rfl⟩
  | collect time => exact ⟨rfl, rfl⟩

/-! ## Whole runs -/

theorem after_cons (replica : Replica) (input : Input × Int) (rest : List (Input × Int)) :
    replica.after (input :: rest) = (replica.step input.1 input.2).2.after rest := rfl

theorem after_append (replica : Replica) (inputs more : List (Input × Int)) :
    replica.after (inputs ++ more) = (replica.after inputs).after more := List.foldl_append ..

/-- What inputs lead to, each at its own time. -/
def reactions (replica : Replica) : List (Input × Int) → List Reaction
  | [] => []
  | entry :: rest =>
    (replica.step entry.1 entry.2).1 :: (replica.step entry.1 entry.2).2.reactions rest

theorem reactions_append (replica : Replica) (inputs more : List (Input × Int)) :
    replica.reactions (inputs ++ more) =
      replica.reactions inputs ++ (replica.after inputs).reactions more := by
  induction inputs generalizing replica with
  | nil => rfl
  | cons entry rest ih => exact congrArg _ (ih _)

/-- The moves of a whole run. -/
def movesAfter (replica : Replica) : List (Input × Int) → List Move
  | [] => []
  | entry :: rest => replica.moves entry.1 entry.2 ++ (replica.step entry.1 entry.2).2.movesAfter rest

theorem movesAfter_append (replica : Replica) (inputs more : List (Input × Int)) :
    replica.movesAfter (inputs ++ more) =
      replica.movesAfter inputs ++ (replica.after inputs).movesAfter more := by
  induction inputs generalizing replica with
  | nil => rfl
  | cons entry rest ih =>
    rw [List.cons_append, movesAfter, ih, movesAfter, List.append_assoc]
    rfl

/-- What a run reports and does to the graph is what its moves report and do. -/
theorem reactions_moves (replica : Replica) (inputs : List (Input × Int)) :
    (replica.reactions inputs).flatMap Reaction.updates =
        (replica.graph.moveAll (replica.movesAfter inputs)).1 ∧
      (replica.after inputs).graph = (replica.graph.moveAll (replica.movesAfter inputs)).2 := by
  induction inputs generalizing replica with
  | nil => exact ⟨rfl, rfl⟩
  | cons entry rest ih =>
    obtain ⟨updates, graph⟩ := replica.step_moves entry.1 entry.2
    obtain ⟨more, last⟩ := ih (replica.step entry.1 entry.2).2
    rw [reactions, List.flatMap_cons, movesAfter, Graph.moveAll_append, updates, more, graph]
    exact ⟨rfl, last.trans (by rw [graph])⟩

/-- Whatever happens to a participant, its graph stays sound. -/
theorem sound_after (sound : replica.graph.Sound) (inputs : List (Input × Int)) :
    (replica.after inputs).graph.Sound := by
  induction inputs generalizing replica with
  | nil => exact sound
  | cons input rest ih =>
    refine ih ?_
    rw [(step_moves replica input.1 input.2).2]
    exact sound.moveAll _

end Replica

end SharedGraph
