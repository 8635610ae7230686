import SharedGraph.Graph.Basic

/-! Replacing a graph by what the service describes. The new graph is built beside the
old one and takes its place as a whole, so a description that is refused leaves
nothing behind. -/
namespace SharedGraph.Graph

/-- A root that nobody described is an empty map. -/
def emptyRoot : ObjectState := { id := .root, entries := some .empty }

/-- The states by name, the last one of each name, and always one for the root. -/
def describedStates (states : List ObjectState) : SortedMap ObjectId ObjectState :=
  let described := SortedMap.ofList (states.map fun state => (state.id, state))
  if described.contains .root then described else described.insert .root emptyRoot

/-- The object that a description is applied to: the known one, if it has the same
kind, and otherwise a new one. -/
def baseline (graph : Graph) (state : ObjectState) (kind : Kind) : LiveObject :=
  match graph.get? state.id with
  | some known => if known.kind = kind then known else .placeholder state.id kind
  | none => .placeholder state.id kind

/-- The described object, and what its description changed. -/
def describedObject (graph : Graph) (state : ObjectState) (now : Int) :
    Except Fault (Update × LiveObject) := do
  let kind ← state.kind
  (baseline graph state kind).override state now

/-- An object that the service does not know any more is deleted. -/
def absentObject (object : LiveObject) (now : Int) : Option Update × LiveObject :=
  if object.tombstone then (none, object)
  else
    let (update, deleted) := object.delete now
    (some update, deleted)

/-- The graph while it is built, with the update of each object that has one. -/
structure Working where
  graph : Graph
  updates : SortedMap ObjectId Update

namespace Working

def empty : Working := ⟨.empty, .empty⟩

def addDescribed (working : Working) (previous : Graph) (state : ObjectState) (now : Int) :
    Except Fault Working := do
  let (update, object) ← describedObject previous state now
  .ok ⟨working.graph.insert state.id object, working.updates.insert state.id update⟩

def addAbsent (working : Working) (now : Int) (entry : ObjectId × LiveObject) : Working :=
  if working.graph.contains entry.1 then working
  else
    let (update, object) := absentObject entry.2 now
    { graph := working.graph.insert entry.1 object
      updates := match update with
        | some found => working.updates.insert entry.1 found
        | none => working.updates }

end Working

/-- Every object that some map points to is in the graph from then on. -/
def closeReferences (graph : Graph) : Graph :=
  (graph.values.flatMap LiveObject.references).foldl ensureReferenced graph

/-- The changes of a map for readers, between two graphs. -/
def readerChanges (previous next : Graph) (id : ObjectId) (entries : Entries) : KeyChanges :=
  let known := ((previous.get? id).bind LiveObject.entries?).getD .empty
  changesOf (bothKeys known entries) fun key =>
    KeyChange.between ((known.get? key).bind (valueOf previous)) ((entries.get? key).bind (valueOf next))

/-- The update of an object in the new graph. For a map it lists what changed for
readers, which may be due to other objects alone. -/
def finalUpdate (previous next : Graph) (updates : SortedMap ObjectId Update)
    (entry : ObjectId × LiveObject) : Option Update :=
  match entry.2.contents with
  | .map entries =>
    let update := (updates.get? entry.1).getD (.ofKeys entry.1 .empty)
    some { update with change := .map (readerChanges previous next entry.1 entries) }
  | .counter _ => updates.get? entry.1

/-- Applies a complete description. Objects in it become what it says, all others are
deleted; updates come in the order of the names. -/
def applySnapshot (graph : Graph) (states : List ObjectState) (now : Int) :
    Except Fault (List Update × Graph) := do
  states.forM ObjectState.check
  let described ← (describedStates states).values.foldlM
    (fun working state => working.addDescribed graph state now) Working.empty
  let working := graph.toList.foldl (fun working entry => working.addAbsent now entry) described
  let next := closeReferences working.graph
  let updates := next.toList.filterMap (finalUpdate graph next working.updates)
  .ok (updates.filter fun update => !update.isNoop, next)

end SharedGraph.Graph
