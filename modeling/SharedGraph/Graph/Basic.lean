import SharedGraph.Failure
import SharedGraph.LiveObject

/-! The graph of all objects that a participant knows, and what readers see of it:
an entry that points to a deleted object is hidden, as if the key had no value. -/
namespace SharedGraph

abbrev Graph := SortedMap ObjectId LiveObject

/-- An order in which the objects of a graph are gone through. Nothing is promised of it,
and each time it may be another one. -/
structure Listing where
  arrange : List (ObjectId × LiveObject) → List (ObjectId × LiveObject)
  perm : ∀ objects, (arrange objects).Perm objects

/-- The objects come in the order of their names. -/
def Listing.byName : Listing := ⟨id, .refl⟩

namespace Graph

/-- A new graph holds the root and nothing else. -/
def initial : Graph := SortedMap.empty.insert .root (.placeholder .root .map)

/-- The object of a name, which is a placeholder while it is not known. -/
def objectOr (graph : Graph) (id : ObjectId) (kind : Kind) : LiveObject :=
  (graph.get? id).getD (.placeholder id kind)

/-- Makes sure that a name is in the graph. Nobody is told about a placeholder. -/
def ensure (graph : Graph) (id : ObjectId) (kind : Kind) : Graph :=
  if graph.contains id then graph else graph.insert id (.placeholder id kind)

/-- Makes sure that a referenced object is in the graph, if its name shows its kind. -/
def ensureReferenced (graph : Graph) (id : ObjectId) : Graph :=
  match id.kind? with
  | some kind => ensure graph id kind
  | none => graph

/-- An unknown object is not a deleted one. -/
def isTombstoned (graph : Graph) (id : ObjectId) : Bool :=
  (graph.get? id).any fun object => object.tombstone

/-- The value that an entry offers, unless it points to a deleted object. -/
def valueOf (graph : Graph) (entry : Entry) : Option Data :=
  entry.value?.filter fun data => !data.target?.any (isTombstoned graph)

/-- Whether readers see an entry. -/
def isVisible (graph : Graph) (entry : Entry) : Bool := (valueOf graph entry).isSome

/-- What a reader of a map finds under a key. Nothing is found in an unknown object,
in a deleted one, and in a counter. -/
def read (graph : Graph) (id : ObjectId) (key : String) : Option Data := do
  let object ← graph.get? id
  if object.tombstone then none
  else
    let entry ← object.entry? key
    valueOf graph entry

/-- The change of a key for readers, given what the map recorded before and after. -/
def visibleChange (graph : Graph) (before after : Option Entry) : Option KeyChange :=
  KeyChange.between (before.bind (valueOf graph)) (after.bind (valueOf graph))

/-- The keys of live entries of a map that point to a target. -/
def referringKeys (target : ObjectId) (object : LiveObject) : List String :=
  if object.tombstone then []
  else
    ((object.entries?.getD .empty).filter fun _ entry => entry.target? = some target).keys

/-- The maps that point to a target, with the keys that do, as they are come upon. -/
def referrersIn (listing : Listing) (graph : Graph) (target : ObjectId) : List (ObjectId × List String) :=
  (listing.arrange graph.toList).filterMap fun (id, object) =>
    let keys := referringKeys target object
    if keys.isEmpty then none else some (id, keys)

/-- The maps that point to a target, by name: one of the orders in which they may be come upon. -/
def referrers (graph : Graph) (target : ObjectId) : List (ObjectId × List String) :=
  graph.referrersIn .byName target

/-- Deletes an object on behalf of the participant itself. The record stays, so that
operations that arrive again still meet the gates. Nothing is reported for an object
that is unknown or already deleted. -/
def delete (graph : Graph) (id : ObjectId) (time : Int) : Except Failure (Option Update × Graph) :=
  if id.isRoot then .error (.protocol (.rootImmutable .deleted))
  else
    match graph.get? id with
    | none => .ok (none, graph)
    | some object =>
      if object.tombstone then .ok (none, graph)
      else
        let (update, deleted) := object.delete time
        .ok (some update, graph.insert id deleted)

/-- Looks an object up that should be of a kind. -/
def typed (graph : Graph) (id : ObjectId) (expected : Kind) : Except Failure LiveObject :=
  match graph.get? id with
  | none => .error (.notFound id)
  | some object =>
    if object.kind = expected then .ok object
    else .error (.wrongKind id expected object.kind)

/-- The descriptions of all objects, deleted ones included, in the order of their names. -/
def describe (graph : Graph) : List ObjectState := graph.values.map LiveObject.toState

end Graph

end SharedGraph
