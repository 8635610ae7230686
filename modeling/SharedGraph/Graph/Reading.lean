import SharedGraph.Graph.Basic

/-! What readers find in a graph. Looking up one key and listing a whole map go through
the same rule, `Graph.valueOf`, which hides entries that point to deleted objects. -/
namespace SharedGraph

/-- What a reader finds under a key: a plain value, or another object. -/
inductive Found where
  | plain (data : Data)
  | object (kind : Kind) (id : ObjectId)
  deriving DecidableEq

namespace Graph

/-- Follows a reference; one to an unknown object leads nowhere. -/
def resolve (graph : Graph) (data : Data) : Option Found :=
  match data.target? with
  | none => some (.plain data)
  | some id => (graph.get? id).map fun object => .object object.kind id

/-- What a reader finds under a key of a map. -/
def lookup (graph : Graph) (id : ObjectId) (key : String) : Option Found :=
  (read graph id key).bind (resolve graph)

/-- The entries of a map that readers see. An unknown or deleted object has none, and
neither has a counter. -/
def visibleEntries (graph : Graph) (id : ObjectId) : List (String × Data) :=
  match graph.get? id with
  | none => []
  | some object =>
    if object.tombstone then []
    else
      (object.entries?.getD .empty).toList.filterMap fun (key, entry) =>
        (valueOf graph entry).map fun data => (key, data)

def visibleKeys (graph : Graph) (id : ObjectId) : List String :=
  (visibleEntries graph id).map Prod.fst

def visibleSize (graph : Graph) (id : ObjectId) : Nat := (visibleEntries graph id).length

/-- All that a reader finds in a map, in the order of the keys. -/
def listing (graph : Graph) (id : ObjectId) : List (String × Found) :=
  (visibleEntries graph id).filterMap fun (key, data) =>
    (resolve graph data).map fun found => (key, found)

/-- The count of a counter. Whatever is not a known counter counts zero. -/
def countOf (graph : Graph) (id : ObjectId) : Double :=
  ((graph.get? id).bind fun object => object.contents.count?).getD (.zero false)

end Graph

end SharedGraph
