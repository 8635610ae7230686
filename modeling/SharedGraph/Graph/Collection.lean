import SharedGraph.Graph.Basic

/-! Garbage collection. Deleted objects and removed entries are kept for a grace
period, because what arrives late has to meet them; after it they are forgotten. -/
namespace SharedGraph.Graph

/-- What a collection forgot: how many objects, and which ones, and how many entries. -/
structure Collection where
  objectsEvicted : Nat
  evicted : List ObjectId
  entriesRemoved : Nat
  deriving DecidableEq

/-- Deleted at or before the cutoff. The root is never evicted. -/
def isExpired (cutoff : Int) (object : LiveObject) : Bool :=
  !object.id.isRoot && object.tombstone && object.tombstonedAt.any (· ≤ cutoff)

/-- The expired objects that no live map points to. -/
def evictable (graph : Graph) (cutoff : Int) : List ObjectId :=
  let referenced := graph.values.flatMap LiveObject.references
  (graph.filter fun id object => isExpired cutoff object && !referenced.contains id).keys

/-- Takes objects out of the graph one by one, and counts those that were in it. The root
stays where it is. -/
def evict (graph : Graph) : List ObjectId → Nat × Graph
  | [] => (0, graph)
  | id :: rest =>
    if !id.isRoot && graph.contains id then
      let (count, next) := evict (graph.erase id) rest
      (count + 1, next)
    else evict graph rest

/-- The removed entries of an object that are due. -/
def expiredEntries (cutoff : Int) (object : LiveObject) : Nat :=
  match object.entries? with
  | some entries => entries.size - (Entries.dropExpired entries cutoff).size
  | none => 0

/-- Forgets what was removed at least the grace period ago. -/
def collect (graph : Graph) (grace now : Int) : Collection × Graph :=
  let cutoff := clampTime (now - grace)
  let evicted := evictable graph cutoff
  let (objectsEvicted, kept) := evict graph evicted
  let removed := graph.values.foldr (fun object total => expiredEntries cutoff object + total) 0
  (⟨objectsEvicted, evicted, removed⟩, kept.map fun _ object => object.dropExpired cutoff)

end SharedGraph.Graph
