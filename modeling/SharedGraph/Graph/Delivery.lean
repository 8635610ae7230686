import SharedGraph.Graph.Basic

/-! Applying one live operation to a graph. What is reported is what readers see of
it: deleting an object also removes every key that points to it. -/
namespace SharedGraph.Graph

/-- The objects that an operation mentions, and the one it is for, are in the graph
from then on. -/
def prepare (graph : Graph) (operation : Operation) (kind : Kind) : Graph :=
  ensure (operation.references.foldl ensureReferenced graph) operation.target kind

/-- The update of a live map as readers see it; other updates are reported as they are. -/
def refine (graph : Graph) (keys : List String) (before after : LiveObject) (update : Update) :
    Update :=
  match update.change with
  | .counter _ => update
  | .map _ =>
    if update.tombstone then update
    else
      { update with
        change := .map (changesOf keys fun key =>
          visibleChange graph (before.entry? key) (after.entry? key)) }

/-- The keys that vanish because their target was deleted. -/
def cascade (listing : Listing) (graph : Graph) (update : Update) : List Update :=
  if !update.tombstone then []
  else
    (graph.referrersIn listing update.id).map fun (id, keys) =>
      (Update.ofKeys id (changesOf keys fun _ => some .removed)).causedBy
        update.clientId update.connectionId

/-- Everything to report about an accepted operation. An increment is always reported. -/
def report (listing : Listing) (graph : Graph) (operation : Operation) (before after : LiveObject)
    (update : Update) : List Update :=
  let refined := refine graph operation.affectedKeys before after update
  let own := if refined.isNoop && operation.action != .counterInc then [] else [refined]
  cascade listing graph refined ++ own

/-- Delivers a message. One that carries no operation, or one that is refused, reports
nothing. If it deletes an object, the maps that point there are named in the order of the
listing. -/
def deliverIn (listing : Listing) (graph : Graph) (message : Message) (now : Int) :
    List Update × Graph :=
  match message.operation with
  | none => ([], graph)
  | some operation =>
    match operation.check, operation.action.kind?.or operation.target.kind? with
    | .ok (), some kind =>
      let prepared := prepare graph operation kind
      let object := objectOr prepared operation.target kind
      match object.apply operation (message.stampedAt now) with
      | .error _ | .ok (.stale, _) => ([], prepared)
      | .ok (.applied none, next) => ([], prepared.insert operation.target next)
      | .ok (.applied (some update), next) =>
        let changed := prepared.insert operation.target next
        (report listing changed operation object next update, changed)
    | _, _ => ([], graph)

/-- Delivers a message, with the objects in the order of their names. -/
def deliver (graph : Graph) (message : Message) (now : Int) : List Update × Graph :=
  graph.deliverIn .byName message now

end SharedGraph.Graph
