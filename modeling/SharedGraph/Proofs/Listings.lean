import SharedGraph.Proofs.DeliveryReports
import SharedGraph.Proofs.Runs

/-! The order in which objects are gone through, of which nothing is promised. It decides in which
order a deletion names the maps that lose keys by it, and nothing else: graphs do not depend on it,
and of each object the same is told, in the same order. -/
namespace SharedGraph

/-! ## Telling the same in another order -/

/-- A deletion, and updates of maps that only lose keys by it. No map has two of them. -/
structure Losses (deletion : Update) (updates : List Update) : Prop where
  deletes : deletion.tombstone = true
  removals : ∀ update ∈ updates, update.removesOnly = true ∧ update.clientId = deletion.clientId ∧
    update.connectionId = deletion.connectionId
  once : (updates.map Update.id).Nodup

/-- The same updates, except that a deletion may name the maps that lose keys in another order. -/
inductive Retold : List Update → List Update → Prop
  | nil : Retold [] []
  | cons (update : Update) {told again : List Update} (rest : Retold told again) :
    Retold (update :: told) (update :: again)
  | deletion {deletion : Update} {updates others told again : List Update}
    (losses : Losses deletion updates) (reordered : updates.Perm others) (rest : Retold told again) :
    Retold (updates ++ deletion :: told) (others ++ deletion :: again)

namespace Retold

variable {told again : List Update}

theorem refl (told : List Update) : Retold told told := by
  induction told with
  | nil => exact .nil
  | cons update rest ih => exact .cons update ih

theorem append {more others : List Update} (first : Retold told again) (rest : Retold more others) :
    Retold (told ++ more) (again ++ others) := by
  induction first with
  | nil => exact rest
  | cons update _ ih => exact .cons update ih
  | deletion losses reordered _ ih =>
    rw [List.append_assoc, List.append_assoc]
    exact .deletion losses reordered ih

theorem perm (retold : Retold told again) : told.Perm again := by
  induction retold with
  | nil => exact .nil
  | cons update _ ih => exact ih.cons update
  | deletion losses reordered _ ih => exact reordered.append (ih.cons _)

/-- Of maps that are named once it does not matter in which order. -/
private theorem filter_of_perm {updates others : List Update} (once : (updates.map Update.id).Nodup)
    (reordered : updates.Perm others) (id : ObjectId) :
    updates.filter (fun update => update.id = id) = others.filter fun update => update.id = id := by
  have same := reordered.filter fun update => update.id = id
  have few := (List.pairwise_map.1 once).filter fun update : Update => update.id = id
  have named : ∀ update ∈ updates.filter (fun update => update.id = id), update.id = id :=
    fun update member => of_decide_eq_true (List.mem_filter.1 member).2
  cases mine : updates.filter fun update => update.id = id with
  | nil => exact (List.perm_nil.1 (mine ▸ same).symm).symm
  | cons update rest =>
    rw [mine] at same few named
    cases rest with
    | nil => exact (List.perm_singleton.1 same.symm).symm
    | cons other _ =>
      have apart := (List.pairwise_cons.1 few).1 other (List.mem_cons_self ..)
      exact absurd ((named update (List.mem_cons_self ..)).trans (named other (by simp)).symm) apart

/-- Of each object the same is told, in the same order. -/
theorem filter_id (retold : Retold told again) (id : ObjectId) :
    told.filter (fun update => update.id = id) = again.filter fun update => update.id = id := by
  induction retold with
  | nil => rfl
  | cons update _ ih => rw [List.filter_cons, List.filter_cons, ih]
  | deletion losses reordered _ ih =>
    rw [List.filter_append, List.filter_append, List.filter_cons, List.filter_cons,
      filter_of_perm losses.once reordered, ih]

end Retold

namespace Graph

variable {graph changed : Graph}

/-! ## One delivery -/

theorem referrersIn_perm (listing : Listing) (graph : Graph) (target : ObjectId) :
    (graph.referrersIn listing target).Perm (graph.referrers target) :=
  (listing.perm _).filterMap _

private theorem losses_lost {deletion : Update} (deletes : deletion.tombstone = true)
    {objects : List (ObjectId × LiveObject)} (reordered : objects.Perm changed.toList) :
    Losses deletion (objects.filterMap (lost deletion)) := by
  refine ⟨deletes, fun told member => ?_, ?_⟩
  · obtain ⟨entry, -, made⟩ := List.mem_filterMap.1 member
    exact (eq_of_lost made).2
  · have apart : objects.Pairwise fun entry other => entry.1 ≠ other.1 :=
      List.pairwise_map.1 ((reordered.map Prod.fst).nodup_iff.2 changed.nodup_keys)
    refine List.pairwise_map.2 (apart.filterMap _ fun entry other different told made toldToo madeToo => ?_)
    rw [(eq_of_lost made).1, (eq_of_lost madeToo).1]
    exact different

/-- Whatever is reported of an operation, the listing decides about the order of what a deletion
takes along. -/
theorem report_retold (listing other : Listing) (changed : Graph) (operation : Operation)
    (before after : LiveObject) (update : Update) :
    Retold (report listing changed operation before after update)
      (report other changed operation before after update) := by
  simp only [report]
  generalize refine changed operation.affectedKeys before after update = refined
  cases deletes : refined.tombstone with
  | false =>
    have nothing (any : Listing) : cascade any changed refined = [] := by
      rw [cascade, deletes]
      rfl
    rw [nothing, nothing]
    exact .refl _
  | true =>
    have loud : refined.isNoop = false := by
      rw [Update.isNoop, deletes]
      rfl
    simp only [loud, Bool.false_and, Bool.false_eq_true, ↓reduceIte, cascade_of_deletes deletes]
    exact .deletion (losses_lost deletes (listing.perm _))
      (((listing.perm _).trans (other.perm _).symm).filterMap _) .nil

theorem deliverIn_retold (listing other : Listing) (graph : Graph) (message : Message) (now : Int) :
    (graph.deliverIn listing message now).2 = (graph.deliverIn other message now).2 ∧
      Retold (graph.deliverIn listing message now).1 (graph.deliverIn other message now).1 := by
  rcases complete_or_idle message with ⟨operation, carried, complete⟩ | ⟨idle, -⟩
  case inr =>
    rw [idle, idle]
    exact ⟨rfl, .nil⟩
  obtain ⟨kind, shown, -⟩ := Operation.kind_of_check complete
  obtain ⟨object, -, -, delivered⟩ := deliver_of_complete carried complete shown now
  rw [delivered, delivered]
  rcases object.apply operation (message.stampedAt now) with fault | ⟨_ | _ | update, next⟩
  · exact ⟨rfl, .nil⟩
  · exact ⟨rfl, .nil⟩
  · exact ⟨rfl, .nil⟩
  · exact ⟨rfl, report_retold ..⟩

private def twoFolders : Graph :=
  let note : Entry := .live (.reference ⟨"counter:note@1"⟩) (some ⟨"01"⟩)
  let folder (name : String) : ObjectId × LiveObject :=
    (⟨name⟩, { LiveObject.placeholder ⟨name⟩ .map with contents := .map (.ofList [("note", note)]) })
  .ofList [folder "map:left@1", folder "map:right@1",
    (⟨"counter:note@1"⟩, .placeholder ⟨"counter:note@1"⟩ .counter)]

private def discard : Message :=
  ((Message.ofOperation (.objectDelete ⟨"counter:note@1"⟩)).withOrigin "a" ⟨"02"⟩).withTimestamp 7

/-- Two maps point to a counter that is deleted: either of them may be named first. -/
example :
    let names (listing : Listing) := (twoFolders.deliverIn listing discard 0).1.map Update.id
    names .byName = [⟨"map:left@1"⟩, ⟨"map:right@1"⟩, ⟨"counter:note@1"⟩] ∧
      names ⟨List.reverse, List.reverse_perm⟩ = [⟨"map:right@1"⟩, ⟨"map:left@1"⟩, ⟨"counter:note@1"⟩] := by
  decide +kernel

/-! ## Runs -/

/-- What a move reports, and the graph after it, if the objects come in a given order. -/
def moveIn (listing : Listing) (graph : Graph) : Move → List Update × Graph
  | .deliver message now => graph.deliverIn listing message now
  | .describe states now => graph.move (.describe states now)
  | .collect grace now => graph.move (.collect grace now)

private theorem moveIn_byName (graph : Graph) (move : Move) :
    graph.moveIn .byName move = graph.move move := by
  cases move <;> rfl

theorem moveIn_retold (listing other : Listing) (graph : Graph) (move : Move) :
    (graph.moveIn listing move).2 = (graph.moveIn other move).2 ∧
      Retold (graph.moveIn listing move).1 (graph.moveIn other move).1 := by
  cases move with
  | deliver message now => exact deliverIn_retold listing other graph message now
  | describe states now => exact ⟨rfl, .refl _⟩
  | collect grace now => exact ⟨rfl, .refl _⟩

/-- What may be told of moves: for each of them the objects may come in another order. -/
inductive MayTell : Graph → List Move → List Update → Prop
  | nil (graph : Graph) : MayTell graph [] []
  | cons (listing : Listing) {graph : Graph} {move : Move} {moves : List Move} {told : List Update}
    (rest : MayTell (graph.moveIn listing move).2 moves told) :
    MayTell graph (move :: moves) ((graph.moveIn listing move).1 ++ told)

private theorem mayTell_moveAll (graph : Graph) (moves : List Move) :
    graph.MayTell moves (graph.moveAll moves).1 := by
  induction moves generalizing graph with
  | nil => exact .nil graph
  | cons move rest ih =>
    rw [moveAll_cons, ← moveIn_byName]
    exact .cons .byName (ih _)

/-- Whoever tells of the same moves tells the same, except for the order in which deletions name
the maps that lose keys. -/
theorem MayTell.retold {moves : List Move} {told again : List Update} (first : graph.MayTell moves told)
    (second : graph.MayTell moves again) : Retold told again := by
  induction first generalizing again with
  | nil graph =>
    cases second
    exact .nil
  | cons listing _ ih =>
    cases second with
    | cons other rest =>
      obtain ⟨same, retold⟩ := moveIn_retold listing other _ _
      exact retold.append (ih (same ▸ rest))

end Graph

namespace Replica

/-- What a participant may tell of inputs, each at its own time. -/
def MayTell (replica : Replica) (inputs : List (Input × Int)) (told : List Update) : Prop :=
  replica.graph.MayTell (replica.movesAfter inputs) told

/-- With the objects in the order of their names, this is what it tells. -/
theorem mayTell_reactions (replica : Replica) (inputs : List (Input × Int)) :
    replica.MayTell inputs ((replica.reactions inputs).flatMap Reaction.updates) := by
  rw [(replica.reactions_moves inputs).1]
  exact replica.graph.mayTell_moveAll _

/-- Whatever order the objects come in, all that a participant tells of a run are the updates that
it tells if they come by name, and of each object it tells the same in the same order. -/
theorem MayTell.like_reactions {replica : Replica} {inputs : List (Input × Int)} {told : List Update}
    (mayTell : replica.MayTell inputs told) :
    let byName := (replica.reactions inputs).flatMap Reaction.updates
    told.Perm byName ∧ ∀ id : ObjectId,
      told.filter (fun update => update.id = id) = byName.filter fun update => update.id = id := by
  have retold := Graph.MayTell.retold mayTell (replica.mayTell_reactions inputs)
  exact ⟨retold.perm, retold.filter_id⟩

end Replica

end SharedGraph
