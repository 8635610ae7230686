import SharedGraph.Proofs.Collections
import SharedGraph.Proofs.RootDeletion

/-! The ways to read a map, against each other. Looking up a key follows what it finds at once,
while listing the keys stops at what the entries show. They agree because a graph in one piece has
no entry that shows an object which is not there. -/
namespace SharedGraph

namespace Graph

variable {graph : Graph} {id : ObjectId} {key : String} {data : Data}

/-- The entries that a listing shows are those that a look-up of their keys finds. -/
theorem mem_visibleEntries_iff : (key, data) ∈ graph.visibleEntries id ↔ graph.read id key = some data := by
  constructor
  · exact read_of_mem_visibleEntries
  · intro found
    rw [Graph.read_eq] at found
    obtain ⟨object, present, shown⟩ := Option.bind_eq_some_iff.1 found
    unfold LiveObject.shown at shown
    split at shown
    case isTrue => cases shown
    case isFalse live =>
      obtain ⟨entry, written, value⟩ := Option.bind_eq_some_iff.1 shown
      obtain ⟨entries, held, stored⟩ := Option.bind_eq_some_iff.1 written
      simp only [visibleEntries, present, live, held, Option.getD_some]
      exact List.mem_filterMap.2 ⟨(key, entry), SortedMap.get?_eq_some_iff.1 stored, by rw [value]; rfl⟩

private theorem mem_visibleKeys_iff :
    key ∈ graph.visibleKeys id ↔ ∃ data, graph.read id key = some data := by
  simp only [visibleKeys, List.mem_map, Prod.exists, exists_and_right, exists_eq_right, mem_visibleEntries_iff]

/-- Keys are listed in the order in which a map stores them. -/
theorem visibleKeys_ascending (graph : Graph) (id : ObjectId) :
    (graph.visibleKeys id).Pairwise (· < ·) := by
  unfold visibleKeys visibleEntries
  split
  case h_1 => exact List.Pairwise.nil
  case h_2 object _ =>
    split
    case isTrue => exact List.Pairwise.nil
    case isFalse =>
      rw [List.pairwise_map]
      refine List.Pairwise.filterMap _ ?_ (object.entries?.getD .empty).ascending
      intro entry other less shown from? shownOther fromOther
      obtain ⟨data, -, rfl⟩ := Option.map_eq_some_iff.1 from?
      obtain ⟨dataOther, -, rfl⟩ := Option.map_eq_some_iff.1 fromOther
      exact less

/-- What a reader is shown leads somewhere. -/
theorem Orderly.exists_resolve (orderly : graph.Orderly) (found : graph.read id key = some data) :
    ∃ value, graph.resolve data = some value := by
  unfold resolve
  cases points : data.target? with
  | none => exact ⟨_, rfl⟩
  | some target =>
    obtain ⟨object, stored, leads⟩ := List.mem_flatMap.1 (mem_referenced_of_read found points)
    obtain ⟨source, present⟩ := SortedMap.mem_values_iff.1 stored
    obtain ⟨other, entry, written, aims⟩ := LiveObject.exists_entry?_of_mem_references leads
    have known := orderly.closed source object other entry target present written aims
    obtain ⟨reached, there⟩ := Option.isSome_iff_exists.1 known
    refine ⟨.object reached.kind target, ?_⟩
    simp only [there, Option.map_some]

private theorem Orderly.mem_visibleKeys_iff_lookup (orderly : graph.Orderly) :
    key ∈ graph.visibleKeys id ↔ ∃ found, graph.lookup id key = some found := by
  rw [mem_visibleKeys_iff]
  constructor
  · rintro ⟨data, read⟩
    obtain ⟨found, leads⟩ := orderly.exists_resolve read
    exact ⟨found, by rw [lookup, read, Option.bind_some, leads]⟩
  · rintro ⟨found, leads⟩
    obtain ⟨data, read, -⟩ := Option.bind_eq_some_iff.1 leads
    exact ⟨data, read⟩

/-- A listing has every key that is shown, with what a look-up of the key finds. -/
theorem Orderly.listing_eq (orderly : graph.Orderly) (id : ObjectId) :
    (graph.listing id).map (fun entry => (entry.1, some entry.2)) =
      (graph.visibleKeys id).map fun key => (key, graph.lookup id key) := by
  have found : ∀ entry ∈ graph.visibleEntries id, ∃ value, graph.resolve entry.2 = some value ∧
      graph.lookup id entry.1 = some value := by
    intro entry member
    have read := read_of_mem_visibleEntries member
    obtain ⟨value, leads⟩ := orderly.exists_resolve read
    exact ⟨value, leads, by rw [lookup, read, Option.bind_some, leads]⟩
  unfold listing visibleKeys
  generalize graph.visibleEntries id = shown at found ⊢
  induction shown with
  | nil => rfl
  | cons entry rest ih =>
    obtain ⟨value, leads, looked⟩ := found entry List.mem_cons_self
    have restSame := ih fun other member => found other (List.mem_cons_of_mem _ member)
    simp only [List.filterMap_cons, leads, Option.map_some, List.map_cons, restSame, looked]

end Graph

/-- After any run, and for every name, the readers of a map agree. The keys come in ascending
order, so none comes twice, and they are those under which a look-up finds something; the size is
their number; and the listing has these keys in this order, each with what the look-up finds: the
same plain value, or the same object of the same kind. -/
theorem map_readers_agree (config : Config) (events : List Replica.Event) (id : ObjectId) :
    let graph := ((Replica.new config).undergoAll events).graph
    (graph.visibleKeys id).Pairwise (· < ·) ∧
      (∀ key, key ∈ graph.visibleKeys id ↔ ∃ found, graph.lookup id key = some found) ∧
      graph.visibleSize id = (graph.visibleKeys id).length ∧
      (graph.listing id).map (fun entry => (entry.1, some entry.2)) =
        (graph.visibleKeys id).map fun key => (key, graph.lookup id key) := by
  intro graph
  have orderly : graph.Orderly := Replica.orderly_undergoAll Graph.orderly_initial events
  refine ⟨graph.visibleKeys_ascending id, fun key => orderly.mem_visibleKeys_iff_lookup, ?_,
    orderly.listing_eq id⟩
  rw [Graph.visibleSize, Graph.visibleKeys, List.length_map]

end SharedGraph
