import Mathlib.Data.List.Basic
import SharedGraph.Proofs.CatchingUp
import SharedGraph.Proofs.Integrity

/-! What a collection leaves behind, after any run. All that readers can ask for stays as it is:
what they follow leads to objects that a live map points to, and none of these is evicted, while
the entries that go have no value. What is kept loses removed entries and nothing else. -/
namespace SharedGraph

/-- The second object is the first one without some of its removed entries. -/
structure LiveObject.LosesRemovals (before after : LiveObject) : Prop where
  same : after = { before with contents := after.contents }
  kind : after.kind = before.kind
  count : after.contents.count? = before.contents.count?
  entries : ∀ key, after.entry? key = before.entry? key ∨
    after.entry? key = none ∧ ∃ entry, before.entry? key = some entry ∧ entry.tombstone = true

theorem LiveObject.losesRemovals_dropExpired (object : LiveObject) (cutoff : Int) :
    object.LosesRemovals (object.dropExpired cutoff) where
  same := by
    unfold dropExpired
    cases object.contents <;> rfl
  kind := object.dropExpired_kind cutoff
  count := object.dropExpired_count? cutoff
  entries key := by
    rw [entry?_dropExpired]
    cases written : object.entry? key with
    | none => exact .inl rfl
    | some entry =>
      rw [Option.filter_some]
      cases expired : Entries.isExpired cutoff entry with
      | false => exact .inl rfl
      | true =>
        have removed := (Bool.and_eq_true_iff.1 expired).1
        exact .inr ⟨rfl, entry, rfl, removed⟩

namespace Graph

variable {graph : Graph} {id : ObjectId}

/-- Readers find the same in both graphs, whatever they ask for. -/
structure ReadsAlike (graph other : Graph) : Prop where
  lookup : ∀ id key, other.lookup id key = graph.lookup id key
  size : ∀ id, other.visibleSize id = graph.visibleSize id
  keys : ∀ id, other.visibleKeys id = graph.visibleKeys id
  entries : ∀ id, other.listing id = graph.listing id
  count : ∀ id, other.countOf id = graph.countOf id

/-! ## What readers follow -/

private theorem valueOf_collect (grace now : Int) {entry : Entry}
    (known : ∀ target, entry.target? = some target → target ∈ graph.referenced) :
    (graph.collect grace now).2.valueOf entry = graph.valueOf entry := by
  unfold valueOf
  cases value : entry.value? with
  | none => rfl
  | some data =>
    rw [Option.filter_some, Option.filter_some]
    cases points : data.target? with
    | none => rfl
    | some target =>
      have listed : target ∈ graph.referenced := by
        apply known
        rw [Entry.target?, value, Option.bind_some, points]
      rw [Option.any_some, Option.any_some, isTombstoned_collect graph grace now listed]

private theorem resolve_collect (grace now : Int) {data : Data}
    (known : ∀ target, data.target? = some target → target ∈ graph.referenced) :
    (graph.collect grace now).2.resolve data = graph.resolve data := by
  unfold resolve
  cases points : data.target? with
  | none => rfl
  | some target =>
    rcases get?_collect graph grace now target with same | ⟨-, unlisted, -⟩
    · simp only [same, Option.map_map, Function.comp_def, LiveObject.dropExpired_kind]
    · exact absurd (known target points) unlisted

/-- What a reader finds is never a reference to an object that may be evicted. -/
theorem mem_referenced_of_read {key : String} {data : Data} {target : ObjectId}
    (found : graph.read id key = some data) (points : data.target? = some target) :
    target ∈ graph.referenced := by
  rw [Graph.read_eq] at found
  obtain ⟨object, present, shown⟩ := Option.bind_eq_some_iff.1 found
  unfold LiveObject.shown at shown
  split at shown
  case isTrue => cases shown
  case isFalse alive =>
    obtain ⟨entry, written, value⟩ := Option.bind_eq_some_iff.1 shown
    have offered := (Option.filter_eq_some_iff.1 value).1
    apply mem_referenced present (Bool.eq_false_iff.2 alive) written
    rw [Entry.target?, offered, Option.bind_some, points]

/-! ## What readers find -/

private theorem lookup_collect (graph : Graph) (grace now : Int) (id : ObjectId) (key : String) :
    (graph.collect grace now).2.lookup id key = graph.lookup id key := by
  unfold lookup
  rw [read_collect]
  cases found : graph.read id key with
  | none => rfl
  | some data =>
    apply resolve_collect
    intro target points
    exact mem_referenced_of_read found points

theorem read_of_mem_visibleEntries {entry : String × Data} (member : entry ∈ graph.visibleEntries id) :
    graph.read id entry.1 = some entry.2 := by
  unfold visibleEntries at member
  rw [Graph.read_eq]
  cases present : graph.get? id with
  | none =>
    rw [present] at member
    cases member
  | some object =>
    simp only [present] at member
    split at member
    case isTrue => cases member
    case isFalse alive =>
      obtain ⟨⟨key, written⟩, listed, shown⟩ := List.mem_filterMap.1 member
      obtain ⟨data, value, rfl⟩ := Option.map_eq_some_iff.1 shown
      rw [Option.bind_some, LiveObject.shown, if_neg alive, LiveObject.entry?_of_mem listed]
      exact value

/-- The entries that go show no value, and those that stay show the same one. -/
theorem visibleEntries_collect (graph : Graph) (grace now : Int) (id : ObjectId) :
    (graph.collect grace now).2.visibleEntries id = graph.visibleEntries id := by
  unfold visibleEntries
  rcases get?_collect graph grace now id with same | ⟨gone, -, object, present, dead, -⟩
  · rw [same]
    cases present : graph.get? id with
    | none => rfl
    | some object =>
      simp only [Option.map_some, LiveObject.dropExpired_tombstone]
      split
      case isTrue => rfl
      case isFalse alive =>
        rw [LiveObject.toList_dropExpired, List.filterMap_filter]
        apply List.filterMap_congr
        rintro ⟨key, entry⟩ listed
        have written := LiveObject.entry?_of_mem listed
        cases expired : Entries.isExpired (clampTime (now - grace)) entry with
        | true =>
          have removed := (Bool.and_eq_true_iff.1 expired).1
          simp only [valueOf, Entry.value?, removed, ↓reduceIte, Option.filter_none, Option.map_none,
            Bool.not_true, Bool.false_eq_true]
        | false =>
          have shown : (graph.collect grace now).2.valueOf entry = graph.valueOf entry := by
            apply valueOf_collect
            intro target points
            exact mem_referenced present (Bool.eq_false_iff.2 alive) written points
          simp only [shown, Bool.not_false, ↓reduceIte]
  · simp only [gone, present, dead, ↓reduceIte]

private theorem listing_collect (graph : Graph) (grace now : Int) (id : ObjectId) :
    (graph.collect grace now).2.listing id = graph.listing id := by
  unfold listing
  rw [visibleEntries_collect]
  apply List.filterMap_congr
  rintro ⟨key, data⟩ member
  have found := read_of_mem_visibleEntries member
  have resolved : (graph.collect grace now).2.resolve data = graph.resolve data := by
    apply resolve_collect
    intro target points
    exact mem_referenced_of_read found points
  simp only [resolved]

theorem Sound.readsAlike_collect (sound : graph.Sound) (grace now : Int) :
    graph.ReadsAlike (graph.collect grace now).2 where
  lookup := lookup_collect graph grace now
  size id := congrArg List.length (visibleEntries_collect graph grace now id)
  keys id := congrArg (List.map Prod.fst) (visibleEntries_collect graph grace now id)
  entries := listing_collect graph grace now
  count := countOf_collect sound grace now

/-! ## What is kept -/

/-- Only deleted objects are evicted. -/
theorem get?_collect_of_live (grace now : Int) {object : LiveObject} (present : graph.get? id = some object)
    (live : object.tombstone = false) :
    (graph.collect grace now).2.get? id = some (object.dropExpired (clampTime (now - grace))) := by
  rcases get?_collect graph grace now id with same | ⟨-, -, evicted, held, dead, -⟩
  · rw [same, present, Option.map_some]
  · rw [present] at held
    cases held
    rw [live] at dead
    cases dead

end Graph

/-- After any run, whatever the grace period and the time, a collection is not noticed by readers:
they find what they found before, under every name. No live object goes, and what is kept is what
it was, with its serials, apart from entries that were removed. The root stays, and no live entry
is left that points to nothing. -/
theorem collection_unnoticed (config : Config) (history : List (Input × Int)) (grace now : Int) :
    let replica := (Replica.new config).after history
    let graph := replica.graph
    let next := (graph.collect grace now).2
    (replica.collectGarbage now).2 =
        { replica with graph := (graph.collect config.graceTime now).2 } ∧
      graph.ReadsAlike next ∧
      (∀ id object, graph.get? id = some object → object.tombstone = false →
        ∃ kept, next.get? id = some kept ∧ object.LosesRemovals kept) ∧
      (∀ id kept, next.get? id = some kept →
        ∃ object, graph.get? id = some object ∧ object.LosesRemovals kept ∧
          kept.serials = object.serials) ∧
      (next.get? .root).isSome = true ∧
      (∀ id object key entry target, next.get? id = some object → object.entry? key = some entry →
        entry.target? = some target → (next.get? target).isSome = true) := by
  intro replica graph next
  have orderly : graph.Orderly := by
    apply Replica.orderly_after
    exact Graph.orderly_initial
  have orderlyNext : next.Orderly := orderly.collect grace now
  refine ⟨?_, orderly.sound.readsAlike_collect grace now, ?_, ?_, orderlyNext.rooted, orderlyNext.closed⟩
  · have graceSame : replica.config = config := Replica.after_config _ history
    rw [← graceSame]
    rfl
  · intro id object present live
    exact ⟨_, Graph.get?_collect_of_live grace now present live, object.losesRemovals_dropExpired _⟩
  · intro id kept present
    obtain ⟨object, held, rfl⟩ := Graph.of_get?_collect present
    have loses := object.losesRemovals_dropExpired (clampTime (now - grace))
    refine ⟨object, held, loses, ?_⟩
    rw [loses.same]

end SharedGraph
