import SharedGraph.Graph.Collection
import SharedGraph.Proofs.SnapshotReports

/-! Garbage collection is not observable. What is forgotten was hidden before: a removed
entry has no value, and a deleted object that no live map points to hides nothing. -/
namespace SharedGraph

namespace LiveObject

variable {object : LiveObject}

theorem entry?_dropExpired (object : LiveObject) (cutoff : Int) (key : String) :
    LiveObject.entry? (object.dropExpired cutoff) key =
      (object.entry? key).filter fun entry => !Entries.isExpired cutoff entry := by
  unfold dropExpired
  cases held : object.contents with
  | map entries =>
    rw [entry?_of_map rfl, entry?_of_map held, Entries.dropExpired, SortedMap.get?_filter]
  | counter count =>
    rw [entry?_of_counter held]
    rfl

theorem toList_dropExpired (object : LiveObject) (cutoff : Int) :
    ((object.dropExpired cutoff).entries?.getD .empty).toList =
      (object.entries?.getD .empty).toList.filter fun listed => !Entries.isExpired cutoff listed.2 := by
  unfold dropExpired entries?
  cases held : object.contents with
  | map entries => rfl
  | counter count =>
    rw [held]
    rfl

/-- What a listing shows of a key is what is recorded about it. -/
theorem entry?_of_mem {key : String} {entry : Entry}
    (listed : (key, entry) ∈ (object.entries?.getD .empty).toList) : object.entry? key = some entry := by
  unfold entry?
  cases held : object.entries? with
  | none =>
    rw [held] at listed
    cases listed
  | some entries =>
    rw [held] at listed
    exact SortedMap.get?_eq_some_iff.2 listed

@[simp] theorem dropExpired_id (object : LiveObject) (cutoff : Int) :
    (object.dropExpired cutoff).id = object.id := by
  unfold dropExpired
  cases object.contents <;> rfl

@[simp] theorem dropExpired_tombstone (object : LiveObject) (cutoff : Int) :
    (object.dropExpired cutoff).tombstone = object.tombstone := by
  unfold dropExpired
  cases object.contents <;> rfl

@[simp] theorem dropExpired_tombstonedAt (object : LiveObject) (cutoff : Int) :
    (object.dropExpired cutoff).tombstonedAt = object.tombstonedAt := by
  unfold dropExpired
  cases object.contents <;> rfl

@[simp] theorem dropExpired_kind (object : LiveObject) (cutoff : Int) :
    (object.dropExpired cutoff).kind = object.kind := by
  unfold dropExpired kind
  cases held : object.contents with
  | map entries => rfl
  | counter count => rw [held]

@[simp] theorem dropExpired_count? (object : LiveObject) (cutoff : Int) :
    (object.dropExpired cutoff).contents.count? = object.contents.count? := by
  unfold dropExpired
  cases held : object.contents with
  | map entries => rfl
  | counter count => rw [held]

theorem Sound.dropExpired (sound : object.Sound) (cutoff : Int) : (object.dropExpired cutoff).Sound := by
  constructor
  · intro dead
    rw [dropExpired_tombstone] at dead
    have empty := sound.emptied dead
    rw [dropExpired_kind]
    unfold LiveObject.dropExpired
    cases kindSame : object.kind with
    | map =>
      rw [empty, kindSame]
      rfl
    | counter =>
      rw [kindSame, Contents.initial] at empty
      simp only [empty, Contents.initial]
  · intro entries held
    unfold LiveObject.dropExpired at held
    cases before : object.contents with
    | map known =>
      rw [before] at held
      cases held
      exact (sound.timed known before).dropExpired cutoff
    | counter count =>
      rw [before] at held
      simp only [before, reduceCtorEq] at held

/-- An expired entry has no value, so readers do not miss it. -/
theorem shown_dropExpired (object : LiveObject) (cutoff : Int) (graph : Graph) (key : String) :
    (object.dropExpired cutoff).shown graph.valueOf key = object.shown graph.valueOf key := by
  unfold shown
  rw [dropExpired_tombstone, entry?_dropExpired]
  split
  case isTrue => rfl
  case isFalse =>
    cases written : object.entry? key with
    | none => rfl
    | some entry =>
      rw [Option.filter_some]
      by_cases expired : Entries.isExpired cutoff entry = true
      · rw [expired, Bool.not_true, if_neg Bool.false_ne_true, Option.bind_none, Option.bind_some]
        rw [Entries.isExpired, Bool.and_eq_true] at expired
        rw [Graph.valueOf, Entry.value?, if_pos expired.1, Option.filter_none]
      · rw [Bool.not_eq_true] at expired
        rw [expired, Bool.not_false, if_pos rfl]

/-- What a live map points to is among its references. -/
theorem mem_references {key : String} {entry : Entry} {target : ObjectId}
    (live : object.tombstone = false) (written : object.entry? key = some entry)
    (points : entry.target? = some target) : target ∈ object.references := by
  unfold references
  rw [if_neg (by rw [live]; exact Bool.false_ne_true)]
  unfold entry? at written
  obtain ⟨entries, held, present⟩ := Option.bind_eq_some_iff.1 written
  rw [held, Option.map_some, Option.getD_some, Entries.references, List.mem_filterMap]
  exact ⟨entry, SortedMap.mem_values_iff.2 ⟨key, present⟩, points⟩

theorem exists_entry?_of_mem_references {target : ObjectId} (points : target ∈ object.references) :
    ∃ key entry, object.entry? key = some entry ∧ entry.target? = some target := by
  unfold references at points
  split at points
  case isTrue => cases points
  case isFalse =>
    cases held : object.entries? with
    | none =>
      rw [held] at points
      cases points
    | some entries =>
      rw [held, Option.map_some, Option.getD_some, Entries.references, List.mem_filterMap] at points
      obtain ⟨entry, stored, target⟩ := points
      obtain ⟨key, present⟩ := SortedMap.mem_values_iff.1 stored
      exact ⟨key, entry, by rw [LiveObject.entry?, held, Option.bind_some, present], target⟩

end LiveObject

namespace Graph

variable {graph : Graph} {id : ObjectId}

/-- All names that live maps point to. -/
def referenced (graph : Graph) : List ObjectId := graph.values.flatMap LiveObject.references

/-- A graph that lacks nothing that it points to is complete. -/
theorem closeReferences_of_known (known : ∀ id ∈ graph.referenced, (graph.get? id).isSome = true) :
    closeReferences graph = graph := by
  ext1 id
  have closed : (closeReferences graph).get? id =
      if id ∈ graph.referenced then graph.orPlaceholder id else graph.get? id := get?_ensureAll _ graph id
  rw [closed]
  split
  case isFalse => rfl
  case isTrue points =>
    obtain ⟨object, present⟩ := Option.isSome_iff_exists.1 (known id points)
    rw [orPlaceholder_of_get? present, present]

/-- What is evicted: deleted objects that are due and that no live map points to. -/
theorem mem_evictable_iff {cutoff : Int} : id ∈ evictable graph cutoff ↔
    ∃ object, graph.get? id = some object ∧ isExpired cutoff object = true ∧ id ∉ graph.referenced := by
  unfold evictable
  simp only [SortedMap.mem_keys_iff, SortedMap.get?_filter, Option.filter_eq_some_iff, Bool.and_eq_true,
    Bool.not_eq_true', List.contains_eq_mem, decide_eq_false_iff_not]
  rfl

/-- Of the listed names only that of the root can be left. -/
theorem get?_evict (graph : Graph) (ids : List ObjectId) (id : ObjectId) :
    (graph.evict ids).2.get? id = if id ∈ ids ∧ id.isRoot = false then none else graph.get? id := by
  induction ids generalizing graph with
  | nil => rw [if_neg fun listed => List.not_mem_nil listed.1, evict]
  | cons first rest ih =>
    simp only [evict, List.mem_cons]
    split
    case isTrue removable =>
      rw [Bool.and_eq_true, Bool.not_eq_true'] at removable
      rw [ih, SortedMap.get?_erase_ite]
      by_cases same : id = first
      · rw [if_pos same, ite_self, if_pos ⟨.inl same, same ▸ removable.1⟩]
      · simp only [same, false_or, ↓reduceIte]
    case isFalse stays =>
      rw [ih]
      by_cases same : id = first
      · subst same
        cases root : id.isRoot with
        | true => simp only [Bool.true_eq_false, and_false, ↓reduceIte]
        | false =>
          -- A name that is not in the graph cannot be taken out of it.
          have absent : graph.get? id = none := by
            rw [root, Bool.not_false, Bool.true_and, SortedMap.contains_eq_isSome] at stays
            exact Option.not_isSome_iff_eq_none.1 stays
          simp only [absent, ite_self]
      · simp only [same, false_or]

/-- The graph after a collection, name by name. -/
theorem get?_collect (graph : Graph) (grace now : Int) (id : ObjectId) :
    (graph.collect grace now).2.get? id =
        (graph.get? id).map (fun object => object.dropExpired (clampTime (now - grace))) ∨
      (graph.collect grace now).2.get? id = none ∧ id ∉ graph.referenced ∧
        ∃ object, graph.get? id = some object ∧ object.tombstone = true ∧ object.id.isRoot = false := by
  have collected : (graph.collect grace now).2.get? id =
      ((graph.evict (evictable graph (clampTime (now - grace)))).2.get? id).map
        fun object => object.dropExpired (clampTime (now - grace)) := by
    simp only [collect, SortedMap.get?_map]
  rw [collected, get?_evict]
  split
  case isTrue evicted =>
    obtain ⟨object, present, due, unlisted⟩ := mem_evictable_iff.1 evicted.1
    simp only [isExpired, Bool.and_eq_true, Bool.not_eq_true'] at due
    exact .inr ⟨rfl, unlisted, object, present, due.1.2, due.1.1⟩
  case isFalse => exact .inl rfl

theorem mem_referenced {object : LiveObject} {key : String} {entry : Entry} {target : ObjectId}
    (present : graph.get? id = some object) (live : object.tombstone = false)
    (written : object.entry? key = some entry) (points : entry.target? = some target) :
    target ∈ graph.referenced :=
  List.mem_flatMap.2 ⟨object, SortedMap.mem_values_iff.2 ⟨id, present⟩,
    LiveObject.mem_references live written points⟩

theorem isTombstoned_collect (graph : Graph) (grace now : Int) (known : id ∈ graph.referenced) :
    (graph.collect grace now).2.isTombstoned id = graph.isTombstoned id := by
  unfold isTombstoned
  rcases get?_collect graph grace now id with same | ⟨-, unknown, -⟩
  · rw [same]
    cases graph.get? id with
    | none => rfl
    | some object => rw [Option.map_some, Option.any_some, Option.any_some, LiveObject.dropExpired_tombstone]
  · exact absurd known unknown

/-- Readers do not notice a collection. -/
theorem read_collect (graph : Graph) (grace now : Int) (id : ObjectId) (key : String) :
    (graph.collect grace now).2.read id key = graph.read id key := by
  rw [Graph.read_eq, Graph.read_eq]
  rcases get?_collect graph grace now id with same | ⟨gone, -, object, present, dead, -⟩
  · rw [same]
    cases present : graph.get? id with
    | none => rfl
    | some object =>
      rw [Option.map_some, Option.bind_some, Option.bind_some, LiveObject.shown_dropExpired]
      unfold LiveObject.shown
      by_cases dead : object.tombstone = true
      · rw [if_pos dead, if_pos dead]
      · rw [if_neg dead, if_neg dead]
        rw [Bool.not_eq_true] at dead
        cases written : object.entry? key with
        | none => rfl
        | some entry =>
          rw [Option.bind_some, Option.bind_some, valueOf, valueOf]
          cases value : entry.value? with
          | none => rfl
          | some data =>
            rw [Option.filter_some, Option.filter_some]
            cases points : data.target? with
            | none => rfl
            | some target =>
              have pointsToo : entry.target? = some target := by
                rw [Entry.target?, value, Option.bind_some, points]
              have known := mem_referenced present dead written pointsToo
              rw [Option.any_some, Option.any_some, isTombstoned_collect graph grace now known]
  · rw [gone, present, Option.bind_none, Option.bind_some, LiveObject.shown_of_dead dead]

/-- The root is never forgotten. -/
theorem get?_collect_root (sound : graph.Sound) (grace now : Int) :
    (graph.collect grace now).2.get? .root =
      (graph.get? .root).map fun object => object.dropExpired (clampTime (now - grace)) := by
  rcases get?_collect graph grace now .root with same | ⟨-, -, object, present, -, other⟩
  · exact same
  · rw [sound.keyed .root object present] at other
    cases other

theorem countOf_collect (sound : graph.Sound) (grace now : Int) (id : ObjectId) :
    (graph.collect grace now).2.countOf id = graph.countOf id := by
  unfold countOf
  rcases get?_collect graph grace now id with same | ⟨gone, -, object, present, dead, -⟩
  · rw [same]
    cases graph.get? id with
    | none => rfl
    | some object => rw [Option.map_some, Option.bind_some, Option.bind_some, LiveObject.dropExpired_count?]
  · have empty := (sound.objects id object present).emptied dead
    rw [gone, present, Option.bind_some, empty]
    cases object.kind <;> rfl

/-- Whatever a collection keeps was there before, with its removals. -/
theorem of_get?_collect {grace now : Int} {object : LiveObject}
    (present : (graph.collect grace now).2.get? id = some object) :
    ∃ before, graph.get? id = some before ∧ before.dropExpired (clampTime (now - grace)) = object := by
  rcases get?_collect graph grace now id with same | ⟨gone, -⟩
  · rw [same, Option.map_eq_some_iff] at present
    exact present
  · rw [gone] at present
    cases present

theorem Sound.collect (sound : graph.Sound) (grace now : Int) : (graph.collect grace now).2.Sound := by
  refine .of_objects fun id object present => ?_
  obtain ⟨before, known, rfl⟩ := of_get?_collect present
  refine ⟨?_, ?_, (sound.objects id before known).dropExpired _⟩
  · rw [LiveObject.dropExpired_id, sound.keyed id before known]
  · rw [LiveObject.dropExpired_kind, sound.kinds id before known]

end Graph

end SharedGraph
