import Mathlib.Algebra.BigOperators.Group.List.Basic
import SharedGraph.Proofs.Collections
import SharedGraph.Proofs.RootDeletion

/-! What a collection takes, to the object and to the entry. Times and grace periods are plain
integers here: whatever was deleted or removed goes as soon as its time and the grace period add
up to no more than now, and nothing else goes. The report counts exactly what is gone, and a
second collection finds nothing, because what the first one takes holds no reference. -/
namespace SharedGraph

/-- The entry is a removal, and its grace period is over. -/
def Entry.IsDue (grace now : Int) (entry : Entry) : Prop :=
  entry.tombstone = true ∧ ∃ time, entry.tombstonedAt = some time ∧ time + grace ≤ now

/-- The object is deleted, and its grace period is over. -/
def LiveObject.IsDue (grace now : Int) (object : LiveObject) : Prop :=
  object.tombstone = true ∧ ∃ time, object.tombstonedAt = some time ∧ time + grace ≤ now

/-- All that happens to an object that stays: the entries that are due go. -/
structure LiveObject.LosesDue (grace now : Int) (before after : LiveObject) : Prop where
  same : after = { before with contents := after.contents }
  kind : after.kind = before.kind
  count : after.contents.count? = before.contents.count?
  entries : ∀ key entry,
    after.entry? key = some entry ↔ before.entry? key = some entry ∧ ¬ entry.IsDue grace now

/-- How many entries an object holds, removed ones included. -/
def LiveObject.entryCount (object : LiveObject) : Nat := (object.entries?.getD .empty).size

namespace Graph

/-- A live entry of a live map points to the name. -/
def PointsTo (graph : Graph) (target : ObjectId) : Prop :=
  ∃ id object key entry, graph.get? id = some object ∧ object.tombstone = false ∧
    object.entry? key = some entry ∧ entry.tombstone = false ∧ entry.data = some (.reference target)

/-- How many entries all maps hold together. -/
def entryCount (graph : Graph) : Nat := (graph.values.map LiveObject.entryCount).sum

end Graph

/-! ## When something is due -/

variable {grace now : Int}

private theorem clampTime_of_isTime {time : Int} (fits : isTime time = true) : clampTime time = time := by
  simp only [isTime, Bool.and_eq_true, decide_eq_true_eq] at fits
  unfold clampTime
  omega

/-- No difference of two times that are not negative leaves the range of times. -/
theorem cutoff_eq (graceFits : 0 ≤ grace ∧ grace ≤ greatestTime) (nowFits : 0 ≤ now ∧ now ≤ greatestTime) :
    clampTime (now - grace) = now - grace := by
  apply clampTime_of_isTime
  simp only [isTime, Bool.and_eq_true, decide_eq_true_eq]
  unfold leastTime greatestTime at *
  omega

private theorem any_le_iff {since : Option Int} :
    since.any (· ≤ now - grace) = true ↔ ∃ time, since = some time ∧ time + grace ≤ now := by
  simp only [Option.any_eq_true, decide_eq_true_eq]
  apply exists_congr
  intro time
  apply and_congr Iff.rfl
  omega

private theorem Entry.isDue_iff {entry : Entry} :
    Entries.isExpired (now - grace) entry = true ↔ entry.IsDue grace now := by
  rw [Entries.isExpired, Bool.and_eq_true, any_le_iff]
  rfl

private theorem Entry.target?_eq_some_iff {entry : Entry} {target : ObjectId} :
    entry.target? = some target ↔ entry.tombstone = false ∧ entry.data = some (.reference target) := by
  rw [Entry.target?, Entry.value?]
  cases entry.tombstone with
  | true => simp only [↓reduceIte, Option.bind_none, reduceCtorEq, Bool.true_eq_false, false_and]
  | false =>
    rw [if_neg Bool.false_ne_true, Option.bind_eq_some_iff]
    constructor
    · rintro ⟨data, held, points⟩
      cases data <;> simp only [Data.target?, Option.some.injEq, reduceCtorEq] at points
      exact ⟨rfl, points ▸ held⟩
    · rintro ⟨-, held⟩
      exact ⟨_, held, rfl⟩

private theorem Entries.dropExpired_again (entries : Entries) (cutoff : Int) :
    (entries.dropExpired cutoff).dropExpired cutoff = entries.dropExpired cutoff := by
  ext1 key
  simp only [dropExpired, SortedMap.get?_filter, Option.filter_filter, Bool.and_self]

namespace LiveObject

variable {object : LiveObject}

private theorem losesDue_dropExpired (object : LiveObject) :
    object.LosesDue grace now (object.dropExpired (now - grace)) where
  same := (object.losesRemovals_dropExpired _).same
  kind := object.dropExpired_kind _
  count := object.dropExpired_count? _
  entries key entry := by
    rw [entry?_dropExpired, Option.filter_eq_some_iff, Bool.not_eq_true', ← Bool.not_eq_true,
      Entry.isDue_iff]

/-- What counts as expired in an object is what the object loses. -/
theorem entryCount_dropExpired (object : LiveObject) (cutoff : Int) :
    (object.dropExpired cutoff).entryCount + Graph.expiredEntries cutoff object = object.entryCount := by
  unfold entryCount Graph.expiredEntries dropExpired entries?
  cases held : object.contents with
  | map entries =>
    have shrinks : (Entries.dropExpired entries cutoff).size ≤ entries.size := List.length_filter_le ..
    exact Nat.add_sub_cancel' shrinks
  | counter count =>
    rw [held]
    rfl

/-- No entry is lost twice. -/
theorem dropExpired_again (object : LiveObject) (cutoff : Int) :
    (object.dropExpired cutoff).dropExpired cutoff = object.dropExpired cutoff := by
  unfold dropExpired
  cases held : object.contents with
  | map entries => simp only [Entries.dropExpired_again]
  | counter count => simp only [held]

private theorem isExpired_dropExpired (object : LiveObject) (cutoff : Int) :
    Graph.isExpired cutoff (object.dropExpired cutoff) = Graph.isExpired cutoff object := by
  simp only [Graph.isExpired, dropExpired_id, dropExpired_tombstone, dropExpired_tombstonedAt]

private theorem live_of_mem_references {target : ObjectId} (points : target ∈ object.references) :
    object.tombstone = false := by
  unfold references at points
  split at points
  case isTrue => cases points
  case isFalse live => exact Bool.eq_false_iff.2 live

/-- A deleted object holds no entries, so none goes with it. -/
theorem Sound.entryCount_of_dead (sound : object.Sound) (dead : object.tombstone = true) :
    object.entryCount = 0 := by
  rw [entryCount, entries?, sound.emptied dead]
  cases object.kind <;> rfl

end LiveObject

namespace Graph

variable {graph : Graph} {id : ObjectId} {cutoff : Int}

private theorem pointsTo_iff {target : ObjectId} : graph.PointsTo target ↔ target ∈ graph.referenced := by
  constructor
  · rintro ⟨id, object, key, entry, present, live, written, kept, holds⟩
    exact mem_referenced present live written (Entry.target?_eq_some_iff.2 ⟨kept, holds⟩)
  · intro listed
    obtain ⟨object, stored, points⟩ := List.mem_flatMap.1 listed
    obtain ⟨id, present⟩ := SortedMap.mem_values_iff.1 stored
    obtain ⟨key, entry, written, leads⟩ := LiveObject.exists_entry?_of_mem_references points
    obtain ⟨kept, holds⟩ := Entry.target?_eq_some_iff.1 leads
    exact ⟨id, object, key, entry, present, LiveObject.live_of_mem_references points, written, kept, holds⟩

/-! ## Taking objects out -/

private theorem size_evict (graph : Graph) (ids : List ObjectId) :
    (graph.evict ids).2.size + (graph.evict ids).1 = graph.size := by
  induction ids generalizing graph with
  | nil => rfl
  | cons id rest ih =>
    simp only [evict]
    split
    case isTrue removable =>
      have present := (Bool.and_eq_true_iff.1 removable).2
      rw [← SortedMap.size_erase present, ← ih (graph.erase id)]
      rfl
    case isFalse => exact ih graph

/-- Every listed object is counted, if each is listed once and may be taken out. -/
theorem evict_count {ids : List ObjectId} (once : ids.Nodup)
    (known : ∀ id ∈ ids, id.isRoot = false ∧ graph.contains id = true) :
    (graph.evict ids).1 = ids.length := by
  induction ids generalizing graph with
  | nil => rfl
  | cons id rest ih =>
    obtain ⟨others, onceRest⟩ := List.nodup_cons.1 once
    have removable := known id List.mem_cons_self
    have knownRest : ∀ other ∈ rest, other.isRoot = false ∧ (graph.erase id).contains other = true := by
      intro other member
      have different : other ≠ id := fun same => others (same ▸ member)
      have before := known other (List.mem_cons_of_mem _ member)
      rw [SortedMap.contains_eq_isSome, SortedMap.get?_erase_ite, if_neg different]
      exact before
    simp only [evict, removable.1, removable.2, Bool.not_false, Bool.and_self, ↓reduceIte, List.length_cons,
      ih onceRest knownRest]

private theorem sum_map_filter {α : Type} {keep : α → Bool} {weight : α → Nat} {items : List α}
    (nothing : ∀ item ∈ items, keep item = false → weight item = 0) :
    ((items.filter keep).map weight).sum = (items.map weight).sum := by
  induction items with
  | nil => rfl
  | cons item rest ih =>
    have restSame := ih fun other member => nothing other (List.mem_cons_of_mem _ member)
    cases kept : keep item with
    | true =>
      rw [List.filter_cons_of_pos kept, List.map_cons, List.map_cons, List.sum_cons, List.sum_cons, restSame]
    | false =>
      rw [List.filter_cons_of_neg (Bool.not_eq_true _ ▸ kept), restSame, List.map_cons, List.sum_cons,
        nothing item List.mem_cons_self kept, Nat.zero_add]

/-- What weighs nothing can be taken out without a change of the total. -/
theorem sum_evict {weight : LiveObject → Nat} (ids : List ObjectId)
    (nothing : ∀ id ∈ ids, ∀ object, graph.get? id = some object → weight object = 0) :
    ((graph.evict ids).2.values.map weight).sum = (graph.values.map weight).sum := by
  have rest : (graph.evict ids).2 = graph.filter fun id _ => !(decide (id ∈ ids) && !id.isRoot) := by
    ext1 id
    rw [get?_evict, SortedMap.get?_filter]
    by_cases listed : id ∈ ids ∧ id.isRoot = false
    · rw [if_pos listed, decide_eq_true listed.1, listed.2]
      cases graph.get? id <;> rfl
    · have stays : (decide (id ∈ ids) && !id.isRoot) = false := by
        rw [← Bool.not_eq_true, Bool.and_eq_true, decide_eq_true_iff, Bool.not_eq_true']
        exact listed
      rw [if_neg listed, stays]
      cases graph.get? id <;> rfl
  rw [rest, SortedMap.values, SortedMap.values, List.map_map, List.map_map]
  apply sum_map_filter
  rintro ⟨id, object⟩ stored gone
  rw [Bool.not_eq_false', Bool.and_eq_true, decide_eq_true_iff] at gone
  exact nothing id gone.1 object (SortedMap.get?_eq_some_iff.2 stored)

/-! ## What a collection leaves -/

private theorem Sound.isRoot_of_mem_evictable (sound : graph.Sound)
    (evicted : id ∈ evictable graph cutoff) : id.isRoot = false := by
  obtain ⟨object, present, due, -⟩ := mem_evictable_iff.1 evicted
  simp only [isExpired, Bool.and_eq_true, Bool.not_eq_true'] at due
  rw [← sound.keyed id object present]
  exact due.1.1

/-- Who is evicted, in terms of times and of references. -/
theorem Sound.mem_evictable_iff_due (sound : graph.Sound) : id ∈ evictable graph (now - grace) ↔
    id ≠ .root ∧ (∃ object, graph.get? id = some object ∧ object.IsDue grace now) ∧
      ¬ graph.PointsTo id := by
  have due_iff {object : LiveObject} (present : graph.get? id = some object) :
      isExpired (now - grace) object = true ↔ id ≠ .root ∧ object.IsDue grace now := by
    rw [isExpired, Bool.and_eq_true, Bool.and_eq_true, any_le_iff, sound.keyed id object present,
      Bool.not_eq_true', ObjectId.isRoot, decide_eq_false_iff_not, and_assoc]
    rfl
  rw [mem_evictable_iff, pointsTo_iff]
  constructor
  · rintro ⟨object, present, expired, unlisted⟩
    obtain ⟨other, due⟩ := (due_iff present).1 expired
    exact ⟨other, ⟨object, present, due⟩, unlisted⟩
  · rintro ⟨other, ⟨object, present, due⟩, unlisted⟩
    exact ⟨object, present, (due_iff present).2 ⟨other, due⟩, unlisted⟩

private theorem Sound.get?_collect_ite (sound : graph.Sound) (grace now : Int) (id : ObjectId) :
    (graph.collect grace now).2.get? id =
      if id ∈ evictable graph (clampTime (now - grace)) then none
      else (graph.get? id).map fun object => object.dropExpired (clampTime (now - grace)) := by
  simp only [Graph.collect, SortedMap.get?_map, get?_evict]
  by_cases evicted : id ∈ evictable graph (clampTime (now - grace))
  · rw [if_pos evicted, if_pos ⟨evicted, sound.isRoot_of_mem_evictable evicted⟩, Option.map_none]
  · rw [if_neg evicted, if_neg fun both => evicted both.1]

private theorem Sound.objectsEvicted_eq (sound : graph.Sound) (grace now : Int) :
    (graph.collect grace now).1.objectsEvicted = (graph.collect grace now).1.evicted.length := by
  apply evict_count (SortedMap.nodup_keys _)
  intro id evicted
  obtain ⟨object, present, -⟩ := mem_evictable_iff.1 evicted
  refine ⟨sound.isRoot_of_mem_evictable evicted, ?_⟩
  rw [SortedMap.contains_eq_isSome, present]
  rfl

private theorem size_collect (graph : Graph) (grace now : Int) :
    (graph.collect grace now).2.size + (graph.collect grace now).1.objectsEvicted = graph.size := by
  have evicted := graph.size_evict (evictable graph (clampTime (now - grace)))
  rw [← evicted]
  simp only [collect, SortedMap.size, SortedMap.map, List.length_map]

/-- The entries that the report counts are those that the graph lost. -/
theorem Sound.entryCount_collect (sound : graph.Sound) (grace now : Int) :
    (graph.collect grace now).2.entryCount + (graph.collect grace now).1.entriesRemoved =
      graph.entryCount := by
  have counted : (graph.collect grace now).1.entriesRemoved =
      (graph.values.map (expiredEntries (clampTime (now - grace)))).sum := by
    simp only [Graph.collect, List.sum_eq_foldr, List.foldr_map]
  -- Evicted objects are deleted, so they take no entries along.
  have left : (graph.collect grace now).2.entryCount =
      (graph.values.map fun object => (object.dropExpired (clampTime (now - grace))).entryCount).sum := by
    rw [← sum_evict (evictable graph (clampTime (now - grace)))]
    · simp only [entryCount, Graph.collect, SortedMap.values, SortedMap.map, List.map_map]
      rfl
    · intro id evicted object present
      obtain ⟨found, stored, due, -⟩ := mem_evictable_iff.1 evicted
      rw [present, Option.some.injEq] at stored
      subst stored
      simp only [isExpired, Bool.and_eq_true] at due
      apply ((sound.objects id object present).dropExpired _).entryCount_of_dead
      rw [LiveObject.dropExpired_tombstone, due.1.2]
  rw [counted, left, ← List.sum_map_add]
  unfold entryCount
  congr 1
  apply List.map_congr_left
  intro object _
  exact object.entryCount_dropExpired _

theorem PointsTo.collect {target : ObjectId} (points : graph.PointsTo target) (grace now : Int) :
    (graph.collect grace now).2.PointsTo target := by
  obtain ⟨id, object, key, entry, present, live, written, kept, holds⟩ := points
  refine ⟨id, _, key, entry, get?_collect_of_live grace now present live, ?_, ?_, kept, holds⟩
  · rw [LiveObject.dropExpired_tombstone, live]
  · rw [LiveObject.entry?_dropExpired, written, Option.filter_some, Entries.isExpired, kept]
    rfl

/-- Nothing that is left is evicted by a second collection: no reference went with the first. -/
theorem Sound.evictable_collect (sound : graph.Sound) (grace now : Int) :
    evictable (graph.collect grace now).2 (clampTime (now - grace)) = [] := by
  rw [List.eq_nil_iff_forall_not_mem]
  intro id again
  obtain ⟨object, present, due, unlisted⟩ := mem_evictable_iff.1 again
  obtain ⟨before, known, rfl⟩ := of_get?_collect present
  rw [LiveObject.isExpired_dropExpired] at due
  have free : id ∉ graph.referenced := by
    intro listed
    have points := (pointsTo_iff.2 listed).collect grace now
    exact unlisted (pointsTo_iff.1 points)
  have evicted : id ∈ evictable graph (clampTime (now - grace)) :=
    mem_evictable_iff.2 ⟨before, known, due, free⟩
  rw [sound.get?_collect_ite, if_pos evicted] at present
  cases present

/-- A second collection finds nothing to take. -/
theorem Sound.collect_again (sound : graph.Sound) (grace now : Int) :
    (graph.collect grace now).2.collect grace now = (⟨0, [], 0⟩, (graph.collect grace now).2) := by
  have soundNext := sound.collect grace now
  have evicted : ((graph.collect grace now).2.collect grace now).1.evicted = [] :=
    sound.evictable_collect grace now
  have unchanged : ((graph.collect grace now).2.collect grace now).2 = (graph.collect grace now).2 := by
    ext1 id
    rw [soundNext.get?_collect_ite, sound.evictable_collect, if_neg List.not_mem_nil]
    cases present : (graph.collect grace now).2.get? id with
    | none => rfl
    | some object =>
      obtain ⟨before, -, rfl⟩ := of_get?_collect present
      rw [Option.map_some, LiveObject.dropExpired_again]
  have objects := soundNext.objectsEvicted_eq grace now
  have entries := soundNext.entryCount_collect grace now
  rw [evicted, List.length_nil] at objects
  rw [unchanged, Nat.add_eq_left] at entries
  refine Prod.ext ?_ unchanged
  rw [Collection.mk.injEq]
  exact ⟨objects, evicted, entries⟩

end Graph

/-- After any run, a collection with a grace period and at a time that are not negative takes
exactly what is due. An object goes if it is not the root, it was deleted, its time and the grace
period add up to no more than now, and no live entry of a live map points to it. Of what stays
only those entries go that are removals and due in the same sense. The report lists each object
that went once and counts them, and it counts the entries that went; the same collection once more
takes nothing. -/
theorem collection_exact (config : Config) (events : List Replica.Event)
    (graceFits : 0 ≤ grace ∧ grace ≤ greatestTime) (nowFits : 0 ≤ now ∧ now ≤ greatestTime) :
    let graph := ((Replica.new config).undergoAll events).graph
    let report := (graph.collect grace now).1
    let next := (graph.collect grace now).2
    (∀ id, id ∈ report.evicted ↔
      id ≠ .root ∧ (∃ object, graph.get? id = some object ∧ object.IsDue grace now) ∧ ¬ graph.PointsTo id) ∧
    (∀ id ∈ report.evicted, next.get? id = none) ∧
    (∀ id, id ∉ report.evicted →
      Option.Rel (LiveObject.LosesDue grace now) (graph.get? id) (next.get? id)) ∧
    report.evicted.Nodup ∧
    report.objectsEvicted = report.evicted.length ∧
    next.size + report.objectsEvicted = graph.size ∧
    next.entryCount + report.entriesRemoved = graph.entryCount ∧
    next.collect grace now = (⟨0, [], 0⟩, next) := by
  intro graph report next
  have orderly : graph.Orderly := Replica.orderly_undergoAll Graph.orderly_initial events
  have sound := orderly.sound
  have after := sound.get?_collect_ite grace now
  refine ⟨?_, ?_, ?_, SortedMap.nodup_keys _, sound.objectsEvicted_eq grace now,
    graph.size_collect grace now, sound.entryCount_collect grace now, sound.collect_again grace now⟩
  · intro id
    rw [← sound.mem_evictable_iff_due, ← cutoff_eq graceFits nowFits]
    rfl
  · intro id evicted
    exact (after id).trans (if_pos evicted)
  · intro id stays
    rw [show next.get? id = _ from (after id).trans (if_neg stays), cutoff_eq graceFits nowFits]
    cases graph.get? id with
    | none => exact .none
    | some object => exact .some object.losesDue_dropExpired

/-- A counter that the root still shows, one that nothing points to, and a key, all of them
deleted or removed at 3; another counter is deleted at 4. -/
private def deletions : List Replica.Event :=
  let message (serial : String) (operation : Operation) :=
    (Message.ofOperation operation).withOrigin "a" ⟨serial⟩
  [.input (.channel (.attached false)) 1,
    .input (.messages [
      message "01" (.mapSet .root "shown" (.reference ⟨"counter:shown@1"⟩)),
      message "02" (.mapSet .root "hidden" (.text "x")),
      message "03" (.counterInc ⟨"counter:alone@1"⟩ (.zero false)),
      message "04" (.counterInc ⟨"counter:later@1"⟩ (.zero false))]) 2,
    .input (.messages [message "05" (.mapRemove .root "hidden"),
      message "06" (.objectDelete ⟨"counter:shown@1"⟩)]) 3,
    .delete ⟨"counter:alone@1"⟩ 3,
    .delete ⟨"counter:later@1"⟩ 4]

/-- With a grace period of 4, the time 7 is the first at which something goes: one object and one
entry. -/
theorem collection_exact_at_the_boundary :
    let graph := ((Replica.new {}).undergoAll deletions).graph
    (0 ≤ (4 : Int) ∧ 4 ≤ greatestTime) ∧ (0 ≤ (7 : Int) ∧ 7 ≤ greatestTime) ∧
      (graph.collect 4 6).1 = ⟨0, [], 0⟩ ∧
      (graph.collect 4 7).1 = ⟨1, [⟨"counter:alone@1"⟩], 1⟩ ∧
      (graph.collect 4 7).2.size + 1 = graph.size ∧
      (graph.collect 4 7).2.collect 4 7 = (⟨0, [], 0⟩, (graph.collect 4 7).2) := by
  intro graph
  have graceFits : 0 ≤ (4 : Int) ∧ 4 ≤ greatestTime := by decide
  have nowFits : 0 ≤ (7 : Int) ∧ 7 ≤ greatestTime := by decide
  have report : (graph.collect 4 7).1 = ⟨1, [⟨"counter:alone@1"⟩], 1⟩ := by decide +kernel
  obtain ⟨-, -, -, -, -, size, -, again⟩ := collection_exact {} deletions graceFits nowFits
  rw [show (((Replica.new {}).undergoAll deletions).graph.collect 4 7).1 = _ from report] at size
  exact ⟨graceFits, nowFits, by decide +kernel, report, size, again⟩

end SharedGraph
