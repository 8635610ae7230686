import Mathlib.Data.List.Basic
import SharedGraph.Proofs.Integrity

/-! What a complete description makes of a graph, whatever the graph held before. Each object
that it lists becomes what its last state says, with the create operation carried out, and the
rest is deleted. Nothing that readers of the listed objects can find depends on the past. -/
namespace SharedGraph

namespace Entries

@[simp] private theorem value?_initialWrite (time : Int) (entry : Entry) :
    (initialWrite time entry).value? = entry.value? := by
  unfold initialWrite
  cases shown : entry.value? <;> rfl

/-- Dating the removals does not show. -/
theorem exists_of_get?_ofState {described : Entries} {time : Int} {key : String} {entry : Entry}
    (present : (ofState described time).get? key = some entry) :
    ∃ known, described.get? key = some known ∧ known.value? = entry.value? := by
  rw [ofState, SortedMap.get?_map] at present
  obtain ⟨known, stored, same⟩ := Option.map_eq_some_iff.1 present
  refine ⟨known, stored, ?_⟩
  subst same
  split
  case isTrue dead => simp only [Entry.value?, dead, ↓reduceIte]
  case isFalse => rfl

end Entries

namespace ObjectState

variable {state : ObjectState}

/-- The entries that the description of a map amounts to: those that it lists, with the first
ones of its create operation merged on top. -/
def entriesAt (state : ObjectState) (time : Int) : Entries :=
  let listed := (state.entries.map fun entries => Entries.ofState entries time).getD .empty
  match state.createOp with
  | some operation => (Entries.mergeInitial listed operation.firstEntries time).2
  | none => listed

/-- The count that the description of a counter amounts to. -/
def total (state : ObjectState) : Double :=
  let listed := state.count.getD (.zero false)
  match state.createOp with
  | some operation => listed.add operation.firstCount
  | none => listed

/-- What an object of a kind holds once it has taken the description over. -/
def contentsAt (state : ObjectState) (kind : Kind) (time : Int) : Contents :=
  if state.tombstone then .initial kind
  else
    match kind with
    | .map => .map (state.entriesAt time)
    | .counter => .counter state.total

/-- How such an object describes itself: without the create operation, which is part of the
contents now. -/
def carriedOut (state : ObjectState) (time : Int) : ObjectState :=
  let contents := state.contentsAt (state.id.kind?.getD .map) time
  { id := state.id
    serials := state.serials
    tombstone := state.tombstone
    entries := contents.entries?
    count := contents.count? }

/-- The values of all visible entries, those of the create operation included. -/
def values (state : ObjectState) : List Data :=
  let first := (state.createOp.map Operation.firstEntries).getD .empty
  ((state.entries.getD .empty).values ++ first.values).filterMap Entry.value?

@[simp] private theorem kind_contentsAt (state : ObjectState) (kind : Kind) (time : Int) :
    (state.contentsAt kind time).kind = kind := by
  unfold contentsAt
  split
  · exact LiveObject.kind_initial kind
  · cases kind <;> rfl

private theorem mem_values_of_listed {time : Int} {key : String} {entry : Entry} {data : Data}
    (present : ((state.entries.map fun entries => Entries.ofState entries time).getD .empty).get? key =
      some entry) (shows : entry.value? = some data) : data ∈ state.values := by
  cases given : state.entries with
  | none =>
    rw [given] at present
    cases present
  | some entries =>
    rw [given] at present
    obtain ⟨known, stored, same⟩ := Entries.exists_of_get?_ofState present
    refine List.mem_filterMap.2 ⟨known, List.mem_append_left _ ?_, same.trans shows⟩
    rw [given]
    exact SortedMap.mem_values_iff.2 ⟨key, stored⟩

/-- Whoever takes a description over shows no value that is not in it. -/
theorem mem_values {time : Int} {key : String} {entry : Entry} {data : Data}
    (present : (state.entriesAt time).get? key = some entry) (shows : entry.value? = some data) :
    data ∈ state.values := by
  unfold entriesAt at present
  cases created : state.createOp with
  | none =>
    rw [created] at present
    exact mem_values_of_listed present shows
  | some operation =>
    rw [created, Entries.get?_mergeInitial] at present
    cases brought : operation.firstEntries.get? key with
    | none =>
      rw [brought] at present
      exact mem_values_of_listed present shows
    | some first =>
      rw [brought, Option.map_some, Option.some_or, Option.some.injEq] at present
      rcases Entries.settle_cases _ (Entries.initialWrite time first) with kept | wins
      · exact mem_values_of_listed (kept.trans (congrArg some present)) shows
      · rw [← present, wins, Entries.value?_initialWrite] at shows
        refine List.mem_filterMap.2 ⟨first, List.mem_append_right _ ?_, shows⟩
        rw [created]
        exact SortedMap.mem_values_iff.2 ⟨key, brought⟩

end ObjectState

namespace LiveObject

variable {object : LiveObject} {state : ObjectState}

/-- Of an object that is described as live its name and its kind are kept, and nothing else. -/
theorem takeOver_of_live (live : state.tombstone = false) (time : Int) :
    (object.takeOver state time).2 =
      ⟨object.id, state.serials, false, none, state.createOp.isSome, state.contentsAt object.kind time⟩ := by
  unfold takeOver
  rw [if_neg (Bool.eq_false_iff.1 live)]
  unfold adopt kind ObjectState.contentsAt
  simp only [live, Bool.false_eq_true, ↓reduceIte, relisted]
  cases object.contents with
  | map before =>
    simp only [Contents.kind, ObjectState.entriesAt]
    cases state.createOp <;> rfl
  | counter before =>
    simp only [Contents.kind, ObjectState.total]
    cases state.createOp <;> rfl

/-- Of an object that is described as deleted the marks are kept, too. -/
theorem takeOver_of_dead (sound : object.Sound) (dead : state.tombstone = true) (time : Int) :
    (object.takeOver state time).2 = { object with
      serials := state.serials
      tombstone := true
      tombstonedAt := if object.tombstone then object.tombstonedAt else some time
      contents := state.contentsAt object.kind time } := by
  unfold takeOver ObjectState.contentsAt
  rw [if_pos dead, if_pos dead]
  by_cases gone : object.tombstone = true
  · rw [if_pos gone, if_pos gone, ← sound.emptied gone, ← gone]
    rfl
  · rw [if_neg gone, if_neg gone]
    rfl

/-- An object that has taken a description over describes itself as that one says. -/
theorem toState_takeOver (sound : object.Sound) (named : object.id = state.id)
    (shown : state.id.kind? = some object.kind) (time : Int) :
    (object.takeOver state time).2.toState = state.carriedOut time := by
  unfold ObjectState.carriedOut
  rw [shown, Option.getD_some]
  by_cases dead : state.tombstone = true
  · rw [takeOver_of_dead sound dead]
    simp only [toState, entries?, named, dead]
  · have live := Bool.eq_false_iff.2 dead
    rw [takeOver_of_live live]
    simp only [toState, entries?, named, live]

end LiveObject

namespace Graph

variable {graph next : Graph} {states : List ObjectState} {state : ObjectState} {now : Int}

/-- The last state that is given for a name. -/
def lastState? (states : List ObjectState) (id : ObjectId) : Option ObjectState :=
  (states.filter fun state => state.id = id).getLast?

theorem get?_describedStates_of_last {id : ObjectId} (last : lastState? states id = some state) :
    (describedStates states).get? id = some state := by
  rw [get?_describedStates]
  exact congrArg (fun found => Option.or found _) last

/-- No visible entry of a described object points to an object that is not described. -/
def Closed (states : List ObjectState) : Prop :=
  ∀ state ∈ states, state.tombstone = false → ∀ target ∈ state.values.filterMap Data.target?,
    (describedStates states).contains target = true

/-- What a graph is like once a complete description has taken its place. -/
structure DescribedBy (graph : Graph) (states : List ObjectState) (time : Int) : Prop where
  described : ∀ id state, lastState? states id = some state →
    (graph.get? id).map LiveObject.toState = some (state.carriedOut time)
  root : lastState? states .root = none → (graph.get? .root).map LiveObject.toState = some emptyRoot
  absent : ∀ id object, lastState? states id = none → id ≠ .root → graph.get? id = some object →
    object.tombstone = true ∧ object.contents = .initial object.kind

/-- What a described object shows was described. -/
theorem mem_values_of_takenOver (sound : graph.Sound) (checked : ∀ state ∈ states, state.check = .ok ())
    {id : ObjectId} (described : (describedStates states).get? id = some state) {key : String}
    {entry : Entry} (written : LiveObject.entry? (graph.takenOver now state).2 key = some entry) {data : Data}
    (shows : entry.value? = some data) : state ∈ states ∧ state.tombstone = false ∧ data ∈ state.values := by
  obtain ⟨known, placed, same⟩ := exists_orPlaceholder graph checked described
  obtain ⟨-, -, dead, fine⟩ := LiveObject.takeOver_spec (sound.orPlaceholder placed).2.2 state now
  rw [same] at written
  have live : state.tombstone = false := dead.symm.trans (fine.live_of_written written)
  cases shown : known.kind with
  | counter =>
    have counter : (known.takeOver state now).2.kind = .counter := by
      rw [LiveObject.takeOver_of_live live, shown]
      exact state.kind_contentsAt .counter now
    rw [LiveObject.entry?_of_kind counter] at written
    cases written
  | map =>
    have held : (known.takeOver state now).2.contents = .map (state.entriesAt now) := by
      simp only [LiveObject.takeOver_of_live live, shown, ObjectState.contentsAt, live, Bool.false_eq_true,
        ↓reduceIte]
    rw [LiveObject.entry?_of_map held] at written
    have listed := ObjectState.mem_values written shows
    rcases (of_get?_describedStates described).2 with given | rfl
    · exact ⟨given, live, listed⟩
    · cases listed

/-- A described object points to described objects only. -/
theorem contains_of_mem_references (sound : graph.Sound) (closed : Closed states)
    (checked : ∀ state ∈ states, state.check = .ok ()) {id target : ObjectId}
    (described : (describedStates states).get? id = some state)
    (points : target ∈ (graph.takenOver now state).2.references) :
    (describedStates states).contains target = true := by
  obtain ⟨key, entry, written, pointsToo⟩ := LiveObject.exists_entry?_of_mem_references points
  obtain ⟨data, shows, same⟩ := Option.bind_eq_some_iff.1 pointsToo
  obtain ⟨given, live, listed⟩ := mem_values_of_takenOver sound checked described written shows
  exact closed state given live target (List.mem_filterMap.2 ⟨data, listed, same⟩)

theorem tombstone_absentObject (object : LiveObject) (now : Int) :
    (absentObject object now).2.tombstone = true := by
  unfold absentObject
  split
  case isTrue dead => exact dead
  case isFalse => rfl

/-- If everything that is pointed to is described, no placeholder is added. -/
theorem Sound.get?_of_closed (sound : graph.Sound) (closed : Closed states) {updates : List Update}
    (applied : graph.applySnapshot states now = .ok (updates, next)) (id : ObjectId) :
    next.get? id = (graph.replaced states now id).map Prod.snd := by
  have checked := check_of_applySnapshot applied
  obtain ⟨working, graphSame, -, result⟩ := applySnapshot_eq sound checked now
  rw [applied, Except.ok.injEq, Prod.mk.injEq] at result
  have complete : closeReferences working.graph = working.graph := by
    refine closeReferences_of_known fun target referenced => ?_
    obtain ⟨object, held, points⟩ := List.mem_flatMap.1 referenced
    obtain ⟨owner, present⟩ := SortedMap.mem_values_iff.1 held
    rw [graphSame, Option.map_eq_some_iff] at present
    obtain ⟨⟨update, found⟩, became, rfl⟩ := present
    unfold Graph.replaced at became
    cases described : (describedStates states).get? owner with
    | some state =>
      rw [described] at became
      cases became
      have known := contains_of_mem_references sound closed checked described points
      obtain ⟨other, describedToo⟩ := Option.isSome_iff_exists.1 known
      rw [graphSame, Graph.replaced, describedToo]
      rfl
    | none =>
      rw [described] at became
      obtain ⟨before, -, same⟩ := Option.map_eq_some_iff.1 became
      have dead := tombstone_absentObject before now
      rw [same] at dead
      rw [LiveObject.references, if_pos dead] at points
      cases points
  rw [result.2, complete, graphSame]

/-- A described object is what its description amounts to, whatever it was. -/
theorem Sound.toState_of_described (sound : graph.Sound) {updates : List Update}
    (applied : graph.applySnapshot states now = .ok (updates, next)) {id : ObjectId}
    (described : (describedStates states).get? id = some state) :
    (next.get? id).map LiveObject.toState = some (state.carriedOut now) := by
  obtain ⟨object, placed, same⟩ := exists_orPlaceholder graph (check_of_applySnapshot applied) described
  obtain ⟨named, kindSame, fine⟩ := sound.orPlaceholder placed
  obtain ⟨rfl, -⟩ := of_get?_describedStates described
  rw [get?_of_described sound applied described, Option.map_some, same,
    LiveObject.toState_takeOver fine named kindSame]

/-- Every graph that takes a closed description over is the one that it describes. -/
theorem Sound.describedBy (sound : graph.Sound) (closed : Closed states) {updates : List Update}
    (applied : graph.applySnapshot states now = .ok (updates, next)) : next.DescribedBy states now where
  described id state last := sound.toState_of_described applied (get?_describedStates_of_last last)
  root missing := by
    have described : (describedStates states).get? .root = some emptyRoot := by
      rw [get?_describedStates]
      exact congrArg (fun found => Option.or found _) missing
    have unchanged : emptyRoot.carriedOut now = emptyRoot := rfl
    exact (sound.toState_of_described applied described).trans (congrArg some unchanged)
  absent id object missing other present := by
    have undescribed : (describedStates states).get? id = none := by
      rw [get?_describedStates, if_neg other, Option.or_none]
      exact missing
    rw [sound.get?_of_closed closed applied, Option.map_eq_some_iff] at present
    obtain ⟨⟨update, found⟩, became, rfl⟩ := present
    have fine := (sound.replaced (check_of_applySnapshot applied) became).2.2
    rw [Graph.replaced, undescribed, Option.map_eq_some_iff] at became
    obtain ⟨before, -, same⟩ := became
    have dead := tombstone_absentObject before now
    rw [same] at dead
    exact ⟨dead, fine.emptied dead⟩

/-! ## What readers find -/

/-- The two graphs have the same objects under the names of a set, but for marks, and these
point to names of the set only. -/
structure Agree (within : ObjectId → Prop) (graph other : Graph) : Prop where
  same : ∀ id, within id → (graph.get? id).map LiveObject.toState = (other.get? id).map LiveObject.toState
  closed : ∀ id object target, within id → graph.get? id = some object → target ∈ object.references →
    within target

namespace Agree

variable {within : ObjectId → Prop} {other : Graph} {id : ObjectId} {object : LiveObject}

/-- What is under a name of the set is nowhere, or the same but for marks. -/
theorem get?_cases (agree : Agree within graph other) (inside : within id) :
    graph.get? id = none ∧ other.get? id = none ∨
      ∃ object deleted merged, graph.get? id = some object ∧
        other.get? id = some (object.remark deleted merged) := by
  have same := agree.same id inside
  cases present : graph.get? id with
  | none =>
    rw [present, Option.map_none, eq_comm, Option.map_eq_none_iff] at same
    exact .inl ⟨rfl, same⟩
  | some object =>
    rw [present, Option.map_some, eq_comm, Option.map_eq_some_iff] at same
    obtain ⟨twin, there, alike⟩ := same
    refine .inr ⟨object, twin.tombstonedAt, twin.createMerged, rfl, ?_⟩
    exact there.trans (congrArg some (LiveObject.eq_remark_of_toState alike.symm))

theorem isTombstoned_eq (agree : Agree within graph other) (inside : within id) :
    other.isTombstoned id = graph.isTombstoned id := by
  unfold isTombstoned
  rcases agree.get?_cases inside with ⟨missing, missingToo⟩ | ⟨object, _, _, present, presentToo⟩
  · rw [missing, missingToo]
  · rw [present, presentToo]
    rfl

theorem countOf_eq (agree : Agree within graph other) (inside : within id) :
    other.countOf id = graph.countOf id := by
  unfold countOf
  rcases agree.get?_cases inside with ⟨missing, missingToo⟩ | ⟨object, _, _, present, presentToo⟩
  · rw [missing, missingToo]
  · rw [present, presentToo]
    rfl

private theorem resolve_eq (agree : Agree within graph other) {data : Data}
    (inside : ∀ target, data.target? = some target → within target) :
    other.resolve data = graph.resolve data := by
  unfold resolve
  cases points : data.target? with
  | none => rfl
  | some target =>
    rcases agree.get?_cases (inside target points) with
      ⟨missing, missingToo⟩ | ⟨object, _, _, present, presentToo⟩
    · simp only [missing, missingToo]
    · simp only [present, presentToo, Option.map_some]
      rfl

/-- A live entry of an object in the set shows the same in both graphs, and what it shows leads
to the same object. -/
theorem valueOf_eq (agree : Agree within graph other) (inside : within id)
    (present : graph.get? id = some object) (live : object.tombstone = false) {key : String} {entry : Entry}
    (written : object.entry? key = some entry) :
    other.valueOf entry = graph.valueOf entry ∧
      ∀ data, graph.valueOf entry = some data → other.resolve data = graph.resolve data := by
  have known (target : ObjectId) (points : entry.target? = some target) : within target :=
    agree.closed id object target inside present (LiveObject.mem_references live written points)
  unfold valueOf
  cases shows : entry.value? with
  | none =>
    refine ⟨rfl, fun data visible => ?_⟩
    rw [Option.filter_none] at visible
    cases visible
  | some data =>
    have targetSame : entry.target? = data.target? := by rw [Entry.target?, shows, Option.bind_some]
    rw [targetSame] at known
    constructor
    · cases points : data.target? with
      | none => simp only [Option.filter_some, points, Option.any_none]
      | some target =>
        simp only [Option.filter_some, points, Option.any_some, agree.isTombstoned_eq (known target points)]
    · intro found visible
      have same := (Option.filter_eq_some_iff.1 visible).1
      cases same
      exact agree.resolve_eq known

private theorem lookup_eq (agree : Agree within graph other) (inside : within id) (key : String) :
    other.lookup id key = graph.lookup id key := by
  unfold lookup
  rw [Graph.read_eq, Graph.read_eq]
  rcases agree.get?_cases inside with
    ⟨missing, missingToo⟩ | ⟨object, deleted, merged, present, presentToo⟩
  · rw [missing, missingToo]
    rfl
  have sameShown : (object.remark deleted merged).shown other.valueOf key =
      object.shown other.valueOf key := rfl
  rw [present, presentToo, Option.bind_some, Option.bind_some, sameShown]
  unfold LiveObject.shown
  by_cases dead : object.tombstone = true
  · rw [if_pos dead, if_pos dead]
    rfl
  · rw [if_neg dead, if_neg dead]
    cases written : object.entry? key with
    | none => rfl
    | some entry =>
      obtain ⟨valueSame, resolved⟩ := agree.valueOf_eq inside present (Bool.eq_false_iff.2 dead) written
      rw [Option.bind_some, Option.bind_some, valueSame]
      cases shows : graph.valueOf entry with
      | none => rfl
      | some data => exact resolved data shows

private theorem visibleEntries_eq (agree : Agree within graph other) (inside : within id) :
    other.visibleEntries id = graph.visibleEntries id ∧
      ∀ entry ∈ graph.visibleEntries id, other.resolve entry.2 = graph.resolve entry.2 := by
  unfold visibleEntries
  rcases agree.get?_cases inside with
    ⟨missing, missingToo⟩ | ⟨object, deleted, merged, present, presentToo⟩
  · simp only [missing, missingToo, List.not_mem_nil, false_implies, implies_true, and_self]
  simp only [present, presentToo, LiveObject.remark]
  by_cases dead : object.tombstone = true
  · simp only [dead, ↓reduceIte, List.not_mem_nil, false_implies, implies_true, and_self]
  simp only [dead, Bool.false_eq_true, ↓reduceIte]
  have agreed {key : String} {entry : Entry} (member : (key, entry) ∈ (object.entries?.getD .empty).toList) :
      other.valueOf entry = graph.valueOf entry ∧
        ∀ data, graph.valueOf entry = some data → other.resolve data = graph.resolve data := by
    have written := LiveObject.entry?_of_mem member
    exact agree.valueOf_eq inside present (Bool.eq_false_iff.2 dead) written
  constructor
  · refine List.filterMap_congr ?_
    rintro ⟨key, entry⟩ member
    rw [(agreed member).1]
  · rintro shown member
    obtain ⟨⟨key, entry⟩, listed, made⟩ := List.mem_filterMap.1 member
    obtain ⟨data, visible, rfl⟩ := Option.map_eq_some_iff.1 made
    exact (agreed listed).2 data visible

theorem listing_eq (agree : Agree within graph other) (inside : within id) :
    other.listing id = graph.listing id := by
  obtain ⟨same, resolved⟩ := agree.visibleEntries_eq inside
  unfold listing
  rw [same]
  refine List.filterMap_congr ?_
  rintro ⟨key, data⟩ member
  have found : other.resolve data = graph.resolve data := resolved (key, data) member
  simp only [found]

end Agree

/-! ## Two graphs and one description -/

/-- Under a name that is not described, readers find nothing. -/
theorem DescribedBy.silent (described : graph.DescribedBy states now) {id : ObjectId}
    (missing : (describedStates states).get? id = none) :
    graph.visibleEntries id = [] ∧ (∀ key, graph.read id key = none) ∧ graph.countOf id = .zero false := by
  have undescribed : lastState? states id = none ∧ id ≠ .root := by
    rw [get?_describedStates, Option.or_eq_none_iff] at missing
    refine ⟨missing.1, fun root => ?_⟩
    rw [if_pos root] at missing
    cases missing.2
  unfold visibleEntries countOf
  simp only [Graph.read_eq]
  cases present : graph.get? id with
  | none => exact ⟨rfl, fun _ => rfl, rfl⟩
  | some object =>
    obtain ⟨dead, empty⟩ := described.absent id object undescribed.1 undescribed.2 present
    refine ⟨if_pos dead, fun key => LiveObject.shown_of_dead dead _ key, ?_⟩
    rw [Option.bind_some, empty]
    cases object.kind <;> rfl

/-- What two graphs have become by one description differs in nothing that it describes. -/
theorem Sound.agree {other otherNext : Graph} (sound : graph.Sound) (otherSound : other.Sound)
    (closed : Closed states) {updates otherUpdates : List Update}
    (applied : graph.applySnapshot states now = .ok (updates, next))
    (otherApplied : other.applySnapshot states now = .ok (otherUpdates, otherNext)) :
    Agree (fun id => (describedStates states).contains id = true) next otherNext where
  same id inside := by
    obtain ⟨state, described⟩ := Option.isSome_iff_exists.1 inside
    rw [sound.toState_of_described applied described, otherSound.toState_of_described otherApplied described]
  closed id object target inside present points := by
    obtain ⟨state, described⟩ := Option.isSome_iff_exists.1 inside
    obtain rfl := Option.some.inj (present.symm.trans (get?_of_described sound applied described))
    exact contains_of_mem_references sound closed (check_of_applySnapshot applied) described points

/-- The order in which distinct objects are described does not matter. -/
theorem lastState?_perm {permuted : List ObjectState} (perm : permuted.Perm states)
    (distinct : (states.map ObjectState.id).Nodup) (id : ObjectId) :
    lastState? permuted id = lastState? states id := by
  have filtered := perm.filter fun state => decide (state.id = id)
  have sameNames : (states.filter fun state => state.id = id).map ObjectState.id =
      List.replicate (states.filter fun state => state.id = id).length id := by
    refine List.map_eq_replicate_iff.2 fun state member => ?_
    exact of_decide_eq_true (List.mem_filter.1 member).2
  have few : (states.filter fun state => state.id = id).length ≤ 1 := by
    rw [← List.nodup_replicate (a := id), ← sameNames]
    exact distinct.sublist (List.filter_sublist.map ObjectState.id)
  unfold lastState?
  generalize states.filter (fun state => state.id = id) = named at filtered few
  cases named with
  | nil => rw [filtered.eq_nil]
  | cons state rest =>
    cases rest with
    | nil => rw [List.perm_singleton.1 filtered]
    | cons other rest =>
      rw [List.length_cons, List.length_cons] at few
      omega

theorem applySnapshot_perm {permuted : List ObjectState} (perm : permuted.Perm states)
    (distinct : (states.map ObjectState.id).Nodup) {updates : List Update}
    (applied : graph.applySnapshot states now = .ok (updates, next)) :
    graph.applySnapshot permuted now = .ok (updates, next) := by
  have described : describedStates permuted = describedStates states := by
    ext1 id
    rw [get?_describedStates, get?_describedStates]
    exact congrArg (fun found => Option.or found _) (lastState?_perm perm distinct id)
  have checked := check_of_applySnapshot applied
  have checkedToo : permuted.forM ObjectState.check = .ok () :=
    forM_eq_ok.2 fun state member => checked state (perm.subset member)
  rw [← applied]
  unfold applySnapshot
  rw [checkedToo, forM_eq_ok.2 checked, described]

end Graph

open SharedGraph.Graph in
/-- A complete description that is accepted by one participant is accepted by every other, and
makes of each of them what it says: what either of them has been through is of no account for
the objects that it describes, nor for what readers find. -/
theorem description_overrides (config otherConfig : Config) (history otherHistory : List (Input × Int))
    {states : List ObjectState} (closed : Closed states) {now : Int} {updates : List Update} {next : Graph}
    (applied : ((Replica.new config).after history).graph.applySnapshot states now = .ok (updates, next)) :
    ∃ otherUpdates otherNext,
      ((Replica.new otherConfig).after otherHistory).graph.applySnapshot states now =
          .ok (otherUpdates, otherNext) ∧
        next.DescribedBy states now ∧ otherNext.DescribedBy states now ∧
        (∀ id, (describedStates states).contains id = true →
          otherNext.isTombstoned id = next.isTombstoned id) ∧
        (∀ id, (∀ key, otherNext.lookup id key = next.lookup id key) ∧
          otherNext.listing id = next.listing id ∧ otherNext.visibleKeys id = next.visibleKeys id ∧
          otherNext.visibleSize id = next.visibleSize id ∧ otherNext.countOf id = next.countOf id) ∧
        ∀ permuted : List ObjectState, permuted.Perm states → (states.map ObjectState.id).Nodup →
          ((Replica.new config).after history).graph.applySnapshot permuted now = .ok (updates, next) := by
  have sound : ((Replica.new config).after history).graph.Sound :=
    Replica.sound_after sound_initial history
  have otherSound : ((Replica.new otherConfig).after otherHistory).graph.Sound :=
    Replica.sound_after sound_initial otherHistory
  obtain ⟨⟨otherUpdates, otherNext⟩, otherApplied⟩ :=
    (otherSound.exists_applySnapshot_iff states now).2 (check_of_applySnapshot applied)
  have described := sound.describedBy closed applied
  have otherDescribed := otherSound.describedBy closed otherApplied
  have agree := sound.agree otherSound closed applied otherApplied
  refine ⟨otherUpdates, otherNext, otherApplied, described, otherDescribed,
    fun id inside => agree.isTombstoned_eq inside, fun id => ?_,
    fun permuted perm distinct => applySnapshot_perm perm distinct applied⟩
  unfold visibleKeys visibleSize
  by_cases inside : (describedStates states).contains id = true
  · rw [(agree.visibleEntries_eq inside).1]
    exact ⟨agree.lookup_eq inside, agree.listing_eq inside, rfl, rfl, agree.countOf_eq inside⟩
  · have missing := Option.not_isSome_iff_eq_none.1 inside
    obtain ⟨unlisted, unread, uncounted⟩ := described.silent missing
    obtain ⟨otherUnlisted, otherUnread, otherUncounted⟩ := otherDescribed.silent missing
    unfold lookup listing
    simp only [unlisted, otherUnlisted, unread, otherUnread, uncounted, otherUncounted, Option.bind_none,
      List.filterMap_nil, implies_true, and_self]

/-- A poll as the service knows it: two votes were cast before the first five were counted, and
an option was withdrawn. -/
def pollStates : List ObjectState :=
  [{ id := .root
     serials := SortedMap.ofList [("a", ⟨"05"⟩)]
     entries := some (SortedMap.ofList
      [("votes", .live (.reference ⟨"counter:votes@1"⟩) (some ⟨"01"⟩)), ("maybe", ⟨true, some ⟨"02"⟩, none, none⟩)]) },
    { id := ⟨"counter:votes@1"⟩
      createOp := some { action := .counterCreate, target := ⟨"counter:votes@1"⟩, count := some (.ofInt 5) }
      count := some (.ofInt 2) },
    { id := ⟨"map:options@1"⟩, tombstone := true, entries := some .empty }]

/-- A participant that has heard of the poll before takes over the same as one that has not. -/
theorem description_overrides_poll :
    let heard : List (Input × Int) := [(.messages [
      ((Message.ofOperation (.counterInc ⟨"counter:votes@1"⟩ (.ofInt 9))).withOrigin "b" ⟨"07"⟩),
      ((Message.ofOperation (.mapSet .root "author" (.text "me"))).withOrigin "b" ⟨"07"⟩)], 8)]
    ∃ updates next otherUpdates otherNext,
      (Replica.new {}).graph.applySnapshot pollStates 9 = .ok (updates, next) ∧
        ((Replica.new {}).after heard).graph.applySnapshot pollStates 9 = .ok (otherUpdates, otherNext) ∧
        otherNext.listing .root = next.listing .root ∧
        otherNext.countOf ⟨"counter:votes@1"⟩ = next.countOf ⟨"counter:votes@1"⟩ := by
  intro heard
  have closed : Graph.Closed pollStates := by
    unfold Graph.Closed
    decide +kernel
  have checked : ∀ state ∈ pollStates, state.check = .ok () := by
    rw [← forM_eq_ok]
    decide +kernel
  obtain ⟨⟨updates, next⟩, applied⟩ :=
    (Graph.sound_initial.exists_applySnapshot_iff pollStates 9).2 checked
  obtain ⟨otherUpdates, otherNext, otherApplied, -, -, -, reads, -⟩ :=
    description_overrides {} {} [] heard closed applied
  obtain ⟨-, listings, -, -, -⟩ := reads .root
  obtain ⟨-, -, -, -, counts⟩ := reads ⟨"counter:votes@1"⟩
  exact ⟨updates, next, otherUpdates, otherNext, applied, otherApplied, listings, counts⟩

end SharedGraph
