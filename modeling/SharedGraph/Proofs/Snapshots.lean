import SharedGraph.Graph.Snapshot
import SharedGraph.Proofs.Descriptions
import SharedGraph.Proofs.Visibility

/-! What a graph is after a complete description, name by name: a described object has
taken its description over, one that is not described is deleted, and whatever is pointed
to is known. A description whose parts are in order is never refused. -/
namespace SharedGraph

/-- A list of checks passes if each of them does. -/
theorem forM_eq_ok {α : Type} {check : α → Except Fault Unit} {items : List α} :
    items.forM check = .ok () ↔ ∀ item ∈ items, check item = .ok () := by
  induction items with
  | nil =>
    simp only [List.not_mem_nil, false_implies, implies_true, iff_true]
    rfl
  | cons item rest ih =>
    have unfolded : (item :: rest).forM check = (check item >>= fun _ => rest.forM check) := rfl
    rw [unfolded, List.forall_mem_cons, ← ih]
    cases checked : check item with
    | error fault => simp [bind, Except.bind]
    | ok => simp [bind, Except.bind]

namespace ObjectState

variable {state : ObjectState}

/-- The kind of a description is the one that its name shows, if it shows one. -/
theorem kind_of_named {kind named : Kind} (shown : state.kind = .ok kind)
    (namedSame : state.id.kind? = some named) : named = kind := by
  simp only [ObjectState.kind, bind, Except.bind] at shown
  cases content : state.contentKind with
  | error fault => simp [content] at shown
  | ok contents =>
    simp only [content, namedSame] at shown
    generalize (state.createOp.bind fun operation => operation.action.kind?) = created at shown
    cases contents <;> cases created <;> simp at shown
    case none.none => exact shown
    case none.some =>
      split at shown
      case isTrue same => exact same.trans (Except.ok.inj shown)
      case isFalse => cases shown
    case some.none =>
      split at shown
      case isTrue same => exact same.trans (Except.ok.inj shown)
      case isFalse => cases shown
    case some.some =>
      split at shown
      case isTrue same => exact same.2.trans (Except.ok.inj shown)
      case isFalse => cases shown

theorem kind_of_check (checked : state.check = .ok ()) :
    ∃ kind, state.kind = .ok kind ∧ state.id.kind? = some kind := by
  unfold check at checked
  cases valid : state.id.isValid with
  | false => simp [valid, bind, Except.bind] at checked
  | true =>
    simp only [valid, ↓reduceIte, bind, Except.bind] at checked
    cases shown : state.kind with
    | error fault => simp [shown] at checked
    | ok kind =>
      refine ⟨kind, rfl, ?_⟩
      obtain ⟨named, namedSame⟩ := Option.isSome_iff_exists.1 (ObjectId.isSome_kind?_of_isValid valid)
      rw [namedSame, kind_of_named shown namedSame]

end ObjectState

namespace Graph

variable {graph : Graph} {states : List ObjectState} {state : ObjectState} {id : ObjectId}

/-- What a complete description says of a name. The root is always described. -/
theorem get?_describedStates (states : List ObjectState) (id : ObjectId) :
    (describedStates states).get? id =
      ((states.filter fun state => state.id = id).getLast?).or
        (if id = .root then some emptyRoot else none) := by
  have listed (id : ObjectId) :
      (SortedMap.ofList (states.map fun state => (state.id, state))).get? id =
        (states.filter fun state => state.id = id).getLast? := by
    rw [SortedMap.get?_ofList, List.filter_map, List.getLast?_map, Option.map_map]
    simp only [Function.comp_def, Option.map_id']
  unfold describedStates
  simp only [SortedMap.contains_eq_isSome, listed]
  split
  case isTrue found =>
    rw [listed]
    by_cases root : id = .root
    · subst root
      obtain ⟨state, same⟩ := Option.isSome_iff_exists.1 found
      rw [same, Option.some_or]
    · rw [if_neg root, Option.or_none]
  case isFalse missing =>
    rw [SortedMap.get?_insert_ite, listed]
    by_cases root : id = .root
    · subst root
      rw [Option.not_isSome_iff_eq_none] at missing
      rw [if_pos rfl, if_pos rfl, missing, Option.none_or]
    · rw [if_neg root, if_neg root, Option.or_none]

/-- What stands under a name is a state of that name, either a given one or the empty root. -/
theorem of_get?_describedStates (described : (describedStates states).get? id = some state) :
    state.id = id ∧ (state ∈ states ∨ state = emptyRoot) := by
  rw [get?_describedStates] at described
  cases last : (states.filter fun state => state.id = id).getLast? with
  | some found =>
    rw [last, Option.some_or, Option.some.injEq] at described
    subst described
    have member := List.mem_of_getLast? last
    rw [List.mem_filter, decide_eq_true_eq] at member
    exact ⟨member.2, .inl member.1⟩
  | none =>
    rw [last, Option.none_or] at described
    split at described
    case isTrue root =>
      cases described
      exact ⟨root.symm, .inr rfl⟩
    case isFalse => cases described

/-! ## Described objects -/

/-- What a description makes of the object of its name. -/
def takenOver (graph : Graph) (now : Int) (state : ObjectState) : Update × LiveObject :=
  (graph.objectOr state.id (state.id.kind?.getD .map)).takeOver state now

/-- The working graph with one more described object. -/
def place (graph : Graph) (now : Int) (working : Working) (state : ObjectState) : Working :=
  ⟨working.graph.insert state.id (graph.takenOver now state).2,
    working.updates.insert state.id (graph.takenOver now state).1⟩

private theorem addDescribed_eq (sound : graph.Sound) {kind : Kind} (shown : state.kind = .ok kind)
    (named : state.id.kind? = some kind) (working : Working) (now : Int) :
    working.addDescribed graph state now = .ok (place graph now working state) := by
  have chosen : baseline graph state kind = graph.objectOr state.id kind := by
    unfold baseline objectOr
    cases present : graph.get? state.id with
    | none => rfl
    | some known =>
      have same := sound.kinds state.id known present
      rw [named, Option.some.injEq] at same
      simp only [same, ↓reduceIte, Option.getD_some]
  have placed := (objectOr_of_kind graph named).symm
  obtain ⟨addressed, kindSame, -⟩ := sound.orPlaceholder placed
  rw [named, Option.some.injEq] at kindSame
  have overridden := LiveObject.override_eq addressed.symm (shown.trans (congrArg _ kindSame)) now
  simp only [Working.addDescribed, describedObject, shown, bind, Except.bind, chosen, overridden, place,
    takenOver, named, Option.getD_some]

/-- A description in which every state shows the kind of its name is never refused. -/
theorem foldlM_addDescribed (sound : graph.Sound) {list : List ObjectState}
    (fine : ∀ state ∈ list, ∃ kind, state.kind = .ok kind ∧ state.id.kind? = some kind) (now : Int)
    (working : Working) :
    list.foldlM (fun working state => working.addDescribed graph state now) working =
      .ok (list.foldl (place graph now) working) := by
  induction list generalizing working with
  | nil => rfl
  | cons state rest ih =>
    obtain ⟨kind, shown, named⟩ := fine state (List.mem_cons_self ..)
    rw [List.foldlM_cons, addDescribed_eq sound shown named]
    exact ih (fun other member => fine other (List.mem_cons_of_mem _ member)) _

private theorem filter_describedStates {α : Type} (states : List ObjectState) (read : ObjectState → α)
    (id : ObjectId) :
    ((describedStates states).values.map fun state => (state.id, read state)).filter
        (fun entry => entry.1 = id) =
      (((describedStates states).get? id).map fun state => (id, read state)).toList := by
  have listed : ((describedStates states).values.map fun state => (state.id, read state)) =
      (describedStates states).toList.filterMap fun entry => some (entry.1, read entry.2) := by
    rw [List.filterMap_eq_map', SortedMap.values, List.map_map]
    apply List.map_congr_left
    intro entry member
    have named := (of_get?_describedStates (SortedMap.get?_eq_some_iff.2 member)).1
    simp only [Function.comp_apply, named]
  rw [listed, SortedMap.filter_filterMap_toList _ _ Prod.fst]
  · cases (describedStates states).get? id <;> rfl
  · intro entry item made
    cases made
    rfl

private theorem get?_foldl_place (graph : Graph) (states : List ObjectState) (now : Int) (id : ObjectId) :
    ((describedStates states).values.foldl (place graph now) .empty).graph.get? id =
        ((describedStates states).get? id).map (fun state => (graph.takenOver now state).2) ∧
      ((describedStates states).values.foldl (place graph now) .empty).updates.get? id =
        ((describedStates states).get? id).map fun state => (graph.takenOver now state).1 := by
  have split (list : List ObjectState) (working : Working) :
      (list.foldl (place graph now) working).graph =
          (list.map fun state => (state.id, (graph.takenOver now state).2)).foldl
            (fun map entry => map.insert entry.1 entry.2) working.graph ∧
        (list.foldl (place graph now) working).updates =
          (list.map fun state => (state.id, (graph.takenOver now state).1)).foldl
            (fun map entry => map.insert entry.1 entry.2) working.updates := by
    induction list generalizing working with
    | nil => exact ⟨rfl, rfl⟩
    | cons state rest ih => exact ih _
  obtain ⟨graphSame, updatesSame⟩ := split (describedStates states).values .empty
  rw [graphSame, updatesSame, SortedMap.get?_foldl_insert, SortedMap.get?_foldl_insert,
    filter_describedStates, filter_describedStates]
  cases (describedStates states).get? id <;> exact ⟨rfl, rfl⟩

/-! ## Objects that are not described -/

private theorem foldl_addAbsent (now : Int) {list : List (ObjectId × LiveObject)}
    (ordered : Ascending list) (working : Working) (id : ObjectId) :
    let result := list.foldl (fun working entry => working.addAbsent now entry) working
    result.graph.get? id = (working.graph.get? id).or
        ((Ascending.find id list).map fun object => (absentObject object now).2) ∧
      result.updates.get? id =
        if (working.graph.get? id).isSome then working.updates.get? id
        else ((Ascending.find id list).bind fun object => (absentObject object now).1).or
          (working.updates.get? id) := by
  induction list generalizing working with
  | nil =>
    simp only [List.foldl_nil, Ascending.find, Option.map_none, Option.or_none, Option.bind_none,
      Option.none_or, ite_self, and_self]
  | cons entry rest ih =>
    obtain ⟨name, object⟩ := entry
    obtain ⟨below, restOrdered⟩ := List.pairwise_cons.1 ordered
    obtain ⟨graphSame, updatesSame⟩ := ih restOrdered (working.addAbsent now (name, object))
    simp only [List.foldl_cons, graphSame, updatesSame, Ascending.find, Keyed.text_eq_iff]
    unfold Working.addAbsent
    rw [SortedMap.contains_eq_isSome]
    by_cases same : id = name
    · subst same
      rw [Ascending.find_eq_none_of_below below]
      cases present : working.graph.get? id with
      | some known => simp [present]
      | none =>
        cases told : (absentObject object now).1 <;>
          simp [told, SortedMap.get?_insert_self]
    · cases present : working.graph.get? name with
      | some known => simp [same]
      | none =>
        cases told : (absentObject object now).1 <;>
          simp [told, same, SortedMap.get?_insert_of_ne _ _ same]

/-- The update and the object that a complete description leads to for a name. -/
def replaced (graph : Graph) (states : List ObjectState) (now : Int) (id : ObjectId) :
    Option (Option Update × LiveObject) :=
  match (describedStates states).get? id with
  | some state => some (some (graph.takenOver now state).1, (graph.takenOver now state).2)
  | none => (graph.get? id).map fun known => absentObject known now

/-- What is reported of a complete description, given the updates of single objects. -/
def finalUpdates (previous next : Graph) (updates : SortedMap ObjectId Update) : List Update :=
  (next.toList.filterMap (finalUpdate previous next updates)).filter fun update => !update.isNoop

/-- A description whose states are all in order takes the place of the graph, object by object. -/
theorem applySnapshot_eq (sound : graph.Sound) (checked : ∀ state ∈ states, state.check = .ok ())
    (now : Int) :
    ∃ working : Working,
      (∀ id, working.graph.get? id = (graph.replaced states now id).map Prod.snd) ∧
      (∀ id, working.updates.get? id = (graph.replaced states now id).bind Prod.fst) ∧
      applySnapshot graph states now =
        .ok (finalUpdates graph (closeReferences working.graph) working.updates,
          closeReferences working.graph) := by
  have fine : ∀ state ∈ (describedStates states).values,
      ∃ kind, state.kind = .ok kind ∧ state.id.kind? = some kind := by
    intro state member
    obtain ⟨id, described⟩ := SortedMap.mem_values_iff.1 member
    rcases (of_get?_describedStates described).2 with given | rfl
    · exact ObjectState.kind_of_check (checked state given)
    · exact ⟨.map, rfl, rfl⟩
  refine ⟨graph.toList.foldl (fun working entry => working.addAbsent now entry)
    ((describedStates states).values.foldl (place graph now) .empty), ?_, ?_, ?_⟩
  · intro id
    have absent := (foldl_addAbsent now graph.ascending
      ((describedStates states).values.foldl (place graph now) .empty) id).1
    rw [absent, (get?_foldl_place graph states now id).1, replaced]
    cases (describedStates states).get? id with
    | some state => rfl
    | none =>
      rw [Option.map_none, Option.none_or, Option.map_map]
      rfl
  · intro id
    have absent := (foldl_addAbsent now graph.ascending
      ((describedStates states).values.foldl (place graph now) .empty) id).2
    rw [absent, (get?_foldl_place graph states now id).1, (get?_foldl_place graph states now id).2, replaced]
    cases (describedStates states).get? id with
    | some state => rfl
    | none =>
      simp only [Option.map_none, Option.isSome_none, Bool.false_eq_true, ↓reduceIte, Option.or_none,
        Option.bind_map]
      rfl
  · simp only [applySnapshot, forM_eq_ok.2 checked, bind, Except.bind,
      foldlM_addDescribed sound fine now .empty]
    rfl

/-- A description with a state that is not in order is refused. -/
theorem check_of_applySnapshot {now : Int} {result : List Update × Graph}
    (applied : Graph.applySnapshot graph states now = .ok result) :
    ∀ state ∈ states, state.check = .ok () := by
  rw [← forM_eq_ok]
  unfold Graph.applySnapshot at applied
  cases found : states.forM ObjectState.check with
  | ok => rfl
  | error fault => simp [found, bind, Except.bind] at applied

/-- What was known is not forgotten. -/
theorem get?_of_replaced {now : Int} (missing : graph.replaced states now id = none) :
    graph.get? id = none := by
  unfold replaced at missing
  cases described : (describedStates states).get? id with
  | some state => simp only [described, reduceCtorEq] at missing
  | none => simpa only [described, Option.map_eq_none_iff] using missing

/-- A sound graph takes a description over if each of its states is in order. -/
theorem Sound.exists_applySnapshot_iff (sound : graph.Sound) (states : List ObjectState) (now : Int) :
    (∃ result, graph.applySnapshot states now = .ok result) ↔ ∀ state ∈ states, state.check = .ok () := by
  constructor
  · rintro ⟨result, applied⟩
    exact check_of_applySnapshot applied
  · intro checked
    obtain ⟨working, -, -, applied⟩ := applySnapshot_eq sound checked now
    exact ⟨_, applied⟩

/-! ## The new graph -/

/-- The object that a description of this name is applied to. -/
theorem exists_orPlaceholder (graph : Graph) (checked : ∀ state ∈ states, state.check = .ok ())
    (described : (describedStates states).get? id = some state) :
    ∃ known, graph.orPlaceholder id = some known ∧
      ∀ now, graph.takenOver now state = known.takeOver state now := by
  obtain ⟨rfl, from?⟩ := of_get?_describedStates described
  have named : ∃ kind, state.id.kind? = some kind := by
    rcases from? with given | rfl
    · obtain ⟨kind, -, named⟩ := ObjectState.kind_of_check (checked state given)
      exact ⟨kind, named⟩
    · exact ⟨.map, rfl⟩
  obtain ⟨kind, named⟩ := named
  refine ⟨graph.objectOr state.id kind, (objectOr_of_kind graph named).symm, fun now => ?_⟩
  rw [takenOver, named, Option.getD_some]

theorem Sound.replaced (sound : graph.Sound) (checked : ∀ state ∈ states, state.check = .ok ())
    {now : Int} {update : Option Update} {object : LiveObject}
    (became : graph.replaced states now id = some (update, object)) :
    object.id = id ∧ id.kind? = some object.kind ∧ object.Sound := by
  unfold Graph.replaced at became
  cases described : (describedStates states).get? id with
  | some state =>
    rw [described] at became
    cases became
    obtain ⟨known, placed, same⟩ := exists_orPlaceholder graph checked described
    obtain ⟨named, kindSame, fine⟩ := sound.orPlaceholder placed
    obtain ⟨namedNext, kindNext, -, fineNext⟩ := LiveObject.takeOver_spec fine state now
    rw [same]
    exact ⟨namedNext.trans named, kindSame.trans (congrArg some kindNext.symm), fineNext⟩
  | none =>
    rw [described] at became
    obtain ⟨known, present, same⟩ := Option.map_eq_some_iff.1 became
    have named := sound.keyed id known present
    have kindSame := sound.kinds id known present
    unfold absentObject at same
    split at same
    · cases same
      exact ⟨named, kindSame, sound.objects id _ present⟩
    · cases same
      exact ⟨named, kindSame.trans (congrArg some (LiveObject.kind_initial known.kind).symm),
        LiveObject.sound_delete known now⟩

theorem Sound.grown (sound : graph.Sound) {next : Graph} (grown : Grown graph next) : next.Sound := by
  have came : ∀ id object, next.get? id = some object → graph.orPlaceholder id = some object := by
    intro id object present
    rcases grown id with same | ⟨none, kind, shown, placed⟩
    · exact orPlaceholder_of_get? (same ▸ present)
    · rw [Graph.orPlaceholder, none, Option.none_or, shown, Option.map_some, ← placed, present]
  exact .of_objects fun id object present => sound.orPlaceholder (came id object present)

theorem grown_closeReferences (graph : Graph) : Grown graph (closeReferences graph) :=
  grown_of_get? (get?_ensureAll _ graph)

/-- A complete description leaves a sound graph, whether it is refused or not. -/
theorem Sound.applySnapshot (sound : graph.Sound) {now : Int} {updates : List Update} {next : Graph}
    (applied : Graph.applySnapshot graph states now = .ok (updates, next)) : next.Sound := by
  have checked := check_of_applySnapshot applied
  obtain ⟨working, graphSame, -, result⟩ := applySnapshot_eq sound checked now
  rw [applied] at result
  cases result
  have workingSound : working.graph.Sound := .of_objects fun id object present => by
    rw [graphSame] at present
    obtain ⟨⟨update, found⟩, became, rfl⟩ := Option.map_eq_some_iff.1 present
    exact sound.replaced checked became
  exact workingSound.grown (grown_closeReferences working.graph)

/-- An object that a complete description leads to stands in the new graph as it is. -/
theorem get?_of_applySnapshot (sound : graph.Sound) {now : Int} {updates : List Update} {next : Graph}
    (applied : Graph.applySnapshot graph states now = .ok (updates, next)) {update : Option Update}
    {object : LiveObject} (became : graph.replaced states now id = some (update, object)) :
    next.get? id = some object := by
  obtain ⟨working, graphSame, -, result⟩ := applySnapshot_eq sound (check_of_applySnapshot applied) now
  rw [applied] at result
  cases result
  have known := graphSame id
  rw [became, Option.map_some] at known
  rcases grown_closeReferences working.graph id with same | ⟨none, -⟩
  · rw [same, known]
  · rw [known] at none
    cases none

/-- A described object is what it becomes by taking its description over. -/
theorem get?_of_described (sound : graph.Sound) {now : Int} {updates : List Update} {next : Graph}
    (applied : graph.applySnapshot states now = .ok (updates, next)) {state : ObjectState}
    (described : (describedStates states).get? id = some state) :
    next.get? id = some (graph.takenOver now state).2 := by
  have became : graph.replaced states now id =
      some (some (graph.takenOver now state).1, (graph.takenOver now state).2) := by
    simp only [replaced, described]
  exact get?_of_applySnapshot sound applied became

end Graph

end SharedGraph
