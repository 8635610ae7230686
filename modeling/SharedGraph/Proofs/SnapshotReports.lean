import SharedGraph.Proofs.DeliveryReports
import SharedGraph.Proofs.Snapshots

/-! What is reported of a complete description. Each map is compared with what readers saw
of it before, so changes that are due to other objects alone are named too; the amount of
a counter is the difference of its counts. -/
namespace SharedGraph

/-- The update says how a count became another: it names the difference, or nothing at all
where the count stayed as it was. -/
def Update.Tells (update : Update) (before after : Double) : Prop :=
  ∃ amount, update.change = .counter amount ∧
    (amount = Double.sub after before ∨ amount = .zero false ∧ after = before)

namespace LiveObject

variable {object : LiveObject} {state : ObjectState} {time : Int}

private theorem delete_update (object : LiveObject) (time : Int) :
    (object.delete time).1.id = object.id ∧
      ∀ count, object.contents = .counter count → (object.delete time).2.contents = .counter (.zero false) ∧
        (object.delete time).1.Tells count (.zero false) := by
  constructor
  · unfold delete
    cases object.contents <;> rfl
  · intro count held
    simp only [delete, kind, held]
    exact ⟨rfl, _, rfl, .inl rfl⟩

/-- What a description did to a counter is told. -/
theorem takeOver_update (object : LiveObject) (state : ObjectState) (time : Int) :
    (object.takeOver state time).1.id = object.id ∧
      ∀ before, object.contents = .counter before → ∃ after,
        (object.takeOver state time).2.contents = .counter after ∧
          (object.takeOver state time).1.Tells before after := by
  unfold takeOver
  by_cases deleted : state.tombstone = true
  · rw [if_pos deleted]
    by_cases dead : object.tombstone = true
    · rw [if_pos dead]
      constructor
      · unfold emptyUpdate relisted
        cases object.contents <;> rfl
      · intro before held
        refine ⟨before, held, .zero false, ?_, .inr ⟨rfl, rfl⟩⟩
        simp only [emptyUpdate, relisted, held]
        rfl
    · rw [if_neg dead]
      obtain ⟨named, told⟩ := delete_update (object.relisted state.serials) time
      exact ⟨named, fun before held => ⟨.zero false, told before held⟩⟩
  · rw [if_neg deleted]
    unfold adopt
    constructor
    · cases (object.relisted state.serials).contents <;> rfl
    · intro before held
      have heldToo : (object.relisted state.serials).contents = .counter before := held
      simp only [heldToo]
      cases state.createOp with
      | none => exact ⟨_, rfl, _, rfl, .inl rfl⟩
      | some operation =>
        simp only [mergeCount, Bool.false_eq_true, ↓reduceIte]
        exact ⟨_, rfl, _, rfl, .inl rfl⟩

/-- A reader of a sound object need not ask whether it is deleted. -/
theorem Sound.shown_eq (sound : object.Sound) (value : Entry → Option Data) (key : String) :
    object.shown value key = (object.entry? key).bind value := by
  unfold shown
  split
  case isFalse => rfl
  case isTrue dead =>
    rw [entry?_initial (sound.emptied dead), Option.bind_none]

end LiveObject

namespace Graph

variable {graph next : Graph} {states : List ObjectState} {id : ObjectId} {key : String}
  {object : LiveObject}

/-- Readers of a sound graph find nothing in an object of the other kind. -/
theorem Sound.read_eq (sound : graph.Sound) (id : ObjectId) (key : String) :
    graph.read id key =
      ((((graph.get? id).bind LiveObject.entries?).getD .empty).get? key).bind graph.valueOf := by
  rw [Graph.read_eq]
  cases present : graph.get? id with
  | none => rw [Option.bind_none, Option.bind_none, Option.getD_none, SortedMap.get?_empty, Option.bind_none]
  | some object =>
    rw [Option.bind_some, Option.bind_some, (sound.objects id object present).shown_eq, LiveObject.entry?]
    cases object.entries? with
    | none => rw [Option.bind_none, Option.getD_none, SortedMap.get?_empty]
    | some entries => rfl

private theorem countOf_of_map (sound : graph.Sound) (shown : id.kind? = some .map) :
    graph.countOf id = .zero false := by
  unfold countOf
  cases present : graph.get? id with
  | none => rfl
  | some object =>
    have kindSame := sound.kinds id object present
    obtain ⟨entries, held⟩ := LiveObject.exists_entries (Option.some.inj (kindSame.symm.trans shown))
    rw [Option.bind_some, held, Contents.count?, Option.getD_none]

private theorem countOf_of_orPlaceholder (known : graph.orPlaceholder id = some object) :
    graph.countOf id = object.contents.count?.getD (.zero false) := by
  unfold orPlaceholder at known
  unfold countOf
  cases present : graph.get? id with
  | some found =>
    rw [present, Option.some_or, Option.some.injEq] at known
    rw [known, Option.bind_some]
  | none =>
    rw [present, Option.none_or, Option.map_eq_some_iff] at known
    obtain ⟨kind, -, rfl⟩ := known
    cases kind <;> rfl

/-- What is reported of a counter that a description leads to. -/
theorem replaced_update (sound : graph.Sound) (checked : ∀ state ∈ states, state.check = .ok ())
    {now : Int} {update : Option Update} (became : graph.replaced states now id = some (update, object)) :
    (∀ told, update = some told → told.id = id) ∧
      ∀ after, object.contents = .counter after →
        update = none ∧ after = graph.countOf id ∨
          ∃ told, update = some told ∧ told.Tells (graph.countOf id) after := by
  have kindSame := (sound.replaced checked became).2.1
  unfold replaced at became
  cases described : (describedStates states).get? id with
  | some state =>
    rw [described] at became
    obtain ⟨known, placed, same⟩ := exists_orPlaceholder graph checked described
    obtain ⟨named, shown, -⟩ := sound.orPlaceholder placed
    simp only [same, Option.some.injEq, Prod.mk.injEq] at became
    obtain ⟨rfl, rfl⟩ := became
    obtain ⟨toldId, counters⟩ := known.takeOver_update state now
    refine ⟨fun told same => ?_, fun after heldNext => .inr ⟨_, rfl, ?_⟩⟩
    · rw [← Option.some.inj same, toldId, named]
    · rw [kindSame, Option.some.injEq, LiveObject.kind, heldNext] at shown
      obtain ⟨before, held⟩ := LiveObject.exists_count shown.symm
      obtain ⟨total, heldToo, tells⟩ := counters before held
      rw [heldNext, Contents.counter.injEq] at heldToo
      rwa [countOf_of_orPlaceholder placed, held, Contents.count?, Option.getD_some, heldToo]
  | none =>
    rw [described] at became
    obtain ⟨known, present, same⟩ := Option.map_eq_some_iff.1 became
    unfold absentObject at same
    by_cases dead : known.tombstone = true
    · simp only [dead, ↓reduceIte, Prod.mk.injEq] at same
      obtain ⟨rfl, rfl⟩ := same
      refine ⟨fun told same => ?_, fun after held => .inl ⟨rfl, (countOf_of_counter present held).symm⟩⟩
      simp only [reduceCtorEq] at same
    · simp only [dead, Bool.false_eq_true, ↓reduceIte, Prod.mk.injEq] at same
      obtain ⟨rfl, rfl⟩ := same
      obtain ⟨toldId, counters⟩ := known.delete_update now
      refine ⟨fun told same => ?_, fun after heldNext => .inr ⟨_, rfl, ?_⟩⟩
      · rw [← Option.some.inj same, toldId, sound.keyed id known present]
      · have shown := sound.kinds id known present
        rw [kindSame, Option.some.injEq, LiveObject.kind, heldNext] at shown
        obtain ⟨before, held⟩ := LiveObject.exists_count shown.symm
        obtain ⟨emptied, tells⟩ := counters before held
        rw [heldNext, Contents.counter.injEq] at emptied
        rwa [countOf_of_counter present held, emptied]

/-- What tells how the count became another accounts for it. It may be left out if it says
nothing. -/
theorem accounted_of_tells {updates : List Update} {told : Update}
    (unrounded : (next.countOf id).SumsExactly (graph.countOf id).neg)
    (tells : told.Tells (graph.countOf id) (next.countOf id))
    (named : amountsNamed updates id =
      (((some told).filter fun update => !update.isNoop).bind Update.amount?).toList) :
    Accounted graph next updates id := by
  obtain ⟨amount, said, difference⟩ := tells
  obtain ⟨total, count, nextSame, countSame, subSame⟩ := Double.units?_sub unrounded
  have amountSame : amount.units? = some (total - count) := by
    rcases difference with rfl | ⟨rfl, same⟩
    · exact subSame
    · rw [same, countSame, Option.some.injEq] at nextSame
      rw [nextSame, Int.sub_self]
      exact Double.units?_zero false
  rw [Option.filter_some] at named
  by_cases noop : told.isNoop = true
  · rw [noop] at named
    refine .of_unchanged named ?_
    rw [Update.isNoop, said, Bool.and_eq_true, Double.isZero_iff, amountSame, Option.some.injEq] at noop
    rw [nextSame, countSame, Option.some.injEq]
    omega
  · rw [Bool.not_eq_true] at noop
    rw [noop, Bool.not_false, if_pos rfl, Option.bind_some, Update.amount?, said] at named
    refine .of_single named countSame amountSame ?_
    rw [nextSame, Option.some.injEq]
    omega

/-! ## The updates of a whole description -/

section Final

variable {updates : SortedMap ObjectId Update}

private theorem finalUpdate_id (keyed : ∀ id update, updates.get? id = some update → update.id = id)
    {entry : ObjectId × LiveObject} {told : Update}
    (made : finalUpdate graph next updates entry = some told) : told.id = entry.1 := by
  unfold finalUpdate at made
  cases held : entry.2.contents with
  | counter count =>
    rw [held] at made
    exact keyed entry.1 told made
  | map entries =>
    rw [held] at made
    cases made
    cases listed : updates.get? entry.1 with
    | none => rfl
    | some update => exact keyed entry.1 update listed

/-- Leaving out updates that say nothing leaves out no key, and no amount but zero. -/
theorem finalUpdates_eq (graph next : Graph) (updates : SortedMap ObjectId Update) :
    finalUpdates graph next updates = next.toList.filterMap fun entry =>
      (finalUpdate graph next updates entry).filter fun update => !update.isNoop := by
  rw [finalUpdates, List.filter_filterMap]

private theorem finalUpdates_keyed (keyed : ∀ id update, updates.get? id = some update → update.id = id)
    (entry : ObjectId × LiveObject) (told : Update)
    (made : ((finalUpdate graph next updates entry).filter fun update => !update.isNoop) = some told) :
    told.id = entry.1 :=
  finalUpdate_id keyed (Option.filter_eq_some_iff.1 made).1

/-- An update that says nothing names no key, listed or not. -/
private theorem bind_filter_isNoop (update : Option Update) (key : String) :
    ((update.filter fun update => !update.isNoop).bind fun update =>
        update.keyChanges?.bind fun changes => changes.get? key) =
      update.bind fun update => update.keyChanges?.bind fun changes => changes.get? key := by
  cases update with
  | none => rfl
  | some update =>
    rw [Option.filter_some]
    by_cases noop : update.isNoop = true
    · rw [noop, Bool.not_true, if_neg Bool.false_ne_true, Option.bind_none, Option.bind_some]
      rw [Update.isNoop, Bool.and_eq_true] at noop
      unfold Update.keyChanges?
      cases listed : update.change with
      | counter amount => rfl
      | map changes =>
        rw [listed] at noop
        exact (SortedMap.isEmpty_iff.1 noop.2 key).symm
    · rw [Bool.not_eq_true] at noop
      rw [noop, Bool.not_false, if_pos rfl]

/-- A complete description is reported key by key: exactly what differs is named. -/
theorem changesNamed_finalUpdates (sound : graph.Sound) (nextSound : next.Sound)
    (kept : ∀ id, next.get? id = none → graph.get? id = none)
    (keyed : ∀ id update, updates.get? id = some update → update.id = id)
    (counters : ∀ id update object count, updates.get? id = some update → next.get? id = some object →
      object.contents = .counter count → update.keyChanges? = none)
    (id : ObjectId) (key : String) :
    changesNamed (finalUpdates graph next updates) id key =
      (KeyChange.between (graph.read id key) (next.read id key)).toList := by
  rw [finalUpdates_eq, changesNamed_filterMap_toList _ _ (finalUpdates_keyed keyed)]
  congr 1
  cases present : next.get? id with
  | none =>
    rw [sound.read_eq, nextSound.read_eq, present, kept id present, Option.bind_none, Option.bind_none,
      Option.getD_none, SortedMap.get?_empty, Option.bind_none, Option.bind_none]
    rfl
  | some object =>
    rw [Option.bind_some, bind_filter_isNoop, sound.read_eq, nextSound.read_eq, present, Option.bind_some]
    cases held : object.contents with
    | map entries =>
      rw [LiveObject.entries?, held, Contents.entries?, Option.getD_some]
      simp only [finalUpdate, held, Option.bind_some, Update.keyChanges?, readerChanges, get?_changesOf,
        mem_bothKeys]
      split
      case isTrue => rfl
      case isFalse unknown =>
        rw [not_or, Option.not_isSome_iff_eq_none, Option.not_isSome_iff_eq_none] at unknown
        rw [unknown.1, unknown.2, Option.bind_none, Option.bind_none]
        rfl
    | counter count =>
      have kindSame := nextSound.kinds id object present
      rw [LiveObject.kind, held, Contents.kind] at kindSame
      have silent : ((graph.get? id).bind LiveObject.entries?) = none := by
        cases known : graph.get? id with
        | none => rfl
        | some before =>
          have kindToo := sound.kinds id before known
          rw [kindSame, Option.some.injEq] at kindToo
          obtain ⟨total, heldToo⟩ := LiveObject.exists_count kindToo.symm
          rw [Option.bind_some, LiveObject.entries?, heldToo, Contents.entries?]
      rw [silent, LiveObject.entries?, held, Contents.entries?, Option.getD_none, SortedMap.get?_empty,
        Option.bind_none, Option.bind_none]
      simp only [finalUpdate, held]
      cases listed : updates.get? id with
      | none => rfl
      | some update => rw [Option.bind_some, counters id update object count listed present held]; rfl

private theorem accounted_finalUpdates (sound : graph.Sound) (nextSound : next.Sound)
    (kept : ∀ id, next.get? id = none → graph.get? id = none)
    (keyed : ∀ id update, updates.get? id = some update → update.id = id)
    (listed : ∀ object count, next.get? id = some object → object.contents = .counter count →
      updates.get? id = none ∧ count = graph.countOf id ∨
        ∃ told, updates.get? id = some told ∧ told.Tells (graph.countOf id) count)
    (unrounded : (next.countOf id).SumsExactly (graph.countOf id).neg) :
    Accounted graph next (finalUpdates graph next updates) id := by
  have named : amountsNamed (finalUpdates graph next updates) id =
      ((next.get? id).bind fun object => ((finalUpdate graph next updates (id, object)).filter
        fun update => !update.isNoop).bind Update.amount?).toList := by
    rw [finalUpdates_eq, amountsNamed_filterMap_toList _ _ (finalUpdates_keyed keyed)]
  cases present : next.get? id with
  | none =>
    refine .of_unchanged (by rw [named, present]; rfl) ?_
    simp only [countOf, present, kept id present]
  | some object =>
    rw [present, Option.bind_some] at named
    have kindSame := nextSound.kinds id object present
    rw [LiveObject.kind] at kindSame
    cases held : object.contents with
    | map entries =>
      rw [held, Contents.kind] at kindSame
      refine .of_unchanged ?_ (by rw [countOf_of_map sound kindSame, countOf_of_map nextSound kindSame])
      simp only [named, finalUpdate, held, Option.filter_some]
      split <;> rfl
    | counter count =>
      have counted := countOf_of_counter present held
      simp only [finalUpdate, held] at named
      rcases listed object count present held with ⟨silent, same⟩ | ⟨told, listed, tells⟩
      · refine .of_unchanged (by rw [named, silent]; rfl) ?_
        rw [counted, same]
      · rw [← counted] at tells
        refine accounted_of_tells unrounded tells ?_
        rw [named, listed]

end Final

/-- Whatever a complete description does is told to subscribers: of maps exactly what
readers see change, of counters the difference of the counts, unless it is rounded. -/
theorem told_applySnapshot (sound : graph.Sound) {now : Int} {updates : List Update}
    (applied : applySnapshot graph states now = .ok (updates, next)) :
    Precise graph next updates ∧
      ∀ id, (next.countOf id).SumsExactly (graph.countOf id).neg → Accounted graph next updates id := by
  have nextSound := sound.applySnapshot applied
  have checked := check_of_applySnapshot applied
  obtain ⟨working, graphSame, updatesSame, result⟩ := applySnapshot_eq sound checked now
  rw [applied, Except.ok.injEq, Prod.mk.injEq] at result
  obtain ⟨rfl, rfl⟩ := result
  have grown := grown_closeReferences working.graph
  have kept (id : ObjectId) (missing : (closeReferences working.graph).get? id = none) :
      graph.get? id = none := by
    cases became : graph.replaced states now id with
    | none => exact get?_of_replaced became
    | some found =>
      rcases grown id with same | ⟨unknown, -⟩
      · rw [missing, graphSame, became] at same
        cases same
      · rw [graphSame, became] at unknown
        cases unknown
  have keyed (id : ObjectId) (update : Update) (listed : working.updates.get? id = some update) :
      update.id = id := by
    rw [updatesSame] at listed
    obtain ⟨⟨told, object⟩, became, same⟩ := Option.bind_eq_some_iff.1 listed
    exact (replaced_update sound checked became).1 update same
  have listed (id : ObjectId) (object : LiveObject) (count : Double)
      (present : (closeReferences working.graph).get? id = some object)
      (held : object.contents = .counter count) :
      working.updates.get? id = none ∧ count = graph.countOf id ∨
        ∃ told, working.updates.get? id = some told ∧ told.Tells (graph.countOf id) count := by
    rw [updatesSame]
    cases became : graph.replaced states now id with
    | none =>
      refine .inl ⟨rfl, ?_⟩
      have counted := grown.countOf_eq id
      rw [countOf_of_counter present held] at counted
      rw [counted, countOf, countOf, graphSame, became, get?_of_replaced became]
      rfl
    | some found =>
      obtain ⟨told, replacement⟩ := found
      have same : object = replacement := by
        rcases grown id with same | ⟨unknown, -⟩
        · rw [present, graphSame, became] at same
          exact Option.some.inj same
        · rw [graphSame, became] at unknown
          cases unknown
      rw [same] at held
      exact (replaced_update sound checked became).2 count held
  constructor
  · refine fun id key => .inl (changesNamed_finalUpdates sound nextSound kept keyed ?_ id key)
    intro id update object count told present held
    rcases listed id object count present held with ⟨silent, -⟩ | ⟨other, toldToo, amount, said, -⟩
    · rw [told] at silent
      cases silent
    · rw [told, Option.some.injEq] at toldToo
      rw [Update.keyChanges?, toldToo, said]
  · exact fun id unrounded => accounted_finalUpdates sound nextSound kept keyed (listed id) unrounded

end Graph

end SharedGraph
