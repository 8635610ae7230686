import SharedGraph.Proofs.Visibility

/-! What is reported of a delivered message. A change of one map shows in that map alone;
the deletion of an object also shows in every map that points to it. Either way each key
that a reader sees change is named. -/
namespace SharedGraph.Graph

variable {graph : Graph} {message : Message} {operation : Operation} {kind : Kind}
  {object next : LiveObject} {step : Step} {origin : String × Serial}

/-- The ways a delivery ends: nothing is reported unless a live object carries out a step. -/
theorem deliver_cases (listing : Listing) (graph : Graph) (message : Message) (now : Int) :
    graph.deliverIn listing message now = ([], graph) ∨
      ∃ operation kind object, operation.target.kind? = some kind ∧
        graph.orPlaceholder operation.target = some object ∧
        (graph.deliverIn listing message now = ([], prepare graph operation kind) ∨
          ∃ step origin, object.stepFor? operation = some step ∧
            (object.tombstone = true ∧ graph.deliverIn listing message now =
                ([], (prepare graph operation kind).insert operation.target (object.admitting origin)) ∨
              object.tombstone = false ∧
                let time := (message.stampedAt now).timestamp.getD 0
                let next := ((object.admitting origin).run step origin.2 time).2
                let changed := (prepare graph operation kind).insert operation.target next
                graph.deliverIn listing message now =
                  (((LiveObject.reportOf operation (message.stampedAt now)
                    ((object.admitting origin).run step origin.2 time).1).map
                      (report listing changed operation object next)).getD [], changed))) := by
  rcases complete_or_idle message with ⟨operation, carried, complete⟩ | ⟨idle, -⟩
  case inr => exact .inl (idle listing graph now)
  obtain ⟨kind, shown, -⟩ := Operation.kind_of_check complete
  obtain ⟨object, held, -, delivered⟩ := deliver_of_complete carried complete shown now
  have concluded := delivered listing
  refine .inr ⟨operation, kind, object, shown, held, ?_⟩
  cases asked : object.stepFor? operation with
  | none =>
    obtain ⟨fault, refused⟩ :=
      LiveObject.apply_of_refused (.inl asked : _ ∨ (message.stampedAt now).origin? = none)
    exact .inl (by rw [concluded, refused]; rfl)
  | some step =>
    cases from? : (message.stampedAt now).origin? with
    | none =>
      obtain ⟨fault, refused⟩ :=
        LiveObject.apply_of_refused (.inr from? : object.stepFor? operation = none ∨ _)
      exact .inl (by rw [concluded, refused]; rfl)
    | some origin =>
      rw [LiveObject.apply_of_step asked from?] at concluded
      by_cases open? : object.admits origin = true
      case neg =>
        rw [if_neg open?] at concluded
        exact .inl concluded
      rw [if_pos open?] at concluded
      refine .inr ⟨step, origin, rfl, ?_⟩
      by_cases dead : object.tombstone = true
      · rw [if_pos dead] at concluded
        exact .inl ⟨dead, concluded⟩
      · rw [if_neg dead, LiveObject.carry, if_neg dead] at concluded
        refine .inr ⟨Bool.eq_false_iff.2 dead, ?_⟩
        simp only
        rw [concluded]
        cases LiveObject.reportOf operation (message.stampedAt now)
          ((object.admitting origin).run step origin.2 ((message.stampedAt now).timestamp.getD 0)).1 <;> rfl

/-! ## Reading after one object changed -/

section Changed

variable {id : ObjectId} {before : Graph}

/-- Readers of other objects look at the same entries as before. -/
theorem read_insert (before : Graph) (id : ObjectId) (next : LiveObject) (other : ObjectId) (key : String) :
    read (before.insert id next) other key =
      if other = id then next.shown (valueOf (before.insert id next)) key
      else (before.get? other).bind fun object => object.shown (valueOf (before.insert id next)) key := by
  rw [read_eq, SortedMap.get?_insert_ite]
  split <;> rfl

theorem isTombstoned_insert (known : before.get? id = some object)
    (same : next.tombstone = object.tombstone) (probe : ObjectId) :
    isTombstoned (before.insert id next) probe = isTombstoned before probe := by
  unfold isTombstoned
  rw [SortedMap.get?_insert_ite]
  split
  case isTrue equal => rw [equal, known, Option.any_some, Option.any_some, same]
  case isFalse => rfl

private theorem valueOf_insert (known : before.get? id = some object)
    (same : next.tombstone = object.tombstone) : valueOf (before.insert id next) = valueOf before :=
  valueOf_congr (isTombstoned_insert known same)

/-- As long as nothing is deleted, a change of one object shows in that object alone. -/
theorem read_insert_of_same (known : before.get? id = some object)
    (same : next.tombstone = object.tombstone) (other : ObjectId) (key : String) :
    read (before.insert id next) other key =
      if other = id then next.shown before.valueOf key else before.read other key := by
  rw [read_insert, valueOf_insert known same]
  rfl

theorem read_of_get? (known : before.get? id = some object) (key : String) :
    before.read id key = object.shown before.valueOf key := by
  rw [read_eq, known, Option.bind_some]

theorem grown_prepare (shown : operation.target.kind? = some kind) :
    Grown graph (prepare graph operation kind) := grown_of_get? (get?_prepare graph shown)

theorem prepare_target (shown : operation.target.kind? = some kind)
    (held : graph.orPlaceholder operation.target = some object) :
    (prepare graph operation kind).get? operation.target = some object := by
  rw [get?_prepare graph shown, if_pos (List.mem_cons_self ..), held]

end Changed

/-! ## Names in lists of updates -/

/-- Updates that are read off a map, one for each entry at most, say one thing at most of
each object. -/
private theorem filterMap_filterMap_toList {α β : Type} (map : SortedMap ObjectId α)
    (read : ObjectId × α → Option Update)
    (keyed : ∀ entry update, read entry = some update → update.id = entry.1)
    (said : Update → Option β) (id : ObjectId) :
    ((map.toList.filterMap read).filterMap fun update => if update.id = id then said update else none) =
      ((map.get? id).bind fun value => (read (id, value)).bind said).toList := by
  have mine (updates : List Update) :
      (updates.filterMap fun update => if update.id = id then said update else none) =
        (updates.filter fun update => update.id = id).filterMap said := by
    rw [List.filterMap_filter]
    simp only [decide_eq_true_eq]
  rw [mine, SortedMap.filter_filterMap_toList map read Update.id keyed]
  cases map.get? id with
  | none => rfl
  | some value =>
    rw [Option.bind_some, Option.bind_some]
    cases read (id, value) with
    | none => rfl
    | some update =>
      rw [Option.toList_some, Option.bind_some, List.filterMap_cons, List.filterMap_nil]
      cases said update <;> rfl

theorem changesNamed_filterMap_toList {α : Type} (map : SortedMap ObjectId α)
    (read : ObjectId × α → Option Update)
    (keyed : ∀ entry update, read entry = some update → update.id = entry.1) (id : ObjectId) (key : String) :
    changesNamed (map.toList.filterMap read) id key =
      ((map.get? id).bind fun value => (read (id, value)).bind fun update =>
        update.keyChanges?.bind fun changes => changes.get? key).toList :=
  filterMap_filterMap_toList map read keyed _ id

theorem amountsNamed_filterMap_toList {α : Type} (map : SortedMap ObjectId α)
    (read : ObjectId × α → Option Update)
    (keyed : ∀ entry update, read entry = some update → update.id = entry.1) (id : ObjectId) :
    amountsNamed (map.toList.filterMap read) id =
      ((map.get? id).bind fun value => (read (id, value)).bind Update.amount?).toList :=
  filterMap_filterMap_toList map read keyed _ id

end SharedGraph.Graph

namespace SharedGraph

/-! ## Steps of a map -/

/-- The keys that an effect can write. -/
def MapEffect.keys : MapEffect → List String
  | .set key _ | .remove key => [key]
  | .create first => first.keys

private theorem Operation.affectedKeys_of_effect {operation : Operation} {effect : MapEffect}
    (complete : operation.effect = .ok (.onMap effect)) : operation.affectedKeys = effect.keys := by
  cases (asks_of_effect complete).2 with
  | set acts edited | remove acts edited =>
    simp only [affectedKeys, acts, edited, Option.map_some, Option.toList_some, MapEffect.keys]
  | createMap acts => simp only [affectedKeys, acts, MapEffect.keys]

namespace LiveObject

variable {object : LiveObject}

private theorem run_write {key : String} {entry : Entry} {entries : Entries} (probe : String) :
    (probe ≠ key → (Entries.write entries key entry).2.get? probe = entries.get? probe) ∧
      ((Entries.noteChange .empty key (Entries.write entries key entry).1).get? probe = none →
        (Entries.write entries key entry).2.get? probe = entries.get? probe ∨
          KeyChange.ofEntries (entries.get? probe) ((Entries.write entries key entry).2.get? probe) = none) := by
  rw [Entries.get?_write]
  by_cases same : probe = key
  · subst same
    rw [if_pos rfl]
    refine ⟨fun different => absurd rfl different, fun unnamed => Entries.settle_of_silent ?_⟩
    cases changed : (Entries.write entries probe entry).1 with
    | none => rfl
    | some change => simp [changed, Entries.noteChange, SortedMap.get?_insert_self] at unnamed
  · rw [if_neg same]
    exact ⟨fun _ => rfl, fun _ => .inl rfl⟩

/-- A step of a map writes the keys of its effect, and whatever it does not report leaves
the values as they were. -/
theorem run_map {entries : Entries} (held : object.contents = .map entries) (effect : MapEffect)
    (serial : Serial) (time : Int) :
    ∃ changes written, (object.run (.map effect entries) serial time).1 = .ofKeys object.id changes ∧
      (object.run (.map effect entries) serial time).2.contents = .map written ∧
      (object.run (.map effect entries) serial time).2.tombstone = object.tombstone ∧
      ∀ key, (key ∉ effect.keys → written.get? key = entries.get? key) ∧
        (changes.get? key = none → written.get? key = entries.get? key ∨
          KeyChange.ofEntries (entries.get? key) (written.get? key) = none) := by
  cases effect with
  | set key data =>
    refine ⟨_, _, rfl, rfl, rfl, fun probe => ?_⟩
    rw [MapEffect.keys, List.mem_singleton]
    exact run_write probe
  | remove key =>
    refine ⟨_, _, rfl, rfl, rfl, fun probe => ?_⟩
    rw [MapEffect.keys, List.mem_singleton]
    exact run_write probe
  | create first =>
    simp only [run, mergeEntries]
    split
    case isTrue => exact ⟨.empty, entries, rfl, held, rfl, fun key => ⟨fun _ => rfl, fun _ => .inl rfl⟩⟩
    case isFalse =>
      refine ⟨_, _, rfl, rfl, rfl, fun key => ?_⟩
      rw [Entries.get?_mergeInitial, Entries.get?_mergeInitial_changes]
      cases brought : first.get? key with
      | none => exact ⟨fun _ => rfl, fun _ => .inl rfl⟩
      | some entry =>
        simp only [MapEffect.keys, SortedMap.mem_keys_iff, brought, Option.some.injEq, exists_eq',
          not_true_eq_false, false_implies, true_and, Option.bind_some, Option.map_some, Option.some_or]
        exact Entries.settle_of_silent

/-- Only a deletion deletes. -/
theorem run_tombstone {step : Step} (other : step ≠ .delete) (fits : step.Fits object.contents) (serial : Serial)
    (time : Int) : (object.run step serial time).2.tombstone = object.tombstone := by
  cases step with
  | map effect entries =>
    obtain ⟨_, _, -, -, same, -⟩ := run_map fits effect serial time
    exact same
  | counter effect count =>
    cases effect with
    | add amount => rfl
    | create first =>
      simp only [run, mergeCount]
      split <;> rfl
  | delete => exact absurd rfl other

end LiveObject

namespace Graph

variable {listing : Listing} {graph before : Graph} {message : Message} {operation : Operation}
  {object next : LiveObject} {origin : String × Serial}

/-- Entries whose plain values did not change look unchanged to every reader. -/
theorem unchanged_of_ofEntries (graph : Graph) {old new : Option Entry}
    (same : new = old ∨ KeyChange.ofEntries old new = none) :
    Unchanged (old.bind graph.valueOf) (new.bind graph.valueOf) := by
  rcases same with rfl | silent
  · exact .refl _
  refine .inr ?_
  have filtered (entry : Option Entry) : entry.bind graph.valueOf =
      (entry.bind Entry.value?).filter fun data => !data.target?.any graph.isTombstoned := by
    cases entry <;> rfl
  rw [filtered, filtered]
  unfold KeyChange.ofEntries at silent
  cases before : old.bind Entry.value? with
  | none =>
    cases after : new.bind Entry.value? with
    | none => rfl
    | some value => simp [before, after, KeyChange.between] at silent
  | some value =>
    cases after : new.bind Entry.value? with
    | none => simp [before, after, KeyChange.between] at silent
    | some other =>
      have agree : value.agrees other = true := by
        simpa [before, after, KeyChange.between] using silent
      have hidden := Data.target?_of_agrees agree
      simp only [Option.filter_some, hidden]
      split
      · simp only [KeyChange.between, agree, ↓reduceIte]
      · rfl

private theorem reportOf_ofKeys (plain : operation.action ≠ .counterInc) (message : Message)
    (id : ObjectId) (changes : KeyChanges) :
    LiveObject.reportOf operation message (.ofKeys id changes) =
      if changes.isEmpty then none
      else some ((Update.ofKeys id changes).causedBy message.clientId message.connectionId) := by
  have noop : ((Update.ofKeys id changes).causedBy message.clientId message.connectionId).isNoop =
      changes.isEmpty := by
    simp only [Update.isNoop, Update.causedBy, Update.ofKeys, Bool.not_false, Bool.true_and]
  simp only [LiveObject.reportOf, noop, bne_iff_ne.2 plain, Bool.and_true]

/-- An update that only lists keys is reported for the keys that readers see change. -/
theorem changesNamed_report {changed : Graph} {changes : KeyChanges} {clientId connectionId : Option String}
    (plain : operation.action ≠ .counterInc) (id : ObjectId) (key : String) :
    changesNamed (report listing changed operation object next
        ((Update.ofKeys object.id changes).causedBy clientId connectionId)) id key =
      (if object.id = id then
        if key ∈ operation.affectedKeys then
          visibleChange changed (object.entry? key) (next.entry? key)
        else none
      else none).toList := by
  simp only [report, refine, Update.causedBy, Update.ofKeys, Bool.false_eq_true, ↓reduceIte, cascade,
    Bool.not_false, List.nil_append, bne_iff_ne.2 plain, Bool.and_true, Update.isNoop, Bool.true_and]
  have named := get?_changesOf operation.affectedKeys
    (fun key => visibleChange changed (object.entry? key) (next.entry? key)) key
  split
  case isTrue empty =>
    rw [SortedMap.isEmpty_iff] at empty
    rw [← named, empty key, ite_self]
    rfl
  case isFalse =>
    simp only [changesNamed, Update.namedChange?, List.filterMap_cons, List.filterMap_nil,
      Update.keyChanges?, Option.bind_some, named]
    split <;> simp_all

/-- What is reported of a live map after a change in it, if anything is. -/
theorem precise_map {entries written : Entries} {changes : KeyChanges}
    (known : before.get? operation.target = some object) (addressed : object.id = operation.target)
    (live : object.tombstone = false) (liveNext : next.tombstone = false)
    (held : object.contents = .map entries) (heldNext : next.contents = .map written)
    (plain : operation.action ≠ .counterInc) (message : Message)
    (said : ∀ key, (key ∉ operation.affectedKeys → written.get? key = entries.get? key) ∧
      (changes.get? key = none → written.get? key = entries.get? key ∨
        KeyChange.ofEntries (entries.get? key) (written.get? key) = none)) :
    Precise before (before.insert operation.target next)
      (((LiveObject.reportOf operation message (.ofKeys object.id changes)).map
        (report listing (before.insert operation.target next) operation object next)).getD []) := by
  have sameTombstone : next.tombstone = object.tombstone := liveNext.trans live.symm
  have shownBefore (key : String) : before.read operation.target key =
      (entries.get? key).bind before.valueOf := by
    rw [read_of_get? known, LiveObject.shown, live, LiveObject.entry?_of_map held]
    rfl
  have shownAfter (key : String) : next.shown before.valueOf key =
      (written.get? key).bind before.valueOf := by
    rw [LiveObject.shown, liveNext, LiveObject.entry?_of_map heldNext]
    rfl
  intro id key
  rw [read_insert_of_same known sameTombstone, reportOf_ofKeys plain]
  by_cases silent : changes.isEmpty = true
  · rw [if_pos silent]
    refine .inr ⟨rfl, ?_⟩
    split
    case isTrue same =>
      rw [same, shownBefore, shownAfter]
      exact unchanged_of_ofEntries before ((said key).2 (SortedMap.isEmpty_iff.1 silent key))
    case isFalse => exact .refl _
  · rw [if_neg silent, Option.map_some, Option.getD_some, changesNamed_report plain, addressed]
    by_cases same : operation.target = id
    · subst same
      simp only [↓reduceIte, shownBefore, shownAfter]
      by_cases affected : key ∈ operation.affectedKeys
      · refine .inl ?_
        rw [if_pos affected, visibleChange, LiveObject.entry?_of_map held,
          LiveObject.entry?_of_map heldNext, valueOf_insert known sameTombstone]
      · rw [if_neg affected, (said key).1 affected]
        exact .inr ⟨rfl, .refl _⟩
    · rw [if_neg same, if_neg (Ne.symm same)]
      exact .inr ⟨rfl, .refl _⟩

private theorem countOf_insert (before : Graph) (id : ObjectId) (next : LiveObject) (other : ObjectId) :
    countOf (before.insert id next) other =
      if other = id then next.contents.count?.getD (.zero false) else before.countOf other := by
  unfold countOf
  rw [SortedMap.get?_insert_ite]
  split <;> rfl

private theorem countOf_of_get? {id : ObjectId} (known : before.get? id = some object) :
    before.countOf id = object.contents.count?.getD (.zero false) := by
  rw [countOf, known, Option.bind_some]

theorem countOf_of_counter {id : ObjectId} {count : Double} (known : before.get? id = some object)
    (held : object.contents = .counter count) : before.countOf id = count := by
  rw [countOf_of_get? known, held, Contents.count?, Option.getD_some]

private theorem amountsNamed_of_maps {updates : List Update}
    (maps : ∀ update ∈ updates, update.amount? = none)
    (id : ObjectId) : amountsNamed updates id = [] := by
  rw [amountsNamed, List.filterMap_eq_nil_iff]
  intro update member
  rw [maps update member, ite_self]

theorem changesNamed_of_counters {updates : List Update}
    (counters : ∀ update ∈ updates, update.keyChanges? = none) (id : ObjectId) (key : String) :
    changesNamed updates id key = [] := by
  rw [changesNamed, List.filterMap_eq_nil_iff]
  intro update member
  rw [Update.namedChange?, counters update member, Option.bind_none, ite_self]

private theorem amount?_of_mem_cascade {changed : Graph} {update told : Update}
    (member : told ∈ cascade listing changed update) : told.amount? = none := by
  unfold cascade at member
  split at member
  · cases member
  · obtain ⟨entry, -, rfl⟩ := List.mem_map.1 member
    rfl

/-- Where a map changed, no amount is reported. -/
theorem amount?_of_mem_report {changed : Graph} {update told : Update} (map : update.amount? = none)
    (member : told ∈ report listing changed operation object next update) : told.amount? = none := by
  unfold report at member
  rcases List.mem_append.1 member with cascaded | own
  · exact amount?_of_mem_cascade cascaded
  · split at own
    · cases own
    · rw [List.mem_singleton.1 own, refine]
      cases listed : update.change with
      | counter amount => simp [Update.amount?, listed] at map
      | map changes =>
        simp only
        split
        · exact map
        · rfl

/-! ## Steps of a counter -/

/-- The update of a counter is reported as it is, unless it says nothing. -/
theorem announce_ofAmount (listing : Listing) (changed : Graph) (operation : Operation) (message : Message)
    (object next : LiveObject) (id : ObjectId) (amount : Double) :
    ((LiveObject.reportOf operation message (.ofAmount id amount)).map
      (report listing changed operation object next)).getD [] =
        if amount.isZero && operation.action != .counterInc then []
        else [(Update.ofAmount id amount).causedBy message.clientId message.connectionId] := by
  simp only [LiveObject.reportOf, Update.causedBy, Update.ofAmount, Update.isNoop, Bool.not_false,
    Bool.true_and]
  by_cases silent : (amount.isZero && operation.action != .counterInc) = true
  · rw [if_pos silent, if_pos silent]
    rfl
  · rw [if_neg silent, if_neg silent, Option.map_some, Option.getD_some]
    simp only [report, refine, cascade, Bool.not_false, ↓reduceIte, List.nil_append, Update.isNoop,
      Bool.true_and, if_neg silent]

/-- Readers of maps do not notice the change of a counter. -/
theorem reported_counter {count total : Double} (known : before.get? operation.target = some object)
    (same : next.tombstone = object.tombstone) (held : object.contents = .counter count)
    (heldNext : next.contents = .counter total) {updates : List Update}
    (counters : ∀ update ∈ updates, update.keyChanges? = none) :
    Reported before (before.insert operation.target next) updates := by
  refine .of_between fun id key => .inr ⟨changesNamed_of_counters counters id key, ?_⟩
  rw [read_insert_of_same known same]
  split
  case isFalse => exact .refl _
  case isTrue equal =>
    rw [equal, read_of_get? known]
    simp only [LiveObject.shown, LiveObject.entry?_of_counter held, LiveObject.entry?_of_counter heldNext,
      Option.bind_none, ite_self]
    exact .refl _

/-- An amount that is added to a counter, and reported unless it is zero, is accounted for. -/
theorem accounted_counter {count amount : Double} (known : before.get? operation.target = some object)
    (addressed : object.id = operation.target) (held : object.contents = .counter count)
    (heldNext : next.contents = .counter (count.add amount)) {silent : Bool} {update : Update}
    (said : update.id = object.id ∧ update.amount? = some amount)
    (quiet : silent = true → amount.isZero = true) (id : ObjectId)
    (unrounded : ∀ amount ∈ amountsNamed (if silent then [] else [update]) id,
      (before.countOf id).SumsExactly amount) :
    Accounted before (before.insert operation.target next) (if silent then [] else [update]) id := by
  have countAfter := countOf_insert before operation.target next id
  by_cases same : id = operation.target
  case neg =>
    rw [if_neg same] at countAfter
    refine .of_unchanged ?_ (by rw [countAfter])
    cases silent with
    | true => rfl
    | false => simp [amountsNamed, said.1, addressed, Ne.symm same]
  subst same
  have countBefore := countOf_of_counter known held
  rw [if_pos rfl, heldNext] at countAfter
  have countAfter : countOf (before.insert operation.target next) operation.target = count.add amount :=
    countAfter
  cases silent with
  | true =>
    refine .of_unchanged rfl ?_
    rw [countAfter, countBefore, Double.units?_add_of_isZero _ (quiet rfl)]
  | false =>
    have named : amountsNamed [update] operation.target = [amount] := by
      simp [amountsNamed, said.1, said.2, addressed]
    obtain ⟨x, y, countSame, amountSame, sum⟩ := unrounded amount (by simp [named])
    rw [countBefore] at countSame sum
    exact .of_single named (by rw [countBefore, countSame]) amountSame (by rw [countAfter, sum])

/-! ## Deletions -/

theorem mem_referringKeys {target : ObjectId} {key : String} :
    key ∈ referringKeys target object ↔ object.tombstone = false ∧
      ∃ entry, object.entry? key = some entry ∧ entry.target? = some target := by
  unfold referringKeys
  by_cases dead : object.tombstone = true
  · simp [dead]
  rw [if_neg dead]
  simp only [Bool.not_eq_true] at dead
  simp only [dead, true_and, SortedMap.mem_keys_iff, SortedMap.get?_filter, Option.filter_eq_some_iff,
    decide_eq_true_eq, LiveObject.entry?]
  cases object.entries? with
  | none => simp [SortedMap.get?_empty]
  | some entries => simp

/-- The update of an object that loses keys to the deletion of another one. -/
def lost (deletion : Update) (entry : ObjectId × LiveObject) : Option Update :=
  let keys := referringKeys deletion.id entry.2
  if keys.isEmpty then none
  else some ((Update.ofKeys entry.1 (changesOf keys fun _ => some .removed)).causedBy
    deletion.clientId deletion.connectionId)

theorem cascade_of_deletes {changed : Graph} {update : Update} (deletes : update.tombstone = true) :
    cascade listing changed update = (listing.arrange changed.toList).filterMap (lost update) := by
  rw [cascade, deletes, Bool.not_true, if_neg Bool.false_ne_true, referrersIn, List.map_filterMap]
  congr 1
  funext entry
  obtain ⟨id, object⟩ := entry
  simp only [lost]
  split <;> rfl

theorem eq_of_lost {deletion told : Update} {entry : ObjectId × LiveObject}
    (made : lost deletion entry = some told) :
    told.id = entry.1 ∧ told.removesOnly = true ∧ told.clientId = deletion.clientId ∧
      told.connectionId = deletion.connectionId := by
  simp only [lost] at made
  split at made
  · cases made
  · cases made
    refine ⟨rfl, List.all_eq_true.2 fun change member => ?_, rfl, rfl⟩
    obtain ⟨key, found⟩ := SortedMap.mem_values_iff.1 member
    rw [get?_changesOf] at found
    split at found
    · cases found
      rfl
    · cases found

/-- Every key that points to a deleted object is named as removed. -/
theorem mem_changesNamed_cascade {changed : Graph} {update : Update} (deletes : update.tombstone = true)
    {id : ObjectId} {key : String} {change : KeyChange} :
    change ∈ changesNamed (cascade listing changed update) id key ↔
      change = .removed ∧ ∃ object, changed.get? id = some object ∧ key ∈ referringKeys update.id object := by
  have named : (changesNamed (cascade listing changed update) id key).Perm
      (changesNamed (changed.toList.filterMap (lost update)) id key) := by
    rw [cascade_of_deletes deletes]
    exact ((listing.perm changed.toList).filterMap _).filterMap _
  rw [named.mem_iff, changesNamed_filterMap_toList]
  · cases changed.get? id with
    | none => simp
    | some object =>
      simp only [Option.bind_some, Option.some.injEq, exists_eq_left', lost]
      split
      case isTrue empty => simp [List.isEmpty_iff.1 empty]
      case isFalse =>
        simp only [Option.bind_some, Update.causedBy, Update.ofKeys, Update.keyChanges?, get?_changesOf]
        by_cases refers : key ∈ referringKeys update.id object
        · rw [if_pos refers]
          simp only [Option.toList_some, List.mem_singleton, refers, and_true]
        · rw [if_neg refers]
          simp only [Option.toList_none, List.not_mem_nil, refers, and_false]
  · exact fun entry told made => (eq_of_lost made).1

/-- The update of a deletion is reported after those of the maps that point to the object. -/
theorem announce_delete (listing : Listing) (changed : Graph) (operation : Operation) (message : Message)
    (object next : LiveObject) {update : Update} (deletes : update.tombstone = true) :
    ((LiveObject.reportOf operation message update).map
        (report listing changed operation object next)).getD [] =
      cascade listing changed (update.causedBy message.clientId message.connectionId) ++
        [update.causedBy message.clientId message.connectionId] := by
  have causes : (update.causedBy message.clientId message.connectionId).tombstone = true := deletes
  have loud : (update.causedBy message.clientId message.connectionId).isNoop = false := by
    rw [Update.isNoop, causes]
    rfl
  have refined : refine changed operation.affectedKeys object next
      (update.causedBy message.clientId message.connectionId) =
        update.causedBy message.clientId message.connectionId := by
    unfold refine
    cases (update.causedBy message.clientId message.connectionId).change with
    | counter amount => rfl
    | map changes => simp only [causes, ↓reduceIte]
  simp only [LiveObject.reportOf, loud, Bool.false_and, Bool.false_eq_true, ↓reduceIte,
    Option.map_some, Option.getD_some, report, refined]

/-- An entry that does not point to a deleted object shows what it showed. -/
theorem valueOf_insert_of_foreign {id : ObjectId} {entry : Entry} (foreign : entry.target? ≠ some id) :
    valueOf (before.insert id next) entry = valueOf before entry := by
  unfold valueOf
  cases held : entry.value? with
  | none => rfl
  | some data =>
    rw [Entry.target?, held, Option.bind_some] at foreign
    rw [Option.filter_some, Option.filter_some]
    cases points : data.target? with
    | none => rfl
    | some target =>
      have other : target ≠ id := fun same => foreign (by rw [points, same])
      have same : isTombstoned (before.insert id next) target = isTombstoned before target := by
        simp only [isTombstoned, SortedMap.get?_insert_ite, other, ↓reduceIte]
      rw [Option.any_some, Option.any_some, same]

/-- An entry that points to a deleted object shows nothing. -/
theorem valueOf_of_dead {graph : Graph} {id : ObjectId} {entry : Entry}
    (dead : graph.isTombstoned id = true) (points : entry.target? = some id) :
    graph.valueOf entry = none := by
  obtain ⟨data, held, target⟩ := Option.bind_eq_some_iff.1 points
  rw [valueOf, held, Option.filter_some, target, Option.any_some, dead]
  rfl

private theorem namedChange?_delete {id : ObjectId} {key : String} {change : KeyChange} {time : Int}
    {clientId connectionId : Option String} :
    ((object.delete time).1.causedBy clientId connectionId).namedChange? id key = some change ↔
      object.id = id ∧ change = .removed ∧ (((object.entry? key).bind Entry.value?).isSome) := by
  unfold Update.namedChange?
  cases held : object.contents with
  | counter count =>
    simp only [LiveObject.delete, held, Update.causedBy, Update.ofAmount, Update.keyChanges?,
      Option.bind_none, ite_self, LiveObject.entry?_of_counter held, reduceCtorEq, Option.isSome_none,
      Bool.false_eq_true, and_false]
  | map entries =>
    simp only [LiveObject.delete, held, Update.causedBy, Update.ofKeys, Update.keyChanges?,
      Option.bind_some, LiveObject.entry?_of_map held, diffEntries, get?_changesOf, mem_bothKeys,
      SortedMap.get?_empty, Option.isSome_none, Bool.false_eq_true, or_false, KeyChange.ofEntries,
      Option.bind_none]
    by_cases same : object.id = id
    · cases present : entries.get? key with
      | none => simp
      | some entry =>
        cases value : entry.value? <;> simp [same, value, KeyChange.between, eq_comm]
    · simp [same]

/-- Only who points to an object notices from elsewhere that it became another one. -/
theorem exists_referringKeys_of_changed {target id : ObjectId} {key : String} (elsewhere : id ≠ target)
    (changed : ¬ Unchanged (before.read id key) (read (before.insert target next) id key)) :
    ∃ other, before.get? id = some other ∧ key ∈ referringKeys target other := by
  rw [read_insert, if_neg elsewhere, read_eq] at changed
  cases present : before.get? id with
  | none =>
    rw [present] at changed
    exact absurd (.refl _) changed
  | some other =>
    rw [present, Option.bind_some, Option.bind_some] at changed
    refine ⟨other, rfl, mem_referringKeys.2 ?_⟩
    by_cases dead : other.tombstone = true
    · rw [LiveObject.shown_of_dead dead, LiveObject.shown_of_dead dead] at changed
      exact absurd (.refl _) changed
    refine ⟨Bool.eq_false_iff.2 dead, ?_⟩
    rw [LiveObject.shown, LiveObject.shown, if_neg dead, if_neg dead] at changed
    cases written : other.entry? key with
    | none =>
      rw [written] at changed
      exact absurd (.refl _) changed
    | some entry =>
      refine ⟨entry, rfl, Classical.byContradiction fun foreign => changed ?_⟩
      rw [written, Option.bind_some, Option.bind_some, valueOf_insert_of_foreign foreign]
      exact .refl _

/-- What a reader sees has a value, whatever became of the objects that it may point to. -/
theorem isSome_value?_of_read (known : before.get? operation.target = some object) {key : String}
    (visible : before.read operation.target key ≠ none) :
    ((object.entry? key).bind Entry.value?).isSome := by
  rw [read_of_get? known] at visible
  refine Option.isSome_iff_ne_none.2 fun none => visible ?_
  unfold LiveObject.shown
  split
  · rfl
  · cases present : object.entry? key with
    | none => rfl
    | some entry =>
      rw [present, Option.bind_some] at none
      rw [Option.bind_some, valueOf, none, Option.filter_none]

/-- A deletion names the keys of the object that have values, and those that point to it
elsewhere. -/
theorem mem_changesNamed_deletion {changed : Graph} {time : Int} {clientId connectionId : Option String}
    {id : ObjectId} {key : String} {change : KeyChange} :
    change ∈ changesNamed (cascade listing changed ((object.delete time).1.causedBy clientId connectionId) ++
        [(object.delete time).1.causedBy clientId connectionId]) id key ↔
      change = .removed ∧
        ((∃ other, changed.get? id = some other ∧ key ∈ referringKeys object.id other) ∨
          object.id = id ∧ ((object.entry? key).bind Entry.value?).isSome) := by
  have deletes : ((object.delete time).1.causedBy clientId connectionId).tombstone = true := rfl
  have about : ((object.delete time).1.causedBy clientId connectionId).id = object.id := by
    simp only [LiveObject.delete, Update.causedBy]
    cases object.contents <;> rfl
  have own : change ∈ changesNamed [(object.delete time).1.causedBy clientId connectionId] id key ↔
      object.id = id ∧ change = .removed ∧ ((object.entry? key).bind Entry.value?).isSome := by
    have said : ((object.delete time).1.causedBy clientId connectionId).namedChange? id key =
        some change ↔ _ := namedChange?_delete
    simp only [← said, changesNamed, List.mem_filterMap, List.mem_singleton, exists_eq_left]
  rw [changesNamed_append, List.mem_append, own, mem_changesNamed_cascade deletes, about, and_or_left,
    and_left_comm (a := object.id = id)]

theorem isTombstoned_insert_self (before : Graph) (id : ObjectId) (next : LiveObject) :
    isTombstoned (before.insert id next) id = next.tombstone := by
  rw [isTombstoned, SortedMap.get?_insert_self, Option.any_some]

private theorem reported_delete (known : before.get? operation.target = some object)
    (addressed : object.id = operation.target) (dead : next.tombstone = true) {time : Int}
    {clientId connectionId : Option String} :
    Reported before (before.insert operation.target next)
      (cascade listing (before.insert operation.target next)
          ((object.delete time).1.causedBy clientId connectionId) ++
        [(object.delete time).1.causedBy clientId connectionId]) := by
  have gone := (isTombstoned_insert_self before operation.target next).trans dead
  refine .of_removed (fun id key changed => ?_) (fun id key change named => ?_)
  · refine mem_changesNamed_deletion.2 ⟨rfl, ?_⟩
    rw [addressed]
    by_cases same : id = operation.target
    · subst same
      rw [read_insert, if_pos rfl, LiveObject.shown_of_dead dead] at changed
      refine .inr ⟨rfl, isSome_value?_of_read known fun none => ?_⟩
      exact changed (.inl none)
    · obtain ⟨other, present, refers⟩ := exists_referringKeys_of_changed same changed
      refine .inl ⟨other, ?_, refers⟩
      rw [SortedMap.get?_insert_ite, if_neg same, present]
  · rw [mem_changesNamed_deletion, addressed] at named
    obtain ⟨removed, ⟨other, present, refers⟩ | ⟨mine, -⟩⟩ := named
    · refine ⟨removed, ?_⟩
      obtain ⟨live, entry, written, points⟩ := mem_referringKeys.1 refers
      rw [read_eq, present, Option.bind_some, LiveObject.shown, live, written]
      exact valueOf_of_dead gone points
    · refine ⟨removed, ?_⟩
      rw [read_insert, if_pos mine.symm, LiveObject.shown_of_dead dead]

/-- What a deleted counter counted is taken away. -/
theorem accounted_delete (known : before.get? operation.target = some object)
    (addressed : object.id = operation.target)
    (emptied : next.contents = .initial object.kind) {time : Int} {clientId connectionId : Option String}
    (id : ObjectId)
    (unrounded : ∀ amount ∈ amountsNamed
      (cascade listing (before.insert operation.target next)
          ((object.delete time).1.causedBy clientId connectionId) ++
        [(object.delete time).1.causedBy clientId connectionId]) id,
      (before.countOf id).SumsExactly amount) :
    Accounted before (before.insert operation.target next)
      (cascade listing (before.insert operation.target next)
          ((object.delete time).1.causedBy clientId connectionId) ++
        [(object.delete time).1.causedBy clientId connectionId]) id := by
  have cascadeSilent : amountsNamed (cascade listing (before.insert operation.target next)
      ((object.delete time).1.causedBy clientId connectionId)) id = [] :=
    amountsNamed_of_maps (fun _ member => amount?_of_mem_cascade member) id
  have countAfter := countOf_insert before operation.target next id
  rw [amountsNamed_append, cascadeSilent, List.nil_append] at unrounded
  cases held : object.contents with
  | map entries =>
    refine .of_unchanged ?_ ?_
    · rw [amountsNamed_append, cascadeSilent, List.nil_append]
      refine amountsNamed_of_maps (fun update member => ?_) id
      rw [List.mem_singleton.1 member]
      simp only [LiveObject.delete, held]
      rfl
    · rw [countAfter]
      split
      case isFalse => rfl
      case isTrue same =>
        rw [same, countOf_of_get? known, held, emptied, LiveObject.kind, held]
        rfl
  | counter count =>
    have own : amountsNamed [(object.delete time).1.causedBy clientId connectionId] id =
        if object.id = id then [Double.sub (.zero false) count] else [] := by
      simp only [amountsNamed, LiveObject.delete, held, Update.causedBy, Update.ofAmount,
        Update.amount?, List.filterMap_cons, List.filterMap_nil]
      split <;> simp_all
    by_cases same : id = operation.target
    case neg =>
      rw [if_neg same] at countAfter
      refine .of_unchanged ?_ (by rw [countAfter])
      rw [amountsNamed_append, cascadeSilent, own, addressed, if_neg (Ne.symm same)]
      rfl
    subst same
    rw [own, if_pos addressed] at unrounded
    obtain ⟨x, y, countSame, amountSame, -⟩ := unrounded _ (List.mem_singleton.2 rfl)
    have counted := countOf_of_counter known held
    rw [counted] at countSame
    have taken : y = -x := by
      rw [Double.units?_zero_sub, countSame, Option.map_some, Option.some.injEq] at amountSame
      exact amountSame.symm
    refine .of_single ?_ (by rw [counted, countSame]) amountSame ?_
    · rw [amountsNamed_append, cascadeSilent, own, if_pos addressed]
      rfl
    · rw [countAfter, if_pos rfl, emptied, LiveObject.kind, held, taken, Int.add_right_neg]
      exact Double.units?_zero false

/-! ## Deliveries -/

/-- Subscribers are told of everything: of all that readers of maps see change, and of the
change of each counter whose additions are not rounded. -/
structure Told (before after : Graph) (updates : List Update) : Prop where
  reported : Reported before after updates
  accounted : ∀ id, (∀ amount ∈ amountsNamed updates id, (before.countOf id).SumsExactly amount) →
    Accounted before after updates id

private theorem Told.of_silent {after : Graph}
    (reads : ∀ id key, Unchanged (before.read id key) (after.read id key))
    (counts : ∀ id, after.countOf id = before.countOf id) : Told before after [] :=
  ⟨.of_unchanged reads, fun id _ => .of_unchanged rfl (by rw [counts])⟩

theorem Told.of_grown {after : Graph} {updates : List Update} (grown : Grown graph before)
    (told : Told before after updates) : Told graph after updates where
  reported := told.reported.of_reads fun id key => (grown.read_eq id key).symm
  accounted id unrounded := by
    have counted := told.accounted id (by simpa only [grown.countOf_eq] using unrounded)
    unfold Accounted at counted ⊢
    rwa [grown.countOf_eq] at counted

theorem plain_of_stepFor? {step : Step} (asked : object.stepFor? operation = some step)
    (other : ∀ amount count, step ≠ .counter (.add amount) count) : operation.action ≠ .counterInc := by
  intro increment
  obtain ⟨-, effect, complete, made⟩ := LiveObject.effect_of_stepFor? asked
  cases (Operation.asks_of_effect complete).2 with
  | add acts given =>
    cases held : object.contents with
    | map entries => simp [held, Effect.on?] at made
    | counter count =>
      rw [held] at made
      exact other _ count (Option.some.inj made).symm
  | set acts | remove acts | createMap acts | createCounter acts | delete acts =>
    rw [acts] at increment
    cases increment

private theorem affectedKeys_of_stepFor? {effect : MapEffect} {entries : Entries}
    (asked : object.stepFor? operation = some (.map effect entries)) :
    operation.affectedKeys = effect.keys := by
  obtain ⟨-, found, complete, made⟩ := LiveObject.effect_of_stepFor? asked
  cases found with
  | delete => cases made
  | onCounter other => cases held : object.contents <;> simp [held, Effect.on?] at made
  | onMap other =>
    cases held : object.contents with
    | counter count => simp [held, Effect.on?] at made
    | map entries =>
      rw [held] at made
      cases made
      exact Operation.affectedKeys_of_effect complete

/-- What is announced about a step of an object. -/
def announced (listing : Listing) (before : Graph) (operation : Operation) (message : Message)
    (object : LiveObject) (result : Update × LiveObject) : List Update :=
  ((LiveObject.reportOf operation message result.1).map
    (report listing (before.insert operation.target result.2) operation object result.2)).getD []

/-- A step of a live map is announced key by key: just what readers see change is named. -/
theorem precise_map_step (listing : Listing) {effect : MapEffect} {entries : Entries}
    (known : before.get? operation.target = some object) (live : object.tombstone = false)
    (asked : object.stepFor? operation = some (.map effect entries)) (message : Message)
    (origin : String × Serial) (time : Int) :
    let result := (object.admitting origin).run (.map effect entries) origin.2 time
    Precise before (before.insert operation.target result.2)
        (announced listing before operation message object result) ∧
      (∃ changes, result.1 = .ofKeys object.id changes) ∧ result.2.kind = object.kind := by
  intro result
  have addressed : object.id = operation.target := (LiveObject.effect_of_stepFor? asked).1.symm
  have held : object.contents = .map entries := LiveObject.fits_of_stepFor? asked
  have plain : operation.action ≠ .counterInc :=
    plain_of_stepFor? asked fun _ _ => by simp only [ne_eq, reduceCtorEq, not_false_eq_true]
  have heldToo : (object.admitting origin).contents = .map entries := held
  obtain ⟨changes, written, said, heldNext, tombstone, kept⟩ :=
    LiveObject.run_map heldToo effect origin.2 time
  have saidSame : result.1 = .ofKeys object.id changes := said
  have nextSame : result.2.contents = .map written := heldNext
  have liveNext : result.2.tombstone = false := tombstone.trans live
  rw [← affectedKeys_of_stepFor? asked] at kept
  refine ⟨?_, ⟨changes, saidSame⟩, ?_⟩
  · rw [announced, saidSame]
    exact precise_map known addressed live liveNext held nextSame plain message kept
  · rw [LiveObject.kind, LiveObject.kind, held, nextSame]
    rfl

private theorem told_map_step {effect : MapEffect} {entries : Entries}
    (known : before.get? operation.target = some object) (live : object.tombstone = false)
    (asked : object.stepFor? operation = some (.map effect entries)) (message : Message)
    (origin : String × Serial) (time : Int) :
    let result := (object.admitting origin).run (.map effect entries) origin.2 time
    Told before (before.insert operation.target result.2)
      (announced listing before operation message object result) := by
  intro result
  have held : object.contents = .map entries := LiveObject.fits_of_stepFor? asked
  obtain ⟨precise, ⟨changes, said⟩, kindNext⟩ := precise_map_step listing known live asked message origin time
  rw [LiveObject.kind, LiveObject.kind, held] at kindNext
  obtain ⟨written, heldNext⟩ := LiveObject.exists_entries kindNext
  refine ⟨.of_between precise, fun id _ => .of_unchanged (amountsNamed_of_maps (fun told member => ?_) id) ?_⟩
  · have plain : operation.action ≠ .counterInc :=
      plain_of_stepFor? asked fun _ _ => by simp only [ne_eq, reduceCtorEq, not_false_eq_true]
    rw [announced, show result.1 = _ from said, reportOf_ofKeys plain] at member
    split at member
    · cases member
    · exact amount?_of_mem_report rfl member
  · rw [countOf_insert]
    split
    case isFalse => rfl
    case isTrue same =>
      rw [same, countOf_of_get? known, held, heldNext]
      rfl

private theorem keyChanges?_of_mem_announced {amount : Double} {id : ObjectId} {silent : Bool}
    {clientId connectionId : Option String} {told : Update}
    (member : told ∈ if silent then [] else [(Update.ofAmount id amount).causedBy clientId connectionId]) :
    told.keyChanges? = none := by
  split at member
  · cases member
  · rw [List.mem_singleton.1 member]
    rfl

/-- An amount that is added to a live counter is told. -/
theorem told_amount {count amount : Double} {result : Update × LiveObject}
    (known : before.get? operation.target = some object) (addressed : object.id = operation.target)
    (same : result.2.tombstone = object.tombstone) (held : object.contents = .counter count)
    (said : result.1 = .ofAmount object.id amount)
    (heldNext : result.2.contents = .counter (count.add amount)) (message : Message) :
    Told before (before.insert operation.target result.2)
      (announced listing before operation message object result) := by
  rw [announced, said, announce_ofAmount]
  refine ⟨reported_counter known same held heldNext fun _ => keyChanges?_of_mem_announced,
    fun id unrounded => ?_⟩
  refine accounted_counter known addressed held heldNext ⟨rfl, rfl⟩ (fun silent => ?_) id unrounded
  rw [Bool.and_eq_true] at silent
  exact silent.1

/-- Nobody notices what a gate remembers. -/
theorem told_admitting (known : before.get? operation.target = some object) (origin : String × Serial) :
    Told before (before.insert operation.target (object.admitting origin)) [] := by
  have same : (object.admitting origin).tombstone = object.tombstone := rfl
  refine .of_silent (fun id key => ?_) fun id => ?_
  · rw [read_insert_of_same known same]
    split
    case isTrue equal =>
      rw [equal, read_of_get? known]
      exact .refl _
    case isFalse => exact .refl _
  · rw [countOf_insert]
    split
    case isTrue equal =>
      rw [equal, countOf_of_get? known]
      rfl
    case isFalse => rfl

private theorem told_counter_step {effect : CounterEffect} {count : Double}
    (known : before.get? operation.target = some object)
    (asked : object.stepFor? operation = some (.counter effect count)) (message : Message)
    (origin : String × Serial) (time : Int) :
    let result := (object.admitting origin).run (.counter effect count) origin.2 time
    Told before (before.insert operation.target result.2)
      (announced listing before operation message object result) := by
  intro result
  have addressed : object.id = operation.target := (LiveObject.effect_of_stepFor? asked).1.symm
  have held : object.contents = .counter count := LiveObject.fits_of_stepFor? asked
  cases effect with
  | add amount => exact told_amount known addressed rfl held rfl rfl message
  | create first =>
    by_cases merged : object.createMerged = true
    case neg =>
      have mergedToo : ¬ (object.admitting origin).createMerged = true := merged
      have resultSame : result = (.ofAmount object.id first,
          { object.admitting origin with createMerged := true, contents := .counter (count.add first) }) :=
        if_neg mergedToo
      rw [resultSame]
      exact told_amount known addressed rfl held rfl rfl message
    have mergedToo : (object.admitting origin).createMerged = true := merged
    have resultSame : result = (.ofAmount object.id (.zero false), object.admitting origin) :=
      if_pos mergedToo
    have plain : operation.action ≠ .counterInc :=
      plain_of_stepFor? asked fun _ _ => by simp only [ne_eq, Step.counter.injEq, reduceCtorEq,
        false_and, not_false_eq_true]
    have silent : announced listing before operation message object result = [] := by
      rw [announced, resultSame, announce_ofAmount, Double.isZero_zero, Bool.true_and,
        if_pos (bne_iff_ne.2 plain)]
    rw [silent, resultSame]
    exact told_admitting known origin

private theorem told_delete_step (known : before.get? operation.target = some object)
    (addressed : object.id = operation.target) (message : Message) (origin : String × Serial)
    (time : Int) :
    let result := (object.admitting origin).run .delete origin.2 time
    Told before (before.insert operation.target result.2)
      (announced listing before operation message object result) := by
  intro result
  have said : result.1 = (object.delete time).1 := rfl
  rw [announced, said, announce_delete _ _ _ _ _ _ rfl]
  exact ⟨reported_delete known addressed rfl, fun id unrounded =>
    accounted_delete known addressed rfl id unrounded⟩

/-- Whatever a delivery does is told to subscribers, in whichever order. -/
theorem told_deliverIn (listing : Listing) (graph : Graph) (message : Message) (now : Int) :
    Told graph (graph.deliverIn listing message now).2 (graph.deliverIn listing message now).1 := by
  rcases deliver_cases listing graph message now with same | ⟨operation, kind, object, shown, held, ended⟩
  · rw [same]
    exact .of_silent (fun _ _ => .refl _) fun _ => rfl
  have known := prepare_target shown held
  refine .of_grown (grown_prepare shown) ?_
  rcases ended with same | ⟨step, origin, asked, ⟨dead, same⟩ | ⟨live, same⟩⟩
  · rw [same]
    exact .of_silent (fun _ _ => .refl _) fun _ => rfl
  · rw [same]
    exact told_admitting known origin
  · simp only at same
    rw [same]
    cases step with
    | map effect entries => exact told_map_step known live asked (message.stampedAt now) origin _
    | counter effect count => exact told_counter_step known asked (message.stampedAt now) origin _
    | delete =>
      exact told_delete_step known (LiveObject.effect_of_stepFor? asked).1.symm
        (message.stampedAt now) origin _

end Graph

end SharedGraph
