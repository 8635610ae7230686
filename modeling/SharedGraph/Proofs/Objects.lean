import SharedGraph.LiveObject
import SharedGraph.Proofs.Registers

/-! What an operation can do to an object. It is refused, or stopped at the gate of its
site, or accepted; and an object that has met an operation once stops it ever after. All
later arguments about runs go through the few facts that are stated here. -/
namespace SharedGraph

/-- The site and the serial of a message, unless it lacks one or leaves it empty. -/
def Message.origin? (message : Message) : Option (String × Serial) :=
  (Serial.effective message.serial).bind fun serial =>
    (message.site.filter fun site => !site.isEmpty).map fun site => (site, serial)

theorem Message.site_of_origin? {message : Message} {origin : String × Serial}
    (from? : message.origin? = some origin) : message.site = some origin.1 := by
  obtain ⟨serial, -, issued⟩ := Option.bind_eq_some_iff.1 from?
  obtain ⟨site, filtered, rfl⟩ := Option.map_eq_some_iff.1 issued
  exact (Option.filter_eq_some_iff.1 filtered).1

theorem Message.serial_of_origin? {message : Message} {origin : String × Serial}
    (from? : message.origin? = some origin) :
    message.serial = some origin.2 ∧ Serial.effective message.serial = some origin.2 := by
  obtain ⟨serial, placed, issued⟩ := Option.bind_eq_some_iff.1 from?
  obtain ⟨site, -, rfl⟩ := Option.map_eq_some_iff.1 issued
  exact ⟨(Option.filter_eq_some_iff.1 placed).1, placed⟩

/-- The step was made from these contents. -/
def Step.Fits : Step → Contents → Prop
  | .map _ entries, contents => contents = .map entries
  | .counter _ count, contents => contents = .counter count
  | .delete, _ => True

/-- The step merges first contents. -/
def Step.isCreate : Step → Bool
  | .map (.create _) _ | .counter (.create _) _ => true
  | _ => false

private theorem Effect.fits_on? {effect : Effect} {contents : Contents} {step : Step}
    (made : effect.on? contents = some step) : step.Fits contents := by
  cases effect <;> cases contents <;> simp only [Effect.on?, Option.some.injEq, reduceCtorEq] at made <;>
    subst made <;> simp only [Step.Fits]

/-- Whether an effect is of use depends on the kind of the contents alone. -/
theorem Effect.isSome_on? (effect : Effect) {contents other : Contents}
    (same : contents.kind = other.kind) : (effect.on? contents).isSome = (effect.on? other).isSome := by
  cases contents <;> cases other <;> simp only [Contents.kind, reduceCtorEq] at same <;>
    cases effect <;> rfl

def Effect.isCreate : Effect → Bool
  | .onMap (.create _) | .onCounter (.create _) => true
  | _ => false

private theorem Effect.isCreate_on? {effect : Effect} {contents : Contents} {step : Step}
    (made : effect.on? contents = some step) : step.isCreate = effect.isCreate := by
  cases effect with
  | onMap effect =>
    cases contents <;> simp only [Effect.on?, Option.some.injEq, reduceCtorEq] at made
    subst made
    cases effect <;> rfl
  | onCounter effect =>
    cases contents <;> simp only [Effect.on?, Option.some.injEq, reduceCtorEq] at made
    subst made
    cases effect <;> rfl
  | delete =>
    cases made
    rfl

/-- What a complete operation has an effect with: the parts that its action needs, each of
them checked. -/
inductive Operation.Asks (operation : Operation) : Effect → Prop
  | set {key : String} {data : Data} (acts : operation.action = .mapSet)
      (edited : operation.keyEdit = some ⟨key, some data⟩) (fine : data.check = .ok ()) :
      Asks operation (.onMap (.set key data))
  | remove {edit : KeyEdit} (acts : operation.action = .mapRemove)
      (edited : operation.keyEdit = some edit) : Asks operation (.onMap (.remove edit.key))
  | add {amount : Double} (acts : operation.action = .counterInc)
      (given : operation.amount = some amount) : Asks operation (.onCounter (.add amount))
  | createMap (acts : operation.action = .mapCreate) (fine : operation.checkCreate = .ok ()) :
      Asks operation (.onMap (.create operation.firstEntries))
  | createCounter (acts : operation.action = .counterCreate) :
      Asks operation (.onCounter (.create operation.firstCount))
  | delete (acts : operation.action = .objectDelete) : Asks operation .delete

theorem Operation.asks_of_effect {operation : Operation} {effect : Effect}
    (complete : operation.effect = .ok effect) :
    operation.checkTarget = .ok () ∧ operation.Asks effect := by
  unfold Operation.effect at complete
  cases target : operation.checkTarget with
  | error fault => simp [target, bind, Except.bind] at complete
  | ok =>
    refine ⟨rfl, ?_⟩
    simp only [target, bind, Except.bind] at complete
    cases acts : operation.action <;> simp only [acts] at complete
    case mapSet =>
      split at complete
      case h_1 => cases complete
      case h_2 => cases complete
      case h_3 key data edited =>
        split at complete
        case h_1 => cases complete
        case h_2 fine =>
          cases complete
          exact .set acts edited fine
    case mapRemove =>
      split at complete
      case h_1 => cases complete
      case h_2 edit edited =>
        cases complete
        exact .remove acts edited
    case counterInc =>
      split at complete
      case h_1 => cases complete
      case h_2 amount given =>
        split at complete <;> cases complete
        exact .add acts given
    case mapCreate =>
      split at complete
      case h_1 => cases complete
      case h_2 fine =>
        cases complete
        exact .createMap acts fine
    case counterCreate =>
      split at complete <;> cases complete
      exact .createCounter acts
    case objectDelete =>
      split at complete <;> cases complete
      exact .delete acts

/-- A complete create operation merges its own first contents. -/
theorem Operation.effect_of_isCreate {operation : Operation} {effect : Effect}
    (complete : operation.effect = .ok effect) (create : operation.action.isCreate = true) :
    effect = .onMap (.create operation.firstEntries) ∨
      effect = .onCounter (.create operation.firstCount) := by
  cases (asks_of_effect complete).2 with
  | createMap => exact .inl rfl
  | createCounter => exact .inr rfl
  | set acts | remove acts | add acts | delete acts =>
    rw [acts] at create
    cases create

private theorem Operation.isCreate_of_effect {operation : Operation} {effect : Effect}
    (complete : operation.effect = .ok effect) : effect.isCreate = operation.action.isCreate := by
  cases (asks_of_effect complete).2 with
  | set acts | remove acts | add acts | createMap acts | createCounter acts | delete acts =>
    rw [acts]
    rfl

namespace LiveObject

/-- The step that an operation asks of an object, if it is complete and for this object. -/
def stepFor? (object : LiveObject) (operation : Operation) : Option Step :=
  if operation.target = object.id then
    operation.effect.toOption.bind fun effect => effect.on? object.contents
  else none

def admits (object : LiveObject) (origin : String × Serial) : Bool :=
  SiteSerials.admits object.serials origin.1 origin.2

/-- The object once it has let an operation through its gate. -/
def admitting (object : LiveObject) (origin : String × Serial) : LiveObject :=
  { object with serials := SiteSerials.record object.serials origin.1 origin.2 }

/-- An accepted step; a deleted object only remembers that it passed. -/
def carry (object : LiveObject) (step : Step) (origin : String × Serial) (time : Int) : LiveObject :=
  if object.tombstone then object.admitting origin
  else ((object.admitting origin).run step origin.2 time).2

/-- What is reported about an accepted step of a live object. -/
def reportOf (operation : Operation) (message : Message) (update : Update) : Option Update :=
  let reported := update.causedBy message.clientId message.connectionId
  if reported.isNoop && operation.action != .counterInc then none else some reported

/-- The object after an operation was offered to it, whatever came of that. -/
def take (object : LiveObject) (operation : Operation) (message : Message) : LiveObject :=
  match object.apply operation message with
  | .ok (_, next) => next
  | .error _ => object

/-- The object after a message was offered to it. -/
def hear (object : LiveObject) (message : Message) : LiveObject :=
  match message.operation with
  | some operation => object.take operation message
  | none => object

variable {object : LiveObject} {operation : Operation} {message : Message} {step : Step}
  {origin : String × Serial}

/-! ## The ways an offer ends -/

theorem effect_of_stepFor? (asked : object.stepFor? operation = some step) :
    operation.target = object.id ∧
      ∃ effect, operation.effect = .ok effect ∧ effect.on? object.contents = some step := by
  unfold stepFor? at asked
  split at asked
  case isFalse => cases asked
  case isTrue addressed =>
    obtain ⟨effect, complete, made⟩ := Option.bind_eq_some_iff.1 asked
    cases done : operation.effect with
    | error fault => simp [done, Except.toOption] at complete
    | ok other =>
      simp only [done, Except.toOption, Option.some.injEq] at complete
      exact ⟨addressed, effect, by rw [complete], made⟩

theorem apply_of_refused (refused : object.stepFor? operation = none ∨ message.origin? = none) :
    ∃ fault, object.apply operation message = .error fault := by
  unfold apply
  by_cases addressed : operation.target = object.id
  case neg => simp only [ne_eq, addressed, not_false_eq_true, ↓reduceIte, Except.error.injEq, exists_eq']
  simp only [stepFor?, addressed, ↓reduceIte] at refused
  simp only [ne_eq, addressed, not_true_eq_false, ↓reduceIte]
  cases complete : operation.effect with
  | error fault => exact ⟨fault, rfl⟩
  | ok effect =>
    simp only [complete, Except.toOption, Option.bind_some] at refused
    simp only [bind, Except.bind]
    cases made : effect.on? object.contents with
    | none => exact ⟨_, rfl⟩
    | some step =>
      have lacking := refused.resolve_left (by simp [made])
      cases placed : Serial.effective message.serial with
      | none => exact ⟨_, rfl⟩
      | some serial =>
        cases issued : message.site.filter fun site => !site.isEmpty with
        | none => exact ⟨_, rfl⟩
        | some site => simp [Message.origin?, placed, issued] at lacking

/-- An offer that is not refused goes through the gate or stops there. -/
theorem apply_of_step (asked : object.stepFor? operation = some step)
    (from? : message.origin? = some origin) :
    object.apply operation message =
      if object.admits origin then
        if object.tombstone then .ok (.applied none, object.admitting origin)
        else
          .ok (.applied (reportOf operation message
            ((object.admitting origin).run step origin.2 (message.timestamp.getD 0)).1),
            object.carry step origin (message.timestamp.getD 0))
      else .ok (.stale, object) := by
  obtain ⟨addressed, effect, done, made⟩ := effect_of_stepFor? asked
  obtain ⟨serial, placed, rest⟩ := Option.bind_eq_some_iff.1 from?
  obtain ⟨site, issued, rfl⟩ := Option.map_eq_some_iff.1 rest
  simp only [apply, ne_eq, addressed, not_true_eq_false, ↓reduceIte, bind, Except.bind, done, made,
    placed, issued, admits, carry, admitting]
  by_cases open? : SiteSerials.admits object.serials site serial = true
  · by_cases dead : object.tombstone = true
    · simp only [open?, Bool.not_true, Bool.false_eq_true, ↓reduceIte, dead]
    · simp only [open?, Bool.not_true, Bool.false_eq_true, ↓reduceIte, dead, reportOf]
  · simp only [open?, Bool.not_false, ↓reduceIte, Bool.false_eq_true]

/-- What is stopped at the gate leaves the object as it is. -/
theorem eq_of_apply_stale {next : LiveObject}
    (stopped : object.apply operation message = .ok (.stale, next)) : next = object := by
  cases asked : object.stepFor? operation with
  | none =>
    obtain ⟨fault, same⟩ := apply_of_refused (.inl asked : _ ∨ message.origin? = none)
    rw [same] at stopped
    cases stopped
  | some step =>
    cases from? : message.origin? with
    | none =>
      obtain ⟨fault, same⟩ := apply_of_refused (.inr from? : object.stepFor? operation = none ∨ _)
      rw [same] at stopped
      cases stopped
    | some origin =>
      rw [apply_of_step asked from?] at stopped
      split at stopped
      · split at stopped <;> cases stopped
      · cases stopped
        rfl

theorem take_of_refused (refused : object.stepFor? operation = none ∨ message.origin? = none) :
    object.take operation message = object := by
  obtain ⟨fault, same⟩ := apply_of_refused refused
  simp only [take, same]

theorem take_of_step (asked : object.stepFor? operation = some step)
    (from? : message.origin? = some origin) :
    object.take operation message =
      if object.admits origin then object.carry step origin (message.timestamp.getD 0)
      else object := by
  unfold take
  rw [apply_of_step asked from?]
  cases object.admits origin with
  | false => rfl
  | true =>
    cases dead : object.tombstone with
    | true => simp [carry, dead]
    | false => rfl

/-- An offer changes nothing, or it carries out a step that the gate admits. -/
theorem take_cases (object : LiveObject) (operation : Operation) (message : Message) :
    object.take operation message = object ∨
      ∃ step origin, object.stepFor? operation = some step ∧ message.origin? = some origin ∧
        object.admits origin = true ∧
        object.take operation message = object.carry step origin (message.timestamp.getD 0) := by
  cases asked : object.stepFor? operation with
  | none => exact .inl (take_of_refused (.inl asked))
  | some step =>
    cases from? : message.origin? with
    | none => exact .inl (take_of_refused (.inr from?))
    | some origin =>
      rw [take_of_step asked from?]
      cases open? : object.admits origin with
      | false => exact .inl rfl
      | true => exact .inr ⟨step, origin, rfl, rfl, open?, rfl⟩

/-! ## What no offer changes -/

theorem fits_of_stepFor? (asked : object.stepFor? operation = some step) :
    step.Fits object.contents := by
  obtain ⟨-, effect, -, made⟩ := effect_of_stepFor? asked
  exact Effect.fits_on? made

private theorem isSome_stepFor? {other : LiveObject} (sameId : object.id = other.id)
    (sameKind : object.kind = other.kind) :
    (object.stepFor? operation).isSome = (other.stepFor? operation).isSome := by
  simp only [stepFor?, sameId]
  split
  · cases operation.effect with
    | error fault => rfl
    | ok effect => exact Effect.isSome_on? effect sameKind
  · rfl

@[simp] private theorem run_id (object : LiveObject) (step : Step) (serial : Serial) (time : Int) :
    (object.run step serial time).2.id = object.id := by
  cases step with
  | map effect entries =>
    cases effect with
    | create first => simp only [run, mergeEntries]; split <;> rfl
    | _ => rfl
  | counter effect count =>
    cases effect with
    | create first => simp only [run, mergeCount]; split <;> rfl
    | add => rfl
  | delete => rfl

@[simp] private theorem run_serials (object : LiveObject) (step : Step) (serial : Serial) (time : Int) :
    (object.run step serial time).2.serials = object.serials := by
  cases step with
  | map effect entries =>
    cases effect with
    | create first => simp only [run, mergeEntries]; split <;> rfl
    | _ => rfl
  | counter effect count =>
    cases effect with
    | create first => simp only [run, mergeCount]; split <;> rfl
    | add => rfl
  | delete => rfl

private theorem run_createMerged (object : LiveObject) (step : Step) (serial : Serial) (time : Int) :
    (object.run step serial time).2.createMerged = (object.createMerged || step.isCreate) := by
  cases step with
  | map effect entries =>
    cases effect with
    | create first =>
      simp only [run, mergeEntries, Step.isCreate, Bool.or_true]
      split
      case isTrue before => exact before
      case isFalse => rfl
    | _ => simp only [run, keyUpdate, Step.isCreate, Bool.or_false]
  | counter effect count =>
    cases effect with
    | create first =>
      simp only [run, mergeCount, Step.isCreate, Bool.or_true]
      split
      case isTrue before => exact before
      case isFalse => rfl
    | add => simp only [run, Step.isCreate, Bool.or_false]
  | delete => simp only [run, delete, Step.isCreate, Bool.or_false]

theorem kind_initial (kind : Kind) : (Contents.initial kind).kind = kind := by cases kind <;> rfl

theorem exists_entries (map : object.kind = .map) : ∃ entries, object.contents = .map entries := by
  unfold kind at map
  cases held : object.contents with
  | map entries => exact ⟨entries, rfl⟩
  | counter count =>
    rw [held] at map
    cases map

theorem exists_count (counter : object.kind = .counter) : ∃ count, object.contents = .counter count := by
  unfold kind at counter
  cases held : object.contents with
  | counter count => exact ⟨count, rfl⟩
  | map entries =>
    rw [held] at counter
    cases counter

theorem run_kind (fits : step.Fits object.contents) (serial : Serial) (time : Int) :
    (object.run step serial time).2.kind = object.kind := by
  cases step with
  | map effect entries =>
    simp only [Step.Fits] at fits
    cases effect with
    | create first =>
      simp only [run, mergeEntries]
      split
      · rfl
      · simp only [kind, fits, Contents.kind]
    | _ => simp only [run, keyUpdate, kind, fits, Contents.kind]
  | counter effect count =>
    simp only [Step.Fits] at fits
    cases effect with
    | create first =>
      simp only [run, mergeCount]
      split
      · rfl
      · simp only [kind, fits, Contents.kind]
    | add => simp only [run, kind, fits, Contents.kind]
  | delete => simp only [run, delete, kind, kind_initial]

@[simp] private theorem carry_id (object : LiveObject) (step : Step) (origin : String × Serial)
    (time : Int) : (object.carry step origin time).id = object.id := by
  unfold carry
  split
  · rfl
  · rw [run_id]; rfl

@[simp] theorem carry_serials (object : LiveObject) (step : Step) (origin : String × Serial)
    (time : Int) :
    (object.carry step origin time).serials = object.serials.record origin.1 origin.2 := by
  unfold carry
  split
  · rfl
  · rw [run_serials]; rfl

private theorem carry_kind (fits : step.Fits object.contents) (origin : String × Serial) (time : Int) :
    (object.carry step origin time).kind = object.kind := by
  unfold carry
  split
  · rfl
  · have fitsNext : step.Fits (object.admitting origin).contents := fits
    rw [run_kind fitsNext]
    rfl

@[simp] theorem take_id (object : LiveObject) (operation : Operation) (message : Message) :
    (object.take operation message).id = object.id := by
  rcases object.take_cases operation message with same | ⟨step, origin, -, -, -, same⟩
  · rw [same]
  · rw [same, carry_id]

@[simp] theorem take_kind (object : LiveObject) (operation : Operation) (message : Message) :
    (object.take operation message).kind = object.kind := by
  rcases object.take_cases operation message with same | ⟨step, origin, asked, -, -, same⟩
  · rw [same]
  · rw [same, carry_kind (fits_of_stepFor? asked)]

@[simp] theorem hear_id (object : LiveObject) (message : Message) :
    (object.hear message).id = object.id := by
  unfold hear
  split
  · exact take_id ..
  · rfl

@[simp] theorem hear_kind (object : LiveObject) (message : Message) :
    (object.hear message).kind = object.kind := by
  unfold hear
  split
  · exact take_kind ..
  · rfl

/-! ## Redelivery -/

/-- The message would not get past the gate any more, if it ever would have. -/
def Settled (object : LiveObject) (operation : Operation) (message : Message) : Prop :=
  ∀ origin, (object.stepFor? operation).isSome → message.origin? = some origin →
    object.admits origin = false

theorem take_of_settled (settled : object.Settled operation message) :
    object.take operation message = object := by
  rcases object.take_cases operation message with same | ⟨step, origin, asked, from?, open?, -⟩
  · exact same
  · have stopped := settled origin (by rw [asked]; rfl) from?
    rw [open?] at stopped
    cases stopped

private theorem admits_record_self (serials : SiteSerials) (site : String) (serial : Serial) :
    (serials.record site serial).admits site serial = false := by
  simp only [SiteSerials.admits, SiteSerials.record, SortedMap.get?_insert_self, decide_eq_false_iff_not]
  exact Serial.lt_irrefl serial

theorem admits_record_of_ne {site other : String} (different : other ≠ site) (serials : SiteSerials)
    (serial passed : Serial) :
    (serials.record site passed).admits other serial = serials.admits other serial := by
  simp only [SiteSerials.admits, SiteSerials.record, SortedMap.get?_insert_of_ne _ _ different]

/-- A gate only ever closes further. -/
theorem admits_record {serials : SiteSerials} {site other : String} {serial passed : Serial}
    (open? : serials.admits site passed = true) (closed : serials.admits other serial = false) :
    (serials.record site passed).admits other serial = false := by
  by_cases same : other = site
  · subst same
    simp only [SiteSerials.admits, SiteSerials.record, SortedMap.get?_insert_self,
      decide_eq_false_iff_not] at open? closed ⊢
    cases accepted : serials.get? other with
    | none => simp [accepted] at closed
    | some greatest =>
      simp only [accepted, decide_eq_true_eq, decide_eq_false_iff_not] at open? closed
      exact fun less => closed (Serial.lt_trans open? less)
  · rw [admits_record_of_ne same, closed]

theorem settled_take (object : LiveObject) (operation : Operation) (message : Message) :
    (object.take operation message).Settled operation message := by
  intro origin asked from?
  rw [isSome_stepFor? (take_id ..) (take_kind ..)] at asked
  obtain ⟨step, stepSame⟩ := Option.isSome_iff_exists.1 asked
  rw [take_of_step stepSame from?]
  by_cases open? : object.admits origin = true
  · rw [if_pos open?, admits, carry_serials]
    exact admits_record_self ..
  · rw [if_neg open?]
    exact Bool.eq_false_iff.2 open?

/-- Later offers do not let an earlier one in again. -/
theorem Settled.take (settled : object.Settled operation message) (later : Operation)
    (envelope : Message) : (object.take later envelope).Settled operation message := by
  intro origin asked from?
  rw [isSome_stepFor? (take_id ..) (take_kind ..)] at asked
  have closed := settled origin asked from?
  rcases object.take_cases later envelope with same | ⟨step, passed, -, -, open?, same⟩
  · rw [same, closed]
  · rw [same, admits, carry_serials]
    exact admits_record open? closed

theorem Settled.hear (settled : object.Settled operation message)
    (later : Message) : (object.hear later).Settled operation message := by
  unfold LiveObject.hear
  cases later.operation with
  | none => exact settled
  | some other => exact settled.take other later

/-- Whatever an object has heard it stops at the gate from then on. -/
theorem settled_foldl_hear (object : LiveObject) {stream : List Message} (member : message ∈ stream)
    {operation : Operation} (carried : message.operation = some operation) :
    (stream.foldl LiveObject.hear object).Settled operation message := by
  induction stream generalizing object with
  | nil => cases member
  | cons first rest ih =>
    rw [List.foldl_cons]
    rcases List.mem_cons.1 member with rfl | later
    · have settled : (object.hear message).Settled operation message := by
        simp only [LiveObject.hear, carried]
        exact settled_take object operation message
      clear ih member
      generalize object.hear message = current at settled
      induction rest generalizing current with
      | nil => exact settled
      | cons next rest ih => exact ih _ (settled.hear next)
    · exact ih _ later

theorem hear_of_heard (object : LiveObject) {stream : List Message} (member : message ∈ stream) :
    (stream.foldl LiveObject.hear object).hear message = stream.foldl LiveObject.hear object := by
  cases carried : message.operation with
  | none => simp only [LiveObject.hear, carried]
  | some operation =>
    have stopped := take_of_settled (settled_foldl_hear object member carried)
    unfold LiveObject.hear at stopped ⊢
    simp only [carried, stopped]

/-! ## What a description leaves out -/

/-- The object with other marks: when it was deleted, and whether its first contents
were merged. A description does not carry either. -/
def remark (object : LiveObject) (deleted : Option Int) (merged : Bool) : LiveObject :=
  { object with tombstonedAt := deleted, createMerged := merged }

@[simp] private theorem toState_remark (object : LiveObject) (deleted : Option Int) (merged : Bool) :
    (object.remark deleted merged).toState = object.toState := rfl

/-- Objects with one description differ in their marks alone. -/
theorem eq_remark_of_toState {other : LiveObject} (same : object.toState = other.toState) :
    other = object.remark other.tombstonedAt other.createMerged := by
  obtain ⟨id, serials, tombstone, tombstonedAt, createMerged, contents⟩ := object
  obtain ⟨otherId, otherSerials, otherTombstone, otherTime, otherMerged, otherContents⟩ := other
  simp only [toState, entries?, ObjectState.mk.injEq, true_and] at same
  obtain ⟨rfl, rfl, rfl, entriesSame, countSame⟩ := same
  simp only [remark, mk.injEq, true_and]
  cases contents <;> cases otherContents <;>
    simp_all only [Contents.entries?, Contents.count?, Option.some.injEq, reduceCtorEq]

/-- Only merging first contents looks at a mark. -/
theorem run_remark (deleted : Option Int) {merged : Bool}
    (agree : step.isCreate = true → object.createMerged = merged) (serial : Serial) (time : Int) :
    ((object.remark deleted merged).run step serial time).1 = (object.run step serial time).1 ∧
      ((object.remark deleted merged).run step serial time).2.toState =
        (object.run step serial time).2.toState := by
  cases step with
  | map effect entries =>
    cases effect with
    | create first =>
      simp only [run, mergeEntries, remark, agree rfl]
      by_cases before : merged = true
      · simp only [before, ↓reduceIte, true_and]
        rfl
      · simp only [before, Bool.false_eq_true, ↓reduceIte, true_and]
        rfl
    | _ => exact ⟨rfl, rfl⟩
  | counter effect count =>
    cases effect with
    | create first =>
      simp only [run, mergeCount, remark, agree rfl]
      by_cases before : merged = true
      · simp only [before, ↓reduceIte, true_and]
        rfl
      · simp only [before, Bool.false_eq_true, ↓reduceIte, true_and]
        rfl
    | add => exact ⟨rfl, rfl⟩
  | delete => exact ⟨rfl, rfl⟩

private theorem carry_remark (deleted : Option Int) {merged : Bool}
    (agree : object.tombstone = false → step.isCreate = true → object.createMerged = merged)
    (origin : String × Serial) (time : Int) :
    ((object.remark deleted merged).carry step origin time).toState =
      (object.carry step origin time).toState := by
  unfold carry
  by_cases dead : object.tombstone = true
  · have deadOther : (object.remark deleted merged).tombstone = true := dead
    rw [if_pos dead, if_pos deadOther]
    rfl
  · have deadOther : ¬ (object.remark deleted merged).tombstone = true := dead
    have agreeLive : step.isCreate = true → (object.admitting origin).createMerged = merged :=
      agree (Bool.eq_false_iff.2 dead)
    rw [if_neg dead, if_neg deadOther]
    exact (run_remark deleted agreeLive origin.2 time).2

private theorem isCreate_of_stepFor? (asked : object.stepFor? operation = some step) :
    step.isCreate = operation.action.isCreate := by
  obtain ⟨-, effect, complete, made⟩ := effect_of_stepFor? asked
  rw [Effect.isCreate_on? made, Operation.isCreate_of_effect complete]

/-- The object lives and lets a create operation through, whether or not it then merges it. -/
def acceptsCreate (object : LiveObject) (operation : Operation) (message : Message) : Bool :=
  operation.action.isCreate && (object.stepFor? operation).isSome &&
    message.origin?.any object.admits && !object.tombstone

private theorem acceptsCreate_of_step (asked : object.stepFor? operation = some step)
    (from? : message.origin? = some origin) (open? : object.admits origin = true)
    (live : object.tombstone = false) : object.acceptsCreate operation message = step.isCreate := by
  simp only [acceptsCreate, asked, from?, Option.isSome_some, Option.any_some, open?, live,
    Bool.and_true, Bool.not_false, isCreate_of_stepFor? asked]

theorem acceptsCreate_congr {other : LiveObject} (same : object.toState = other.toState)
    (operation : Operation) (message : Message) :
    other.acceptsCreate operation message = object.acceptsCreate operation message := by
  rw [eq_remark_of_toState same]
  rfl

/-- Two objects with one description stay alike, unless they accept a create operation and
only one of them has merged first contents before. -/
theorem take_congr {other : LiveObject} (same : object.toState = other.toState)
    (agree : object.acceptsCreate operation message = true →
      object.createMerged = other.createMerged) :
    (other.take operation message).toState = (object.take operation message).toState := by
  rw [eq_remark_of_toState same]
  generalize other.tombstonedAt = deleted
  generalize other.createMerged = merged at agree ⊢
  have stepSame : (object.remark deleted merged).stepFor? operation = object.stepFor? operation := rfl
  cases asked : object.stepFor? operation with
  | none =>
    rw [take_of_refused (.inl asked), take_of_refused (.inl (stepSame.trans asked)), toState_remark]
  | some step =>
    cases from? : message.origin? with
    | none =>
      rw [take_of_refused (.inr from?), take_of_refused (.inr from?), toState_remark]
    | some origin =>
      rw [take_of_step asked from?, take_of_step (stepSame.trans asked) from?]
      have gateSame : (object.remark deleted merged).admits origin = object.admits origin := rfl
      rw [gateSame]
      by_cases open? : object.admits origin = true
      · rw [if_pos open?, if_pos open?]
        exact carry_remark deleted
          (fun live create => agree (by rw [acceptsCreate_of_step asked from? open? live, create])) origin _
      · rw [if_neg open?, if_neg open?, toState_remark]

/-- What an operation is answered with. -/
def answer (object : LiveObject) (operation : Operation) (message : Message) :
    Except Fault Outcome :=
  (object.apply operation message).map Prod.fst

private theorem answer_remark_of_refused
    (refused : object.stepFor? operation = none ∨ message.origin? = none) (deleted : Option Int)
    (merged : Bool) :
    (object.remark deleted merged).answer operation message = object.answer operation message := by
  by_cases addressed : operation.target = object.id
  case neg =>
    simp only [answer, apply, remark, ne_eq, addressed, not_false_eq_true, ↓reduceIte]
  simp only [stepFor?, addressed, ↓reduceIte] at refused
  simp only [answer, apply, remark, ne_eq, addressed, not_true_eq_false, ↓reduceIte]
  cases complete : operation.effect with
  | error fault => rfl
  | ok effect =>
    simp only [complete, Except.toOption, Option.bind_some] at refused
    simp only [bind, Except.bind]
    cases made : effect.on? object.contents with
    | none => rfl
    | some step =>
      have lacking := refused.resolve_left (by simp [made])
      cases placed : Serial.effective message.serial with
      | none => rfl
      | some serial =>
        cases issued : message.site.filter fun site => !site.isEmpty with
        | none => rfl
        | some site => simp [Message.origin?, placed, issued] at lacking

/-- They also answer alike. -/
theorem answer_congr {other : LiveObject} (same : object.toState = other.toState)
    (agree : object.acceptsCreate operation message = true →
      object.createMerged = other.createMerged) :
    other.answer operation message = object.answer operation message := by
  rw [eq_remark_of_toState same]
  generalize other.tombstonedAt = deleted
  generalize other.createMerged = merged at agree ⊢
  cases asked : object.stepFor? operation with
  | none => exact answer_remark_of_refused (.inl asked) deleted merged
  | some step =>
    cases from? : message.origin? with
    | none => exact answer_remark_of_refused (.inr from?) deleted merged
    | some origin =>
      have askedOther : (object.remark deleted merged).stepFor? operation = some step := asked
      rw [answer, answer, apply_of_step asked from?, apply_of_step askedOther from?]
      have gateSame : (object.remark deleted merged).admits origin = object.admits origin := rfl
      rw [gateSame]
      by_cases open? : object.admits origin = true
      · rw [if_pos open?, if_pos open?]
        by_cases dead : object.tombstone = true
        · have deadOther : (object.remark deleted merged).tombstone = true := dead
          rw [if_pos dead, if_pos deadOther]
          rfl
        · have deadOther : ¬ (object.remark deleted merged).tombstone = true := dead
          have agreeLive : step.isCreate = true → (object.admitting origin).createMerged = merged :=
            fun create => agree (by
              rw [acceptsCreate_of_step asked from? open? (Bool.eq_false_iff.2 dead), create])
          have updateSame := (run_remark deleted agreeLive origin.2 (message.timestamp.getD 0)).1
          rw [if_neg dead, if_neg deadOther]
          exact congrArg (fun update => Except.ok (Outcome.applied (reportOf operation message update)))
            updateSame
      · simp only [open?, Bool.false_eq_true, ↓reduceIte, Except.map]

/-- First contents are marked as merged once a live object accepts a create operation. -/
theorem take_createMerged (object : LiveObject) (operation : Operation) (message : Message) :
    (object.take operation message).createMerged =
      (object.createMerged || object.acceptsCreate operation message) := by
  cases asked : object.stepFor? operation with
  | none => simp [take_of_refused (.inl asked), acceptsCreate, asked]
  | some step =>
    cases from? : message.origin? with
    | none => simp [take_of_refused (.inr from?), acceptsCreate, from?]
    | some origin =>
      rw [take_of_step asked from?]
      by_cases open? : object.admits origin = true
      case neg => simp [acceptsCreate, asked, from?, open?]
      rw [if_pos open?]
      unfold carry
      by_cases dead : object.tombstone = true
      · simp [acceptsCreate, dead, admitting]
      · rw [if_neg dead, acceptsCreate_of_step asked from? open? (Bool.eq_false_iff.2 dead), run_createMerged]
        rfl

/-! ## What holds of every object -/

/-- A deleted object is empty, and every removal in a map is dated. -/
structure Sound (object : LiveObject) : Prop where
  emptied : object.tombstone = true → object.contents = .initial object.kind
  timed : ∀ entries, object.contents = .map entries → Entries.Timed entries

private theorem timed_initial {kind : Kind} {entries : Entries}
    (same : Contents.initial kind = .map entries) : Entries.Timed entries := by
  cases kind <;> simp only [Contents.initial, Contents.map.injEq, reduceCtorEq] at same
  exact same ▸ Entries.timed_empty

theorem sound_placeholder (id : ObjectId) (kind : Kind) : (placeholder id kind).Sound :=
  ⟨nofun, fun _ same => timed_initial same⟩

theorem sound_delete (object : LiveObject) (time : Int) : (object.delete time).2.Sound :=
  ⟨fun _ => by simp only [LiveObject.delete, kind, kind_initial], fun _ same => timed_initial same⟩

theorem Sound.run (sound : object.Sound) (live : object.tombstone = false)
    (fits : step.Fits object.contents) (serial : Serial) (time : Int) :
    (object.run step serial time).2.Sound := by
  have alive {next : LiveObject} (same : next.tombstone = object.tombstone) :
      next.tombstone = true → next.contents = .initial next.kind := by
    rw [same, live]
    exact nofun
  cases step with
  | map effect entries =>
    have timed := sound.timed entries fits
    cases effect with
    | set key data =>
      refine ⟨alive rfl, fun other same => ?_⟩
      cases same
      exact timed.write key nofun
    | remove key =>
      refine ⟨alive rfl, fun other same => ?_⟩
      cases same
      exact timed.write key fun _ => rfl
    | create first =>
      simp only [LiveObject.run, mergeEntries]
      split
      · exact sound
      · refine ⟨alive rfl, fun other same => ?_⟩
        cases same
        exact timed.mergeInitial first time
  | counter effect count =>
    cases effect with
    | add amount => exact ⟨alive rfl, nofun⟩
    | create first =>
      simp only [LiveObject.run, mergeCount]
      split
      · exact sound
      · exact ⟨alive rfl, nofun⟩
  | delete => exact sound_delete object time

theorem Sound.admitting (sound : object.Sound) (origin : String × Serial) :
    (object.admitting origin).Sound := ⟨sound.emptied, sound.timed⟩

theorem Sound.take (sound : object.Sound) (operation : Operation) (message : Message) :
    (object.take operation message).Sound := by
  rcases object.take_cases operation message with same | ⟨step, origin, asked, -, -, same⟩
  · rw [same]
    exact sound
  · rw [same, carry]
    split
    · exact sound.admitting origin
    · rename_i live
      have fits : step.Fits (object.admitting origin).contents := fits_of_stepFor? asked
      exact (sound.admitting origin).run (Bool.eq_false_iff.2 live) fits origin.2 _

theorem Sound.hear (sound : object.Sound) (message : Message) : (object.hear message).Sound := by
  unfold LiveObject.hear
  split
  · exact sound.take ..
  · exact sound

end LiveObject

end SharedGraph
