import SharedGraph.Proofs.Descriptions
import SharedGraph.Proofs.ExactSums

/-! An object that is restored from its description, against the object that was
described. A description does not say whether first contents were merged. The restored
object therefore merges a create operation once more, and this is exactly how the two can
be told apart: everything else they answer in the same way, for ever. -/
namespace SharedGraph.LiveObject

variable {object replica : LiveObject} {operation : Operation} {message : Message}
  {step : Step} {origin : String × Serial}

/-- The object after a list of operations, each with its envelope. -/
def takeAll (object : LiveObject) (history : List (Operation × Message)) : LiveObject :=
  history.foldl (fun current offer => current.take offer.1 offer.2) object

/-- All that can be observed of an object while it meets a list of operations: what each
is answered with, and how the object describes itself afterwards. -/
def transcript (object : LiveObject) :
    List (Operation × Message) → List (Except Fault Outcome × ObjectState)
  | [] => []
  | (operation, message) :: rest =>
    let next := object.take operation message
    (object.answer operation message, next.toState) :: next.transcript rest

/-- The contents would change if the first contents of a create operation were merged. -/
def gains (object : LiveObject) (operation : Operation) : Bool :=
  match object.contents with
  | .map entries => operation.firstEntries.toList.any fun entry => entries.canWrite entry.1 entry.2.serial
  | .counter _ => !operation.firstCount.isZero

/-- The first create operation that the object accepts brings something that its contents
do not have. -/
def gainsLater (object : LiveObject) : List (Operation × Message) → Bool
  | [] => false
  | (operation, message) :: rest =>
    if object.acceptsCreate operation message then object.gains operation
    else (object.take operation message).gainsLater rest

/-! ## Counts are never the negative zero -/

/-- Adding zero to the count changes nothing. -/
def Unsigned (object : LiveObject) : Prop :=
  ∀ count, object.contents = .counter count → count ≠ .zero true

private theorem unsigned_placeholder (id : ObjectId) (kind : Kind) : (placeholder id kind).Unsigned := by
  intro count same
  cases kind with
  | map => simp only [placeholder, Contents.initial, reduceCtorEq] at same
  | counter =>
    simp only [placeholder, Contents.initial, Contents.counter.injEq] at same
    rw [← same]
    intro negative
    cases negative

private theorem unsigned_of_map {entries : Entries} (held : object.contents = .map entries) :
    object.Unsigned := by
  intro count same
  rw [held] at same
  exact nomatch same

theorem Unsigned.run (unsigned : object.Unsigned) (fits : step.Fits object.contents)
    (serial : Serial) (time : Int) : (object.run step serial time).2.Unsigned := by
  cases step with
  | map effect entries =>
    cases effect with
    | create first =>
      simp only [LiveObject.run, mergeEntries]
      split
      · exact unsigned
      · exact unsigned_of_map rfl
    | _ => exact unsigned_of_map rfl
  | counter effect count =>
    have fine := unsigned count fits
    cases effect with
    | add amount =>
      intro next same
      cases same
      exact Double.add_ne_negative_zero amount fine
    | create first =>
      simp only [LiveObject.run, mergeCount]
      split
      · exact unsigned
      · intro next same
        cases same
        exact Double.add_ne_negative_zero first fine
  | delete => exact unsigned_placeholder object.id object.kind

theorem Unsigned.take (unsigned : object.Unsigned) (operation : Operation) (message : Message) :
    (object.take operation message).Unsigned := by
  rcases object.take_cases operation message with same | ⟨step, origin, asked, -, -, same⟩
  · rw [same]
    exact unsigned
  · rw [same, carry]
    have kept : (object.admitting origin).Unsigned := unsigned
    have fits : step.Fits (object.admitting origin).contents := fits_of_stepFor? asked
    split
    · exact kept
    · exact kept.run fits origin.2 _

private theorem takeAll_id (object : LiveObject) (history : List (Operation × Message)) :
    (object.takeAll history).id = object.id := by
  induction history generalizing object with
  | nil => rfl
  | cons offer rest ih => exact (ih _).trans (take_id ..)

private theorem takeAll_kind (object : LiveObject) (history : List (Operation × Message)) :
    (object.takeAll history).kind = object.kind := by
  induction history generalizing object with
  | nil => rfl
  | cons offer rest ih => exact (ih _).trans (take_kind ..)

theorem Sound.takeAll (sound : object.Sound) (history : List (Operation × Message)) :
    (object.takeAll history).Sound := by
  induction history generalizing object with
  | nil => exact sound
  | cons offer rest ih => exact ih (sound.take offer.1 offer.2)

theorem Unsigned.takeAll (unsigned : object.Unsigned) (history : List (Operation × Message)) :
    (object.takeAll history).Unsigned := by
  induction history generalizing object with
  | nil => exact unsigned
  | cons offer rest ih => exact ih (unsigned.take offer.1 offer.2)

/-! ## The second merge -/

/-- An accepted create operation is carried out with its own first contents. -/
theorem stepFor?_of_acceptsCreate (accepts : object.acceptsCreate operation message = true) :
    ∃ step origin, object.stepFor? operation = some step ∧ message.origin? = some origin ∧
      object.admits origin = true ∧ object.tombstone = false ∧
      ((∃ entries, object.contents = .map entries ∧ step = .map (.create operation.firstEntries) entries) ∨
        ∃ count, object.contents = .counter count ∧ step = .counter (.create operation.firstCount) count) := by
  simp only [acceptsCreate, Bool.and_eq_true, Bool.not_eq_true'] at accepts
  obtain ⟨⟨⟨create, some?⟩, passes⟩, live⟩ := accepts
  obtain ⟨step, asked⟩ := Option.isSome_iff_exists.1 some?
  obtain ⟨origin, from?, open?⟩ := (Option.any_eq_true ..).1 passes
  obtain ⟨-, effect, complete, made⟩ := effect_of_stepFor? asked
  refine ⟨step, origin, asked, from?, open?, live, ?_⟩
  rcases Operation.effect_of_isCreate complete create with rfl | rfl
  · cases held : object.contents with
    | counter count => simp [held, Effect.on?] at made
    | map entries =>
      rw [held] at made
      exact .inl ⟨entries, rfl, (Option.some.inj made).symm⟩
  · cases held : object.contents with
    | map entries => simp [held, Effect.on?] at made
    | counter count =>
      rw [held] at made
      exact .inr ⟨count, rfl, (Option.some.inj made).symm⟩

private theorem reportOf_create (create : operation.action.isCreate = true) {update : Update} :
    reportOf operation message update = none ↔ update.isNoop = true := by
  have other : (operation.action != .counterInc) = true := by
    cases acts : operation.action <;> simp [acts, Action.isCreate] at create ⊢
  simp only [reportOf, other, Bool.and_true]
  change (if update.isNoop = true then none else _) = none ↔ _
  split
  case isTrue nothing => simp only [nothing]
  case isFalse some? => simp only [reduceCtorEq, some?]

/-- An accepted create operation goes unnoticed exactly if first contents were merged
before, or if it brings nothing. -/
theorem unnoticed_iff (unsigned : object.Unsigned)
    (accepts : object.acceptsCreate operation message = true) (from? : message.origin? = some origin) :
    (object.answer operation message = .ok (.applied none) ∧
        (object.take operation message).toState = (object.admitting origin).toState) ↔
      (object.createMerged = true ∨ object.gains operation = false) := by
  obtain ⟨step, found, asked, foundSame, open?, live, shape⟩ := stepFor?_of_acceptsCreate accepts
  rw [from?, Option.some.injEq] at foundSame
  subst foundSame
  have create : operation.action.isCreate = true := by
    simp only [acceptsCreate, Bool.and_eq_true] at accepts
    exact accepts.1.1.1
  have noticed : object.answer operation message = .ok (.applied (reportOf operation message
      ((object.admitting origin).run step origin.2 (message.timestamp.getD 0)).1)) := by
    rw [answer, apply_of_step asked from?, if_pos open?, if_neg (Bool.eq_false_iff.1 live)]
    rfl
  rw [noticed, take_of_step asked from?, if_pos open?, carry, if_neg (Bool.eq_false_iff.1 live),
    Except.ok.injEq, Outcome.applied.injEq, reportOf_create create]
  have mergedSame : (object.admitting origin).createMerged = object.createMerged := rfl
  rcases shape with ⟨entries, held, rfl⟩ | ⟨count, held, rfl⟩
  · simp only [run, mergeEntries, mergedSame, gains, held]
    by_cases merged : object.createMerged = true
    · simp only [merged, ↓reduceIte, true_or, iff_true, and_true]
      rfl
    · simp only [merged, Bool.false_eq_true, ↓reduceIte, false_or]
      constructor
      · rintro ⟨-, same⟩
        rw [List.any_eq_false]
        rintro ⟨key, entry⟩ member newer
        refine Entries.mergeInitial_ne (SortedMap.get?_eq_some_iff.2 member) newer _
          (Option.some.inj (Eq.trans (congrArg ObjectState.entries same) ?_))
        simp only [toState, entries?, admitting, held, Contents.entries?]
      · intro none
        rw [List.any_eq_false] at none
        rw [Entries.mergeInitial_of_kept fun key entry brought =>
          Bool.eq_false_iff.2 (none (key, entry) (SortedMap.get?_eq_some_iff.1 brought))]
        refine ⟨rfl, ?_⟩
        simp only [toState, entries?, admitting, held]
  · simp only [run, mergeCount, mergedSame, gains, held]
    by_cases merged : object.createMerged = true
    · simp only [merged, ↓reduceIte, true_or, iff_true, and_true]
      exact Double.isZero_zero false
    · simp only [merged, Bool.false_eq_true, ↓reduceIte, false_or, Bool.not_eq_eq_eq_not, Bool.not_false]
      constructor
      · rintro ⟨nothing, -⟩
        exact nothing
      · intro nothing
        refine ⟨nothing, ?_⟩
        rw [Double.add_of_isZero (unsigned count held) nothing]
        simp only [toState, entries?, admitting, held]

/-! ## Transcripts -/

/-- Objects that agree in what they describe and in whether they merged first contents
cannot be told apart. -/
theorem transcript_congr (same : object.toState = replica.toState)
    (agree : object.createMerged = replica.createMerged) (continuation : List (Operation × Message)) :
    replica.transcript continuation = object.transcript continuation := by
  induction continuation generalizing object replica with
  | nil => rfl
  | cons offer rest ih =>
    obtain ⟨operation, message⟩ := offer
    have next : (replica.take operation message).toState = (object.take operation message).toState :=
      take_congr same fun _ => agree
    have agreeNext : (object.take operation message).createMerged =
        (replica.take operation message).createMerged := by
      rw [take_createMerged, take_createMerged, agree, acceptsCreate_congr same]
    rw [transcript, transcript, answer_congr same fun _ => agree, next, ih next.symm agreeNext]

/-- Of two such objects the one has merged first contents and the other has not: they can
be told apart as soon as a create operation is accepted that brings something. -/
theorem transcript_eq_iff (same : object.toState = replica.toState) (unsigned : object.Unsigned)
    (merged : object.createMerged = true) (unmerged : replica.createMerged = false)
    (continuation : List (Operation × Message)) :
    replica.transcript continuation = object.transcript continuation ↔
      object.gainsLater continuation = false := by
  induction continuation generalizing object replica with
  | nil => simp only [transcript, gainsLater]
  | cons offer rest ih =>
    obtain ⟨operation, message⟩ := offer
    rw [transcript, transcript, gainsLater, List.cons.injEq, Prod.mk.injEq]
    by_cases accepts : object.acceptsCreate operation message = true
    · obtain ⟨step, origin, -, from?, -⟩ := stepFor?_of_acceptsCreate accepts
      have acceptsToo : replica.acceptsCreate operation message = true := by
        rw [acceptsCreate_congr same, accepts]
      have unsignedToo : replica.Unsigned := by
        rw [eq_remark_of_toState same]
        exact unsigned
      have gainsSame : replica.gains operation = object.gains operation := by
        rw [eq_remark_of_toState same]
        rfl
      have gateSame : (replica.admitting origin).toState = (object.admitting origin).toState := by
        rw [eq_remark_of_toState same]
        rfl
      obtain ⟨answered, described⟩ := (unnoticed_iff unsigned accepts from?).2 (.inl merged)
      have heads := unnoticed_iff unsignedToo acceptsToo from?
      rw [unmerged, gainsSame, gateSame] at heads
      simp only [Bool.false_eq_true, false_or] at heads
      rw [if_pos accepts, answered, described, heads, and_iff_left_iff_imp]
      -- once nothing was gained, both have merged first contents
      intro nothing
      refine transcript_congr (described.trans (heads.2 nothing).2.symm) ?_ rest
      rw [take_createMerged, take_createMerged, accepts, acceptsToo, Bool.or_true, Bool.or_true]
    · have refuses := Bool.eq_false_iff.2 accepts
      have next : (replica.take operation message).toState = (object.take operation message).toState :=
        take_congr same fun accepted => absurd accepted accepts
      have answered : replica.answer operation message = object.answer operation message :=
        answer_congr same fun accepted => absurd accepted accepts
      have mergedNext : (object.take operation message).createMerged = true := by
        rw [take_createMerged, merged, Bool.true_or]
      have unmergedNext : (replica.take operation message).createMerged = false := by
        rw [take_createMerged, unmerged, acceptsCreate_congr same, refuses, Bool.or_false]
      rw [if_neg accepts, answered, next,
        ih next.symm (unsigned.take operation message) mergedNext unmergedNext]
      simp only [and_self, true_and]

/-! ## The restored object -/

private theorem takeOver_placeholder_createMerged (id : ObjectId) (kind : Kind) {state : ObjectState}
    (plain : state.createOp = none) (time : Int) :
    ((placeholder id kind).takeOver state time).2.createMerged = false := by
  cases deleted : state.tombstone with
  | false => exact takeOver_createMerged deleted plain time
  | true =>
    unfold takeOver
    rw [if_pos deleted]
    rfl

theorem ofState_toState (object : LiveObject) (time : Int) :
    ofState object.toState time =
      if object.id.kind?.all (· == object.kind) then
        .ok ((placeholder object.id object.kind).takeOver object.toState time).2
      else .error (.badState object.id .conflictingKinds) := by
  have shown := object.kind_toState
  unfold ofState
  split
  case isTrue fits =>
    rw [if_pos fits] at shown
    have kindSame : object.toState.kind = .ok (placeholder object.toState.id object.kind).kind :=
      shown.trans (congrArg Except.ok (kind_initial object.kind).symm)
    have overridden : (placeholder object.toState.id object.kind).override object.toState time =
        .ok ((placeholder object.id object.kind).takeOver object.toState time) :=
      override_eq rfl kindSame time
    simp only [shown, bind, Except.bind, overridden]
  case isFalse differs =>
    rw [if_neg differs] at shown
    simp only [shown, bind, Except.bind]

/-- An object that came to be by operations can be restored from its description unless its
name is that of the other kind. The restored one then answers all later operations in the
same way, and describes itself in the same way, unless the object had merged first contents
and later accepts, as the first such operation, a create operation whose first contents
would still show. -/
theorem restored_alike_iff (id : ObjectId) (kind : Kind) (history : List (Operation × Message))
    (time : Int) :
    let object := (placeholder id kind).takeAll history
    ((∃ replica, ofState object.toState time = .ok replica) ↔ id.kind?.all (· == kind) = true) ∧
      ∀ replica, ofState object.toState time = .ok replica →
        replica.toState = object.toState ∧
          ∀ continuation, replica.transcript continuation = object.transcript continuation ↔
            ¬ (object.createMerged = true ∧ object.gainsLater continuation = true) := by
  intro object
  have idSame : object.id = id := takeAll_id ..
  have kindSame : object.kind = kind := (takeAll_kind ..).trans (kind_initial kind)
  have sound : object.Sound := (sound_placeholder id kind).takeAll history
  have unsigned : object.Unsigned := (unsigned_placeholder id kind).takeAll history
  have restored := ofState_toState object time
  rw [idSame, kindSame] at restored
  constructor
  · rw [restored]
    split
    case isTrue fits => simp only [fits, Except.ok.injEq, exists_eq']
    case isFalse differs => simp only [reduceCtorEq, exists_false, differs]
  · intro replica made
    rw [restored] at made
    split at made
    case isFalse => cases made
    case isTrue =>
      cases made
      have described := takeOver_toState sound (sound_placeholder id kind) idSame.symm
        ((kind_initial kind).trans kindSame.symm) time
      have plain : object.toState.createOp = none := rfl
      have unmerged := takeOver_placeholder_createMerged id kind plain time
      refine ⟨described, fun continuation => ?_⟩
      by_cases merged : object.createMerged = true
      · rw [transcript_eq_iff described.symm unsigned merged unmerged]
        simp only [merged, true_and, Bool.not_eq_true]
      · simp only [merged, Bool.false_eq_true, false_and, not_false_eq_true, iff_true]
        exact transcript_congr described.symm ((Bool.eq_false_iff.2 merged).trans unmerged.symm) _

private def created (serial : String) : Operation × Message :=
  (.counterCreate ⟨"counter:abc@1"⟩ (.ofInt 5) "n" "", (Message.withOrigin {} "a" ⟨serial⟩))

/-- A counter is created with five, and the create operation is sent again under a newer
serial. The counter itself stays at five; restored in between, it counts ten. -/
theorem restored_counts_twice :
    let object := (placeholder ⟨"counter:abc@1"⟩ .counter).takeAll [created "01"]
    (object.transcript [created "02"]).map (fun line => line.2.count) = [some (.ofInt 5)] ∧
      (ofState object.toState 7).toOption.map
        (fun replica => (replica.transcript [created "02"]).map fun line => line.2.count) =
          some [some (.ofInt 10)] := by
  decide +kernel

end SharedGraph.LiveObject
