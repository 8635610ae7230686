import SharedGraph.InPlace
import SharedGraph.Proofs.Objects
import SharedGraph.Proofs.Descriptions

/-! A change in place happens as a whole or not at all. Its checks all stand before the first
write, though some of them are made again after it: by then they cannot fail, because what the
operation was found to have, and the kind of the object, are as before. So the object that is
left is the one that `LiveObject.apply` or `LiveObject.override` gives, and no step is ever
stranded. -/
namespace SharedGraph

/-! ## What makes an offer fail -/

private theorem Effect.on?_onMap {effect : MapEffect} {contents : Contents} {step : Step}
    (made : (Effect.onMap effect).on? contents = some step) :
    ∃ entries, contents = .map entries ∧ step = .map effect entries := by
  cases contents <;> simp only [Effect.on?, Option.some.injEq, reduceCtorEq] at made
  exact ⟨_, rfl, made.symm⟩

private theorem Effect.on?_onCounter {effect : CounterEffect} {contents : Contents} {step : Step}
    (made : (Effect.onCounter effect).on? contents = some step) :
    ∃ count, contents = .counter count ∧ step = .counter effect count := by
  cases contents <;> simp only [Effect.on?, Option.some.injEq, reduceCtorEq] at made
  exact ⟨_, rfl, made.symm⟩

/-- A complete operation is of use exactly for objects of the kind that its action is for. -/
theorem Operation.isSome_on? {operation : Operation} {effect : Effect}
    (complete : operation.effect = .ok effect) (object : LiveObject) :
    (effect.on? object.contents).isSome = operation.action.kind?.all (· = object.kind) := by
  unfold LiveObject.kind
  cases (asks_of_effect complete).2 with
  | set acts | remove acts | createMap acts | add acts | createCounter acts | delete acts =>
    rw [acts]
    cases object.contents <;> rfl

private theorem Operation.check_eq_error_iff {operation : Operation} {fault : Fault} :
    operation.check = .error fault ↔ operation.effect = .error fault := by
  unfold check
  cases operation.effect <;> simp [Except.map]

/-- A message has no origin if it lacks its serial or its site, or leaves it empty. -/
theorem Message.origin?_eq_none_iff {message : Message} :
    message.origin? = none ↔
      message.serial.all Serial.isEmpty = true ∨ message.site.all String.isEmpty = true := by
  unfold origin? Serial.effective
  cases message.serial with
  | none => simp
  | some serial =>
    cases message.site with
    | none => simp
    | some site => by_cases empty : serial.isEmpty = true <;> simp [empty]

namespace LiveObject

variable {object : LiveObject} {operation : Operation} {message : Message}

private theorem stepFor?_eq_none_iff : object.stepFor? operation = none ↔
    operation.target ≠ object.id ∨ (∃ fault, operation.check = .error fault) ∨
      ∃ kind, operation.action.kind? = some kind ∧ kind ≠ object.kind := by
  simp only [Operation.check_eq_error_iff, stepFor?]
  by_cases addressed : operation.target = object.id
  case neg => simp only [addressed, ↓reduceIte, ne_eq, not_false_eq_true, true_or]
  simp only [addressed, ↓reduceIte, ne_eq, not_true_eq_false, false_or]
  cases complete : operation.effect with
  | error fault => simp [Except.toOption]
  | ok effect =>
    simp only [Except.toOption, Option.bind_some, reduceCtorEq, exists_false, false_or]
    rw [← Option.isNone_iff_eq_none, ← Option.isSome_eq_false_iff, Operation.isSome_on? complete]
    cases operation.action.kind? <;> simp

private theorem apply_eq_error_iff : (∃ fault, object.apply operation message = .error fault) ↔
    object.stepFor? operation = none ∨ message.origin? = none := by
  refine ⟨fun ⟨fault, refused⟩ => ?_, apply_of_refused⟩
  cases asked : object.stepFor? operation with
  | none => exact .inl rfl
  | some step =>
    cases from? : message.origin? with
    | none => exact .inr rfl
    | some origin =>
      rw [apply_of_step asked from?] at refused
      split at refused
      · split at refused <;> cases refused
      · cases refused

end LiveObject

namespace InPlace

variable {α : Type} {object : LiveObject} {operation : Operation} {message : Message}

/-- How a change ends that is decided on as a whole. -/
def atOnce (object : LiveObject) :
    Except Fault (α × LiveObject) → EStateM.Result Interruption LiveObject α
  | .ok (answer, next) => .ok answer next
  | .error fault => .error (.refused fault) object

/-- A change that does not come to its end was refused, and nothing of it is left. -/
def Atomic (change : InPlace α) : Prop :=
  ∀ object interruption left, change.run object = .error interruption left →
    (∃ fault, interruption = .refused fault) ∧ left = object

private theorem atomic_of_run_eq {change : InPlace α}
    {decide : LiveObject → Except Fault (α × LiveObject)}
    (same : ∀ object, change.run object = atOnce object (decide object)) : change.Atomic := by
  intro object interruption left stopped
  rw [same object] at stopped
  cases decided : decide object with
  | ok result =>
    rw [decided] at stopped
    cases stopped
  | error fault =>
    rw [decided] at stopped
    cases stopped
    exact ⟨⟨fault, rfl⟩, rfl⟩

private theorem atOnce_eq_error_iff {result : Except Fault (α × LiveObject)} :
    (∃ interruption left, atOnce object result = .error interruption left) ↔
      ∃ fault, result = .error fault := by
  cases result <;> simp [atOnce]

/-! ## Single steps -/

private theorem run_ensure (condition : Bool) (fault : Fault) (object : LiveObject) :
    (ensure condition fault).run object =
      if condition then .ok () object else .error (.refused fault) object := by
  cases condition <;> rfl

private theorem run_need_some (given : α) (fault : Fault) (object : LiveObject) :
    (need (some given) fault).run object = .ok given object := rfl

private theorem run_need_none (fault : Fault) (object : LiveObject) :
    (need (none : Option α) fault).run object = .error (.refused fault) object := rfl

private theorem run_heed_ok (value : α) (object : LiveObject) :
    (heed (.ok value)).run object = .ok value object := rfl

private theorem run_heed_error (fault : Fault) (object : LiveObject) :
    (heed (.error fault : Except Fault α)).run object = .error (.refused fault) object := rfl

private theorem run_hold (contents : Contents) (object : LiveObject) :
    (hold contents).run object = .ok () { object with contents } := rfl

private theorem run_heldEntries {entries : Entries} (held : object.contents = .map entries) :
    heldEntries.run object = .ok entries object := by
  simp only [heldEntries, EStateM.run_bind, EStateM.run_get, held, EStateM.run_pure]

private theorem run_heldCount {count : Double} (held : object.contents = .counter count) :
    heldCount.run object = .ok count object := by
  simp only [heldCount, EStateM.run_bind, EStateM.run_get, held, EStateM.run_pure]

private theorem run_writeKey {entries : Entries} (held : object.contents = .map entries) (key : String)
    (write : Entries → Option KeyChange × Entries) :
    (writeKey key write).run object =
      .ok (object.keyUpdate key (write entries)).1 (object.keyUpdate key (write entries)).2 := by
  simp only [writeKey, EStateM.run_bind, run_heldEntries held, run_hold, EStateM.run_get,
    EStateM.run_pure, LiveObject.keyUpdate]

private theorem run_delete (object : LiveObject) (time : Int) :
    (delete time).run object = .ok (object.delete time).1 (object.delete time).2 := by
  simp only [delete, diffFrom, EStateM.run_bind, EStateM.run_get, EStateM.run_set, LiveObject.delete]
  cases held : object.contents with
  | map before => simp only [LiveObject.kind, held, Contents.kind, Contents.initial, EStateM.run_pure]
  | counter before =>
    simp only [LiveObject.kind, held, Contents.kind, Contents.initial, EStateM.run_pure]

private theorem run_mergeFirst_map {entries : Entries} (held : object.contents = .map entries)
    (operation : Operation) (time : Int) :
    (mergeFirst operation time).run object =
      .ok (object.mergeEntries entries operation.firstEntries time).1
        (object.mergeEntries entries operation.firstEntries time).2 := by
  simp only [mergeFirst, EStateM.run_bind, EStateM.run_get, LiveObject.mergeEntries]
  by_cases before : object.createMerged = true
  · simp only [before, ↓reduceIte, EStateM.run_pure, LiveObject.emptyUpdate, held]
  · simp only [before, Bool.false_eq_true, ↓reduceIte, EStateM.run_bind, EStateM.run_set, held,
      run_hold, EStateM.run_pure]

private theorem run_mergeFirst_counter {count : Double} (held : object.contents = .counter count)
    (operation : Operation) (time : Int) :
    (mergeFirst operation time).run object =
      .ok (object.mergeCount count operation.firstCount).1
        (object.mergeCount count operation.firstCount).2 := by
  simp only [mergeFirst, EStateM.run_bind, EStateM.run_get, LiveObject.mergeCount]
  by_cases before : object.createMerged = true
  · simp only [before, ↓reduceIte, EStateM.run_pure, LiveObject.emptyUpdate, held]
  · simp only [before, Bool.false_eq_true, ↓reduceIte, EStateM.run_bind, EStateM.run_set, held,
      run_hold, EStateM.run_pure]

/-! ## Operations -/

/-- What a complete operation asks of contents of its kind is carried out, whatever the action
then looks for again. -/
theorem run_perform {effect : Effect} {step : Step} (asks : operation.Asks effect)
    (made : effect.on? object.contents = some step) (serial : Serial) (time : Int) :
    (perform operation serial time).run object =
      .ok (object.run step serial time).1 (object.run step serial time).2 := by
  cases asks with
  | set acts edited fine =>
    obtain ⟨entries, held, rfl⟩ := Effect.on?_onMap made
    simp only [perform, acts, edited, EStateM.run_bind, run_need_some, run_writeKey held, LiveObject.run]
  | remove acts edited =>
    obtain ⟨entries, held, rfl⟩ := Effect.on?_onMap made
    simp only [perform, acts, edited, EStateM.run_bind, run_need_some, run_writeKey held, LiveObject.run]
  | createMap acts fine =>
    obtain ⟨entries, held, rfl⟩ := Effect.on?_onMap made
    simp only [perform, acts, run_mergeFirst_map held, LiveObject.run]
  | add acts given =>
    obtain ⟨count, held, rfl⟩ := Effect.on?_onCounter made
    simp only [perform, acts, given, EStateM.run_bind, run_need_some, run_heldCount held, run_hold,
      EStateM.run_get, EStateM.run_pure, LiveObject.run]
  | createCounter acts =>
    obtain ⟨count, held, rfl⟩ := Effect.on?_onCounter made
    simp only [perform, acts, run_mergeFirst_counter held, LiveObject.run]
  | delete acts =>
    cases made
    simp only [perform, acts, run_delete, LiveObject.run]

/-- The checks find what is needed for a step. -/
theorem run_admission_of_step {step : Step} {origin : String × Serial}
    (asked : object.stepFor? operation = some step) (from? : message.origin? = some origin) :
    (admission operation message).run object = .ok (origin.2, origin.1) object := by
  obtain ⟨addressed, effect, complete, made⟩ := LiveObject.effect_of_stepFor? asked
  obtain ⟨serial, placed, rest⟩ := Option.bind_eq_some_iff.1 from?
  obtain ⟨site, issued, rfl⟩ := Option.map_eq_some_iff.1 rest
  have fine : operation.check = .ok () := by simp only [Operation.check, complete, Except.map]
  simp only [admission, EStateM.run_bind, EStateM.run_get, run_ensure, addressed, decide_true,
    ↓reduceIte, fine, run_heed_ok, ← Operation.isSome_on? complete, made, Option.isSome_some, placed,
    issued, run_need_some, EStateM.run_pure]

/-- What refuses the operation is found before anything is written. -/
theorem run_admission_of_error {fault : Fault}
    (refused : object.apply operation message = .error fault) :
    (admission operation message).run object = .error (.refused fault) object := by
  unfold LiveObject.apply at refused
  simp only [admission, EStateM.run_bind, EStateM.run_get, run_ensure]
  by_cases addressed : operation.target = object.id
  case neg =>
    simp only [ne_eq, addressed, not_false_eq_true, ↓reduceIte, Except.error.injEq] at refused
    simp only [addressed, decide_false, Bool.false_eq_true, ↓reduceIte, refused]
  simp only [ne_eq, addressed, not_true_eq_false, ↓reduceIte, bind, Except.bind] at refused
  simp only [addressed, decide_true, ↓reduceIte]
  cases complete : operation.effect with
  | error found =>
    simp only [complete, Except.error.injEq] at refused
    simp only [Operation.check_eq_error_iff.2 complete, run_heed_error, refused]
  | ok effect =>
    have fine : operation.check = .ok () := by simp only [Operation.check, complete, Except.map]
    simp only [complete] at refused
    simp only [fine, run_heed_ok, ← Operation.isSome_on? complete]
    cases made : effect.on? object.contents with
    | none =>
      simp only [made, Except.error.injEq] at refused
      simp only [Option.isSome_none, Bool.false_eq_true, ↓reduceIte, refused]
    | some step =>
      simp only [made] at refused
      simp only [Option.isSome_some, ↓reduceIte]
      cases placed : Serial.effective message.serial with
      | none =>
        simp only [placed, Except.error.injEq] at refused
        simp only [run_need_none, refused]
      | some serial =>
        simp only [placed] at refused
        simp only [run_need_some]
        cases issued : message.site.filter fun site => !site.isEmpty with
        | none =>
          simp only [issued, Except.error.injEq] at refused
          simp only [run_need_none, refused]
        | some site =>
          simp only [issued] at refused
          split at refused
          · cases refused
          · split at refused <;> cases refused

/-- The gate, and what is behind it. -/
theorem run_offer (operation : Operation) (message : Message) (object : LiveObject) :
    (offer operation message).run object = atOnce object (object.apply operation message) := by
  cases asked : object.stepFor? operation with
  | none =>
    obtain ⟨fault, refused⟩ := LiveObject.apply_of_refused (.inl asked : _ ∨ message.origin? = none)
    simp only [offer, EStateM.run_bind, run_admission_of_error refused, refused, atOnce]
  | some step =>
    cases from? : message.origin? with
    | none =>
      obtain ⟨fault, refused⟩ :=
        LiveObject.apply_of_refused (.inr from? : object.stepFor? operation = none ∨ _)
      simp only [offer, EStateM.run_bind, run_admission_of_error refused, refused, atOnce]
    | some origin =>
      have gateSame : SiteSerials.admits object.serials origin.1 origin.2 = object.admits origin := rfl
      have recorded : { object with serials := SiteSerials.record object.serials origin.1 origin.2 } =
        object.admitting origin := rfl
      rw [LiveObject.apply_of_step asked from?]
      simp only [offer, EStateM.run_bind, run_admission_of_step asked from?, EStateM.run_get,
        gateSame, recorded]
      cases object.admits origin with
      | false => rfl
      | true =>
        simp only [Bool.not_true, Bool.false_eq_true, ↓reduceIte, EStateM.run_bind, EStateM.run_set]
        by_cases dead : object.tombstone = true
        · simp only [if_pos dead, EStateM.run_pure, atOnce]
        · obtain ⟨-, effect, complete, made⟩ := LiveObject.effect_of_stepFor? asked
          have madeNext : effect.on? (object.admitting origin).contents = some step := made
          have performed := run_perform (Operation.asks_of_effect complete).2 madeNext origin.2
            (message.timestamp.getD 0)
          simp only [if_neg dead, EStateM.run_bind, performed, EStateM.run_pure, atOnce,
            LiveObject.reportOf, LiveObject.carry]

/-! ## Descriptions -/

private theorem describedContents_map (state : ObjectState) (time : Int) :
    describedContents state .map time =
      .map ((state.entries.map fun entries => Entries.ofState entries time).getD .empty) := by
  unfold describedContents
  cases state.entries <;> cases state.count <;> rfl

private theorem describedContents_counter (state : ObjectState) (time : Int) :
    describedContents state .counter time = .counter (state.count.getD (.zero false)) := by
  unfold describedContents
  cases state.entries <;> cases state.count <;> rfl

private theorem run_adopt (state : ObjectState) (time : Int) (object : LiveObject) :
    (adopt state time).run object = .ok (object.adopt state time).1 (object.adopt state time).2 := by
  simp only [adopt, EStateM.run_bind, EStateM.run_get, EStateM.run_set, LiveObject.adopt]
  cases held : object.contents with
  | map before =>
    simp only [LiveObject.kind, held, Contents.kind, describedContents_map]
    generalize (state.entries.map fun entries => Entries.ofState entries time).getD .empty = described
    cases state.createOp with
    | none => rfl
    | some operation =>
      simp only [EStateM.run_bind]
      rw [run_mergeFirst_map rfl]
      simp only [LiveObject.mergeEntries, Bool.false_eq_true, ↓reduceIte]
      rfl
  | counter before =>
    simp only [LiveObject.kind, held, Contents.kind, describedContents_counter]
    generalize state.count.getD (.zero false) = described
    cases state.createOp with
    | none => rfl
    | some operation =>
      simp only [EStateM.run_bind]
      rw [run_mergeFirst_counter rfl]
      simp only [LiveObject.mergeCount, Bool.false_eq_true, ↓reduceIte]
      rfl

private theorem run_replace (state : ObjectState) (time : Int) (object : LiveObject) :
    (replace state time).run object = atOnce object (object.override state time) := by
  simp only [replace, EStateM.run_bind, EStateM.run_get, run_ensure]
  by_cases addressed : state.id = object.id
  case neg =>
    simp only [addressed, decide_false, Bool.false_eq_true, ↓reduceIte, LiveObject.override, ne_eq,
      not_false_eq_true, atOnce]
  simp only [addressed, decide_true, ↓reduceIte]
  cases shown : state.kind with
  | error fault =>
    simp only [run_heed_error, LiveObject.override, addressed, ne_eq, not_true_eq_false, ↓reduceIte,
      shown, bind, Except.bind, atOnce]
  | ok kind =>
    by_cases same : kind = object.kind
    case neg =>
      simp only [run_heed_ok, same, decide_false, Bool.false_eq_true, ↓reduceIte, LiveObject.override,
        addressed, ne_eq, not_true_eq_false, shown, bind, Except.bind, not_false_eq_true, atOnce]
    subst same
    have relisted : { object with serials := state.serials } = object.relisted state.serials := rfl
    rw [LiveObject.override_eq addressed shown]
    simp only [run_heed_ok, decide_true, ↓reduceIte, EStateM.run_set, relisted, atOnce,
      LiveObject.takeOver]
    by_cases deleted : state.tombstone = true
    case neg => simp only [if_neg deleted, run_adopt]
    by_cases dead : object.tombstone = true
    · simp only [if_pos deleted, if_pos dead, EStateM.run_pure]
      rfl
    · simp only [if_pos deleted, if_neg dead, run_delete]

/-- Operations and descriptions change an object in place as they do as a whole: if one fails it was
refused, no step having been stranded, and the object is as it was, its serials too. An operation
fails exactly if it is for another object, incomplete, for the other kind, or without a serial or a
site, and a description exactly if it is not one of an object of this name and kind. -/
theorem whole_or_not_at_all (object : LiveObject) (operation : Operation) (message : Message)
    (state : ObjectState) (time : Int) :
    (offer operation message).Atomic ∧ (replace state time).Atomic ∧
      (offer operation message).run object = atOnce object (object.apply operation message) ∧
      (replace state time).run object = atOnce object (object.override state time) ∧
      ((∃ interruption left, (offer operation message).run object = .error interruption left) ↔
        operation.target ≠ object.id ∨ (∃ fault, operation.check = .error fault) ∨
          (∃ kind, operation.action.kind? = some kind ∧ kind ≠ object.kind) ∨
          message.serial.all Serial.isEmpty = true ∨ message.site.all String.isEmpty = true) ∧
      ((∃ interruption left, (replace state time).run object = .error interruption left) ↔
        state.id ≠ object.id ∨ state.kind ≠ .ok object.kind) := by
  refine ⟨atomic_of_run_eq (run_offer operation message), atomic_of_run_eq (run_replace state time),
    run_offer operation message object, run_replace state time object, ?_, ?_⟩
  · rw [run_offer, atOnce_eq_error_iff, LiveObject.apply_eq_error_iff, LiveObject.stepFor?_eq_none_iff,
      Message.origin?_eq_none_iff, or_assoc, or_assoc]
  · rw [run_replace, atOnce_eq_error_iff, LiveObject.override_eq_error_iff]

end InPlace

end SharedGraph
