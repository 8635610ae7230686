import SharedGraph.Proofs.Objects

/-! Objects and their descriptions. An object that takes a description over becomes what
it says; what it was before shows in the reported difference alone. Described by another
object, it becomes that object, but for the marks that descriptions do not carry. -/
namespace SharedGraph.LiveObject

variable {object : LiveObject} {state : ObjectState}

/-- The object with the serials that a description lists. -/
def relisted (object : LiveObject) (serials : SiteSerials) : LiveObject := { object with serials }

/-- What an object becomes by a description for it, and what is reported about that. -/
def takeOver (object : LiveObject) (state : ObjectState) (time : Int) : Update × LiveObject :=
  if state.tombstone then
    if object.tombstone then ((object.relisted state.serials).emptyUpdate, object.relisted state.serials)
    else (object.relisted state.serials).delete time
  else (object.relisted state.serials).adopt state time

theorem override_eq (addressed : state.id = object.id) (shown : state.kind = .ok object.kind)
    (time : Int) : object.override state time = .ok (object.takeOver state time) := by
  simp only [override, addressed, ne_eq, not_true_eq_false, ↓reduceIte, shown, bind, Except.bind]
  unfold takeOver
  by_cases deleted : state.tombstone = true
  · by_cases dead : object.tombstone = true
    · simp only [deleted, Bool.not_true, Bool.false_eq_true, ↓reduceIte, dead, relisted]
    · simp only [deleted, Bool.not_true, Bool.false_eq_true, ↓reduceIte, dead, relisted]
  · simp only [deleted, Bool.not_false, ↓reduceIte, Bool.false_eq_true, relisted]

/-- Only descriptions of objects of this name and kind are taken over. -/
theorem override_eq_error_iff {time : Int} :
    (∃ fault, object.override state time = .error fault) ↔
      state.id ≠ object.id ∨ state.kind ≠ .ok object.kind := by
  by_cases addressed : state.id = object.id
  case neg =>
    simp only [override, ne_eq, addressed, not_false_eq_true, ↓reduceIte, Except.error.injEq,
      exists_eq', true_or]
  by_cases shown : state.kind = .ok object.kind
  case pos =>
    simp only [override_eq addressed shown, addressed, shown, reduceCtorEq, exists_false, ne_eq,
      not_true_eq_false, or_self]
  simp only [override, ne_eq, addressed, not_true_eq_false, ↓reduceIte, shown, not_false_eq_true,
    or_true, iff_true]
  cases found : state.kind with
  | error fault => exact ⟨fault, rfl⟩
  | ok kind =>
    have other : kind ≠ object.kind := fun same => shown (same ▸ found)
    simp only [bind, Except.bind, other, ↓reduceIte, not_false_eq_true, Except.error.injEq, exists_eq']

theorem kind_toState (object : LiveObject) : object.toState.kind =
    if object.id.kind?.all (· == object.kind) then .ok object.kind
    else .error (.badState object.id .conflictingKinds) := by
  cases held : object.contents with
  | map entries =>
    cases named : object.id.kind? with
    | none => simp [ObjectState.kind, ObjectState.contentKind, toState, entries?, kind, held, named,
        Contents.entries?, Contents.count?, Contents.kind, bind, Except.bind]
    | some shown => cases shown <;> simp [ObjectState.kind, ObjectState.contentKind, toState, entries?,
        kind, held, named, Contents.entries?, Contents.count?, Contents.kind, bind, Except.bind]
  | counter count =>
    cases named : object.id.kind? with
    | none => simp [ObjectState.kind, ObjectState.contentKind, toState, entries?, kind, held, named,
        Contents.entries?, Contents.count?, Contents.kind, bind, Except.bind]
    | some shown => cases shown <;> simp [ObjectState.kind, ObjectState.contentKind, toState, entries?,
        kind, held, named, Contents.entries?, Contents.count?, Contents.kind, bind, Except.bind]

/-- An object that takes over the description of another one becomes that one, but for
the marks. -/
theorem takeOver_toState {known : LiveObject} (sound : object.Sound) (knownSound : known.Sound)
    (sameId : known.id = object.id) (sameKind : known.kind = object.kind) (time : Int) :
    (known.takeOver object.toState time).2.toState = object.toState := by
  unfold takeOver
  by_cases dead : object.tombstone = true
  · have empty : object.contents = .initial known.kind := sameKind ▸ sound.emptied dead
    rw [if_pos (show object.toState.tombstone = true from dead)]
    by_cases gone : known.tombstone = true
    · rw [if_pos gone]
      simp only [relisted, toState, entries?, sameId, gone, dead, knownSound.emptied gone, empty]
    · rw [if_neg gone]
      simp only [relisted, delete, toState, entries?, sameId, dead, kind, empty]
  · rw [if_neg (show ¬ object.toState.tombstone = true from dead)]
    cases held : object.contents with
    | map entries =>
      cases knownHeld : known.contents with
      | counter count => simp [kind, held, knownHeld, Contents.kind] at sameKind
      | map before =>
        simp only [adopt, relisted, knownHeld, toState, entries?, held, Contents.entries?,
          Contents.count?, Option.map_some, Option.getD_some, (sound.timed entries held).ofState_eq,
          sameId, dead]
    | counter count =>
      cases knownHeld : known.contents with
      | map before => simp [kind, held, knownHeld, Contents.kind] at sameKind
      | counter before =>
        simp only [adopt, relisted, knownHeld, toState, entries?, held, Contents.entries?,
          Contents.count?, Option.getD_some, sameId, dead]

/-- A live object that is described without a create operation has merged nothing yet. -/
theorem takeOver_createMerged (live : state.tombstone = false) (plain : state.createOp = none)
    (time : Int) : (object.takeOver state time).2.createMerged = false := by
  unfold takeOver
  rw [if_neg (Bool.eq_false_iff.1 live)]
  simp only [adopt, plain]
  split <;> rfl

/-! ## What every description leaves in order -/

theorem Sound.relisted (sound : object.Sound) (serials : SiteSerials) : (object.relisted serials).Sound :=
  ⟨sound.emptied, sound.timed⟩

private theorem timed_described (state : ObjectState) (time : Int) :
    Entries.Timed ((state.entries.map fun entries => Entries.ofState entries time).getD .empty) := by
  cases state.entries with
  | none => exact Entries.timed_empty
  | some entries => exact Entries.timed_ofState entries time

/-- An object that adopts a description lives, keeps its name and its kind, and is sound. -/
theorem adopt_spec (object : LiveObject) (state : ObjectState) (time : Int) :
    (object.adopt state time).2.id = object.id ∧ (object.adopt state time).2.kind = object.kind ∧
      (object.adopt state time).2.tombstone = false ∧ (object.adopt state time).2.Sound := by
  have alive {next : LiveObject} (live : next.tombstone = false) :
      next.tombstone = true → next.contents = .initial next.kind := by
    intro dead
    rw [live] at dead
    cases dead
  have timed := timed_described state time
  unfold adopt
  cases held : object.contents with
  | map before =>
    simp only
    cases state.createOp with
    | none =>
      refine ⟨rfl, by simp only [kind, held, Contents.kind], rfl, alive rfl, fun entries same => ?_⟩
      cases same
      exact timed
    | some operation =>
      simp only [mergeEntries, Bool.false_eq_true, ↓reduceIte, kind, held, Contents.kind, true_and]
      refine ⟨alive rfl, fun entries same => ?_⟩
      cases same
      exact timed.mergeInitial operation.firstEntries time
  | counter before =>
    simp only
    cases state.createOp with
    | none =>
      refine ⟨rfl, by simp only [kind, held, Contents.kind], rfl, alive rfl, fun entries same => ?_⟩
      cases same
    | some operation =>
      simp only [mergeCount, Bool.false_eq_true, ↓reduceIte, kind, held, Contents.kind, true_and]
      refine ⟨alive rfl, fun entries same => ?_⟩
      cases same

theorem takeOver_keeps (object : LiveObject) (state : ObjectState) (time : Int) :
    (object.takeOver state time).2.id = object.id ∧ (object.takeOver state time).2.kind = object.kind ∧
      (object.takeOver state time).2.tombstone = state.tombstone := by
  unfold takeOver
  by_cases deleted : state.tombstone = true
  · rw [if_pos deleted]
    by_cases dead : object.tombstone = true
    · rw [if_pos dead]
      exact ⟨rfl, rfl, dead.trans deleted.symm⟩
    · rw [if_neg dead]
      exact ⟨rfl, kind_initial object.kind, deleted.symm⟩
  · rw [if_neg deleted]
    obtain ⟨named, kindSame, live, -⟩ := adopt_spec (object.relisted state.serials) state time
    exact ⟨named, kindSame, live.trans (Bool.eq_false_iff.2 deleted).symm⟩

theorem Sound.takeOver (sound : object.Sound) (state : ObjectState) (time : Int) :
    (object.takeOver state time).2.Sound := by
  unfold LiveObject.takeOver
  split
  · split
    · exact sound.relisted state.serials
    · exact sound_delete _ time
  · exact (adopt_spec (object.relisted state.serials) state time).2.2.2

theorem takeOver_spec (sound : object.Sound) (state : ObjectState) (time : Int) :
    (object.takeOver state time).2.id = object.id ∧ (object.takeOver state time).2.kind = object.kind ∧
      (object.takeOver state time).2.tombstone = state.tombstone ∧ (object.takeOver state time).2.Sound := by
  obtain ⟨named, kindSame, dead⟩ := takeOver_keeps object state time
  exact ⟨named, kindSame, dead, sound.takeOver state time⟩

end SharedGraph.LiveObject
