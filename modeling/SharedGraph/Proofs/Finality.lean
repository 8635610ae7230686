import SharedGraph.Proofs.Forgetting
import SharedGraph.Proofs.Handover
import SharedGraph.Proofs.Interleaving

/-! Deletion is final, as far as operations go. An object is marked as deleted exactly when the
time of its deletion is recorded, and then it holds what it held before anything happened to it;
no history leads out of this. What is offered to a deleted object moves the serials of its sites
and nothing else, so of all that can happen to the object only a description that shows it as live
brings it back. -/
namespace SharedGraph

namespace SiteSerials

/-- No site falls behind what was accepted from it. -/
def Advances (before after : SiteSerials) : Prop :=
  ∀ site accepted, before.get? site = some accepted →
    ∃ latest, after.get? site = some latest ∧ (accepted = latest ∨ accepted < latest)

theorem Advances.refl (serials : SiteSerials) : serials.Advances serials :=
  fun _ accepted listed => ⟨accepted, listed, .inl rfl⟩

theorem Advances.trans {first second third : SiteSerials} (early : first.Advances second)
    (late : second.Advances third) : first.Advances third := by
  intro site accepted listed
  obtain ⟨middle, listedNext, le⟩ := early site accepted listed
  obtain ⟨latest, listedLast, leLast⟩ := late site middle listedNext
  refine ⟨latest, listedLast, ?_⟩
  rcases le with rfl | less
  · exact leLast
  · rcases leLast with rfl | lessLast
    · exact .inr less
    · exact .inr (Serial.lt_trans less lessLast)

/-- What passes the gate of a site is newer than what was recorded there. -/
theorem advances_record {serials : SiteSerials} {site : String} {serial : Serial}
    (open? : serials.admits site serial = true) : serials.Advances (serials.record site serial) := by
  intro other accepted listed
  rw [record, SortedMap.get?_insert_ite]
  split
  case isTrue same =>
    subst same
    simp only [admits, listed, decide_eq_true_eq] at open?
    exact ⟨serial, rfl, .inr open?⟩
  case isFalse => exact ⟨accepted, listed, .inl rfl⟩

end SiteSerials

/-- The description is one of this object. -/
def ObjectState.Concerns (state : ObjectState) (object : LiveObject) : Prop :=
  state.id = object.id ∧ state.kind = .ok object.kind

namespace LiveObject

variable {object : LiveObject} {state : ObjectState}

/-- What can happen to an object. -/
inductive Event where
  | offer (operation : Operation) (message : Message)
  | describe (state : ObjectState) (time : Int)
  | delete (time : Int)
  /-- The removals that a map made at or before a time are forgotten. -/
  | forget (cutoff : Int)

/-- The object after a description was offered to it, whatever came of that. -/
def describe (object : LiveObject) (state : ObjectState) (time : Int) : LiveObject :=
  match object.override state time with
  | .ok (_, next) => next
  | .error _ => object

def meet (object : LiveObject) : Event → LiveObject
  | .offer operation message => object.take operation message
  | .describe state time => object.describe state time
  | .delete time => (object.delete time).2
  | .forget cutoff => object.dropExpired cutoff

def meetAll (object : LiveObject) (events : List Event) : LiveObject := events.foldl meet object

/-- The ways in which an object comes about: its name is mentioned, or it is described. -/
inductive Arises : LiveObject → Prop
  | mentioned (id : ObjectId) (kind : Kind) : Arises (placeholder id kind)
  | described {state : ObjectState} {time : Int} {object : LiveObject}
      (made : ofState state time = .ok object) : Arises object

private theorem describe_of_concerns (concerns : state.Concerns object) (time : Int) :
    object.describe state time = (object.takeOver state time).2 := by
  rw [describe, override_eq concerns.1 concerns.2]

private theorem describe_of_foreign (foreign : ¬ state.Concerns object) (time : Int) :
    object.describe state time = object := by
  obtain ⟨fault, refused⟩ : ∃ fault, object.override state time = .error fault :=
    override_eq_error_iff.2 (Decidable.not_and_iff_or_not.1 foreign)
  rw [describe, refused]

/-! ## A deletion is dated, and leaves nothing -/

/-- The time of its deletion is recorded for a deleted object, and for no other. -/
def Dated (object : LiveObject) : Prop := object.tombstone = object.tombstonedAt.isSome

theorem Dated.take (dated : object.Dated) (operation : Operation) (message : Message) :
    (object.take operation message).Dated := by
  rcases object.take_cases operation message with same | ⟨step, origin, asked, -, -, same⟩
  · rw [same]
    exact dated
  obtain ⟨-, effect, -, made⟩ := effect_of_stepFor? asked
  rw [same, carry_eq_undergo made, undergo]
  split
  case isTrue => exact dated
  case isFalse live =>
    by_cases deletes : effect = .delete
    · simp only [Dated, deletes, decide_true, ↓reduceIte, Option.isSome_some]
    · simp only [Dated, deletes, decide_false, ↓reduceIte]
      exact (Bool.eq_false_iff.2 live).symm.trans dated

private theorem adopt_tombstonedAt (object : LiveObject) (state : ObjectState) (time : Int) :
    (object.adopt state time).2.tombstonedAt = none := by
  unfold adopt mergeEntries mergeCount
  cases object.contents <;> cases state.createOp <;> rfl

theorem Dated.takeOver (dated : object.Dated) (state : ObjectState) (time : Int) :
    (object.takeOver state time).2.Dated := by
  unfold LiveObject.takeOver
  split
  · split
    · exact dated
    · exact rfl
  · rw [Dated, (adopt_spec _ state time).2.2.1, adopt_tombstonedAt]
    rfl

/-- The record of a deletion is complete, and a deleted object is empty. -/
structure Consistent (object : LiveObject) : Prop extends Sound object where
  dated : object.Dated

private theorem consistent_placeholder (id : ObjectId) (kind : Kind) : (placeholder id kind).Consistent :=
  ⟨sound_placeholder id kind, rfl⟩

theorem Consistent.describe (consistent : object.Consistent) (state : ObjectState) (time : Int) :
    (object.describe state time).Consistent := by
  by_cases concerns : state.Concerns object
  · rw [describe_of_concerns concerns]
    exact ⟨consistent.toSound.takeOver state time, consistent.dated.takeOver state time⟩
  · rw [describe_of_foreign concerns]
    exact consistent

theorem Consistent.meet (consistent : object.Consistent) (event : Event) :
    (object.meet event).Consistent := by
  cases event with
  | offer operation message =>
    exact ⟨consistent.toSound.take operation message, consistent.dated.take operation message⟩
  | describe state time => exact consistent.describe state time
  | delete time => exact ⟨sound_delete object time, rfl⟩
  | forget cutoff =>
    refine ⟨consistent.toSound.dropExpired cutoff, ?_⟩
    rw [LiveObject.meet, Dated, dropExpired_tombstone, dropExpired_tombstonedAt]
    exact consistent.dated

theorem Consistent.meetAll (consistent : object.Consistent) (events : List Event) :
    (object.meetAll events).Consistent := by
  induction events generalizing object with
  | nil => exact consistent
  | cons event rest ih => exact ih (consistent.meet event)

/-- An object that a description gives is the placeholder of its name after that description. -/
theorem ofState_eq_ok {time : Int} (made : ofState state time = .ok object) :
    ∃ kind, object = (placeholder state.id kind).describe state time := by
  unfold ofState at made
  cases shown : state.kind with
  | error fault => simp [shown, bind, Except.bind] at made
  | ok kind =>
    refine ⟨kind, ?_⟩
    simp only [shown, bind, Except.bind] at made
    unfold describe
    cases overridden : (placeholder state.id kind).override state time with
    | error fault => simp [overridden] at made
    | ok result =>
      simp only [overridden, Except.ok.injEq] at made
      exact made.symm

theorem Arises.consistent (arises : object.Arises) : object.Consistent := by
  cases arises with
  | mentioned id kind => exact consistent_placeholder id kind
  | described made =>
    obtain ⟨kind, rfl⟩ := ofState_eq_ok made
    exact (consistent_placeholder _ kind).describe ..

/-! ## What a deleted object still takes -/

/-- An offer moves the serials of a deleted object, if anything. -/
theorem take_of_dead (dead : object.tombstone = true) (operation : Operation) (message : Message) :
    ∃ serials, object.take operation message = object.relisted serials ∧
      object.serials.Advances serials := by
  rcases object.take_cases operation message with same | ⟨step, origin, -, -, open?, same⟩
  · exact ⟨object.serials, same, .refl object.serials⟩
  · refine ⟨object.serials.record origin.1 origin.2, ?_, SiteSerials.advances_record open?⟩
    rw [same, carry, if_pos dead]
    rfl

private theorem takeAll_of_dead (dead : object.tombstone = true) (history : List (Operation × Message)) :
    ∃ serials, object.takeAll history = object.relisted serials ∧ object.serials.Advances serials := by
  induction history generalizing object with
  | nil => exact ⟨object.serials, rfl, .refl object.serials⟩
  | cons offer rest ih =>
    obtain ⟨passed, sameFirst, early⟩ := take_of_dead dead offer.1 offer.2
    have deadNext : (object.relisted passed).tombstone = true := dead
    obtain ⟨serials, sameRest, late⟩ := ih deadNext
    refine ⟨serials, ?_, early.trans late⟩
    rw [takeAll, List.foldl_cons, sameFirst]
    exact sameRest

/-! ## What brings an object back -/

/-- The event is a description of the object that shows it as live. -/
def Event.Revives (event : Event) (object : LiveObject) : Prop :=
  ∃ state time, event = .describe state time ∧ state.Concerns object ∧ state.tombstone = false

private theorem describe_keeps (object : LiveObject) (state : ObjectState) (time : Int) :
    (object.describe state time).id = object.id ∧ (object.describe state time).kind = object.kind := by
  by_cases concerns : state.Concerns object
  · rw [describe_of_concerns concerns]
    exact ⟨(object.takeOver_keeps state time).1, (object.takeOver_keeps state time).2.1⟩
  · rw [describe_of_foreign concerns]
    exact ⟨rfl, rfl⟩

/-- Nothing changes the name or the kind of an object. -/
theorem meet_keeps (object : LiveObject) (event : Event) :
    (object.meet event).id = object.id ∧ (object.meet event).kind = object.kind := by
  cases event with
  | offer operation message => exact ⟨object.take_id .., object.take_kind ..⟩
  | describe state time => exact object.describe_keeps state time
  | delete time => exact ⟨rfl, kind_initial object.kind⟩
  | forget cutoff => exact ⟨object.dropExpired_id cutoff, object.dropExpired_kind cutoff⟩

private theorem meet_live_iff (dead : object.tombstone = true) (event : Event) :
    (object.meet event).tombstone = false ↔ event.Revives object := by
  cases event with
  | offer operation message =>
    obtain ⟨serials, same, -⟩ := take_of_dead dead operation message
    simp [LiveObject.meet, same, relisted, dead, Event.Revives]
  | describe state time =>
    by_cases concerns : state.Concerns object
    · simp [LiveObject.meet, describe_of_concerns concerns, takeOver_keeps, Event.Revives, concerns]
    · simp [LiveObject.meet, describe_of_foreign concerns, dead, Event.Revives, concerns]
  | delete time => simp [LiveObject.meet, delete, Event.Revives]
  | forget cutoff => simp [LiveObject.meet, dead, Event.Revives]

private theorem meetAll_live (dead : object.tombstone = true) {events : List Event}
    (live : (object.meetAll events).tombstone = false) : ∃ event ∈ events, event.Revives object := by
  induction events generalizing object with
  | nil =>
    rw [meetAll, List.foldl_nil, dead] at live
    cases live
  | cons event rest ih =>
    by_cases revives : event.Revives object
    · exact ⟨event, List.mem_cons_self, revives⟩
    have deadNext : (object.meet event).tombstone = true := by
      rw [← Bool.not_eq_false, meet_live_iff dead]
      exact revives
    obtain ⟨later, member, state, time, described, ⟨named, shown⟩, alive⟩ := ih deadNext live
    rw [(object.meet_keeps event).1] at named
    rw [(object.meet_keeps event).2] at shown
    exact ⟨later, List.mem_cons_of_mem event member, state, time, described, ⟨named, shown⟩, alive⟩

/-- An object is marked as deleted exactly when the time of its deletion is recorded, and then it is
empty, whatever happened to it. No operation changes anything of a deleted object but the serials of
its sites, which only advance, so that an object which lives again was described as live. -/
theorem deletion_is_final {first dead : LiveObject} (arises : first.Arises)
    (deleted : dead.tombstone = true) (events : List Event) (history : List (Operation × Message))
    (later : List Event) :
    let object := first.meetAll events
    (object.tombstone = true ↔ ∃ time, object.tombstonedAt = some time) ∧
      (object.tombstone = true → object.contents = .initial object.kind) ∧
      dead.takeAll history = { dead with serials := (dead.takeAll history).serials } ∧
      dead.serials.Advances (dead.takeAll history).serials ∧
      (∀ event, (dead.meet event).tombstone = false ↔ event.Revives dead) ∧
      ((dead.meetAll later).tombstone = false → ∃ event ∈ later, event.Revives dead) := by
  intro object
  have consistent : object.Consistent := arises.consistent.meetAll events
  obtain ⟨serials, same, advances⟩ := takeAll_of_dead deleted history
  refine ⟨?_, consistent.emptied, ?_, ?_, meet_live_iff deleted, meetAll_live deleted⟩
  · rw [consistent.dated, Option.isSome_iff_exists]
  · rw [same]
    rfl
  · rw [same]
    exact advances

private def noticeId : ObjectId := ⟨"map:notice@1"⟩

private def posted (site serial : String) (operation : Operation) : Operation × Message :=
  (operation, ((Message.ofOperation operation).withOrigin site ⟨serial⟩).withTimestamp 7)

/-- A notice is given a title and taken down, and the removals made by 9 are forgotten. -/
private def takenDown : List Event :=
  let titled := posted "a" "01" (.mapSet noticeId "title" (.text "old"))
  let dropped := posted "a" "02" (.objectDelete noticeId)
  [.offer titled.1 titled.2, .offer dropped.1 dropped.2, .forget 9]

private def lateTitle : Entries := .ofList [("title", .live (.text "late") (some ⟨"03"⟩))]

/-- The notice stays empty when another site sets a title and creates it once more, until a
description shows it as live. -/
theorem notice_stays_down :
    let notice := (placeholder noticeId .map).meetAll takenDown
    let late := [posted "b" "01" (.mapSet noticeId "title" (.text "late")),
      posted "b" "02" { action := .mapCreate, target := noticeId, entries := some lateTitle }]
    let shown : ObjectState := { id := noticeId, entries := some lateTitle }
    (placeholder noticeId .map).Arises ∧ notice.tombstone = true ∧ notice.tombstonedAt = some 7 ∧
      notice.contents = .map .empty ∧ (notice.takeAll late).serials.get? "b" = some ⟨"02"⟩ ∧
      notice.takeAll late = { notice with serials := (notice.takeAll late).serials } ∧
      (notice.meet (.describe shown 8)).tombstone = false ∧
      ∃ event ∈ [Event.delete 8, .describe shown 8], event.Revives notice := by
  intro notice late shown
  have arises : (placeholder noticeId .map).Arises := .mentioned noticeId .map
  have deleted : notice.tombstone = true := by decide +kernel
  have back : (notice.meetAll [.delete 8, .describe shown 8]).tombstone = false := by decide +kernel
  obtain ⟨-, emptied, unchanged, -, -, revival⟩ :=
    deletion_is_final arises deleted takenDown late [.delete 8, .describe shown 8]
  exact ⟨arises, deleted, by decide +kernel, emptied deleted, by decide +kernel, unchanged,
    by decide +kernel, revival back⟩

end LiveObject

end SharedGraph
