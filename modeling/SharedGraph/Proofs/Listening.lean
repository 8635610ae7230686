import Mathlib.Data.List.Nodup
import SharedGraph.Subscriptions
import SharedGraph.Proofs.Maps

/-! A board of listeners, whatever is done to it. Listeners that are called may do all that others
may, so what they do becomes part of one record of changes, and the record says who is on the board:
those who joined and whom nothing took off afterwards. -/
namespace SharedGraph

namespace Subscriptions

variable {board : ObjectId} {subscriptions : Subscriptions}

/-! ## What a board shows -/

private theorem placements_place (subscriptions : Subscriptions) (board : ObjectId)
    (listener : Listener) :
    (subscriptions.place board listener).placements board =
      subscriptions.placements board ++ [⟨subscriptions.issued, listener⟩] := by
  simp [place, placements]

private theorem placements_release (subscriptions : Subscriptions) (board : ObjectId) (ticket : Nat) :
    (subscriptions.release ⟨board, ticket⟩).2.placements board =
      (subscriptions.placements board).filter fun placement => placement.ticket != ticket := by
  unfold release
  cases shown : subscriptions.boards.get? board with
  | none => simp [placements, shown]
  | some listed => simp [placements, shown]

/-- To give up a handle tells whether its ticket was on the board. -/
theorem release_eq_true_iff (subscriptions : Subscriptions) (board : ObjectId) (ticket : Nat) :
    (subscriptions.release ⟨board, ticket⟩).1 = true ↔
      ∃ placement ∈ subscriptions.placements board, placement.ticket = ticket := by
  unfold release
  cases shown : subscriptions.boards.get? board with
  | none => simp [placements, shown]
  | some listed => simp [placements, shown, List.length_filter_eq_length_iff]

private theorem placements_clear (subscriptions : Subscriptions) (board : ObjectId) :
    (subscriptions.clear board).placements board = [] := by
  unfold clear
  split
  case isTrue => simp [placements]
  case isFalse none =>
    simp only [SortedMap.contains_eq_isSome, Bool.not_eq_true, Option.isSome_eq_false_iff,
      Option.isNone_iff_eq_none] at none
    simp [placements, none]

/-! ## What is done to a board -/

/-- What anybody may do to a board, also a listener that is called. -/
inductive Deed where
  /-- A listener is put on the board; the handle is kept under its label. -/
  | subscribe (listener : Listener)
  /-- A listener is put on the board; whoever does it has the handle, or lets go of it. -/
  | place (listener : Listener)
  /-- The handle kept under a label is given up. -/
  | unsubscribe (label : String)
  /-- The handle with a ticket is given up. -/
  | release (ticket : Nat)
  | clear

def undergo (board : ObjectId) (subscriptions : Subscriptions) : Deed → Subscriptions
  | .subscribe listener => subscriptions.subscribe board listener
  | .place listener => subscriptions.place board listener
  | .unsubscribe label => (subscriptions.unsubscribe label).2
  | .release ticket => (subscriptions.release ⟨board, ticket⟩).2
  | .clear => subscriptions.clear board

def undergoAll (board : ObjectId) (subscriptions : Subscriptions) (deeds : List Deed) : Subscriptions :=
  deeds.foldl (undergo board) subscriptions

/-- What a listener does when it is called, before it returns or fails. -/
structure Conduct where
  deeds : List Deed := []
  fails : Bool := false

/-- Calls listeners one after another, whatever each of them does this time. -/
def callEach (board : ObjectId) (conduct : Placement → Conduct) :
    List Placement → Subscriptions → Delivery × Subscriptions
  | [], subscriptions => (⟨[], 0⟩, subscriptions)
  | placement :: rest, subscriptions =>
    let own := conduct placement
    let (delivery, final) := callEach board conduct rest (subscriptions.undergoAll board own.deeds)
    (⟨placement :: delivery.called, delivery.failed + own.fails.toNat⟩, final)

/-- A delivery to the listeners on a board now, whatever each of them does. -/
def deliver (subscriptions : Subscriptions) (board : ObjectId) (conduct : Placement → Conduct) :
    Delivery × Subscriptions :=
  callEach board conduct (subscriptions.placements board) subscriptions

/-- What all of them do, in the order in which they are called. -/
def doneBy (conduct : Placement → Conduct) (called : List Placement) : List Deed :=
  called.flatMap fun placement => (conduct placement).deeds

private theorem undergoAll_append (board : ObjectId) (subscriptions : Subscriptions)
    (deeds more : List Deed) :
    subscriptions.undergoAll board (deeds ++ more) =
      (subscriptions.undergoAll board deeds).undergoAll board more :=
  List.foldl_append ..

private theorem callEach_eq (board : ObjectId) (conduct : Placement → Conduct) (listed : List Placement)
    (subscriptions : Subscriptions) :
    callEach board conduct listed subscriptions =
      (⟨listed, listed.countP fun placement => (conduct placement).fails⟩,
        subscriptions.undergoAll board (doneBy conduct listed)) := by
  induction listed generalizing subscriptions with
  | nil => rfl
  | cons placement rest ih =>
    have done : doneBy conduct (placement :: rest) = (conduct placement).deeds ++ doneBy conduct rest :=
      List.flatMap_cons
    rw [callEach, ih, done, undergoAll_append, List.countP_cons]
    cases (conduct placement).fails <;> rfl

/-- The conduct of a listener that does the same each time. -/
def conductOf : List ListenerAct → Conduct
  | [] => {}
  | .fail :: _ => { fails := true }
  | .leave label :: rest => { conductOf rest with deeds := .unsubscribe label :: (conductOf rest).deeds }
  | .clear :: rest => { conductOf rest with deeds := .clear :: (conductOf rest).deeds }
  | .join label acts :: rest =>
    { conductOf rest with deeds := .place ⟨label, acts⟩ :: (conductOf rest).deeds }

private theorem perform_eq (board : ObjectId) (acts : List ListenerAct) (subscriptions : Subscriptions) :
    perform board acts subscriptions =
      ((conductOf acts).fails, subscriptions.undergoAll board (conductOf acts).deeds) := by
  induction acts generalizing subscriptions with
  | nil => rfl
  | cons act rest ih =>
    cases act with
    | fail => rfl
    | leave label => exact ih _
    | clear => exact ih _
    | join label acts => exact ih _

/-- Listeners that do the same each time are called like any others. -/
theorem notify_eq_deliver (subscriptions : Subscriptions) (board : ObjectId) :
    subscriptions.notify board =
      subscriptions.deliver board fun placement => conductOf placement.listener.acts := by
  have all (listed : List Placement) (subscriptions : Subscriptions) :
      callAll board listed subscriptions =
        callEach board (fun placement => conductOf placement.listener.acts) listed subscriptions := by
    induction listed generalizing subscriptions with
    | nil => rfl
    | cons placement rest ih => simp only [callAll, callEach, perform_eq, ih]
  exact all _ _

/-! ## The record -/

/-- What happened on a board. -/
inductive BoardChange where
  | joined (placement : Placement)
  | left (ticket : Nat)
  | cleared

namespace BoardChange

def takesOff (placement : Placement) : BoardChange → Bool
  | .joined _ => false
  | .left ticket => ticket == placement.ticket
  | .cleared => true

def joined? : BoardChange → Option Placement
  | .joined placement => some placement
  | .left _ | .cleared => none

/-- Whether none of the changes takes a listener off. -/
def spare (changes : List BoardChange) (placement : Placement) : Bool :=
  changes.all fun change => !change.takesOff placement

def joiners (changes : List BoardChange) : List Placement := changes.filterMap joined?

/-- Those who joined, in this order, and whom nothing took off afterwards. -/
def standing : List BoardChange → List Placement
  | [] => []
  | .joined placement :: later =>
    if spare later placement then placement :: standing later else standing later
  | .left _ :: later | .cleared :: later => standing later

private theorem standing_append (changes more : List BoardChange) :
    standing (changes ++ more) = (standing changes).filter (spare more) ++ standing more := by
  induction changes with
  | nil => rfl
  | cons change later ih =>
    cases change with
    | left ticket => exact ih
    | cleared => exact ih
    | joined placement =>
      have both : spare (later ++ more) placement = (spare later placement && spare more placement) :=
        List.all_append
      simp only [List.cons_append, standing, both, ih]
      cases spare later placement <;> cases kept : spare more placement <;> simp [kept]

private theorem standing_sublist (changes : List BoardChange) :
    (standing changes).Sublist (joiners changes) := by
  induction changes with
  | nil => exact .slnil
  | cons change later ih =>
    cases change with
    | left ticket => exact ih
    | cleared => exact ih
    | joined placement =>
      simp only [standing]
      split
      case isTrue => exact ih.cons_cons placement
      case isFalse => exact ih.cons placement

end BoardChange

open BoardChange

/-- What a deed changes on the board. -/
def changesOf (subscriptions : Subscriptions) : Deed → List BoardChange
  | .subscribe listener | .place listener => [.joined ⟨subscriptions.issued, listener⟩]
  | .unsubscribe label =>
    ((subscriptions.handles.get? label).map fun handle => BoardChange.left handle.ticket).toList
  | .release ticket => [.left ticket]
  | .clear => [.cleared]

def changesOfAll (board : ObjectId) (subscriptions : Subscriptions) : List Deed → List BoardChange
  | [] => []
  | deed :: rest =>
    subscriptions.changesOf deed ++ (subscriptions.undergo board deed).changesOfAll board rest

/-- The record tells who is on the board. Tickets were issued in their order, one to each who
joined, and each handle that is kept is of one who joined under that label. -/
structure Recorded (board : ObjectId) (subscriptions : Subscriptions) (changes : List BoardChange) : Prop where
  shown : subscriptions.placements board = standing changes
  numbered : (joiners changes).map Placement.ticket = List.range subscriptions.issued
  held : ∀ label handle, subscriptions.handles.get? label = some handle → handle.board = board ∧
    ∃ placement ∈ joiners changes, placement.listener.label = label ∧ placement.ticket = handle.ticket

namespace Recorded

variable {changes : List BoardChange}

theorem nothing (board : ObjectId) : Recorded board {} [] where
  shown := rfl
  numbered := rfl
  held label handle kept := by cases kept

theorem place (recorded : Recorded board subscriptions changes) (listener : Listener) :
    Recorded board (subscriptions.place board listener)
      (changes ++ [.joined ⟨subscriptions.issued, listener⟩]) where
  shown := by
    have stay : (standing changes).filter (spare [.joined ⟨subscriptions.issued, listener⟩]) = standing changes :=
      List.filter_eq_self.2 fun _ _ => rfl
    rw [placements_place, recorded.shown, standing_append, stay]
    rfl
  numbered := by
    have next : (subscriptions.place board listener).issued = subscriptions.issued + 1 := rfl
    rw [next, List.range_succ, ← recorded.numbered]
    simp [joiners, joined?]
  held label handle kept := by
    obtain ⟨same, placement, joined, named⟩ := recorded.held label handle kept
    refine ⟨same, placement, ?_, named⟩
    rw [joiners, List.filterMap_append]
    exact List.mem_append_left _ joined

/-- To take listeners off issues no ticket and leaves the kept handles as they are. -/
theorem takeOff (recorded : Recorded board subscriptions changes) {next : Subscriptions}
    {change : BoardChange} (silent : change.joined? = none)
    (kept : next.issued = subscriptions.issued ∧ next.handles = subscriptions.handles)
    (spared : next.placements board = (subscriptions.placements board).filter (spare [change])) :
    Recorded board next (changes ++ [change]) := by
  have same : joiners (changes ++ [change]) = joiners changes := by simp [joiners, silent]
  have nobody : standing [change] = [] := by
    cases change with
    | joined placement => cases silent
    | left ticket => rfl
    | cleared => rfl
  constructor
  case shown => rw [spared, recorded.shown, standing_append, nobody, List.append_nil]
  case numbered =>
    rw [same, kept.1]
    exact recorded.numbered
  case held =>
    rw [same, kept.2]
    exact recorded.held

theorem release (recorded : Recorded board subscriptions changes) (ticket : Nat) :
    Recorded board (subscriptions.release ⟨board, ticket⟩).2 (changes ++ [.left ticket]) := by
  have kept : (subscriptions.release ⟨board, ticket⟩).2.issued = subscriptions.issued ∧
      (subscriptions.release ⟨board, ticket⟩).2.handles = subscriptions.handles := by
    unfold Subscriptions.release
    split <;> exact ⟨rfl, rfl⟩
  have alone : spare [.left ticket] = fun placement => placement.ticket != ticket := by
    funext placement
    simp [spare, takesOff, bne, Bool.beq_comm]
  apply recorded.takeOff rfl kept
  rw [placements_release, alone]

theorem clear (recorded : Recorded board subscriptions changes) :
    Recorded board (subscriptions.clear board) (changes ++ [.cleared]) := by
  have kept : (subscriptions.clear board).issued = subscriptions.issued ∧
      (subscriptions.clear board).handles = subscriptions.handles := by
    unfold Subscriptions.clear
    split <;> exact ⟨rfl, rfl⟩
  apply recorded.takeOff rfl kept
  simp [placements_clear, spare, takesOff]

theorem undergo (recorded : Recorded board subscriptions changes) (deed : Deed) :
    Recorded board (subscriptions.undergo board deed) (changes ++ subscriptions.changesOf deed) := by
  cases deed with
  | place listener => exact recorded.place listener
  | release ticket => exact recorded.release ticket
  | clear => exact recorded.clear
  | subscribe listener =>
    obtain ⟨shown, numbered, held⟩ := recorded.place listener
    refine ⟨shown, numbered, fun label handle kept => ?_⟩
    simp only [Subscriptions.undergo, subscribe, SortedMap.get?_insert_ite] at kept
    split at kept
    case isTrue same =>
      cases kept
      exact ⟨rfl, ⟨subscriptions.issued, listener⟩, by simp [changesOf, joiners, joined?], same.symm, rfl⟩
    case isFalse => exact held label handle kept
  | unsubscribe label =>
    simp only [Subscriptions.undergo, unsubscribe, changesOf]
    cases held : subscriptions.handles.get? label with
    | none => simpa [held] using recorded
    | some handle =>
      obtain ⟨home, -⟩ := recorded.held label handle held
      obtain ⟨place, ticket⟩ := handle
      subst home
      obtain ⟨shown, numbered, heldStill⟩ := recorded.release ticket
      refine ⟨shown, numbered, fun other handle kept => heldStill other handle ?_⟩
      rw [SortedMap.get?_erase_ite] at kept
      split at kept
      case isTrue => cases kept
      case isFalse => exact kept

theorem undergoAll (recorded : Recorded board subscriptions changes) (deeds : List Deed) :
    Recorded board (subscriptions.undergoAll board deeds)
      (changes ++ subscriptions.changesOfAll board deeds) := by
  induction deeds generalizing subscriptions changes with
  | nil => simpa [changesOfAll, Subscriptions.undergoAll] using recorded
  | cons deed rest ih =>
    rw [changesOfAll, ← List.append_assoc]
    exact ih (recorded.undergo deed)

/-- Who joined later has a greater ticket. -/
theorem ascending (recorded : Recorded board subscriptions changes) :
    ((standing changes).map Placement.ticket).Pairwise (· < ·) := by
  have sublist := (standing_sublist changes).map Placement.ticket
  rw [recorded.numbered] at sublist
  exact List.pairwise_lt_range.sublist sublist

theorem nodup (recorded : Recorded board subscriptions changes) :
    ((joiners changes).map Placement.ticket).Nodup := by
  rw [recorded.numbered]
  exact List.nodup_range

/-- A ticket is that of one placement. -/
theorem eq_of_ticket (recorded : Recorded board subscriptions changes) {placement other : Placement}
    (joined : placement ∈ joiners changes) (joinedToo : other ∈ joiners changes)
    (same : placement.ticket = other.ticket) : placement = other :=
  List.inj_on_of_nodup_map recorded.nodup joined joinedToo same

/-- Who joined is still there exactly if nothing took this listener off since. -/
theorem mem_standing_iff {earlier later : List BoardChange} {placement : Placement}
    (recorded : Recorded board subscriptions (earlier ++ .joined placement :: later)) :
    placement ∈ standing (earlier ++ .joined placement :: later) ↔ spare later placement = true := by
  have split : joiners (earlier ++ .joined placement :: later) =
      joiners earlier ++ placement :: joiners later := by
    simp [joiners, joined?]
  have distinct := recorded.nodup
  rw [split, List.map_append, List.map_cons] at distinct
  have own : placement.ticket ∉ (joiners earlier).map Placement.ticket :=
    fun member => (List.disjoint_of_nodup_append distinct) member List.mem_cons_self
  have single : placement.ticket ∉ (joiners later).map Placement.ticket :=
    (List.nodup_cons.1 (List.Nodup.of_append_right distinct)).1
  have before : placement ∉ standing earlier := fun member =>
    own (List.mem_map_of_mem ((standing_sublist earlier).mem member))
  have since : placement ∉ standing later := fun member =>
    single (List.mem_map_of_mem ((standing_sublist later).mem member))
  rw [standing_append, List.mem_append, List.mem_filter, standing]
  cases spare later placement <;> simp [before, since]

/-- To give up the ticket of someone who joined takes this one listener off, if it is there. -/
theorem release_ticket (recorded : Recorded board subscriptions changes) {placement : Placement}
    (joined : placement ∈ joiners changes) :
    ((subscriptions.release ⟨board, placement.ticket⟩).1 = true ↔ placement ∈ standing changes) ∧
      (∀ front back, standing changes = front ++ placement :: back →
        (subscriptions.release ⟨board, placement.ticket⟩).2.placements board = front ++ back) ∧
      (placement ∉ standing changes →
        (subscriptions.release ⟨board, placement.ticket⟩).2.placements board = standing changes) := by
  have own : ∀ other ∈ standing changes, other.ticket = placement.ticket → other = placement :=
    fun other member => recorded.eq_of_ticket ((standing_sublist changes).mem member) joined
  rw [release_eq_true_iff, placements_release, recorded.shown]
  refine ⟨⟨?_, fun member => ⟨placement, member, rfl⟩⟩, fun front back split => ?_, fun absent => ?_⟩
  · rintro ⟨other, member, same⟩
    exact own other member same ▸ member
  · have ascending := recorded.ascending
    rw [split, List.map_append, List.map_cons, List.pairwise_append, List.pairwise_cons] at ascending
    obtain ⟨-, ⟨after, -⟩, before⟩ := ascending
    rw [split, List.filter_append, List.filter_cons_of_neg (by simp), List.filter_eq_self.2,
      List.filter_eq_self.2]
    · intro other member
      have less := after other.ticket (List.mem_map_of_mem member)
      simpa using Nat.ne_of_gt less
    · intro other member
      have less := before other.ticket (List.mem_map_of_mem member) placement.ticket List.mem_cons_self
      simpa using Nat.ne_of_lt less
  · refine List.filter_eq_self.2 fun other member => ?_
    simp only [bne_iff_ne, ne_eq]
    intro same
    exact absent (own other member same ▸ member)

end Recorded

/-! ## Histories -/

/-- What may happen to a board, one thing after another. -/
inductive Event where
  | deed (deed : Deed)
  | delivery (conduct : Placement → Conduct)

def next (board : ObjectId) (subscriptions : Subscriptions) : Event → Subscriptions
  | .deed deed => subscriptions.undergo board deed
  | .delivery conduct => (subscriptions.deliver board conduct).2

def after (board : ObjectId) (subscriptions : Subscriptions) (events : List Event) : Subscriptions :=
  events.foldl (next board) subscriptions

/-- What is done to the board, by the listeners that are called if there are any. -/
def deedsOf (board : ObjectId) (subscriptions : Subscriptions) : Event → List Deed
  | .deed deed => [deed]
  | .delivery conduct => doneBy conduct (subscriptions.placements board)

def record (board : ObjectId) (subscriptions : Subscriptions) : List Event → List BoardChange
  | [] => []
  | event :: rest =>
    subscriptions.changesOfAll board (subscriptions.deedsOf board event) ++
      (subscriptions.next board event).record board rest

private theorem next_eq (board : ObjectId) (subscriptions : Subscriptions) (event : Event) :
    subscriptions.next board event = subscriptions.undergoAll board (subscriptions.deedsOf board event) := by
  cases event with
  | deed deed => rfl
  | delivery conduct => rw [next, deliver, callEach_eq, deedsOf]

theorem Recorded.after {changes : List BoardChange} (recorded : Recorded board subscriptions changes)
    (events : List Event) : Recorded board (subscriptions.after board events)
      (changes ++ subscriptions.record board events) := by
  induction events generalizing subscriptions changes with
  | nil => simpa [record, Subscriptions.after] using recorded
  | cons event rest ih =>
    have first := recorded.undergoAll (subscriptions.deedsOf board event)
    rw [← next_eq] at first
    rw [record, ← List.append_assoc]
    exact ih first

end Subscriptions

open Subscriptions BoardChange in
/-- Whatever was done to a board, by listeners that were called or by others: a delivery calls those
who joined and whom nothing took off since, in the order in which they joined and each once,
whatever any of them does, and counts those that fail. Who joins meanwhile is not called by this
delivery but by the next one, as long as nothing took this listener off. And to give up the handle
of one who joined is of use exactly if this listener is still there; it takes off this one and
nobody else. -/
theorem listeners_called_once (board : ObjectId) (events : List Subscriptions.Event) :
    let subscriptions := Subscriptions.after board {} events
    let changes := Subscriptions.record board {} events
    let listeners := standing changes
    (listeners.map Placement.ticket).Pairwise (· < ·) ∧
      subscriptions.notify board =
        subscriptions.deliver board (fun placement => conductOf placement.listener.acts) ∧
      (∀ conduct : Placement → Conduct,
        let (delivery, next) := subscriptions.deliver board conduct
        let meanwhile := subscriptions.changesOfAll board (doneBy conduct listeners)
        delivery.called = listeners ∧
          delivery.failed = listeners.countP (fun placement => (conduct placement).fails) ∧
          (∀ placement ∈ joiners meanwhile, placement ∉ delivery.called) ∧
          ∀ again, (next.deliver board again).1.called =
            listeners.filter (spare meanwhile) ++ standing meanwhile) ∧
      (∀ earlier placement later, changes = earlier ++ .joined placement :: later →
        let (there, next) := subscriptions.release ⟨board, placement.ticket⟩
        (there = true ↔ spare later placement = true) ∧ (there = true ↔ placement ∈ listeners) ∧
          (∀ front back, listeners = front ++ placement :: back → next.placements board = front ++ back) ∧
          (placement ∉ listeners → next.placements board = listeners)) ∧
      ∀ label handle, subscriptions.handles.get? label = some handle →
        (∃ placement ∈ joiners changes,
          placement.listener.label = label ∧ handle = ⟨board, placement.ticket⟩) ∧
          (subscriptions.unsubscribe label).1 = some (subscriptions.release handle).1 := by
  intro subscriptions changes listeners
  have recorded : Recorded board subscriptions changes := (Recorded.nothing board).after events
  refine ⟨recorded.ascending, notify_eq_deliver .., fun conduct => ?_, ?_, fun label handle kept => ?_⟩
  · have shown : subscriptions.placements board = listeners := recorded.shown
    have later := recorded.undergoAll (doneBy conduct listeners)
    simp only [deliver, callEach_eq, shown, true_and]
    refine ⟨fun placement joined called => ?_, ?_⟩
    · have distinct := later.nodup
      rw [joiners, List.filterMap_append, List.map_append] at distinct
      exact List.disjoint_of_nodup_append distinct
        (List.mem_map_of_mem ((standing_sublist changes).mem called)) (List.mem_map_of_mem joined)
    · intro _
      rw [later.shown, standing_append]
  · intro earlier placement later split
    have joined : placement ∈ joiners changes := by simp [split, joiners, joined?]
    obtain ⟨answer, one, nobody⟩ := recorded.release_ticket joined
    refine ⟨answer.trans ?_, answer, one, nobody⟩
    rw [split] at recorded ⊢
    exact recorded.mem_standing_iff
  · obtain ⟨home, placement, joined, labelled, ticket⟩ := recorded.held label handle kept
    refine ⟨⟨placement, joined, labelled, ?_⟩, ?_⟩
    · rw [← home, ticket]
    · simp [Subscriptions.unsubscribe, kept]

-- The first listener clears the board and fails; the second one is called all the same.
example :
    let subscriptions := (Subscriptions.subscribe {} .root ⟨"a", [.clear, .fail]⟩).subscribe .root ⟨"b", []⟩
    let (delivery, next) := subscriptions.notify .root
    delivery.called.map Placement.ticket = [0, 1] ∧ delivery.failed = 1 ∧
      (next.placements .root).length = 0 := by
  decide

end SharedGraph
