import SharedGraph.Update

/-! Listeners of updates. Each object has a board of listeners, kept apart from the
object, so that subscriptions outlive the replacement of the graph. A listener may do
things to the very boards it is called from; a delivery calls the listeners that were
on the board when it began, whatever they do. -/
namespace SharedGraph

/-- What a listener does when it is called, after it has taken note of the update. -/
inductive ListenerAct where
  /-- It fails, and does nothing after that. -/
  | fail
  /-- It gives up the handle kept under a label. -/
  | leave (label : String)
  /-- It clears its board. -/
  | clear
  /-- It puts another listener on its board, and lets go of the handle. -/
  | join (label : String) (acts : List ListenerAct)

structure Listener where
  label : String
  acts : List ListenerAct := []

/-- The labels whose handles a listener gives up when it is called. -/
def Listener.leaving (listener : Listener) : List String :=
  listener.acts.filterMap fun
    | .leave label => some label
    | _ => none

/-- A listener on a board. No ticket is issued twice. -/
structure Placement where
  ticket : Nat
  listener : Listener

/-- What a subscriber holds to take a listener off its board again. -/
structure Handle where
  board : ObjectId
  ticket : Nat
  deriving DecidableEq

structure Subscriptions where
  issued : Nat := 0
  boards : SortedMap ObjectId (List Placement) := .empty
  /-- Handles that are held, under the labels of their listeners. -/
  handles : SortedMap String Handle := .empty

/-- What a delivery did: the listeners called, in order, and how many of them failed. -/
structure Delivery where
  called : List Placement
  failed : Nat

namespace Subscriptions

/-- The listeners of an object, in the order in which they subscribed. -/
def placements (subscriptions : Subscriptions) (board : ObjectId) : List Placement :=
  (subscriptions.boards.get? board).getD []

/-- How many listeners an object has, if it has a board. -/
def size? (subscriptions : Subscriptions) (board : ObjectId) : Option Nat :=
  (subscriptions.boards.get? board).map List.length

/-- Sets up a board, if there is none. -/
def openBoard (subscriptions : Subscriptions) (board : ObjectId) : Subscriptions :=
  { subscriptions with
    boards := subscriptions.boards.insert board (subscriptions.placements board) }

/-- Takes a board away with all its listeners. -/
def closeBoard (subscriptions : Subscriptions) (board : ObjectId) : Subscriptions :=
  { subscriptions with boards := subscriptions.boards.erase board }

/-- Puts a listener on a board; nobody holds a handle of it. -/
def place (subscriptions : Subscriptions) (board : ObjectId) (listener : Listener) :
    Subscriptions :=
  let ticket := subscriptions.issued
  { subscriptions with
    issued := ticket + 1
    boards := subscriptions.boards.insert board
      (subscriptions.placements board ++ [⟨ticket, listener⟩]) }

/-- Puts a listener on a board and keeps its handle under its label. -/
def subscribe (subscriptions : Subscriptions) (board : ObjectId) (listener : Listener) :
    Subscriptions :=
  { subscriptions.place board listener with
    handles := subscriptions.handles.insert listener.label ⟨board, subscriptions.issued⟩ }

/-- Takes a listener off its board; says whether it was still there. -/
def release (subscriptions : Subscriptions) (handle : Handle) : Bool × Subscriptions :=
  match subscriptions.boards.get? handle.board with
  | none => (false, subscriptions)
  | some placements =>
    let kept := placements.filter fun placement => placement.ticket != handle.ticket
    (kept.length != placements.length,
      { subscriptions with boards := subscriptions.boards.insert handle.board kept })

/-- Gives up the handle kept under a label, if there is one. -/
def unsubscribe (subscriptions : Subscriptions) (label : String) : Option Bool × Subscriptions :=
  match subscriptions.handles.get? label with
  | none => (none, subscriptions)
  | some handle =>
    let (removed, next) := subscriptions.release handle
    (some removed, { next with handles := next.handles.erase label })

/-- Takes all listeners off a board; without a board there is nothing to do. -/
def clear (subscriptions : Subscriptions) (board : ObjectId) : Subscriptions :=
  if subscriptions.boards.contains board then
    { subscriptions with boards := subscriptions.boards.insert board [] }
  else subscriptions

/-- Carries out what a listener does; says whether it failed. -/
def perform (board : ObjectId) : List ListenerAct → Subscriptions → Bool × Subscriptions
  | [], subscriptions => (false, subscriptions)
  | .fail :: _, subscriptions => (true, subscriptions)
  | .leave label :: rest, subscriptions => perform board rest (subscriptions.unsubscribe label).2
  | .clear :: rest, subscriptions => perform board rest (subscriptions.clear board)
  | .join label acts :: rest, subscriptions =>
    perform board rest (subscriptions.place board ⟨label, acts⟩)

/-- Calls listeners one after another; one that fails does not stop the others. -/
def callAll (board : ObjectId) : List Placement → Subscriptions → Delivery × Subscriptions
  | [], subscriptions => (⟨[], 0⟩, subscriptions)
  | placement :: rest, subscriptions =>
    let (failed, next) := perform board placement.listener.acts subscriptions
    let (delivery, final) := callAll board rest next
    (⟨placement :: delivery.called, delivery.failed + failed.toNat⟩, final)

/-- Delivers an update to the listeners that are on a board now. -/
def notify (subscriptions : Subscriptions) (board : ObjectId) : Delivery × Subscriptions :=
  callAll board (subscriptions.placements board) subscriptions

/-- Delivers updates in their order, each to the board of its object; lists who was
called with what. -/
def dispatch : List Update → Subscriptions → List (Placement × Update) × Subscriptions
  | [], subscriptions => ([], subscriptions)
  | update :: rest, subscriptions =>
    let (delivery, next) := subscriptions.notify update.id
    let (calls, final) := dispatch rest next
    (delivery.called.map (fun placement => (placement, update)) ++ calls, final)

end Subscriptions

end SharedGraph
