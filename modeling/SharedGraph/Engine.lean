import SharedGraph.Replica
import SharedGraph.Subscriptions

/-! A replica together with the listeners of its updates. Listeners are called when an
input has been handled as a whole, so each of them finds the graph that the input led
to. -/
namespace SharedGraph

structure Engine where
  replica : Replica
  subscriptions : Subscriptions := {}

/-- What an input led to outside of the engine. -/
structure Response where
  /-- The listeners that were called, in the order of the calls. -/
  calls : List (Placement × Update) := []
  events : List SyncEvent := []
  result : Except Failure Unit := .ok ()

namespace Engine

def new (config : Config) : Engine := { replica := .new config }

def graph (engine : Engine) : Graph := engine.replica.graph

/-- Collects garbage. The listeners of a forgotten object are forgotten with it. -/
def collectGarbage (engine : Engine) (time : Int) : Graph.Collection × Engine :=
  let (collection, replica) := engine.replica.collectGarbage time
  (collection, {
    replica
    subscriptions := collection.evicted.foldl Subscriptions.closeBoard engine.subscriptions })

/-- Handles an input and calls the listeners of what it changed. -/
def handle (engine : Engine) (input : Input) (now : Int) : Response × Engine :=
  match input with
  | .collect time => ({}, (engine.collectGarbage time).2)
  | _ =>
    let (reaction, replica) := engine.replica.step input now
    let (calls, subscriptions) := engine.subscriptions.dispatch reaction.updates
    (⟨calls, reaction.events, reaction.result⟩, { replica, subscriptions })

end Engine

end SharedGraph
