import SharedGraph.Client

/-! Participants that share a hub, and the turns they take, one after another. A run
is a list of turns; who writes what, and who hears of it when, is all in that list. -/
namespace SharedGraph

/-- What a participant does when it is its turn. -/
inductive Turn where
  | write (write : Write)
  /-- Takes in what is new. -/
  | receive
  /-- Catches up from a description in pages. -/
  | resync (pageSize : Nat)
  deriving DecidableEq

structure World where
  hub : Hub
  clients : List Client := []

namespace World

/-- One more participant, which learns that the graph is empty. -/
def addClient (world : World) (now : Int) : World :=
  let (client, hub) := Client.join world.hub ("site-" ++ Nat.repr world.clients.length) {}
  { hub, clients := world.clients ++ [(client.handle (.channel (.attached false)) now).2] }

/-- A new hub with a number of participants. -/
def start (name : String) (now : Int) : Nat → World
  | 0 => { hub := .new name }
  | count + 1 => (start name now count).addClient now

/-- Carries out the turn of a participant; says how many messages it was handed. The
tag goes into the names of messages and sequences. Nobody takes the turn of a
participant that is not there. -/
def step (world : World) (index : Nat) (turn : Turn) (tag : Nat) (now : Int) :
    Except Failure (Nat × World) :=
  match world.clients[index]? with
  | none => .ok (0, world)
  | some client =>
    match turn with
    | .write write =>
      (client.send write ("msg-" ++ Nat.repr tag) now world.hub).map fun hub =>
        (0, { world with hub })
    | .receive =>
      let (count, response, next) := client.receive world.hub now
      response.result.map fun _ => (count, { world with clients := world.clients.set index next })
    | .resync size =>
      (client.resync world.hub ("seq-" ++ Nat.repr tag) size now).map fun (count, next) =>
        (count, { world with clients := world.clients.set index next })

/-- Carries out turns in their order; says how many messages were handed out. -/
def run (now : Int) : List (Nat × Turn) → Nat → World → Except Failure (Nat × World)
  | [], _, world => .ok (0, world)
  | (index, turn) :: rest, tag, world => do
    let (count, next) ← world.step index turn tag now
    let (others, final) ← run now rest (tag + 1) next
    .ok (count + others, final)

/-- Whether every participant has the objects of the hub, in the same state. Descriptions are
compared as terms; counts are never undefined here, so for them this is equality of numbers. -/
def converged (world : World) : Bool :=
  world.clients.all fun client => client.graph.describe == world.hub.snapshot

end World

end SharedGraph
