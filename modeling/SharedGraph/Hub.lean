import SharedGraph.Replica

/-! A service that participants meet at. It keeps every message it accepted, stamped
with where it came from and with a serial, and a replica of its own, which descriptions
are taken from. The serial of a message is its place in the log, written with enough
digits that texts compare like numbers. -/
namespace SharedGraph

/-- A participant's connection to a hub. -/
structure Connection where
  /-- The site that the participant's operations are issued at. -/
  site : String
  id : String
  /-- How much of the log was handed out. -/
  position : Nat := 0
  deriving DecidableEq

structure Hub where
  name : String
  accepting : Bool := true
  /-- How many connections were opened. -/
  connections : Nat := 0
  log : List Message := []
  server : Replica

namespace Hub

/-- The hub's own replica starts from an empty graph that is up to date. -/
def new (name : String) : Hub :=
  { name, server := ((Replica.new {}).handleChannel (.attached false) 0).2 }

def serialDigits : Nat := 20

/-- The serial of the message at a place in the log; the first one has serial one. -/
def serialAt (place : Nat) : Serial :=
  let digits := Nat.repr (place + 1)
  ⟨String.ofList (List.replicate (serialDigits - digits.length) '0') ++ digits⟩

/-- Opens a connection. What was accepted before is handed out to it too. -/
def connect (hub : Hub) (site : String) : Connection × Hub :=
  let count := hub.connections + 1
  ({ site, id := "conn-" ++ Nat.repr count }, { hub with connections := count })

/-- What the hub adds to a message; what the sender said about these is replaced. -/
def stamp (connection : Connection) (now : Int) (place : Nat) (message : Message) : Message :=
  ({ message with connectionId := some connection.id }.withTimestamp now).withOrigin
    connection.site (serialAt place)

def stampAll (connection : Connection) (now : Int) : Nat → List Message → List Message
  | _, [] => []
  | place, message :: rest =>
    stamp connection now place message :: stampAll connection now (place + 1) rest

/-- Takes messages of a participant, all or none. They reach the hub's own replica as
one batch, and whether that likes them does not matter to the sender. -/
def accept (hub : Hub) (connection : Connection) (messages : List Message) (now : Int) :
    Except Refusal Hub :=
  if !hub.accepting then .error (.notAccepting hub.name)
  else
    let stamped := stampAll connection now hub.log.length messages
    .ok { hub with
      log := hub.log ++ stamped
      server := (hub.server.handleMessages stamped now).2 }

/-- The messages that a connection was not handed yet. -/
def unread (hub : Hub) (connection : Connection) : List Message := hub.log.drop connection.position

/-- Hands out what is new to a connection. -/
def drain (hub : Hub) (connection : Connection) : List Message × Connection :=
  (hub.unread connection, { connection with position := hub.log.length })

/-- What the hub says about every object, deleted ones included. -/
def snapshot (hub : Hub) : List ObjectState := hub.server.graph.describe

/-- The description in pages, each with its serial as it is sent. -/
def pages (hub : Hub) (sequence : String) (size : Nat) : List (String × List ObjectState) :=
  (PendingSync.pages sequence size hub.snapshot).map fun (serial, states) =>
    (serial.toText, states)

end Hub

end SharedGraph
