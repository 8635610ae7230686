import SharedGraph.Engine
import SharedGraph.Graph.Reading
import SharedGraph.Hub
import SharedGraph.Write

/-! A participant: an engine and its connection to a hub. Its own writes reach it the
way those of others do, through the hub. -/
namespace SharedGraph

/-- The message that sends an operation, unless the operation is refused or the channel
takes no writes. -/
def Replica.compose (replica : Replica) (operation : Operation) (messageId : String) :
    Except Failure Message := do
  operation.check.mapError .protocol
  if replica.channel.isUsable then
    .ok { Message.ofOperation operation with
      id := some messageId
      clientId := replica.config.clientId }
  else .error (.channelState replica.channel)

structure Client where
  engine : Engine
  connection : Connection

namespace Client

def join (hub : Hub) (site : String) (config : Config) : Client × Hub :=
  let (connection, next) := hub.connect site
  ({ engine := .new config, connection }, next)

def graph (client : Client) : Graph := client.engine.graph

/-- Sends a write to the hub. The participant itself stays as it is. -/
def send (client : Client) (write : Write) (messageId : String) (now : Int) (hub : Hub) :
    Except Failure Hub := do
  let operation ← write.operation now
  let message ← client.engine.replica.compose operation messageId
  (hub.accept client.connection [message] now).mapError .publish

/-- Handles an input. -/
def handle (client : Client) (input : Input) (now : Int) : Response × Client :=
  let (response, engine) := client.engine.handle input now
  (response, { client with engine })

/-- Handles what the hub accepted since the last time; says how many messages that was. -/
def receive (client : Client) (hub : Hub) (now : Int) : Nat × Response × Client :=
  let (messages, connection) := hub.drain client.connection
  let (response, engine) := client.engine.handle (.messages messages) now
  (messages.length, response, { engine, connection })

/-- Handles inputs up to the first that fails. -/
def handleAll (client : Client) (inputs : List Input) (now : Int) : Except Failure Client :=
  inputs.foldlM (fun client input =>
    let (response, next) := client.handle input now
    response.result.map fun _ => next) client

/-- Catches up from the hub's description, in pages. What the hub accepted since the
last time arrives before the last page, and waits for it. -/
def resync (client : Client) (hub : Hub) (sequence : String) (size : Nat) (now : Int) :
    Except Failure (Nat × Client) := do
  let pages := (hub.pages sequence size).map fun (serial, states) => Input.page serial states
  let begun ← client.handleAll (.channel (.attached true) :: pages.dropLast) now
  let (count, response, informed) := begun.receive hub now
  response.result
  let next ← informed.handleAll (pages.drop (pages.length - 1)) now
  .ok (count, next)

end Client

end SharedGraph
