import SharedGraph.Fault

/-! Why a call to the engine fails. -/
namespace SharedGraph

/-- What the channel layer says about the connection. -/
inductive ChannelState where
  | initialized
  | attaching
  /-- Attached; the service says whether it holds objects and will send them. -/
  | attached (hasObjects : Bool)
  | suspended
  | detached
  | failed
  deriving DecidableEq, Repr

namespace ChannelState

/-- Whether operations are exchanged. Before the first attachment they already are. -/
def isUsable : ChannelState → Bool
  | .suspended | .detached | .failed => false
  | _ => true

/-- The state of a name. Only an attached channel can have objects. -/
def ofName? (name : String) (hasObjects : Bool) : Option ChannelState :=
  match name with
  | "initialized" => some .initialized
  | "attaching" => some .attaching
  | "attached" => some (.attached hasObjects)
  | "suspended" => some .suspended
  | "detached" => some .detached
  | "failed" => some .failed
  | _ => none

def title : ChannelState → String
  | .initialized => "Initialized"
  | .attaching => "Attaching"
  | .attached hasObjects => "Attached \x7b has_objects: " ++ toString hasObjects ++ " \x7d"
  | .suspended => "Suspended"
  | .detached => "Detached"
  | .failed => "Failed"

end ChannelState

/-- Why a channel does not take messages. -/
inductive Refusal where
  | notAccepting (channel : String)
  | closed
  deriving DecidableEq, Repr

def Refusal.message : Refusal → String
  | .notAccepting channel => "Message rejected: channel " ++ channel ++ " is not accepting messages"
  | .closed => "Channel closed"

/-- Arguments that no operation can be made of. -/
inductive BadArgument where
  | data (fault : Fault)
  | amount (value : Double)
  | firstCount (value : Double)
  deriving DecidableEq

def BadArgument.message : BadArgument → String
  | .data fault => fault.message
  | .amount value => "counter amount must be finite, got " ++ NumberLayout.wire.render value
  | .firstCount value =>
    "counter initial value must be finite, got " ++ NumberLayout.wire.render value

inductive Failure where
  | protocol (fault : Fault)
  /-- The description of the graph was refused, and the graph is what it was. -/
  | malformedSync (fault : Fault)
  | channelState (state : ChannelState)
  | publish (refusal : Refusal)
  | badArgument (argument : BadArgument)
  | notFound (id : ObjectId)
  | wrongKind (id : ObjectId) (expected found : Kind)
  deriving DecidableEq

def Failure.message : Failure → String
  | .protocol fault => "Protocol error: " ++ fault.message
  | .malformedSync fault => "Malformed sync: " ++ fault.message
  | .channelState state => "Channel is " ++ state.title ++ "; object writes are not allowed"
  | .publish refusal => "Publish failed: " ++ refusal.message
  | .badArgument argument => "Invalid value: " ++ argument.message
  | .notFound id => "Object not found: " ++ id.text
  | .wrongKind id expected found =>
    "Object " ++ id.text ++ " is a " ++ found.name ++ ", expected a " ++ expected.name

end SharedGraph
