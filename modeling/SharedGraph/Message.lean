import SharedGraph.Operation

/-! Descriptions of objects, sent while a participant catches up, and the messages in
which operations and descriptions travel. -/
namespace SharedGraph

/-- One object as the service knows it. -/
structure ObjectState where
  id : ObjectId
  serials : SiteSerials := .empty
  tombstone : Bool := false
  /-- A create operation that is not yet part of the contents. -/
  createOp : Option Operation := none
  entries : Option Entries := none
  count : Option Double := none
  deriving DecidableEq

namespace ObjectState

/-- The kind that the contents show. -/
def contentKind (state : ObjectState) : Except Fault (Option Kind) :=
  match state.entries, state.count with
  | some _, some _ => .error (.badState state.id .bothContents)
  | some _, none => .ok (some .map)
  | none, some _ => .ok (some .counter)
  | none, none => .ok none

/-- The kind on which the contents, the create operation and the name agree, as far
as each of them shows one. -/
def kind (state : ObjectState) : Except Fault Kind := do
  let shown ← state.contentKind
  let created := state.createOp.bind fun operation => operation.action.kind?
  match [shown, created, state.id.kind?].flatMap Option.toList with
  | [] => .error (.badState state.id .unknownKind)
  | first :: others =>
    if others.all (· == first) then .ok first else .error (.badState state.id .conflictingKinds)

/-- The create operation must create this very object. -/
def checkCreate (state : ObjectState) : Except Fault Unit :=
  match state.createOp with
  | none => .ok ()
  | some operation =>
    if operation.action.isCreate && operation.target = state.id then operation.check
    else .error (.badState state.id .foreignCreate)

/-- What a description must satisfy to become part of a graph. -/
def check (state : ObjectState) : Except Fault Unit := do
  if state.id.isValid then .ok () else .error (.invalidId state.id)
  let _ ← state.kind
  state.checkCreate
  (state.entries.map Entries.check).getD (.ok ())

end ObjectState

/-- The envelope: live traffic carries an operation, catching up carries a state. -/
structure Message where
  id : Option String := none
  timestamp : Option Int := none
  clientId : Option String := none
  connectionId : Option String := none
  serial : Option Serial := none
  site : Option String := none
  operation : Option Operation := none
  state : Option ObjectState := none
  deriving DecidableEq

namespace Message

def ofOperation (operation : Operation) : Message := { operation := some operation }

def ofState (state : ObjectState) : Message := { state := some state }

/-- Where a message was issued, and its place among the messages of that site. -/
def withOrigin (message : Message) (site : String) (serial : Serial) : Message :=
  { message with site := some site, serial := some serial }

def withTimestamp (message : Message) (time : Int) : Message :=
  { message with timestamp := some time }

/-- A message without a time counts as sent when it is handled. -/
def stampedAt (message : Message) (now : Int) : Message :=
  { message with timestamp := some (message.timestamp.getD now) }

end Message

end SharedGraph
