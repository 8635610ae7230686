import SharedGraph.Number.Decimal
import SharedGraph.ObjectId

/-! Why an operation or a description of an object is refused. Whatever is refused is
refused as a whole. -/
namespace SharedGraph

/-- What an operation does. -/
inductive Action where
  | mapCreate
  | mapSet
  | mapRemove
  | counterCreate
  | counterInc
  | objectDelete
  deriving DecidableEq, Repr

namespace Action

/-- The name of the action in messages to a person. -/
def title : Action → String
  | .mapCreate => "MapCreate"
  | .mapSet => "MapSet"
  | .mapRemove => "MapRemove"
  | .counterCreate => "CounterCreate"
  | .counterInc => "CounterInc"
  | .objectDelete => "ObjectDelete"

/-- The kind of object that the action is for; any object can be deleted. -/
def kind? : Action → Option Kind
  | .mapCreate | .mapSet | .mapRemove => some .map
  | .counterCreate | .counterInc => some .counter
  | .objectDelete => none

def isCreate : Action → Bool
  | .mapCreate | .counterCreate => true
  | _ => false

end Action

/-- The parts of an operation that an action cannot do without. -/
inductive RequiredPart where
  | target
  | keyEdit
  | data
  | amount
  | serial
  | site
  deriving DecidableEq, Repr

/-- The name of the part as it is sent. -/
def RequiredPart.label : RequiredPart → String
  | .target => "objectId"
  | .keyEdit => "mapOp"
  | .data => "mapOp.data"
  | .amount => "counterOp"
  | .serial => "serial"
  | .site => "siteCode"

/-- Values that no object may hold. -/
inductive BadValue where
  | nonFiniteNumber (value : Double)
  | nonFiniteAmount (value : Double)
  | scalarJson
  deriving DecidableEq

def BadValue.message : BadValue → String
  | .nonFiniteNumber value => "non-finite number " ++ NumberLayout.wire.render value
  | .nonFiniteAmount value => "non-finite counter amount " ++ NumberLayout.wire.render value
  | .scalarJson => "json data must be an object or an array"

/-- Why the description of an object makes no sense. -/
inductive BadState where
  | bothContents
  | conflictingKinds
  | unknownKind
  | foreignCreate
  | otherKind (expected : Kind)
  deriving DecidableEq

def BadState.message : BadState → String
  | .bothContents => "carries both map and counter"
  | .conflictingKinds => "conflicting object variants"
  | .unknownKind => "cannot determine object variant"
  | .foreignCreate => "createOp is not a create operation for this object"
  | .otherKind expected => "snapshot variant differs from local " ++ expected.name

/-- What nobody may do to the root. -/
inductive RootChange where
  | deleted
  | recreated
  deriving DecidableEq

inductive Fault where
  | invalidId (id : ObjectId)
  | missing (part : RequiredPart) (action : Action) (target : ObjectId)
  | wrongKind (action : Action) (target : ObjectId) (found : Kind)
  | wrongObject (addressed found : ObjectId)
  | badValue (value : BadValue)
  | badState (id : ObjectId) (reason : BadState)
  | rootImmutable (change : RootChange)
  deriving DecidableEq

def Fault.message : Fault → String
  | .invalidId id => "Invalid object id: " ++ id.text
  | .missing part action target =>
    "Missing field `" ++ part.label ++ "` in " ++ action.title ++ " on " ++ target.text
  | .wrongKind action target found =>
    "Operation " ++ action.title ++ " cannot target " ++ found.name ++ " object " ++ target.text
  | .wrongObject addressed found =>
    "Operation for " ++ addressed.text ++ " routed to object " ++ found.text
  | .badValue value => "Invalid value: " ++ value.message
  | .badState id reason => "Malformed state for " ++ id.text ++ ": " ++ reason.message
  | .rootImmutable .deleted => "The root object cannot be deleted"
  | .rootImmutable .recreated => "The root object cannot be re-created"

end SharedGraph
