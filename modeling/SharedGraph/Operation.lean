import SharedGraph.Data
import SharedGraph.Fault

/-! Operations, the unit of change. An operation arrives with whatever parts its
sender filled in; `Operation.effect` keeps the parts that its action needs, or says
which one is missing or wrong. -/
namespace SharedGraph

/-- The key that an operation is about, and what to store there. -/
structure KeyEdit where
  key : String
  data : Option Data
  deriving DecidableEq

structure Operation where
  action : Action
  target : ObjectId
  keyEdit : Option KeyEdit := none
  amount : Option Double := none
  /-- The first contents of a map. -/
  entries : Option Entries := none
  /-- The first count of a counter. -/
  count : Option Double := none
  nonce : Option String := none
  /-- The text of the first contents that the name of the object was derived from. -/
  initialValue : Option String := none
  deriving DecidableEq

/-- What a complete operation does to a map. -/
inductive MapEffect where
  | set (key : String) (data : Data)
  | remove (key : String)
  | create (entries : Entries)
  deriving DecidableEq

/-- What a complete operation does to a counter. -/
inductive CounterEffect where
  | add (amount : Double)
  | create (count : Double)
  deriving DecidableEq

inductive Effect where
  | onMap (effect : MapEffect)
  | onCounter (effect : CounterEffect)
  | delete
  deriving DecidableEq

/-- A reference must name an object, a number must be finite, and JSON is for what
has no simpler form. -/
def Data.check : Data → Except Fault Unit
  | .reference id => if id.isValid then .ok () else .error (.invalidId id)
  | .number value =>
    if value.isFinite then .ok () else .error (.badValue (.nonFiniteNumber value))
  | .json value => if value.isContainer then .ok () else .error (.badValue .scalarJson)
  | _ => .ok ()

/-- The data of every entry must pass, removed entries included. -/
def Entries.check (entries : Entries) : Except Fault Unit :=
  (entries.values.filterMap Entry.data).forM Data.check

namespace Operation

/-- The contents that a create operation starts a map with. -/
def firstEntries (operation : Operation) : Entries := operation.entries.getD .empty

/-- The count that a create operation starts a counter with. -/
def firstCount (operation : Operation) : Double := operation.count.getD (.zero false)

def missing (operation : Operation) (part : RequiredPart) : Fault :=
  .missing part operation.action operation.target

/-- The name must be valid, and its kind must suit the action. -/
def checkTarget (operation : Operation) : Except Fault Unit :=
  if operation.target.text.isEmpty then .error (operation.missing .target)
  else if !operation.target.isValid then .error (.invalidId operation.target)
  else
    match operation.action.kind?, operation.target.kind? with
    | some expected, some found =>
      if expected = found then .ok () else .error (.wrongKind operation.action operation.target found)
    | _, _ => .ok ()

/-- The root exists from the start, so it is not created; first entries are checked
whatever the action creates. -/
def checkCreate (operation : Operation) : Except Fault Unit :=
  if operation.target.isRoot then .error (.rootImmutable .recreated)
  else (operation.entries.map Entries.check).getD (.ok ())

/-- The effect of an operation that has all it needs. -/
def effect (operation : Operation) : Except Fault Effect := do
  operation.checkTarget
  match operation.action with
  | .mapSet =>
    match operation.keyEdit with
    | none => .error (operation.missing .keyEdit)
    | some ⟨_, none⟩ => .error (operation.missing .data)
    | some ⟨key, some data⟩ => do
      data.check
      .ok (.onMap (.set key data))
  | .mapRemove =>
    match operation.keyEdit with
    | none => .error (operation.missing .keyEdit)
    | some edit => .ok (.onMap (.remove edit.key))
  | .counterInc =>
    match operation.amount with
    | none => .error (operation.missing .amount)
    | some amount =>
      if amount.isFinite then .ok (.onCounter (.add amount))
      else .error (.badValue (.nonFiniteAmount amount))
  | .mapCreate => do
    operation.checkCreate
    .ok (.onMap (.create operation.firstEntries))
  | .counterCreate => do
    operation.checkCreate
    .ok (.onCounter (.create operation.firstCount))
  | .objectDelete =>
    if operation.target.isRoot then .error (.rootImmutable .deleted) else .ok .delete

/-- Accepts exactly the operations that have an effect. -/
def check (operation : Operation) : Except Fault Unit := operation.effect.map fun _ => ()

/-- Objects that an operation mentions, in whichever part. -/
def references (operation : Operation) : List ObjectId :=
  let edited := (operation.keyEdit.bind KeyEdit.data).bind Data.target?
  edited.toList ++ operation.firstEntries.values.filterMap Entry.target?

/-- Keys of the target that an operation can change. -/
def affectedKeys (operation : Operation) : List String :=
  match operation.action with
  | .mapSet | .mapRemove => (operation.keyEdit.map KeyEdit.key).toList
  | .mapCreate => operation.firstEntries.keys
  | _ => []

def mapSet (target : ObjectId) (key : String) (data : Data) : Operation :=
  { action := .mapSet, target, keyEdit := some ⟨key, some data⟩ }

def mapRemove (target : ObjectId) (key : String) : Operation :=
  { action := .mapRemove, target, keyEdit := some ⟨key, none⟩ }

def counterInc (target : ObjectId) (amount : Double) : Operation :=
  { action := .counterInc, target, amount := some amount }

def mapCreate (target : ObjectId) (entries : Entries) (nonce initialValue : String) : Operation :=
  { action := .mapCreate, target, entries := some entries, nonce := some nonce,
    initialValue := some initialValue }

def counterCreate (target : ObjectId) (count : Double) (nonce initialValue : String) : Operation :=
  { action := .counterCreate, target, count := some count, nonce := some nonce,
    initialValue := some initialValue }

def objectDelete (target : ObjectId) : Operation := { action := .objectDelete, target }

end Operation

end SharedGraph
