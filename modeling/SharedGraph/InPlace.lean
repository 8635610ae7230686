import SharedGraph.LiveObject

/-! Changes of an object in place. `LiveObject.apply` and `LiveObject.override` decide on a change
as a whole; here the same changes are written step by step into the one object, each step in its
turn, and what was written before an interruption stays written. -/
namespace SharedGraph

/-- How a change in place can end before it is done. -/
inductive Interruption where
  | refused (fault : Fault)
  /-- A step met contents of a kind that it cannot work on. -/
  | stranded
  deriving DecidableEq

/-- A change of one object in place. -/
abbrev InPlace := EStateM Interruption LiveObject

namespace InPlace

variable {α : Type}

def refuse (fault : Fault) : InPlace α := throw (.refused fault)

/-- Goes on only if a condition holds. -/
def ensure (condition : Bool) (fault : Fault) : InPlace Unit := if condition then pure () else refuse fault

/-- Goes on with a part that may be missing. -/
def need (part : Option α) (fault : Fault) : InPlace α :=
  match part with
  | some given => pure given
  | none => refuse fault

/-- Goes on with what a check gives. -/
def heed : Except Fault α → InPlace α
  | .ok value => pure value
  | .error fault => refuse fault

/-- The entries of an object that should be a map. -/
def heldEntries : InPlace Entries := do
  match (← get).contents with
  | .map entries => pure entries
  | .counter _ => throw .stranded

/-- The count of an object that should be a counter. -/
def heldCount : InPlace Double := do
  match (← get).contents with
  | .counter count => pure count
  | .map _ => throw .stranded

def hold (contents : Contents) : InPlace Unit := modify fun object => { object with contents }

/-- The difference to earlier contents. -/
def diffFrom (before : Contents) : InPlace Update := do
  let object ← get
  match before, object.contents with
  | .map old, .map new => pure (.ofKeys object.id (diffEntries old new))
  | .counter old, .counter new => pure (.ofAmount object.id (Double.sub new old))
  | _, _ => pure object.emptyUpdate

/-- Empties the object and marks it as deleted. -/
def delete (time : Int) : InPlace Update := do
  let object ← get
  set { object with
    tombstone := true, tombstonedAt := some time, contents := .initial object.kind }
  let update ← diffFrom object.contents
  pure { update with tombstone := true }

/-- Merges what a create operation brings along, once. -/
def mergeFirst (operation : Operation) (time : Int) : InPlace Update := do
  let object ← get
  if object.createMerged then pure object.emptyUpdate
  else
    set { object with createMerged := true }
    match object.contents with
    | .map entries =>
      let (changes, merged) := Entries.mergeInitial entries operation.firstEntries time
      hold (.map merged)
      pure (.ofKeys object.id changes)
    | .counter count =>
      hold (.counter (count.add operation.firstCount))
      pure (.ofAmount object.id operation.firstCount)

/-- Writes a key, and reports its change. -/
def writeKey (key : String) (write : Entries → Option KeyChange × Entries) : InPlace Update := do
  let (change, written) := write (← heldEntries)
  hold (.map written)
  pure (.ofKeys (← get).id (Entries.noteChange .empty key change))

/-- Does what the action says. Each action looks for its parts again. -/
def perform (operation : Operation) (serial : Serial) (time : Int) : InPlace Update :=
  match operation.action with
  | .mapCreate | .counterCreate => mergeFirst operation time
  | .mapSet => do
    let edit ← need operation.keyEdit (operation.missing .keyEdit)
    let data ← need edit.data (operation.missing .data)
    writeKey edit.key fun entries => Entries.set entries edit.key data (some serial)
  | .mapRemove => do
    let edit ← need operation.keyEdit (operation.missing .keyEdit)
    writeKey edit.key fun entries => Entries.remove entries edit.key (some serial) time
  | .counterInc => do
    let amount ← need operation.amount (operation.missing .amount)
    hold (.counter ((← heldCount).add amount))
    pure (.ofAmount (← get).id amount)
  | .objectDelete => delete time

/-- The checks that come before the gate. Nothing is written yet. -/
def admission (operation : Operation) (message : Message) : InPlace (Serial × String) := do
  let object ← get
  ensure (operation.target = object.id) (.wrongObject operation.target object.id)
  heed operation.check
  ensure (operation.action.kind?.all (· = object.kind))
    (.wrongKind operation.action object.id object.kind)
  let serial ← need (Serial.effective message.serial) (operation.missing .serial)
  let site ← need (message.site.filter fun site => !site.isEmpty) (operation.missing .site)
  pure (serial, site)

/-- Offers an operation. Its serial is recorded first, and only then it is carried out. -/
def offer (operation : Operation) (message : Message) : InPlace Outcome := do
  let (serial, site) ← admission operation message
  let object ← get
  if !SiteSerials.admits object.serials site serial then pure .stale
  else
    set { object with serials := SiteSerials.record object.serials site serial }
    if object.tombstone then pure (.applied none)
    else
      let update ← perform operation serial (message.timestamp.getD 0)
      let reported := update.causedBy message.clientId message.connectionId
      let silent := reported.isNoop && operation.action != .counterInc
      pure (.applied (if silent then none else some reported))

/-- The contents that a description gives to an object of a kind. -/
def describedContents (state : ObjectState) (kind : Kind) (time : Int) : Contents :=
  match state.entries, state.count, kind with
  | some entries, _, .map => .map (Entries.ofState entries time)
  | _, some count, .counter => .counter count
  | _, _, kind => .initial kind

/-- Takes the contents of a live description over, and then what a create operation adds. -/
def adopt (state : ObjectState) (time : Int) : InPlace Update := do
  let object ← get
  set { object with
    tombstone := false, tombstonedAt := none, createMerged := false
    contents := describedContents state object.kind time }
  if let some operation := state.createOp then
    let _ ← mergeFirst operation time
  diffFrom object.contents

/-- Takes a description over: the serials first, then deletion or the contents. -/
def replace (state : ObjectState) (time : Int) : InPlace Update := do
  let object ← get
  ensure (state.id = object.id) (.wrongObject state.id object.id)
  let kind ← heed state.kind
  ensure (kind = object.kind) (.badState object.id (.otherKind object.kind))
  set { object with serials := state.serials }
  if state.tombstone then
    if object.tombstone then pure object.emptyUpdate else delete time
  else adopt state time

end InPlace

end SharedGraph
