import SharedGraph.Entries
import SharedGraph.Message

/-! Live objects and the rules by which operations and descriptions change them. -/
namespace SharedGraph

inductive Contents where
  | map (entries : Entries)
  | counter (count : Double)
  deriving DecidableEq

namespace Contents

/-- What an object of a kind holds before anything happened to it. -/
def initial : Kind → Contents
  | .map => .map .empty
  | .counter => .counter (.zero false)

def kind : Contents → Kind
  | .map _ => .map
  | .counter _ => .counter

def entries? : Contents → Option Entries
  | .map entries => some entries
  | .counter _ => none

def count? : Contents → Option Double
  | .map _ => none
  | .counter count => some count

/-- Whether the contents read like the initial ones of their kind. -/
def isInitial : Contents → Bool
  | .map entries => entries.isEmpty
  | .counter count => count.isZero

end Contents

structure LiveObject where
  id : ObjectId
  serials : SiteSerials
  tombstone : Bool
  tombstonedAt : Option Int
  /-- The first contents are merged at most once, however often they arrive. -/
  createMerged : Bool
  contents : Contents
  deriving DecidableEq

/-- What became of an operation offered to an object. -/
inductive Outcome where
  /-- Something at least as new was accepted from the site before. -/
  | stale
  /-- Accepted, with the change that a reader sees, if there is one. -/
  | applied (update : Option Update)
  deriving DecidableEq

/-- An effect together with contents of the kind it is for. -/
inductive Step where
  | map (effect : MapEffect) (entries : Entries)
  | counter (effect : CounterEffect) (count : Double)
  | delete
  deriving DecidableEq

/-- An effect fits contents of its own kind only. -/
def Effect.on? : Effect → Contents → Option Step
  | .onMap effect, .map entries => some (.map effect entries)
  | .onCounter effect, .counter count => some (.counter effect count)
  | .delete, _ => some .delete
  | _, _ => none

namespace LiveObject

/-- An object that was mentioned but not yet described. -/
def placeholder (id : ObjectId) (kind : Kind) : LiveObject :=
  ⟨id, .empty, false, none, false, .initial kind⟩

def kind (object : LiveObject) : Kind := object.contents.kind

def createdAt? (object : LiveObject) : Option Int := object.id.createdAt?

def entries? (object : LiveObject) : Option Entries := object.contents.entries?

/-- What the object records about a key. -/
def entry? (object : LiveObject) (key : String) : Option Entry :=
  object.entries?.bind fun entries => entries.get? key

/-- The objects that a map points to; a deleted map points nowhere. -/
def references (object : LiveObject) : List ObjectId :=
  if object.tombstone then [] else (object.entries?.map Entries.references).getD []

/-- The update that says that nothing changed. -/
def emptyUpdate (object : LiveObject) : Update :=
  match object.contents with
  | .map _ => .ofKeys object.id .empty
  | .counter _ => .ofAmount object.id (.zero false)

/-- Deletes the object: its contents go, and subscribers learn what went. -/
def delete (object : LiveObject) (time : Int) : Update × LiveObject :=
  let update := match object.contents with
    | .map entries => Update.ofKeys object.id (diffEntries entries .empty)
    | .counter count => Update.ofAmount object.id (Double.sub (.zero false) count)
  ({ update with tombstone := true },
    { object with
      tombstone := true, tombstonedAt := some time, contents := .initial object.kind })

/-- Merges first entries, unless first contents were merged before. -/
def mergeEntries (object : LiveObject) (entries first : Entries) (time : Int) :
    Update × LiveObject :=
  if object.createMerged then (.ofKeys object.id .empty, object)
  else
    let (changes, merged) := Entries.mergeInitial entries first time
    (.ofKeys object.id changes, { object with createMerged := true, contents := .map merged })

/-- Adds the first count, unless it was added before. -/
def mergeCount (object : LiveObject) (count first : Double) : Update × LiveObject :=
  if object.createMerged then (.ofAmount object.id (.zero false), object)
  else
    (.ofAmount object.id first,
      { object with createMerged := true, contents := .counter (count.add first) })

/-- Reports the change of one key. -/
def keyUpdate (object : LiveObject) (key : String) (written : Option KeyChange × Entries) :
    Update × LiveObject :=
  (.ofKeys object.id (Entries.noteChange .empty key written.1),
    { object with contents := .map written.2 })

/-- Carries out a step. -/
def run (object : LiveObject) (step : Step) (serial : Serial) (time : Int) :
    Update × LiveObject :=
  match step with
  | .map (.set key data) entries =>
    object.keyUpdate key (Entries.set entries key data (some serial))
  | .map (.remove key) entries =>
    object.keyUpdate key (Entries.remove entries key (some serial) time)
  | .map (.create first) entries => object.mergeEntries entries first time
  | .counter (.add amount) count =>
    (.ofAmount object.id amount, { object with contents := .counter (count.add amount) })
  | .counter (.create first) count => object.mergeCount count first
  | .delete => object.delete time

/-- Offers an operation. What has passed the gate of its site is recorded there, also
when it then changes nothing because a newer write stands or the object is deleted.
An increment is always reported, even one by zero. -/
def apply (object : LiveObject) (operation : Operation) (message : Message) :
    Except Fault (Outcome × LiveObject) := do
  if operation.target ≠ object.id then .error (.wrongObject operation.target object.id)
  else
    let effect ← operation.effect
    match effect.on? object.contents with
    | none => .error (.wrongKind operation.action object.id object.kind)
    | some step =>
      match Serial.effective message.serial, message.site.filter fun site => !site.isEmpty with
      | none, _ => .error (operation.missing .serial)
      | some _, none => .error (operation.missing .site)
      | some serial, some site =>
        if !SiteSerials.admits object.serials site serial then .ok (.stale, object)
        else
          let accepted := { object with serials := SiteSerials.record object.serials site serial }
          if object.tombstone then .ok (.applied none, accepted)
          else
            let (update, next) := accepted.run step serial (message.timestamp.getD 0)
            let reported := update.causedBy message.clientId message.connectionId
            let silent := reported.isNoop && operation.action != .counterInc
            .ok (.applied (if silent then none else some reported), next)

/-- Contents as a live description gives them: the described ones, with a create
operation that is not yet part of them merged on top. -/
def adopt (object : LiveObject) (state : ObjectState) (time : Int) : Update × LiveObject :=
  let fresh := { object with tombstone := false, tombstonedAt := none, createMerged := false }
  match object.contents with
  | .map before =>
    let described := (state.entries.map fun entries => Entries.ofState entries time).getD .empty
    let next := match state.createOp with
      | some operation => (fresh.mergeEntries described operation.firstEntries time).2
      | none => { fresh with contents := .map described }
    (.ofKeys object.id (diffEntries before (next.entries?.getD .empty)), next)
  | .counter before =>
    let described := state.count.getD (.zero false)
    let next := match state.createOp with
      | some operation => (fresh.mergeCount described operation.firstCount).2
      | none => { fresh with contents := .counter described }
    (.ofAmount object.id (Double.sub (next.contents.count?.getD (.zero false)) before), next)

/-- Replaces what is known about the object by what the service says. The serials are
taken over as they are, and a deleted object that is described as live lives again. -/
def override (object : LiveObject) (state : ObjectState) (time : Int) :
    Except Fault (Update × LiveObject) := do
  if state.id ≠ object.id then .error (.wrongObject state.id object.id)
  else
    let kind ← state.kind
    if kind ≠ object.kind then .error (.badState object.id (.otherKind object.kind))
    else
      let known := { object with serials := state.serials }
      if !state.tombstone then .ok (known.adopt state time)
      else if object.tombstone then .ok (known.emptyUpdate, known)
      else .ok (known.delete time)

/-- The object that a description alone gives. -/
def ofState (state : ObjectState) (time : Int) : Except Fault LiveObject := do
  let kind ← state.kind
  let (_, object) ← (placeholder state.id kind).override state time
  .ok object

/-- The description of the object. Whether first contents were merged is not part of
it, because they are in the contents. -/
def toState (object : LiveObject) : ObjectState :=
  { id := object.id
    serials := object.serials
    tombstone := object.tombstone
    entries := object.entries?
    count := object.contents.count? }

/-- Forgets the removals that a map made at or before a time. -/
def dropExpired (object : LiveObject) (cutoff : Int) : LiveObject :=
  match object.contents with
  | .map entries => { object with contents := .map (Entries.dropExpired entries cutoff) }
  | .counter _ => object

end LiveObject

end SharedGraph
