import SharedGraph.Message
import SharedGraph.Update
import SharedGraph.Wire.Decoder
import SharedGraph.Wire.Reader

/-! The wire form of messages, of their parts and of updates. Each type has a writer
and a reader beside it; fields that hold nothing are not written. -/
namespace SharedGraph.Wire

open WireTree (text)

def ofId (id : ObjectId) : WireTree := text id.text

def toId : Decoder ObjectId := fun room tree => (Decoder.text room tree).map ObjectId.mk

def ofSerial (serial : Serial) : WireTree := text serial.text

def toSerial : Decoder Serial := fun room tree => (Decoder.text room tree).map Serial.mk

def ofSerials (serials : SiteSerials) : WireTree := ofMap ofSerial serials

def toSerials : Decoder SiteSerials := Decoder.map toSerial

def ofKind (kind : Kind) : WireTree := text kind.name

def toKind : Decoder Kind := Decoder.choice Kind.ofName?

/-! ## Data and entries -/

def toBytes : Decoder (List UInt8) := fun room tree =>
  (Decoder.text room tree).bind fun value => Base64.decodePadded? value.toList

/-- Data is sent under the name of what it is. -/
def ofData : Data → WireTree
  | .reference id => record [("objectId", some (ofId id))]
  | .text value => record [("string", some (text value))]
  | .number value => record [("number", some (ofDouble value))]
  | .boolean value => record [("boolean", some (.boolean value))]
  | .bytes value => record [("bytes", some (text (String.ofList (Base64.encodePadded value))))]
  | .json value => record [("json", some (.ofJson value))]

def toData : Decoder Data := Decoder.alternative fun name room tree =>
  match name with
  | "objectId" => (toId room tree).map .reference
  | "string" => (Decoder.text room tree).map .text
  | "number" => (Decoder.double room tree).map .number
  | "boolean" => (Decoder.boolean room tree).map .boolean
  | "bytes" => (toBytes room tree).map .bytes
  | "json" => (Decoder.json room tree).map .json
  | _ => none

def ofEntry (entry : Entry) : WireTree :=
  record [
    ("tombstone", some (.boolean entry.tombstone)),
    ("timeserial", entry.serial.map ofSerial),
    ("data", entry.data.map ofData),
    ("tombstonedAt", entry.tombstonedAt.map ofInteger)]

def toEntry : Decoder Entry := fun room tree => do
  let fields ← Fields.ofTree ["tombstone", "timeserial", "data", "tombstonedAt"] room tree
  some {
    tombstone := ← fields.withDefault "tombstone" Decoder.boolean false
    serial := ← fields.optional "timeserial" toSerial
    data := ← fields.optional "data" toData
    tombstonedAt := ← fields.optional "tombstonedAt" Decoder.time }

/-- There is one way to merge writes, and its name is sent along. -/
def mergeRule : String := "lww"

def toMergeRule : Decoder Unit :=
  Decoder.choice fun name => if name = mergeRule then some () else none

def ofEntries (entries : Entries) : WireTree :=
  record [("semantics", some (text mergeRule)), ("entries", some (ofMap ofEntry entries))]

def toEntries : Decoder Entries := fun room tree => do
  let fields ← Fields.ofTree ["semantics", "entries"] room tree
  fields.withDefault "semantics" toMergeRule ()
  fields.withDefault "entries" (Decoder.map toEntry) .empty

def ofCount (count : Double) : WireTree := record [("count", some (ofDouble count))]

def toCount : Decoder Double := fun room tree => do
  let fields ← Fields.ofTree ["count"] room tree
  fields.withDefault "count" Decoder.double (.zero false)

/-! ## Operations -/

def actionName : Action → String
  | .mapCreate => "MAP_CREATE"
  | .mapSet => "MAP_SET"
  | .mapRemove => "MAP_REMOVE"
  | .counterCreate => "COUNTER_CREATE"
  | .counterInc => "COUNTER_INC"
  | .objectDelete => "OBJECT_DELETE"

def actions : List Action :=
  [.mapCreate, .mapSet, .mapRemove, .counterCreate, .counterInc, .objectDelete]

def ofAction (action : Action) : WireTree := text (actionName action)

def toAction : Decoder Action :=
  Decoder.choice fun name => actions.find? fun action => actionName action == name

def ofKeyEdit (edit : KeyEdit) : WireTree :=
  record [("key", some (text edit.key)), ("data", edit.data.map ofData)]

def toKeyEdit : Decoder KeyEdit := fun room tree => do
  let fields ← Fields.ofTree ["key", "data"] room tree
  some {
    key := ← fields.required "key" Decoder.text
    data := ← fields.optional "data" toData }

def ofAmount (amount : Double) : WireTree := record [("amount", some (ofDouble amount))]

def toAmount : Decoder Double := fun room tree => do
  let fields ← Fields.ofTree ["amount"] room tree
  fields.required "amount" Decoder.double

def ofOperation (operation : Operation) : WireTree :=
  record [
    ("action", some (ofAction operation.action)),
    ("objectId", some (ofId operation.target)),
    ("mapOp", operation.keyEdit.map ofKeyEdit),
    ("counterOp", operation.amount.map ofAmount),
    ("map", operation.entries.map ofEntries),
    ("counter", operation.count.map ofCount),
    ("nonce", operation.nonce.map text),
    ("initialValue", operation.initialValue.map text)]

def operationFields : List String :=
  ["action", "objectId", "mapOp", "counterOp", "map", "counter", "nonce", "initialValue"]

def toOperation : Decoder Operation := fun room tree => do
  let fields ← Fields.ofTree operationFields room tree
  some {
    action := ← fields.required "action" toAction
    target := ← fields.required "objectId" toId
    keyEdit := ← fields.optional "mapOp" toKeyEdit
    amount := ← fields.optional "counterOp" toAmount
    entries := ← fields.optional "map" toEntries
    count := ← fields.optional "counter" toCount
    nonce := ← fields.optional "nonce" Decoder.text
    initialValue := ← fields.optional "initialValue" Decoder.text }

/-! ## States and messages -/

def ofState (state : ObjectState) : WireTree :=
  record [
    ("objectId", some (ofId state.id)),
    ("siteTimeserials", some (ofSerials state.serials)),
    ("tombstone", some (.boolean state.tombstone)),
    ("createOp", state.createOp.map ofOperation),
    ("map", state.entries.map ofEntries),
    ("counter", state.count.map ofCount)]

def stateFields : List String :=
  ["objectId", "siteTimeserials", "tombstone", "createOp", "map", "counter"]

def toState : Decoder ObjectState := fun room tree => do
  let fields ← Fields.ofTree stateFields room tree
  some {
    id := ← fields.required "objectId" toId
    serials := ← fields.withDefault "siteTimeserials" toSerials .empty
    tombstone := ← fields.withDefault "tombstone" Decoder.boolean false
    createOp := ← fields.optional "createOp" toOperation
    entries := ← fields.optional "map" toEntries
    count := ← fields.optional "counter" toCount }

def ofMessage (message : Message) : WireTree :=
  record [
    ("id", message.id.map text),
    ("timestamp", message.timestamp.map ofInteger),
    ("clientId", message.clientId.map text),
    ("connectionId", message.connectionId.map text),
    ("serial", message.serial.map ofSerial),
    ("siteCode", message.site.map text),
    ("operation", message.operation.map ofOperation),
    ("object", message.state.map ofState)]

def messageFields : List String :=
  ["id", "timestamp", "clientId", "connectionId", "serial", "siteCode", "operation", "object"]

def toMessage : Decoder Message := fun room tree => do
  let fields ← Fields.ofTree messageFields room tree
  some {
    id := ← fields.optional "id" Decoder.text
    timestamp := ← fields.optional "timestamp" Decoder.time
    clientId := ← fields.optional "clientId" Decoder.text
    connectionId := ← fields.optional "connectionId" Decoder.text
    serial := ← fields.optional "serial" toSerial
    site := ← fields.optional "siteCode" Decoder.text
    operation := ← fields.optional "operation" toOperation
    state := ← fields.optional "object" toState }

/-! ## Updates -/

def changeName : KeyChange → String
  | .updated => "updated"
  | .removed => "removed"

def ofKeyChange (change : KeyChange) : WireTree := text (changeName change)

def toKeyChange : Decoder KeyChange :=
  Decoder.choice fun name => [KeyChange.updated, .removed].find? fun change => changeName change == name

def ofChange : Change → WireTree
  | .map changes => record [("map", some (ofMap ofKeyChange changes))]
  | .counter amount => record [("counter", some (ofAmount amount))]

def toChange : Decoder Change := Decoder.alternative fun name room tree =>
  match name with
  | "map" => (Decoder.map toKeyChange room tree).map .map
  | "counter" => (toAmount room tree).map .counter
  | _ => none

def ofUpdate (update : Update) : WireTree :=
  record [
    ("objectId", some (ofId update.id)),
    ("kind", some (ofChange update.change)),
    ("tombstone", some (.boolean update.tombstone)),
    ("clientId", update.clientId.map text),
    ("connectionId", update.connectionId.map text)]

def toUpdate : Decoder Update := fun room tree => do
  let fields ← Fields.ofTree ["objectId", "kind", "tombstone", "clientId", "connectionId"] room tree
  some {
    id := ← fields.required "objectId" toId
    change := ← fields.required "kind" toChange
    tombstone := ← fields.withDefault "tombstone" Decoder.boolean false
    clientId := ← fields.optional "clientId" Decoder.text
    connectionId := ← fields.optional "connectionId" Decoder.text }

end SharedGraph.Wire

namespace SharedGraph.Message

/-- The text in which a message is sent. -/
def toText (message : Message) : String := (Wire.ofMessage message).render

/-- Reads the text of a message. -/
def ofText? (text : String) : Option Message := (WireTree.ofText? text).bind Wire.toMessage.run

end SharedGraph.Message
