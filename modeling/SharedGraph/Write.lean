import SharedGraph.Failure
import SharedGraph.Operation
import SharedGraph.Wire.Codec

/-! What a participant may ask for. A write becomes an operation; it changes nothing
until the operation comes back from the service. -/
namespace SharedGraph

inductive Write where
  | set (map : ObjectId) (key : String) (data : Data)
  | remove (map : ObjectId) (key : String)
  | increment (counter : ObjectId) (amount : Double)
  | delete (id : ObjectId)
  /-- The nonce keeps apart objects that are created with the same contents. -/
  | createMap (entries : List (String × Data)) (nonce : String)
  | createCounter (count : Double) (nonce : String)
  deriving DecidableEq

namespace Write

def decrement (counter : ObjectId) (amount : Double) : Write := .increment counter amount.neg

def checkData (data : Data) : Except Failure Unit :=
  data.check.mapError fun fault => .badArgument (.data fault)

/-- First contents carry no serials: whoever wrote a key before they arrive has
written something newer. -/
def firstEntries (entries : List (String × Data)) : Entries :=
  .ofList (entries.map fun (key, data) => (key, .live data none))

/-- The operation that carries out a write at a time. New objects are named after the
text of their first contents. -/
def operation (write : Write) (now : Int) : Except Failure Operation :=
  match write with
  | .set map key data => (checkData data).map fun _ => .mapSet map key data
  | .remove map key => .ok (.mapRemove map key)
  | .increment counter amount =>
    if amount.isFinite then .ok (.counterInc counter amount)
    else .error (.badArgument (.amount amount))
  | .delete id => .ok (.objectDelete id)
  | .createMap entries nonce =>
    (entries.forM fun entry => checkData entry.2).map fun _ =>
      let text := (Wire.ofEntries (firstEntries entries)).render
      .mapCreate (.derive .map text nonce now) (firstEntries entries) nonce text
  | .createCounter count nonce =>
    if count.isFinite then
      let text := (Wire.ofCount count).render
      .ok (.counterCreate (.derive .counter text nonce now) count nonce text)
    else .error (.badArgument (.firstCount count))

end Write

end SharedGraph
