import SharedGraph.Json.Value
import SharedGraph.ObjectId
import SharedGraph.Serial

/-! Values under the keys of a map. A key holds a plain value or the name of another
object, which is how objects are nested; a removed key leaves an entry behind so that
an older write that arrives late finds something newer than itself. -/
namespace SharedGraph

inductive Data where
  | reference (id : ObjectId)
  | text (value : String)
  | number (value : Double)
  | boolean (value : Bool)
  | bytes (value : List UInt8)
  /-- An array or an object, not looked into. -/
  | json (value : Json)
  deriving DecidableEq

namespace Data

/-- The data that stands for a JSON value; `null` stands for nothing. -/
def ofJson? : Json → Option Data
  | .null => none
  | .boolean value => some (.boolean value)
  | .number (.integer value) => some (.number (.ofInt value))
  | .number (.double value) => some (.number value)
  | .text value => some (.text value)
  | .array items => some (.json (.array items))
  | .object fields => some (.json (.object fields))

/-- The object that the data points to. -/
def target? : Data → Option ObjectId
  | .reference id => some id
  | _ => none

/-- Whether a reader sees the same value: numbers are compared as numbers, so an
undefined number differs from itself. -/
def agrees : Data → Data → Bool
  | .reference a, .reference b => a == b
  | .text a, .text b => a == b
  | .number a, .number b => a.equal b
  | .boolean a, .boolean b => a == b
  | .bytes a, .bytes b => a == b
  | .json a, .json b => a.agrees b
  | _, _ => false

end Data

/-- What a map records about a key that was written at least once. -/
structure Entry where
  tombstone : Bool
  serial : Option Serial
  data : Option Data
  tombstonedAt : Option Int
  deriving DecidableEq

namespace Entry

def live (data : Data) (serial : Option Serial) : Entry := ⟨false, serial, some data, none⟩

/-- A removal keeps the serial and the time, and drops the data. -/
def removed (serial : Option Serial) (time : Int) : Entry := ⟨true, serial, none, some time⟩

/-- The value that the entry offers to readers. -/
def value? (entry : Entry) : Option Data := if entry.tombstone then none else entry.data

def isVisible (entry : Entry) : Bool := entry.value?.isSome

/-- The object that a live entry points to. -/
def target? (entry : Entry) : Option ObjectId := entry.value?.bind Data.target?

end Entry

/-- The contents of a map. -/
abbrev Entries := SortedMap String Entry

end SharedGraph
