import SharedGraph.SortedMap
import SharedGraph.Wire.Tree

/-! Reading typed values out of trees. What is read may nest 127 arrays and objects,
counted along the path; what nobody asks for is not looked into and does not count.
A record may be sent as an object with named fields or as an array of its fields in
their order. -/
namespace SharedGraph.Wire

/-- Reads a value when so many arrays and objects may still be entered. -/
abbrev Decoder (α : Type) := (room : Nat) → WireTree → Option α

/-- The arrays and objects that one text may nest. -/
def nestingLimit : Nat := 127

namespace Decoder

/-- Reads a value from a whole text. -/
def run {α : Type} (decode : Decoder α) (tree : WireTree) : Option α := decode nestingLimit tree

def text : Decoder String
  | _, .text value => some value
  | _, _ => none

def boolean : Decoder Bool
  | _, .boolean value => some value
  | _, _ => none

/-- Any number is accepted where a double is wanted. -/
def double : Decoder Double
  | _, .number (.integer value) => some (.ofInt value)
  | _, .number (.double value) => some value
  | _, _ => none

def integer (least greatest : Int) : Decoder Int
  | _, .number (.integer value) =>
    if least ≤ value ∧ value ≤ greatest then some value else none
  | _, _ => none

def time : Decoder Int := integer leastTime greatestTime

/-- Unsigned numbers of 64 bits. -/
def count : Decoder Nat := fun room tree =>
  (integer 0 18446744073709551615 room tree).map Int.toNat

mutual

/-- Any JSON value. -/
def toJson : WireTree → Nat → Option Json
  | .null, _ => some .null
  | .boolean value, _ => some (.boolean value)
  | .number value, _ => some (.number value)
  | .text value, _ => some (.text value)
  | .array items, room + 1 => (toItems items room).map .array
  | .object fields, room + 1 => (toFields fields room).map .ofFields
  | _, _ => none
  termination_by structural tree => tree

def toItems : List WireTree → Nat → Option (List Json)
  | [], _ => some []
  | item :: rest, room =>
    match toJson item room, toItems rest room with
    | some value, some values => some (value :: values)
    | _, _ => none

def toField : String × WireTree → Nat → Option (String × Json)
  | (name, tree), room => (toJson tree room).map fun value => (name, value)

def toFields : List (String × WireTree) → Nat → Option (List (String × Json))
  | [], _ => some []
  | field :: rest, room =>
    match toField field room, toFields rest room with
    | some value, some values => some (value :: values)
    | _, _ => none

end

def json : Decoder Json := fun room tree => toJson tree room

/-- Every item must be readable. -/
def list {α : Type} (decode : Decoder α) : Decoder (List α)
  | room + 1, .array items => items.mapM (decode room)
  | _, _ => none

/-- A map from names; of a repeated name the last counts, but all must be readable. -/
def map {α : Type} (decode : Decoder α) : Decoder (SortedMap String α)
  | room + 1, .object fields => do
    let entries ← fields.mapM fun (name, tree) => (decode room tree).map fun value => (name, value)
    some (.ofList entries)
  | _, _ => none

/-- One of a fixed set of names, which may also be sent as an object that has the
name with nothing behind it. -/
def choice {α : Type} (ofName? : String → Option α) : Decoder α
  | _, .text name => ofName? name
  | _ + 1, .object [(name, .null)] => ofName? name
  | _, _ => none

/-- A value with the name of its alternative in front of it. -/
def alternative {α : Type} (decode : String → Decoder α) : Decoder α
  | room + 1, .object [(name, tree)] => decode name room tree
  | _, _ => none

end Decoder

/-- The known fields of a record, and what may still be entered below them. -/
structure Fields where
  room : Nat
  known : List (String × WireTree)

namespace Fields

/-- The fields of a record with the given names. Unknown fields are skipped, a known
field that stands twice is refused, and so are more values than fields. -/
def ofTree (names : List String) : Decoder Fields
  | room + 1, .object fields =>
    let known := fields.filter fun field => names.contains field.1
    if (known.map Prod.fst).Nodup then some ⟨room, known⟩ else none
  | room + 1, .array items =>
    if items.length ≤ names.length then some ⟨room, names.zip items⟩ else none
  | _, _ => none

def find? (fields : Fields) (name : String) : Option WireTree :=
  (fields.known.find? fun field => field.1 == name).map Prod.snd

def required {α : Type} (fields : Fields) (name : String) (decode : Decoder α) : Option α :=
  (fields.find? name).bind (decode fields.room)

/-- A field that may be missing, or say that there is nothing. -/
def optional {α : Type} (fields : Fields) (name : String) (decode : Decoder α) :
    Option (Option α) :=
  match fields.find? name with
  | none | some .null => some none
  | some tree => (decode fields.room tree).map some

/-- A field that may be missing, but says something if it is there. -/
def withDefault {α : Type} (fields : Fields) (name : String) (decode : Decoder α) (default : α) :
    Option α :=
  match fields.find? name with
  | none => some default
  | some tree => decode fields.room tree

end Fields

/-- An object of the fields that are there. -/
def record (fields : List (String × Option WireTree)) : WireTree :=
  .object (fields.filterMap fun (name, tree) => tree.map fun value => (name, value))

/-- Names with values, in the order of the names. -/
def ofMap {α : Type} (encode : α → WireTree) (entries : SortedMap String α) : WireTree :=
  .object (entries.toList.map fun (name, value) => (name, encode value))

def ofDouble (value : Double) : WireTree := .number (.double value)

def ofInteger (value : Int) : WireTree := .number (.integer value)

end SharedGraph.Wire
