import SharedGraph.Config
import SharedGraph.Wire.Codec

/-! One name for the writers of all types, so that composite values are written without
naming the writer of each part. A value that is not there is written as null, and a
list or a pair as an array. -/
namespace SharedGraph.Wire

class Writable (α : Type) where
  toWire : α → WireTree

export Writable (toWire)

instance : Writable WireTree := ⟨id⟩
instance : Writable String := ⟨.text⟩
instance : Writable Bool := ⟨.boolean⟩
instance : Writable Int := ⟨ofInteger⟩
instance : Writable Nat := ⟨fun value => ofInteger value⟩
instance : Writable Double := ⟨ofDouble⟩
instance : Writable ObjectId := ⟨ofId⟩
instance : Writable Serial := ⟨ofSerial⟩
instance : Writable Kind := ⟨ofKind⟩
instance : Writable Action := ⟨ofAction⟩
instance : Writable Data := ⟨ofData⟩
instance : Writable Entry := ⟨ofEntry⟩
instance : Writable Operation := ⟨ofOperation⟩
instance : Writable ObjectState := ⟨ofState⟩
instance : Writable Message := ⟨ofMessage⟩
instance : Writable KeyChange := ⟨ofKeyChange⟩
instance : Writable Update := ⟨ofUpdate⟩
instance : Writable Config := ⟨Config.toTree⟩

section

variable {α β κ : Type} [Writable α] [Writable β] [Keyed κ]

instance : Writable (Option α) := ⟨fun value => (value.map toWire).getD .null⟩

instance : Writable (List α) := ⟨fun values => .array (values.map toWire)⟩

instance : Writable (α × β) := ⟨fun pair => .array [toWire pair.1, toWire pair.2]⟩

/-- A map is written as an object, the texts of its keys being the names. -/
instance : Writable (SortedMap κ α) :=
  ⟨fun entries => .object (entries.toList.map fun (key, value) => (Keyed.text key, toWire value))⟩

end

/-- A name and a value, which make a field of an object. -/
def pair {α : Type} [Writable α] (name : String) (value : α) : String × WireTree :=
  (name, toWire value)

end SharedGraph.Wire
