import SharedGraph.Json.Value
import SharedGraph.Number.Decimal
import SharedGraph.Text.Integer

/-! JSON texts as trees. A tree keeps what a text says before anybody decides what it
means: fields stay in their order, repeated ones included, and a literal that has the
right form but stands for no value is kept as such, because a reader that skips it
need not refuse the text. -/
namespace SharedGraph

inductive WireTree where
  | null
  | boolean (value : Bool)
  | number (value : JsonNumber)
  | text (value : String)
  | array (items : List WireTree)
  | object (fields : List (String × WireTree))
  /-- A number too large for a double, a string with an unpaired surrogate, or an
  object with such a string as the name of a field. -/
  | broken

namespace WireTree

instance : Inhabited WireTree := ⟨.null⟩

/-! ## Fields -/

/-- A field that is there and says something. -/
def field? (tree : WireTree) (name : String) : Option WireTree :=
  match tree with
  | .object fields => (fields.lookup name).filter fun
    | .null => false
    | _ => true
  | _ => none

/-- Changes what stands at the end of a path of names. -/
def modifyAt (change : WireTree → WireTree) : List String → WireTree → WireTree
  | [], tree => change tree
  | name :: path, .object fields =>
    .object (fields.map fun field =>
      if field.1 = name then (name, modifyAt change path field.2) else field)
  | _, tree => tree

/-! ## Writing -/

def hexDigit (value : Nat) : Char := "0123456789abcdef".toList.getD value '0'

/-- Only the quote, the backslash and control characters are escaped. -/
def escape (char : Char) : List Char :=
  match char with
  | '"' => ['\\', '"']
  | '\\' => ['\\', '\\']
  | '\n' => ['\\', 'n']
  | '\r' => ['\\', 'r']
  | '\t' => ['\\', 't']
  | _ =>
    if char.toNat = 8 then ['\\', 'b']
    else if char.toNat = 12 then ['\\', 'f']
    else if char.toNat < 32 then
      ['\\', 'u', '0', '0', hexDigit (char.toNat / 16), hexDigit (char.toNat % 16)]
    else [char]

def writeText (value : String) : List Char := '"' :: value.toList.flatMap escape ++ ['"']

/-- A text has no way to write a number that is not finite. -/
def writeNumber : JsonNumber → List Char
  | .integer value => writeInteger value
  | .double value =>
    if value.isFinite then (NumberLayout.wire.render value).toList else "null".toList

mutual

/-- The text of a tree, without blanks. -/
def write : WireTree → List Char
  | .null | .broken => "null".toList
  | .boolean value => if value then "true".toList else "false".toList
  | .number value => writeNumber value
  | .text value => writeText value
  | .array [] => ['[', ']']
  | .array (first :: rest) => '[' :: write first ++ writeItems rest
  | .object [] => ['{', '}']
  | .object (first :: rest) => '{' :: writeField first ++ writeFields rest
  termination_by structural tree => tree

/-- The items after the first one. -/
def writeItems : List WireTree → List Char
  | [] => [']']
  | item :: rest => ',' :: write item ++ writeItems rest

def writeField : String × WireTree → List Char
  | (name, value) => writeText name ++ ':' :: write value

/-- The fields after the first one. -/
def writeFields : List (String × WireTree) → List Char
  | [] => ['}']
  | field :: rest => ',' :: writeField field ++ writeFields rest

end

def render (tree : WireTree) : String := String.ofList tree.write

mutual

/-- Puts other values in the place of the numbers that no text can hold. -/
def mapNonFinite (other : Double → WireTree) : WireTree → WireTree
  | .number (.double value) => if value.isFinite then .number (.double value) else other value
  | .array items => .array (mapNonFiniteItems other items)
  | .object fields => .object (mapNonFiniteFields other fields)
  | tree => tree
  termination_by structural tree => tree

def mapNonFiniteItems (other : Double → WireTree) : List WireTree → List WireTree
  | [] => []
  | item :: rest => mapNonFinite other item :: mapNonFiniteItems other rest

def mapNonFiniteField (other : Double → WireTree) : String × WireTree → String × WireTree
  | (name, value) => (name, mapNonFinite other value)

def mapNonFiniteFields (other : Double → WireTree) :
    List (String × WireTree) → List (String × WireTree)
  | [] => []
  | field :: rest => mapNonFiniteField other field :: mapNonFiniteFields other rest

end

mutual

/-- A value as a tree. -/
def ofJson : Json → WireTree
  | .null => .null
  | .boolean value => .boolean value
  | .number value => .number value
  | .text value => .text value
  | .array items => .array (ofItems items)
  | .object fields => .object (ofFields fields)
  termination_by structural value => value

def ofItems : List Json → List WireTree
  | [] => []
  | item :: rest => ofJson item :: ofItems rest

def ofField : String × Json → String × WireTree
  | (name, value) => (name, ofJson value)

def ofFields : List (String × Json) → List (String × WireTree)
  | [] => []
  | field :: rest => ofField field :: ofFields rest

end

end WireTree

end SharedGraph
