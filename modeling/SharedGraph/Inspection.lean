import SharedGraph.Graph.Reading
import SharedGraph.Text.Unseen

/-! Texts for a person who inspects values while looking for a mistake. They name the
kind of every value, and show every character of a text. -/
namespace SharedGraph

namespace Inspection

/-- A character inside quotes. One that cannot be seen is given by its code point. -/
def escape (char : Char) : List Char :=
  if char = '"' then ['\\', '"']
  else if char = '\\' then ['\\', '\\']
  else if char = '\n' then ['\\', 'n']
  else if char = '\r' then ['\\', 'r']
  else if char = '\t' then ['\\', 't']
  else if char = '\x00' then ['\\', '0']
  else if isUnseen char then ['\\', 'u', '\x7b'] ++ Nat.toDigits 16 char.toNat ++ ['\x7d']
  else [char]

def quoted (text : String) : String :=
  "\"" ++ String.ofList (text.toList.flatMap escape) ++ "\""

/-- A name with what it stands for in parentheses. -/
def tagged (name content : String) : String := name ++ "(" ++ content ++ ")"

def separated (items : List String) : String := ", ".intercalate items

def listed (items : List String) : String := "[" ++ separated items ++ "]"

end Inspection

open Inspection

def ObjectId.inspect (id : ObjectId) : String := tagged "ObjectId" id.text

def JsonNumber.inspect : JsonNumber → String
  | .integer value => tagged "Number" (String.ofList (writeInteger value))
  | .double value => tagged "Number" (NumberLayout.wire.render value)

mutual

def Json.inspect : Json → String
  | .null => "Null"
  | .boolean value => tagged "Bool" (toString value)
  | .number value => value.inspect
  | .text value => tagged "String" (quoted value)
  | .array items => "Array " ++ listed (inspectItems items)
  | .object fields => "Object \x7b" ++ separated (inspectFields fields) ++ "\x7d"

def Json.inspectItems : List Json → List String
  | [] => []
  | item :: rest => item.inspect :: inspectItems rest

def Json.inspectFields : List (String × Json) → List String
  | [] => []
  | (name, value) :: rest => (quoted name ++ ": " ++ value.inspect) :: inspectFields rest

end

def Data.inspect : Data → String
  | .reference id => tagged "ObjectId" id.inspect
  | .text value => tagged "String" (quoted value)
  | .number value => tagged "Number" (NumberLayout.inspection.render value)
  | .boolean value => tagged "Boolean" (toString value)
  | .bytes value => tagged "Bytes" (listed (value.map fun byte => Nat.repr byte.toNat))
  | .json value => tagged "Json" value.inspect

def Found.inspect : Found → String
  | .plain data => tagged "Primitive" data.inspect
  | .object .map id => tagged "Map" id.inspect
  | .object .counter id => tagged "Counter" id.inspect

/-- The text of a participant's view of an object. -/
def ObjectId.inspectAs (id : ObjectId) (kind : Kind) : String :=
  let title := match kind with
    | .map => "LiveMap"
    | .counter => "LiveCounter"
  title ++ " \x7b object_id: " ++ id.inspect ++ " \x7d"

end SharedGraph
