import SharedGraph.Message
import SharedGraph.Text.Stamp

/-! Short names for new objects and for messages, the same ones in every run. The name
that is derived for a new object holds a hash of its nonce; an alias counts the objects
that were named instead, and leaves the kind and the time in place. Once an object has
an alias, whatever is said about it later is said about the alias. The text of first
contents is looked into only where an object gets its alias. Messages are counted too. -/
namespace SharedGraph

/-- Writes a text for every occurrence of another one, from left to right. The number
counts the characters that are still part of the last occurrence. -/
def substitute (old new : List Char) : Nat → List Char → List Char
  | _, [] => []
  | covered + 1, _ :: rest => substitute old new covered rest
  | 0, char :: rest =>
    if old.isPrefixOf (char :: rest) then new ++ substitute old new (old.length - 1) rest
    else char :: substitute old new 0 rest

structure Aliases where
  /-- How many messages were given a name. -/
  messages : Nat := 0
  /-- How many objects were given an alias. -/
  objects : Nat := 0
  /-- The alias of each object, the newest one if it was given several. -/
  names : SortedMap ObjectId ObjectId := .empty

namespace Aliases

/-- The name under which an object goes. -/
def rename (aliases : Aliases) (id : ObjectId) : ObjectId := (aliases.names.get? id).getD id

/-- Names inside a text are found wherever they occur, also as a part of longer ones. -/
def renameText (aliases : Aliases) (text : String) : String :=
  String.ofList (aliases.names.toList.foldl (fun chars (id, newName) =>
    substitute id.text.toList newName.text.toList 0 chars) text.toList)

def renameData (aliases : Aliases) : Data → Data
  | .reference id => .reference (aliases.rename id)
  | data => data

def renameEntry (aliases : Aliases) (entry : Entry) : Entry :=
  { entry with data := entry.data.map aliases.renameData }

/-- An operation that mentions objects by the names under which they go. The text of
first contents stays as it is. -/
def renameAll (aliases : Aliases) (operation : Operation) : Operation :=
  { operation with
    target := aliases.rename operation.target
    keyEdit := operation.keyEdit.map fun edit =>
      { edit with data := edit.data.map aliases.renameData }
    entries := operation.entries.map fun entries => entries.map fun _ => aliases.renameEntry }

/-- The alias of the object that is named next. -/
def next (aliases : Aliases) (kind : Kind) (now : Int) : ObjectId :=
  ⟨kind.name ++ ":gen" ++ Nat.repr (aliases.objects + 1) ++ "@" ++ String.ofList (writeInteger now)⟩

/-- The nonce that goes with that alias. -/
def nextNonce (aliases : Aliases) : String := "nonce" ++ Nat.repr (aliases.objects + 1)

/-- An operation names an object if it says what a name is derived from, and if the name
that it has shows a kind. -/
def newKind? (operation : Operation) : Option Kind :=
  if operation.nonce.isSome && operation.initialValue.isSome then operation.target.kind? else none

/-- Gives an alias to the object that an operation names, and renames all that the
operation mentions, also in the text that the name is derived from. -/
def assign (aliases : Aliases) (operation : Operation) (now : Int) : Operation × Aliases :=
  match newKind? operation with
  | none => (aliases.renameAll operation, aliases)
  | some kind =>
    let extended := { aliases with
      objects := aliases.objects + 1
      names := aliases.names.insert operation.target (aliases.next kind now) }
    ({ extended.renameAll operation with
        nonce := some aliases.nextNonce
        initialValue := operation.initialValue.map extended.renameText }, extended)

/-- The name of the message that is sent next. It tells whether the message came with a
stamp of the moment at which it is sent. -/
def nextMessage (aliases : Aliases) (message : Message) (now : Int) : String :=
  let fresh := (message.id.bind Stamp.time?).any fun time => time == now
  (if fresh then "msg" else "bad") ++ Nat.repr (aliases.messages + 1)

/-- Names a message, and renames what its operation mentions. -/
def label (aliases : Aliases) (message : Message) (now : Int) : Message × Aliases :=
  let named := message.operation.map fun operation => aliases.assign operation now
  ({ message with
      id := some (aliases.nextMessage message now)
      operation := named.map Prod.fst },
    { (named.map Prod.snd).getD aliases with messages := aliases.messages + 1 })

end Aliases

end SharedGraph
