import SharedGraph.Message

/-! Descriptions of the graph arrive in pages. Each page carries a serial that names
its sequence and says whether more pages follow; the pages of one sequence are
gathered until the last one is there. -/
namespace SharedGraph

/-- `sequence:cursor`. Without a cursor the page is the last one of its sequence. -/
structure PageSerial where
  sequence : String
  cursor : Option String
  deriving DecidableEq, Repr

namespace PageSerial

/-- The sequence ends at the first colon; an empty cursor counts as none. -/
def ofText (text : String) : PageSerial :=
  let sequence := text.toList.takeWhile (· != ':')
  let cursor := (text.toList.dropWhile (· != ':')).drop 1
  ⟨String.ofList sequence, if cursor.isEmpty then none else some (String.ofList cursor)⟩

def toText (serial : PageSerial) : String := serial.sequence ++ ":" ++ serial.cursor.getD ""

end PageSerial

/-- What was gathered of a sequence. Its name is known from the first page on. -/
structure PendingSync where
  sequence : Option String
  states : List ObjectState
  deriving DecidableEq

namespace PendingSync

def fresh : PendingSync := ⟨none, []⟩

/-- Expects a sequence, unless one is already under way; says whether this is new. -/
def start : Option PendingSync → Bool × PendingSync
  | some pending => (false, pending)
  | none => (true, fresh)

/-- The states gathered so far that belong to a sequence. Those of another sequence,
which will not be completed any more, are forgotten. -/
def statesOf (pending : PendingSync) (sequence : String) : List ObjectState :=
  match pending.sequence with
  | some known => if known = sequence then pending.states else []
  | none => pending.states

/-- Adds a page; the last page of a sequence completes it. -/
def addPage (pending : Option PendingSync) (serial : PageSerial) (states : List ObjectState) :
    Option (List ObjectState) × Option PendingSync :=
  let gathered := statesOf (pending.getD fresh) serial.sequence ++ states
  match serial.cursor with
  | some _ => (none, some ⟨some serial.sequence, gathered⟩)
  | none => (some gathered, none)

/-- Gives up what was gathered; says whether anything was under way. -/
def abort (pending : Option PendingSync) : Bool × Option PendingSync := (pending.isSome, none)

/-- Cuts a description into pages of a sequence. The last page has no cursor, and a
description without states is one empty page. -/
def pages (sequence : String) (size : Nat) (states : List ObjectState) :
    List (PageSerial × List ObjectState) :=
  let count := (states.length + (max size 1 - 1)) / max size 1
  if count = 0 then [(⟨sequence, none⟩, [])]
  else
    (List.range count).map fun index =>
      let cursor := if index + 1 = count then none else some ("page" ++ Nat.repr (index + 1))
      (⟨sequence, cursor⟩, (states.drop (index * max size 1)).take (max size 1))

end PendingSync

end SharedGraph
