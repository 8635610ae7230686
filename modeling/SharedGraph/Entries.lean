import SharedGraph.Update

/-! The contents of a map are registers, one for each key, and of all writes to a key
the one with the greatest serial stands. A removal is a write too. -/
namespace SharedGraph.Entries

/-- A write to a key succeeds if it is the first one or newer than the one recorded. -/
def canWrite (entries : Entries) (key : String) (serial : Option Serial) : Bool :=
  match entries.get? key with
  | some recorded => Serial.isNewer serial recorded.serial
  | none => true

/-- Writes an entry, and says what changed for a reader. -/
def write (entries : Entries) (key : String) (entry : Entry) : Option KeyChange × Entries :=
  if canWrite entries key entry.serial then
    (KeyChange.ofEntries (entries.get? key) (some entry), entries.insert key entry)
  else (none, entries)

def set (entries : Entries) (key : String) (data : Data) (serial : Option Serial) :
    Option KeyChange × Entries :=
  write entries key (.live data serial)

def remove (entries : Entries) (key : String) (serial : Option Serial) (time : Int) :
    Option KeyChange × Entries :=
  write entries key (.removed serial time)

/-- An entry that a create operation brings along is a write of its own, with its own
serial. One without data counts as a removal. -/
def initialWrite (time : Int) (entry : Entry) : Entry :=
  match entry.value? with
  | some data => .live data entry.serial
  | none => .removed entry.serial (entry.tombstonedAt.getD time)

/-- Adds the change of one key to those collected so far. -/
def noteChange (changes : KeyChanges) (key : String) : Option KeyChange → KeyChanges
  | some change => changes.insert key change
  | none => changes

/-- Merges the first contents that a create operation brings along. -/
def mergeInitial (entries initial : Entries) (time : Int) : KeyChanges × Entries :=
  initial.toList.foldl (fun (changes, merged) (key, entry) =>
    let (change, written) := write merged key (initialWrite time entry)
    (noteChange changes key change, written)) (.empty, entries)

/-- Takes contents over as they are described. A removal without a time counts as
made on arrival, so its grace period starts then. -/
def ofState (described : Entries) (time : Int) : Entries :=
  described.map fun _ entry =>
    if entry.tombstone then { entry with tombstonedAt := some (entry.tombstonedAt.getD time) }
    else entry

/-- Whether an entry was removed at or before a time. -/
def isExpired (cutoff : Int) (entry : Entry) : Bool :=
  entry.tombstone && entry.tombstonedAt.any (· ≤ cutoff)

/-- Forgets the removals made at or before a time. -/
def dropExpired (entries : Entries) (cutoff : Int) : Entries :=
  entries.filter fun _ entry => !isExpired cutoff entry

/-- The objects that live entries point to, in the order of the keys. -/
def references (entries : Entries) : List ObjectId := entries.values.filterMap Entry.target?

end SharedGraph.Entries
