import SharedGraph.Data

/-! Updates tell subscribers what changed for a reader, and nothing more: the
differences between two sets of entries are exactly the keys whose visible value is
not the same. -/
namespace SharedGraph

inductive KeyChange where
  | updated
  | removed
  deriving DecidableEq, Repr

namespace KeyChange

/-- What happened to a key whose visible value was `before` and is `after`. -/
def between (before after : Option Data) : Option KeyChange :=
  match before, after with
  | none, none => none
  | none, some _ => some .updated
  | some _, none => some .removed
  | some old, some new => if old.agrees new then none else some .updated

/-- What happened to a key, from what the map recorded about it. -/
def ofEntries (before after : Option Entry) : Option KeyChange :=
  between (before.bind Entry.value?) (after.bind Entry.value?)

end KeyChange

abbrev KeyChanges := SortedMap String KeyChange

/-- The keys of either side, each once. -/
def bothKeys (before after : Entries) : List String :=
  before.keys ++ after.keys.filter fun key => !before.contains key

/-- Collects the changes of the given keys. -/
def changesOf (keys : List String) (change : String → Option KeyChange) : KeyChanges :=
  SortedMap.ofList (keys.filterMap fun key => (change key).map fun found => (key, found))

/-- The changes between two sets of entries. -/
def diffEntries (before after : Entries) : KeyChanges :=
  changesOf (bothKeys before after) fun key =>
    KeyChange.ofEntries (before.get? key) (after.get? key)

inductive Change where
  | map (changes : KeyChanges)
  /-- The amount that was added, not the new count. -/
  | counter (amount : Double)
  deriving DecidableEq

structure Update where
  id : ObjectId
  change : Change
  /-- The object was deleted by what the update reports. -/
  tombstone : Bool := false
  clientId : Option String := none
  connectionId : Option String := none
  deriving DecidableEq

namespace Update

def ofKeys (id : ObjectId) (changes : KeyChanges) : Update := { id, change := .map changes }

def ofAmount (id : ObjectId) (amount : Double) : Update := { id, change := .counter amount }

/-- Nothing that a reader could notice; a deletion can always be noticed. -/
def isNoop (update : Update) : Bool :=
  !update.tombstone &&
    match update.change with
    | .map changes => changes.isEmpty
    | .counter amount => amount.isZero

def keyChanges? (update : Update) : Option KeyChanges :=
  match update.change with
  | .map changes => some changes
  | .counter _ => none

/-- All that happened to a map that stays is that keys vanished, if anything did. -/
def removesOnly (update : Update) : Bool :=
  !update.tombstone &&
    update.keyChanges?.any fun changes => changes.values.all (· == .removed)

def amount? (update : Update) : Option Double :=
  match update.change with
  | .map _ => none
  | .counter amount => some amount

/-- Who caused the update, as far as the message says. -/
def causedBy (update : Update) (clientId connectionId : Option String) : Update :=
  { update with clientId, connectionId }

end Update

end SharedGraph
