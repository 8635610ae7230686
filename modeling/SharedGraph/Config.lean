import SharedGraph.Wire.Decoder

/-! Settings of an engine. -/
namespace SharedGraph

structure Config where
  /-- Milliseconds between two garbage collections. -/
  gcInterval : Nat := 5 * 60 * 1000
  /-- How many milliseconds deleted objects and removed entries are kept. -/
  gcGrace : Nat := 24 * 60 * 60 * 1000
  /-- Whether operations that arrive while a description is on its way wait for it. -/
  bufferDuringSync : Bool := true
  /-- How many events an observer may fall behind. -/
  eventCapacity : Nat := 100
  /-- Who the participant is, in the messages it sends. -/
  clientId : Option String := none
  deriving DecidableEq, Repr

namespace Config

/-- The settings that a text may leave out have no entry here but the last. -/
def fields : List String :=
  ["gc_interval_ms", "gc_grace_period_ms", "buffer_operations_during_sync",
    "event_channel_capacity", "client_id"]

def toTree (config : Config) : WireTree :=
  .object [
    ("gc_interval_ms", Wire.ofInteger config.gcInterval),
    ("gc_grace_period_ms", Wire.ofInteger config.gcGrace),
    ("buffer_operations_during_sync", .boolean config.bufferDuringSync),
    ("event_channel_capacity", Wire.ofInteger config.eventCapacity),
    ("client_id", (config.clientId.map WireTree.text).getD .null)]

def ofTree : Wire.Decoder Config := fun room tree => do
  let given ← Wire.Fields.ofTree fields room tree
  some {
    gcInterval := ← given.required "gc_interval_ms" Wire.Decoder.count
    gcGrace := ← given.required "gc_grace_period_ms" Wire.Decoder.count
    bufferDuringSync := ← given.required "buffer_operations_during_sync" Wire.Decoder.boolean
    eventCapacity := ← given.required "event_channel_capacity" Wire.Decoder.count
    clientId := ← given.optional "client_id" Wire.Decoder.text }

/-- The grace period as a time; one that is too long is as long as a time can be. -/
def graceTime (config : Config) : Int := min config.gcGrace greatestTime

/-- How many events are kept for an observer: a power of two, at least one. -/
def eventRoom (config : Config) : Nat := (max config.eventCapacity 1).nextPowerOfTwo

/-- This is 2^57; room for more events than that cannot be set up at all. -/
def greatestEventRoom : Nat := 144115188075855872

/-- Whether an engine can have these settings. -/
def isFeasible (config : Config) : Bool := config.eventRoom ≤ greatestEventRoom

/-- Collections are at least one millisecond apart. -/
def collectionPeriod (config : Config) : Nat := max config.gcInterval 1

end Config

end SharedGraph
