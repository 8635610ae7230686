import SharedGraph.Clock

/-! Garbage collection by the clock: a collector is due whenever a multiple of its
period has passed since it was started. It works for one participant, and stops when
that is gone. -/
namespace SharedGraph

structure Collector where
  /-- The connection of the participant that it works for. -/
  connection : String
  started : Int
  period : Nat
  stopped : Bool := false
  deriving DecidableEq

namespace Collector

/-- The collector of a participant, started when so much time has passed. -/
def start (client : Client) (elapsed : Int) : Collector :=
  ⟨client.connection.id, elapsed, client.engine.replica.config.collectionPeriod, false⟩

/-- Whole periods from the start to a time. -/
def periodsUntil (collector : Collector) (time : Int) : Int :=
  (time - collector.started) / collector.period

/-- Whether a period ended after one time and not after another. -/
def isDue (collector : Collector) (before elapsed : Int) : Bool :=
  collector.periodsUntil before < collector.periodsUntil elapsed

/-- Lets time pass, after which the clock stands at `now`. A collector that is due
collects, or stops for good if its participant is gone or the clock cannot be read. -/
def pass (collector : Collector) (client : Option Client) (before elapsed now : Int) :
    Collector × Option Client :=
  if collector.stopped || !collector.isDue before elapsed then (collector, client)
  else
    match client with
    | some found =>
      if found.connection.id = collector.connection && isReadable now then
        (collector, some { found with engine := (found.engine.collectGarbage now).2 })
      else ({ collector with stopped := true }, client)
    | none => ({ collector with stopped := true }, none)

end Collector

end SharedGraph
