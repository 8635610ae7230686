import SharedGraph.StressTest

/-! The command line: stress tests of growing size, with their times. It ends with an
error if some participant missed the hub's graph. -/
namespace SharedGraph.StressTest

/-- The text of an obstacle. -/
def explain : Obstacle → String
  | .noTime => "the clock is past the end of the calendar"
  | .nobody => "cannot choose among no clients"
  | .failure failure => failure.message

/-- Evaluates something now, and says how many nanoseconds that took. -/
def timed {α : Type} (work : Unit → α) : IO (α × Nat) := do
  let begun ← IO.monoNanosNow
  let result ← IO.lazyPure work
  return (result, (← IO.monoNanosNow) - begun)

def runPhase (world : World) (turns : List (Nat × Turn)) (tag now : Nat) :
    IO ((Nat × World) × Nat) := do
  let (result, nanos) ← timed fun _ => world.run now turns tag
  match result with
  | .ok done => return (done, nanos)
  | .error failure => throw (IO.userError (explain (.failure failure)))

def printLines (lines : List String) : IO Unit := lines.forM fun line => IO.println line

/-- Runs a test phase by phase and prints how far it is. -/
def report (clients writes rounds : Nat) : IO Bool := do
  printLines (banner clients writes rounds)
  let now := (← IO.monoMsNow)
  let begun ← IO.monoNanosNow
  let plan := (randomPlan clients writes rounds now ⟨begun⟩).1
  IO.println "\n[Phase 1/3] Publishing operations..."
  let ((_, written), _) ← runPhase (.start "stress" now clients) plan.writes 1 now
  IO.println ("[Phase 1/3] ✓ Completed (" ++ Nat.repr written.hub.log.length ++
    " messages on the channel)")
  IO.println "[Phase 2/3] Delivering with random resyncs..."
  let ((early, handed), nanos) ← runPhase written plan.rounds 1 now
  IO.println "[Phase 2/3] ✓ Completed"
  IO.println "[Phase 3/3] Final delivery and convergence check..."
  let ((late, final), _) ← runPhase handed plan.final 1 now
  let converged := final.converged
  let total := (← IO.monoNanosNow) - begun
  IO.println "[Phase 3/3] ✓ Completed"
  let stats : Stats := {
    clients, writes, converged
    delivered := early + late
    resyncs := plan.resyncs
    totalNanos := total
    averageNanos := nanos / max rounds 1
    perSecond := .ofQuotient ((early + late) * nanosPerSecond) (max total 1) }
  IO.print stats.render
  return converged

/-- Prints a heading in a box. -/
def printHeading (gap : String) (title : String) : IO Unit := do
  IO.println (gap ++ topRule)
  printLines ["║" ++ title ++ "║", bottomRule]

end SharedGraph.StressTest

open SharedGraph.StressTest in
def main : IO UInt32 := do
  printHeading "\n\n" "            ASYNC STRESS TESTS                               "
  let small ← report 4 100 200
  let medium ← report 10 500 1000
  printHeading "\n\n" "          SCALING ANALYSIS                                  "
  printHeading "\n" "      Scaling Analysis - Delivery Cost vs Clients          "
  let scaled ← (sizes 20 4).mapM fun clients => report clients 50 (clients * 20)
  if small && medium && scaled.all id then
    IO.println "\n✓ All stress tests completed successfully!"
    return 0
  else
    IO.eprintln "Error: \"clients diverged from the hub\""
    return 1
