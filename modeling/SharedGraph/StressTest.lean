import SharedGraph.Clock
import SharedGraph.World

/-! A stress test: participants write at random, what they wrote is handed out in a
random order with random resyncs, and in the end every participant must have the
hub's graph. Chance is a stream of numbers that grows from a seed. -/
namespace SharedGraph

/-- The state of a stream of numbers. -/
structure Dice where
  state : Nat

namespace Dice

/-- A number below a bound, which must not be zero. The low bits of a linear
congruential stream repeat soon, so they are not used. -/
def roll (bound : Nat) : StateM Dice Nat := fun dice =>
  let state := (dice.state * 6364136223846793005 + 1442695040888963407) % 18446744073709551616
  (state / 4294967296 % bound, ⟨state⟩)

def alphabet : List Char :=
  "ABCDEFGHIJKLMNOPQRSTUVWXYZabcdefghijklmnopqrstuvwxyz0123456789".toList

/-- Sixteen letters and digits. -/
def nonce : StateM Dice String := do
  let rolls ← (List.range 16).mapM fun _ => roll alphabet.length
  return String.ofList (rolls.filterMap fun roll => alphabet[roll]?)

end Dice

namespace StressTest

/-- The name that a create gives its object. -/
def created (write : Write) (now : Int) : ObjectId :=
  match write.operation now with
  | .ok operation => operation.target
  | .error _ => .root

/-- One random write of a participant, or two if it creates an object. -/
def randomWrite (index : Nat) (counter : ObjectId) (number : Nat) (now : Int) :
    StateM Dice (List Write) := do
  let key := "key_" ++ Nat.repr (← Dice.roll 16)
  let choice ← Dice.roll 10
  if choice < 5 then
    return [.set .root key (.text ("value_" ++ Nat.repr index ++ "_" ++ Nat.repr number))]
  else if choice < 7 then return [.remove .root key]
  else if choice < 9 then
    return [.increment counter (.ofInt (1 + (← Dice.roll 9)))]
  else
    let child := Write.createMap [("owner", .number (.ofInt index))] (← Dice.nonce)
    return [child, .set .root key (.reference (created child now))]

/-- All writes of a participant. It starts with a counter of its own. -/
def randomWrites (index count : Nat) (now : Int) : StateM Dice (List Write) := do
  let create := Write.createCounter (.zero false) (← Dice.nonce)
  let counter := created create now
  let writes ← (List.range count).mapM fun number => randomWrite index counter number now
  return create :: .set .root ("counter_" ++ Nat.repr index) (.reference counter) :: writes.flatten

/-- Who is handed what is new next; one time in ten together with a description. -/
def randomRound (clients : Nat) : StateM Dice (Nat × Turn) := do
  let index ← Dice.roll clients
  let rare ← Dice.roll 10
  if rare = 0 then return (index, .resync (1 + (← Dice.roll 7)))
  else return (index, .receive)

structure Plan where
  writes : List (Nat × Turn)
  rounds : List (Nat × Turn)
  /-- In the end everybody is handed everything. -/
  final : List (Nat × Turn)

def randomPlan (clients writes rounds : Nat) (now : Int) : StateM Dice Plan := do
  let written ← (List.range clients).mapM fun index => do
    return (← randomWrites index writes now).map fun write => (index, Turn.write write)
  let handed ← (List.range rounds).mapM fun _ => randomRound clients
  return ⟨written.flatten, handed, (List.range clients).map fun index => (index, .receive)⟩

def Plan.resyncs (plan : Plan) : Nat :=
  (plan.rounds.filter fun round => round.2 != .receive).length

structure Outcome where
  delivered : Nat
  resyncs : Nat
  converged : Bool
  deriving DecidableEq

/-- Why a stress test comes to no outcome. -/
inductive Obstacle where
  /-- The clock cannot be read. -/
  | noTime
  /-- There is nobody to choose from. -/
  | nobody
  | failure (failure : Failure)
  deriving DecidableEq

def Plan.run (plan : Plan) (clients : Nat) (now : Int) : Except Failure Outcome := do
  let (delivered, world) ← (World.start "stress" now clients).run now
    (plan.writes ++ plan.rounds ++ plan.final) 1
  .ok ⟨delivered, plan.resyncs, world.converged⟩

/-- A stress test with a number of participants, of writes of each of them, and of
rounds in which one of them is handed what is new. -/
def run (clients writes rounds seed : Nat) (now : Int) : Except Obstacle Outcome :=
  if !isReadable now then .error .noTime
  else if clients = 0 ∧ rounds ≠ 0 then .error .nobody
  else
    let plan := (randomPlan clients writes rounds now ⟨seed⟩).1
    (plan.run clients now).mapError .failure

/-- The numbers of participants in a test of growing size. -/
def sizes (most stride : Nat) : List Nat :=
  (List.range (most / stride)).map fun index => (index + 1) * stride

/-- Whether tests of every size converge, with as many rounds as give each participant
twenty. -/
def scaling (most stride seed : Nat) (now : Int) : Except Obstacle Bool := do
  let outcomes ← (sizes most stride).mapM fun clients => run clients 50 (clients * 20) seed now
  .ok (outcomes.all Outcome.converged)

/-! ## What a person reads -/

def rule (left right : String) : String :=
  left ++ String.ofList (List.replicate 60 '═') ++ right

def topRule : String := rule "╔" "╗"

def middleRule : String := rule "╠" "╣"

def bottomRule : String := rule "╚" "╝"

/-- What is printed when a test begins. -/
def banner (clients writes rounds : Nat) : List String :=
  ["", topRule, "║        Live Objects Convergence Stress Test                ║",
    "║  Clients: " ++ Nat.repr clients ++ " | Ops/Client: " ++ Nat.repr writes ++ " | Rounds: " ++
      Nat.repr rounds ++ " ║", bottomRule]

structure Stats where
  clients : Nat
  writes : Nat
  delivered : Nat
  resyncs : Nat
  totalNanos : Nat
  averageNanos : Nat
  perSecond : Double
  converged : Bool

/-- Times are measured in nanoseconds. -/
def nanosPerSecond : Nat := 1000000000

namespace Stats

/-- Puts blanks before a text. -/
def alignRight (width : Nat) (text : String) : String :=
  String.ofList (List.replicate (width - text.length) ' ') ++ text

/-- Seconds and the rest are converted apart and then added. -/
def seconds (nanos : Nat) : Double :=
  (Double.ofInt (nanos / nanosPerSecond)).add (.ofQuotient (nanos % nanosPerSecond) nanosPerSecond)

def row (title value : String) : String := "║  " ++ title ++ value ++ " ║"

def lines (stats : Stats) : List String :=
  let count := fun (value : Nat) => alignRight 38 (Nat.repr value)
  ["", topRule, "║              Stress Test Statistics                         ║", middleRule,
    row "Number of Clients:         " (count stats.clients),
    row "Operations per Client:     " (count stats.writes),
    row "Messages Delivered:        " (count stats.delivered),
    row "Resyncs:                   " (count stats.resyncs),
    row "Total Time:                " (alignRight 39 ((seconds stats.totalNanos).fixed 3) ++ "s"),
    row "Average Delivery Time:     " (alignRight 36 (Nat.repr (stats.averageNanos / 1000)) ++ "µs"),
    row "Operations/Second:         " (alignRight 38 (stats.perSecond.fixed 0)),
    row "Converged:                 " (alignRight 38 (if stats.converged then "yes" else "NO")),
    bottomRule]

/-- The table, every line with its end. -/
def render (stats : Stats) : String := String.join (stats.lines.map (· ++ "\n"))

end Stats

end StressTest

end SharedGraph
