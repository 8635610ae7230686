import SharedGraph.Proofs.HubConvergence
import SharedGraph.Proofs.Interleaving

/-! Counts at a hub and its participants are definite numbers. Only finite amounts are sent; added
up they may become infinite, but neither undefined nor the negative zero. So whether two counts are
one term and whether they are one number is the same question there, and a test of convergence
that compares terms decides what one that compares numbers would. -/
namespace SharedGraph

namespace Double

/-- Neither the number that differs from itself nor the one that equals another term. -/
def Definite (value : Double) : Prop := value ≠ .nan ∧ value ≠ .zero true

private theorem definite_zero : (zero false).Definite := ⟨nofun, nofun⟩

private theorem ofRatio_ne_nan (negative : Bool) (numerator denominator : Nat) :
    ofRatio negative numerator denominator ≠ .nan := by
  intro same
  unfold ofRatio at same
  split at same <;> cases same

/-- Adding a finite amount leaves a count definite. -/
theorem Definite.add {count amount : Double} (definite : count.Definite)
    (finite : amount.isFinite = true) : (count.add amount).Definite := by
  refine ⟨?_, add_ne_negative_zero amount definite.2⟩
  cases amount with
  | nan | infinity => cases finite
  | finite right n _ =>
    cases count with
    | nan => exact absurd rfl definite.1
    | infinity left => simp only [Double.add, ne_eq, reduceCtorEq, not_false_eq_true]
    | finite left m _ =>
      simp only [Double.add]
      split
      · exact ofRatio_ne_nan _ _ _
      · split
        · exact ofRatio_ne_nan _ _ _
        · split
          · exact ofRatio_ne_nan _ _ _
          · exact definite_zero.1

/-- Definite numbers are equal exactly if they are one term. -/
theorem Definite.equal_iff {first second : Double} (definite : first.Definite) (other : second.Definite) :
    first.equal second = true ↔ first = second := by
  cases first with
  | nan => exact absurd rfl definite.1
  | infinity left =>
    cases second with
    | nan => exact absurd rfl other.1
    | infinity right => simp only [equal, beq_iff_eq, infinity.injEq]
    | finite => simp only [equal, Bool.false_eq_true, reduceCtorEq]
  | finite left m held =>
    cases second with
    | nan => exact absurd rfl other.1
    | infinity => simp only [equal, Bool.false_eq_true, reduceCtorEq]
    | finite right n heldToo =>
      simp only [equal, Bool.and_eq_true, Bool.or_eq_true, beq_iff_eq, finite.injEq]
      constructor
      · rintro ⟨rfl, signs | rfl⟩
        · exact ⟨signs, rfl⟩
        · -- The zeros have two signs, but only the positive one is definite.
          cases left with
          | true => exact absurd rfl definite.2
          | false =>
            cases right with
            | true => exact absurd rfl other.2
            | false => exact ⟨rfl, rfl⟩
      · rintro ⟨rfl, rfl⟩
        exact ⟨rfl, .inl rfl⟩

end Double

/-! ## Objects and graphs -/

/-- What the message adds to a counter is finite. -/
def Message.AddsFinite (message : Message) : Prop :=
  ∀ id change, message.effect? = some (id, .onCounter change) → change.amount.isFinite = true

namespace LiveObject

variable {object : LiveObject} {message : Message}

/-- If the object is a counter, its count is definite. -/
def CountsDefinitely (object : LiveObject) : Prop :=
  ∀ count, object.contents = .counter count → count.Definite

private theorem countsDefinitely_placeholder (id : ObjectId) (kind : Kind) :
    (placeholder id kind).CountsDefinitely := by
  intro count held
  cases kind with
  | map => cases held
  | counter =>
    cases held
    exact Double.definite_zero

theorem CountsDefinitely.hear (definite : object.CountsDefinitely) (finite : message.AddsFinite) :
    (object.hear message).CountsDefinitely := by
  intro count held
  by_cases does : ∃ effect, message.effect? = some (object.id, effect)
  case neg =>
    rw [hear_of_foreign fun effect same => does ⟨effect, same⟩] at held
    exact definite count held
  obtain ⟨effect, does⟩ := does
  obtain ⟨origin, from?⟩ := Message.origin?_of_effect? does
  cases through : object.passes effect origin with
  | false =>
    rw [hear_of_stopped does from? through] at held
    exact definite count held
  | true =>
    rw [hear_of_passes does from? through, undergo] at held
    split at held
    · exact definite count held
    obtain ⟨before, heldBefore, rfl | rfl | ⟨change, rfl, rfl⟩⟩ := Contents.count_after held
    · exact definite count heldBefore
    · exact Double.definite_zero
    · exact (definite before heldBefore).add (finite object.id change does)

end LiveObject

namespace Graph

variable {graph : Graph} {message : Message} {log : List Message}

def CountsDefinitely (graph : Graph) : Prop :=
  ∀ id object, graph.get? id = some object → object.CountsDefinitely

theorem CountsDefinitely.deliver (definite : graph.CountsDefinitely) (keyed : graph.Keyed)
    (finite : message.AddsFinite) (now : Int) : (graph.deliver message now).2.CountsDefinitely := by
  intro id object present
  rw [get?_deliver keyed, Option.map_eq_some_iff] at present
  obtain ⟨before, known, rfl⟩ := present
  have stamped : (message.stampedAt now).AddsFinite := finite
  refine LiveObject.CountsDefinitely.hear ?_ stamped
  split at known
  case isFalse => exact definite id before known
  case isTrue =>
    rw [orPlaceholder, Option.or_eq_some_iff] at known
    rcases known with present | ⟨-, shown⟩
    · exact definite id before present
    · obtain ⟨kind, -, rfl⟩ := Option.map_eq_some_iff.1 shown
      exact LiveObject.countsDefinitely_placeholder id kind

theorem countsDefinitely_replay (finite : ∀ message ∈ log, message.AddsFinite) :
    (replay .initial log).CountsDefinitely := by
  induction log using List.reverseRecOn with
  | nil =>
    intro id object present
    rw [(get?_initial present).2]
    exact LiveObject.countsDefinitely_placeholder _ _
  | append_singleton log message ih =>
    obtain ⟨earlier, last⟩ := List.forall_mem_append.1 finite
    rw [replay_concat]
    exact (ih earlier).deliver (sound_initial.replay log).keyed (last message (List.mem_singleton.2 rfl)) 0

theorem CountsDefinitely.describe (definite : graph.CountsDefinitely) {state : ObjectState}
    (member : state ∈ graph.describe) {count : Double} (counted : state.count = some count) :
    count.Definite := by
  obtain ⟨object, known, rfl⟩ := List.mem_map.1 member
  obtain ⟨id, present⟩ := SortedMap.mem_values_iff.1 known
  refine definite id object present count ?_
  simp only [LiveObject.toState, Contents.count?] at counted
  split at counted
  · cases counted
  case h_2 held => rw [held, Option.some.inj counted]

end Graph

/-! ## What is written -/

private theorem eq_of_map_eq_ok {checked : Except Failure Unit} {written operation : Operation}
    (made : (checked.map fun _ => written) = .ok operation) : written = operation := by
  cases checked with
  | error => cases made
  | ok => exact Except.ok.inj made

/-- Amounts and first counts that are not finite are refused before they are sent. -/
theorem Write.finite_of_operation {write : Write} {operation : Operation} {now : Int}
    (made : write.operation now = .ok operation) :
    operation.amount.all Double.isFinite = true ∧ operation.firstCount.isFinite = true := by
  cases write with
  | set | createMap =>
    rw [← eq_of_map_eq_ok made]
    exact ⟨rfl, rfl⟩
  | remove | delete =>
    cases made
    exact ⟨rfl, rfl⟩
  | increment counter amount =>
    simp only [Write.operation] at made
    split at made
    case isFalse => cases made
    case isTrue finite =>
      cases made
      exact ⟨finite, rfl⟩
  | createCounter count nonce =>
    simp only [Write.operation] at made
    split at made
    case isFalse => cases made
    case isTrue finite =>
      cases made
      exact ⟨rfl, finite⟩

private theorem Message.addsFinite_of_write {message : Message} {write : Write} {operation : Operation}
    {now : Int}
    (made : write.operation now = .ok operation) (carried : message.operation = some operation) :
    message.AddsFinite := by
  intro id change does
  obtain ⟨amounts, first⟩ := write.finite_of_operation made
  simp only [effect?, carried, Option.bind_some, Option.bind_eq_some_iff, Option.map_eq_some_iff,
    Prod.mk.injEq] at does
  obtain ⟨-, -, effect, complete, -, rfl⟩ := does
  cases refused : operation.effect with
  | error => simp only [refused, Except.toOption, reduceCtorEq] at complete
  | ok effect =>
    rw [refused] at complete
    cases complete
    cases (Operation.asks_of_effect refused).2 with
    | add acts given => rwa [given] at amounts
    | createCounter acts => exact first

namespace World

variable {world : World}

/-- A round adds nothing to the log but the message of a write. -/
theorem log_attempt (world : World) (round : Round) :
    (world.attempt round).2.hub.log = world.hub.log ∨
      ∃ message, message.AddsFinite ∧ (world.attempt round).2.hub.log = world.hub.log ++ [message] := by
  obtain ⟨index, turn, tag, now⟩ := round
  cases turn with
  | write write =>
    rcases world.attempt_write_cases index write tag now with
      same | ⟨next, operation, message, attempted, made, carried, -, logNext, -⟩
    · exact .inl (by rw [same])
    · exact .inr ⟨message, Message.addsFinite_of_write made carried, by rw [attempted, logNext]⟩
  | receive =>
    left
    cases present : world.clients[index]? with
    | none => simp only [attempt, step, present]
    | some client =>
      cases answered : (client.receive world.hub now).2.1.result <;>
        simp only [attempt, step, present, answered, Except.map]
  | resync size =>
    left
    cases present : world.clients[index]? with
    | none => simp only [attempt, step, present]
    | some client =>
      cases caught : client.resync world.hub ("seq-" ++ Nat.repr tag) size now <;>
        simp only [attempt, step, present, caught, Except.map]

private theorem addsFinite_attempt (finite : ∀ message ∈ world.hub.log, message.AddsFinite)
    (round : Round) : ∀ message ∈ (world.attempt round).2.hub.log, message.AddsFinite := by
  rcases world.log_attempt round with same | ⟨message, last, longer⟩
  · rwa [same]
  · rw [longer]
    exact List.forall_mem_append.2 ⟨finite, fun other member => List.mem_singleton.1 member ▸ last⟩

theorem addsFinite_play (finite : ∀ message ∈ world.hub.log, message.AddsFinite) (rounds : List Round) :
    ∀ message ∈ (world.play rounds).2.hub.log, message.AddsFinite := by
  induction rounds generalizing world with
  | nil => exact finite
  | cons round rest ih => exact ih (addsFinite_attempt finite round)

/-- Every count of the hub and of a participant is definite, whatever is written and whoever is
handed what is new. -/
theorem definite_counts (name : String) (members : List (String × Int)) {rounds : List Round}
    (distinct : (rounds.filterMap Round.creates?).Nodup) :
    let played := ((gather name members).play rounds).2
    (∀ state ∈ played.hub.snapshot, ∀ count, state.count = some count → count.Definite) ∧
      ∀ client ∈ played.clients, ∀ state ∈ client.graph.describe, ∀ count,
        state.count = some count → count.Definite := by
  obtain ⟨consistent, empty, -⟩ := consistent_gather name members
  have silent : ∀ message ∈ (gather name members).hub.log, message.AddsFinite := by
    rw [empty]
    exact fun _ member => absurd member List.not_mem_nil
  have distinctWhole :
      (created (gather name members).hub.log ++ rounds.filterMap Round.creates?).Nodup := by
    rwa [empty]
  have finite := addsFinite_play silent rounds
  obtain ⟨played, -⟩ := consistent.play distinctWhole
  refine ⟨fun state member count counted => ?_, fun client among state member count counted => ?_⟩
  · rw [Hub.snapshot, played.served.describe_eq] at member
    exact (Graph.countsDefinitely_replay finite).describe member counted
  · rw [(played.clients client among).graph.describe_eq] at member
    -- A participant has what the log led to up to its position.
    refine (Graph.countsDefinitely_replay fun message early => ?_).describe member counted
    exact finite message (List.mem_of_mem_take early)

/-- So it does not matter whether convergence is tested on counts as terms or as numbers. -/
theorem equal_counts_iff (name : String) (members : List (String × Int)) {rounds : List Round}
    (distinct : (rounds.filterMap Round.creates?).Nodup) :
    let played := ((gather name members).play rounds).2
    ∀ client ∈ played.clients, ∀ state ∈ client.graph.describe, ∀ other ∈ played.hub.snapshot,
      ∀ count amount, state.count = some count → other.count = some amount →
        (count.equal amount = true ↔ count = amount) := by
  obtain ⟨hub, clients⟩ := definite_counts name members distinct
  intro played client among state described other listed count amount counted countedToo
  exact (clients client among state described count counted).equal_iff (hub other listed amount countedToo)

end World

end SharedGraph
