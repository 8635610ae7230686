import Mathlib.Data.List.DropRight
import SharedGraph.Proofs.CatchingUp

/-! What waits for a description. Operations that arrive while one is awaited are put aside, and
handed to the graph, in their order and before anything newer, as soon as the matter is settled.
Only a channel that is lost takes them away. -/
namespace SharedGraph

/-- The message that a move hands to the graph. -/
def Move.delivered? : Move → Option Message
  | .deliver message _ => some message
  | .describe .. | .collect .. => none

/-- Whether an input says that the channel is lost. -/
def Input.losesChannel : Input → Bool
  | .channel .suspended | .channel .detached | .channel .failed => true
  | _ => false

namespace Replica

variable {replica : Replica} {input : Input} {states : List ObjectState}

/-- Whatever happens to a participant, it is catching up exactly while a description is awaited,
operations wait only then, a lost channel leaves nothing to wait for, and catching up is never
what a participant goes back to. -/
theorem catching_up_agrees (config : Config) (history : List (Input × Int)) :
    let replica := (Replica.new config).after history
    (replica.phase = .syncing ↔ replica.pending.isSome = true) ∧
      (replica.buffered ≠ [] → replica.pending.isSome = true) ∧
      (replica.channel = .suspended ∨ replica.channel = .detached ∨ replica.channel = .failed →
        replica.pending = none ∧ replica.buffered = []) ∧
      replica.fallback ≠ .syncing := by
  intro replica
  have coherent : replica.Coherent := coherent_after config history
  refine ⟨coherent.phase, ?_, ?_, coherent.fallback⟩
  · intro waiting
    apply Option.isSome_iff_ne_none.2
    intro idle
    exact waiting (coherent.buffered idle)
  · intro lost
    have unusable : replica.channel.isUsable = false := by
      rcases lost with state | state | state <;> rw [state] <;> rfl
    have idle : replica.pending = none := by
      apply Option.not_isSome_iff_eq_none.1
      intro waits
      have usable := coherent.usable waits
      rw [unusable] at usable
      cases usable
    exact ⟨idle, coherent.buffered idle⟩

/-! ## What is handed over -/

private theorem delivered_deliveries (messages : List Message) (now : Int) :
    (deliveries messages now).filterMap Move.delivered? = messages := by
  rw [deliveries, List.filterMap_map]
  exact List.filterMap_some

private theorem delivered_routeMoves (replica : Replica) (messages : List Message) (now : Int) :
    (replica.routeMoves messages now).filterMap Move.delivered? =
      if replica.appliesNow then messages else [] := by
  unfold routeMoves
  split
  case isTrue => exact delivered_deliveries messages now
  case isFalse => rfl

private theorem delivered_commitMoves (replica : Replica) (states : List ObjectState) (now : Int) :
    (replica.commitMoves states now).filterMap Move.delivered? = replica.buffered := by
  rw [commitMoves, List.filterMap_cons_none rfl, delivered_deliveries]

/-- A description that is complete releases what waited for it, and then come the operations
that it arrived with. -/
theorem delivered_of_completed (completed : replica.completed? input = some states) (now : Int) :
    (replica.moves input now).filterMap Move.delivered? =
      replica.buffered ++ if replica.channel.isUsable then input.operations else [] := by
  have alone (given : List ObjectState) : (replica.commitMoves given now).filterMap Move.delivered? =
      replica.buffered ++ if replica.channel.isUsable then [] else [] := by
    rw [delivered_commitMoves, ite_self, List.append_nil]
  cases input with
  | messages batch =>
    simp only [completed?] at completed
    split at completed
    case isTrue => cases completed
    case isFalse described =>
      have settled : { replica with pending := none }.appliesNow = replica.channel.isUsable := by
        simp only [appliesNow, Option.isSome_none, Bool.false_and, Bool.not_false, Bool.and_true]
      simp only [moves, if_neg described, List.filterMap_append, delivered_commitMoves,
        delivered_routeMoves, settled]
      rfl
  | page serial pageStates =>
    simp only [completed?] at completed
    split at completed
    case isFalse => cases completed
    case isTrue usable =>
      rw [← addPage_beginSync] at completed
      simp only [moves, usable, Bool.not_true, Bool.false_eq_true, ↓reduceIte, completed]
      rw [delivered_commitMoves]
      exact (List.append_nil _).symm
  | snapshot given => exact alone given
  | channel state =>
    cases state with
    | attached announced =>
      cases announced with
      | true => cases completed
      | false => exact alone []
    | initialized | attaching | suspended | detached | failed => cases completed
  | collect time => cases completed

private theorem delivered_of_open (notYet : replica.completed? input = none) (now : Int) :
    (replica.moves input now).filterMap Move.delivered? =
      if replica.appliesNow then input.operations else [] := by
  have nothing : (if replica.appliesNow then ([] : List Message) else []) = [] := ite_self _
  cases input with
  | messages batch =>
    simp only [completed?, ite_eq_left_iff, reduceCtorEq, imp_false, not_not] at notYet
    simp only [moves, notYet, ↓reduceIte]
    exact delivered_routeMoves replica _ now
  | page serial pageStates =>
    simp only [completed?] at notYet
    cases usable : replica.channel.isUsable with
    | false =>
      simp only [moves, usable, Bool.not_false, ↓reduceIte]
      exact nothing.symm
    | true =>
      rw [if_pos usable, ← addPage_beginSync] at notYet
      simp only [moves, usable, Bool.not_true, Bool.false_eq_true, ↓reduceIte, notYet]
      exact nothing.symm
  | snapshot given => cases notYet
  | channel state =>
    cases state with
    | attached announced =>
      cases announced with
      | true => exact nothing.symm
      | false => cases notYet
    | initialized | attaching | suspended | detached | failed => exact nothing.symm
  | collect time => exact nothing.symm

/-! ## What keeps waiting -/

theorem completed?_of_losesChannel (lost : input.losesChannel = true) (replica : Replica) :
    replica.completed? input = none := by
  cases input with
  | channel state =>
    cases state with
    | suspended | detached | failed => rfl
    | initialized | attaching | attached => cases lost
  | messages | page | snapshot | collect => cases lost

private theorem operations_of_losesChannel (lost : input.losesChannel = true) :
    input.operations = [] := by
  cases input with
  | channel state => rfl
  | messages | page | snapshot | collect => cases lost

private theorem buffered_of_completed (completed : replica.completed? input = some states) (now : Int) :
    (replica.step input now).2.buffered = [] := by
  obtain ⟨result, -, same⟩ := step_of_completed completed now
  obtain ⟨idle, nothing, -⟩ := adoptSnapshot_settles
    { replica with channel := input.channelAfter replica.channel } states now
  rw [same, routeAll_eq]
  simp only [nothing, holdsBack, idle, Option.isSome_none, Bool.false_and, Bool.and_false,
    Bool.false_eq_true, ↓reduceIte, List.append_nil]

/-- While no description is completed, the buffer grows by what is held back, unless the channel
is lost. -/
theorem buffered_of_open (notYet : replica.completed? input = none) (now : Int) :
    (replica.step input now).2.buffered =
      if input.losesChannel then []
      else replica.buffered ++ if replica.holdsBack then input.operations else [] := by
  have kept : replica.buffered = replica.buffered ++ if replica.holdsBack then [] else [] := by
    rw [ite_self, List.append_nil]
  have goes := goesOn_step notYet now
  generalize (replica.step input now).2 = next at goes
  cases goes with
  | routed plain =>
    rw [routeAll_eq]
    rfl
  | dropped lost => exact kept
  | gathered usable more => exact (beginSync_buffered replica).trans kept
  | expected => exact (beginSync_buffered replica).trans kept
  | unattached early => rcases early with rfl | rfl <;> exact kept
  | @abandoned state lost =>
    cases state with
    | suspended | detached | failed => rfl
    | initialized | attaching | attached => cases lost
  | collected => exact kept

/-- Without buffering nothing is ever put aside. -/
theorem buffered_of_unbuffered (config : Config) (off : config.bufferDuringSync = false)
    (history : List (Input × Int)) : ((Replica.new config).after history).buffered = [] := by
  induction history using List.reverseRecOn with
  | nil => rfl
  | append_singleton earlier entry ih =>
    have unheld : ((Replica.new config).after earlier).holdsBack = false := by
      simp only [holdsBack, after_config, new, off, Bool.and_false]
    rw [after_concat]
    cases completed : ((Replica.new config).after earlier).completed? entry.1 with
    | some states => exact buffered_of_completed completed entry.2
    | none =>
      rw [buffered_of_open completed, ih, unheld]
      exact ite_self _

/-- What waits is held back by a description that is awaited still. -/
theorem buffered_of_unheld (config : Config) (history : List (Input × Int))
    (unheld : ((Replica.new config).after history).holdsBack = false) :
    ((Replica.new config).after history).buffered = [] := by
  have coherent := coherent_after config history
  cases waits : ((Replica.new config).after history).pending with
  | none => exact coherent.buffered waits
  | some pending =>
    have awaited := Option.isSome_iff_exists.2 ⟨pending, waits⟩
    have same : ((Replica.new config).after history).config = config := after_config _ history
    apply buffered_of_unbuffered config
    simpa only [holdsBack, coherent.usable awaited, awaited, Bool.true_and, same] using unheld

/-! ## Accounts -/

/-- What an input makes of the operations that were received so far: those that come with it are
added if the channel is usable, and a channel that is lost strikes out the ones that wait. -/
def account (replica : Replica) (received : List Message) (input : Input) : List Message :=
  if input.losesChannel then received.rdrop replica.buffered.length
  else received ++ if replica.channel.isUsable then input.operations else []

/-- The operations received in a run while the channel was usable, in the order of their arrival,
without those that were lost with a channel. -/
def accountAfter (replica : Replica) (received : List Message) : List (Input × Int) → List Message
  | [] => received
  | entry :: rest => (replica.step entry.1 entry.2).2.accountAfter (replica.account received entry.1) rest

/-- Of four operations the first is applied at once, the second is lost while it waits, the third
comes too late, and the fourth waits still. -/
example :
    let write (id : String) : Input := .messages [{ id := some id }]
    let inputs := [write "1", .channel (.attached true), write "2", .channel .suspended, write "3",
      .channel (.attached true), write "4"]
    ((Replica.new {}).accountAfter [] (inputs.map fun input => (input, 0))).map Message.id =
      [some "1", some "4"] := by
  decide +kernel

private theorem movesAfter_concat (replica : Replica) (history : List (Input × Int))
    (entry : Input × Int) :
    replica.movesAfter (history ++ [entry]) =
      replica.movesAfter history ++ (replica.after history).moves entry.1 entry.2 := by
  rw [movesAfter_append, movesAfter, movesAfter, List.append_nil]

private theorem accountAfter_concat (replica : Replica) (received : List Message)
    (history : List (Input × Int)) (entry : Input × Int) :
    replica.accountAfter received (history ++ [entry]) =
      (replica.after history).account (replica.accountAfter received history) entry.1 := by
  induction history generalizing replica received with
  | nil => rfl
  | cons first rest ih => exact ih _ _

/-- Whatever the input, the books stay balanced. -/
theorem account_step (tidy : replica.holdsBack = false → replica.buffered = []) (handed : List Message)
    (input : Input) (now : Int) :
    handed ++ (replica.moves input now).filterMap Move.delivered? ++ (replica.step input now).2.buffered =
      replica.account (handed ++ replica.buffered) input := by
  unfold account
  cases completed : replica.completed? input with
  | some states =>
    have kept : input.losesChannel = false := by
      apply Bool.eq_false_iff.2
      intro lost
      rw [completed?_of_losesChannel lost] at completed
      cases completed
    rw [delivered_of_completed completed, buffered_of_completed completed, kept, List.append_nil,
      ← List.append_assoc]
    rfl
  | none =>
    rw [delivered_of_open completed, buffered_of_open completed]
    cases lost : input.losesChannel with
    | true =>
      rw [operations_of_losesChannel lost, ite_self, if_pos rfl, if_pos rfl, List.append_nil,
        List.append_nil, List.rdrop_append_length]
    | false =>
      simp only [Bool.false_eq_true, ↓reduceIte]
      cases held : replica.holdsBack with
      | true =>
        -- What is held back joins those that wait already.
        have ⟨usable, waits⟩ := Bool.and_eq_true_iff.1 held
        simp only [appliesNow, usable, waits, Bool.not_true, Bool.and_false, Bool.false_eq_true, ↓reduceIte,
          List.append_nil, List.append_assoc]
      | false =>
        -- Nothing waits, so nothing is overtaken by what is applied at once.
        have applies : replica.appliesNow = replica.channel.isUsable := by
          cases usable : replica.channel.isUsable with
          | false => simp only [appliesNow, usable, Bool.false_and]
          | true =>
            simp only [holdsBack, usable, Bool.true_and] at held
            simp only [appliesNow, usable, held, Bool.not_false, Bool.and_true]
        simp only [applies, tidy held, List.append_nil, Bool.false_eq_true, ↓reduceIte]

private theorem delivered_movesAfter (config : Config) (history : List (Input × Int)) :
    ((Replica.new config).movesAfter history).filterMap Move.delivered? ++
        ((Replica.new config).after history).buffered =
      (Replica.new config).accountAfter [] history := by
  induction history using List.reverseRecOn with
  | nil => rfl
  | append_singleton earlier entry ih =>
    rw [movesAfter_concat, after_concat, accountAfter_concat, List.filterMap_append,
      account_step (buffered_of_unheld config earlier), ih]

/-- While the channel is lost, no operation is handed over, and none is put aside. -/
theorem unusable_step (lost : replica.channel.isUsable = false) (nothing : replica.buffered = [])
    (input : Input) (now : Int) :
    (replica.moves input now).filterMap Move.delivered? = [] ∧ (replica.step input now).2.buffered = [] := by
  cases completed : replica.completed? input with
  | some states =>
    rw [delivered_of_completed completed, buffered_of_completed completed, nothing, lost]
    exact ⟨rfl, rfl⟩
  | none =>
    have waits : replica.appliesNow = false := by simp only [appliesNow, lost, Bool.false_and]
    have unheld : replica.holdsBack = false := by simp only [holdsBack, lost, Bool.false_and]
    rw [delivered_of_open completed, buffered_of_open completed, nothing, unheld, waits]
    exact ⟨rfl, ite_self _⟩

/-- Whatever happens to a participant, what was handed to the graph, followed by what waits, is
what was received while the channel was usable, in the order of arrival, apart from what was lost
with a channel. It is from what was handed over that the graph and the reports are made. What
arrives while the channel is lost is neither handed over nor put aside. -/
theorem operations_accounted_for (config : Config) (history : List (Input × Int)) :
    let start := Replica.new config
    let replica := start.after history
    (start.movesAfter history).filterMap Move.delivered? ++ replica.buffered =
        start.accountAfter [] history ∧
      replica.graph = (start.graph.moveAll (start.movesAfter history)).2 ∧
      (∀ input now,
        (replica.step input now).1.updates = (replica.graph.moveAll (replica.moves input now)).1) ∧
      (replica.channel.isUsable = false → ∀ input now,
        (replica.moves input now).filterMap Move.delivered? = [] ∧
          (replica.step input now).2.buffered = []) := by
  intro start replica
  refine ⟨delivered_movesAfter config history, (start.reactions_moves history).2, ?_, ?_⟩
  · exact fun input now => (step_moves replica input now).1
  · intro lost
    apply unusable_step lost
    apply buffered_of_unheld config history
    exact Bool.and_eq_false_iff.2 (.inl lost)

end Replica

end SharedGraph
