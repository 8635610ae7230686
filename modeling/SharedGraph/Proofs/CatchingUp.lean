import SharedGraph.Proofs.Pages

/-! How a participant catches up. An input completes a description or leaves the matter open,
and whichever way the description came, completing it is the same thing. What is pending, what
waits for it and the phase to go back to agree with each other after every run. -/
namespace SharedGraph

namespace Input

/-- The operations that an input brings along. -/
def operations : Input → List Message
  | .messages batch => batch.filter fun message => message.state.isNone
  | .page .. | .snapshot _ | .channel _ | .collect _ => []

/-- The channel after an input. -/
def channelAfter (known : ChannelState) : Input → ChannelState
  | .channel state => state
  | .messages _ | .page .. | .snapshot _ | .collect _ => known

end Input

namespace PendingSync

/-- What is there of a sequence, whatever is pending. -/
def gatheredOf (pending : Option PendingSync) (sequence : String) : List ObjectState :=
  (pending.getD fresh).statesOf sequence

variable {serial : PageSerial}

theorem addPage_of_cursor {cursor : String} (more : serial.cursor = some cursor)
    (pending : Option PendingSync) (states : List ObjectState) :
    addPage pending serial states =
      (none, some ⟨some serial.sequence, gatheredOf pending serial.sequence ++ states⟩) := by
  simp only [addPage, more, gatheredOf]

theorem addPage_of_last (last : serial.cursor = none) (pending : Option PendingSync)
    (states : List ObjectState) :
    addPage pending serial states = (some (gatheredOf pending serial.sequence ++ states), none) := by
  simp only [addPage, last, gatheredOf]

end PendingSync

namespace Replica

variable {replica : Replica} {input : Input} {states : List ObjectState}

/-- The description that an input completes, if it does. -/
def completed? (replica : Replica) : Input → Option (List ObjectState)
  | .messages batch =>
    let states := batch.filterMap Message.state
    if states.isEmpty then none else some states
  | .page serial states =>
    if replica.channel.isUsable then (PendingSync.addPage replica.pending (.ofText serial) states).1
    else none
  | .snapshot states => some states
  | .channel (.attached false) => some []
  | .channel _ | .collect _ => none

/-! ## Beginning -/

theorem beginSync_of_pending {pending : PendingSync} (waits : replica.pending = some pending) :
    replica.beginSync = ([], replica) := by
  simp only [beginSync, waits, PendingSync.start, Bool.false_eq_true, ↓reduceIte, Prod.mk.injEq, true_and]
  rw [← waits]

theorem beginSync_of_idle (idle : replica.pending = none) :
    replica.beginSync = ([.syncing], { replica with
      pending := some .fresh
      fallback := if replica.phase = .syncing then replica.fallback else replica.phase
      phase := .syncing }) := by
  simp only [beginSync, idle, PendingSync.start, ↓reduceIte]

theorem isSome_pending_beginSync (replica : Replica) : replica.beginSync.2.pending.isSome = true := by
  cases waits : replica.pending with
  | some pending => rw [beginSync_of_pending waits, waits, Option.isSome_some]
  | none => rw [beginSync_of_idle waits, Option.isSome_some]

/-- The channel plays no part in the beginning. -/
theorem beginSync_announced (replica : Replica) (state : ChannelState) :
    { replica with channel := state }.beginSync =
      (replica.beginSync.1, { replica.beginSync.2 with channel := state }) := by
  unfold beginSync PendingSync.start
  cases replica.pending <;> rfl

/-- Gathering starts from nothing, so it does not matter whether it has begun already. -/
theorem gatheredOf_beginSync (replica : Replica) (sequence : String) :
    PendingSync.gatheredOf replica.beginSync.2.pending sequence =
      PendingSync.gatheredOf replica.pending sequence := by
  cases waits : replica.pending with
  | some pending => rw [beginSync_of_pending waits, waits]
  | none =>
    rw [beginSync_of_idle waits]
    rfl

theorem addPage_beginSync (replica : Replica) (serial : PageSerial) (states : List ObjectState) :
    PendingSync.addPage replica.beginSync.2.pending serial states =
      PendingSync.addPage replica.pending serial states := by
  have same := replica.gatheredOf_beginSync serial.sequence
  unfold PendingSync.gatheredOf at same
  simp only [PendingSync.addPage, same]

/-! ## Completing -/

theorem commit_of_ok {now : Int} {updates : List Update} {graph : Graph}
    (applied : replica.graph.applySnapshot states now = .ok (updates, graph)) :
    replica.commit states now =
      ({ updates := updates ++ (graph.moveAll (deliveries replica.buffered now)).1, events := [.synced] },
        { replica with
          graph := (graph.moveAll (deliveries replica.buffered now)).2
          phase := .synced
          pending := none
          buffered := [] }) := by
  simp only [commit, applied, applyAll_eq]

theorem commit_of_error {now : Int} {fault : Fault}
    (refused : replica.graph.applySnapshot states now = .error fault) :
    replica.commit states now =
      ({ updates := (replica.graph.moveAll (deliveries replica.buffered now)).1
         events := [.failed (.malformedSync fault)]
         result := .error (.malformedSync fault) },
        { replica with
          graph := (replica.graph.moveAll (deliveries replica.buffered now)).2
          phase := replica.fallback
          pending := none
          buffered := [] }) := by
  simp only [commit, refused, applyAll_eq]

/-- Whoever awaits a description need not begin. -/
theorem adoptSnapshot_of_pending {pending : PendingSync} (waits : replica.pending = some pending)
    (states : List ObjectState) (now : Int) : replica.adoptSnapshot states now = replica.commit states now := by
  simp only [adoptSnapshot, beginSync_of_pending waits]
  rfl

/-- A page that completes a description puts it in place as if it had come in one piece. -/
theorem step_of_completing_page {serial : String} {gathered : List ObjectState}
    (completed : replica.completed? (.page serial states) = some gathered) (now : Int) :
    replica.step (.page serial states) now = replica.adoptSnapshot gathered now := by
  simp only [completed?] at completed
  split at completed
  case isFalse => cases completed
  case isTrue usable =>
    rw [← addPage_beginSync] at completed
    simp only [step, handlePage, usable, Bool.not_true, Bool.false_eq_true, ↓reduceIte, completed]
    rfl

/-- The last page of a sequence completes what is there of it. -/
theorem completed?_of_last (usable : replica.channel.isUsable = true) {serial : String}
    (last : (PageSerial.ofText serial).cursor = none) (states : List ObjectState) :
    replica.completed? (.page serial states) =
      some (PendingSync.gatheredOf replica.pending (PageSerial.ofText serial).sequence ++ states) := by
  simp only [completed?, usable, ↓reduceIte, PendingSync.addPage_of_last last]

theorem step_of_last_page (usable : replica.channel.isUsable = true) {sequence : String}
    (uncut : ':' ∉ sequence.toList) (states : List ObjectState) (now : Int) :
    replica.step (.page (PageSerial.toText ⟨sequence, none⟩) states) now =
      replica.adoptSnapshot (PendingSync.gatheredOf replica.pending sequence ++ states) now := by
  have read : PageSerial.ofText (PageSerial.toText ⟨sequence, none⟩) = ⟨sequence, none⟩ :=
    PageSerial.ofText_toText uncut nofun
  have completed := completed?_of_last usable (congrArg PageSerial.cursor read) states
  rw [read] at completed
  exact step_of_completing_page completed now

/-- Whichever way a description comes, it is put in place, and then the operations are routed
that came with it. -/
theorem step_of_completed (completed : replica.completed? input = some states) (now : Int) :
    let adopted := { replica with channel := input.channelAfter replica.channel }.adoptSnapshot states now
    let routed := adopted.2.routeAll input.operations now
    ∃ result, (result = adopted.1.result ∨ states = []) ∧
      replica.step input now = (⟨adopted.1.updates ++ routed.1, adopted.1.events, result⟩, routed.2) := by
  have alone (adopted : Reaction × Replica) :
      (⟨adopted.1.updates ++ (adopted.2.routeAll [] now).1, adopted.1.events, adopted.1.result⟩,
        (adopted.2.routeAll [] now).2) = adopted := by
    simp only [routeAll, List.foldl_nil, List.append_nil]
  cases input with
  | messages batch =>
    simp only [completed?] at completed
    split at completed
    case isTrue => cases completed
    case isFalse some =>
      cases completed
      refine ⟨_, .inl rfl, ?_⟩
      simp only [step, handleMessages, if_neg some]
      rfl
  | page serial pageStates =>
    refine ⟨_, .inl rfl, ?_⟩
    rw [step_of_completing_page completed]
    exact (alone _).symm
  | snapshot given =>
    cases completed
    exact ⟨_, .inl rfl, (alone _).symm⟩
  | channel state =>
    cases state with
    | attached announced =>
      cases announced with
      | true => cases completed
      | false =>
        cases completed
        refine ⟨.ok (), .inr rfl, ?_⟩
        simp only [step, handleChannel, Input.operations, routeAll, List.foldl_nil, List.append_nil]
        rfl
    | initialized | attaching | suspended | detached | failed => cases completed
  | collect time => cases completed

/-! ## Routing -/

/-- Whether the operations of a batch wait for a description. -/
def holdsBack (replica : Replica) : Bool :=
  replica.channel.isUsable && (replica.pending.isSome && replica.config.bufferDuringSync)

/-- The operations of a batch are applied, or put aside, or dropped, all of them alike. -/
theorem routeAll_eq (replica : Replica) (messages : List Message) (now : Int) :
    replica.routeAll messages now =
      ((replica.graph.moveAll (replica.routeMoves messages now)).1,
        { replica with
          graph := (replica.graph.moveAll (replica.routeMoves messages now)).2
          buffered := replica.buffered ++ if replica.holdsBack then messages else [] }) := by
  by_cases applies : replica.appliesNow = true
  · have kept : replica.holdsBack = false := by
      simp only [appliesNow, Bool.and_eq_true, Bool.not_eq_true'] at applies
      simp only [holdsBack, applies.2, Bool.and_false]
    simp only [routeAll_of_appliesNow applies, applyAll_eq, routeMoves, applies, kept, ↓reduceIte,
      Bool.false_eq_true, List.append_nil]
  · rw [routeMoves, if_neg applies]
    simp only [Graph.moveAll]
    induction messages generalizing replica with
    | nil => simp only [routeAll, List.foldl_nil, ite_self, List.append_nil]
    | cons message rest ih =>
      rw [routeAll_cons]
      cases usable : replica.channel.isUsable with
      | false =>
        have dropped : replica.route message now = ([], replica) := by
          simp only [route, usable, Bool.not_false, ↓reduceIte]
        simp only [dropped, ih replica applies, holdsBack, usable, Bool.false_and, Bool.false_eq_true,
          ↓reduceIte, List.append_nil]
      | true =>
        have waits : (replica.pending.isSome && replica.config.bufferDuringSync) = true := by
          simpa only [appliesNow, usable, Bool.true_and, Bool.not_eq_true, Bool.not_eq_false'] using applies
        have aside : replica.route message now =
            ([], { replica with buffered := replica.buffered ++ [message] }) := by
          simp only [route, usable, waits, Bool.not_true, Bool.false_eq_true, ↓reduceIte]
        have later := ih { replica with buffered := replica.buffered ++ [message] } applies
        simp only [holdsBack, usable, waits, Bool.and_self, ↓reduceIte, List.append_assoc,
          List.singleton_append] at later
        simp only [aside, later, holdsBack, usable, waits, Bool.and_self, ↓reduceIte, List.nil_append]

theorem step_of_operations {batch : List Message} (plain : batch.filterMap Message.state = []) (now : Int) :
    (replica.step (.messages batch) now).2 = (replica.routeAll (Input.messages batch).operations now).2 := by
  simp only [step, handleMessages, plain, List.isEmpty_nil, ↓reduceIte]
  rfl

/-! ## Going on -/

theorem step_of_unusable (lost : replica.channel.isUsable = false) (serial : String)
    (states : List ObjectState) (now : Int) : replica.step (.page serial states) now = ({}, replica) := by
  simp only [step, handlePage, lost, Bool.not_false, ↓reduceIte]

/-- A page that others follow is put aside. -/
theorem step_of_open_page (usable : replica.channel.isUsable = true) {serial cursor : String}
    (more : (PageSerial.ofText serial).cursor = some cursor) (states : List ObjectState) (now : Int) :
    replica.step (.page serial states) now = ({ events := replica.beginSync.1 }, { replica.beginSync.2 with
      pending := some ⟨some (PageSerial.ofText serial).sequence,
        PendingSync.gatheredOf replica.pending (PageSerial.ofText serial).sequence ++ states⟩ }) := by
  have added := addPage_beginSync replica (.ofText serial) states
  rw [PendingSync.addPage_of_cursor more replica.pending] at added
  simp only [step, handlePage, usable, Bool.not_true, Bool.false_eq_true, ↓reduceIte, added]

/-- The ways to go on while no description is completed. -/
inductive GoesOn (replica : Replica) (now : Int) : Input → Replica → Prop
  | routed {batch : List Message} (plain : batch.filterMap Message.state = []) :
    GoesOn replica now (.messages batch) (replica.routeAll (Input.messages batch).operations now).2
  | dropped {serial : String} {states : List ObjectState} (lost : replica.channel.isUsable = false) :
    GoesOn replica now (.page serial states) replica
  | gathered {serial cursor : String} {states : List ObjectState} (usable : replica.channel.isUsable = true)
    (more : (PageSerial.ofText serial).cursor = some cursor) :
    GoesOn replica now (.page serial states) { replica.beginSync.2 with
      pending := some ⟨some (PageSerial.ofText serial).sequence,
        PendingSync.gatheredOf replica.pending (PageSerial.ofText serial).sequence ++ states⟩ }
  | expected :
    GoesOn replica now (.channel (.attached true)) { replica.beginSync.2 with channel := .attached true }
  | unattached {state : ChannelState} (early : state = .initialized ∨ state = .attaching) :
    GoesOn replica now (.channel state) { replica with channel := state }
  | abandoned {state : ChannelState} (lost : state.isUsable = false) :
    GoesOn replica now (.channel state) { replica with channel := state }.abandon
  | collected {time : Int} : GoesOn replica now (.collect time) (replica.collectGarbage time).2

/-- An input either completes a description or is one of these. -/
theorem goesOn_step (notYet : replica.completed? input = none) (now : Int) :
    replica.GoesOn now input (replica.step input now).2 := by
  cases input with
  | messages batch =>
    simp only [completed?, ite_eq_left_iff, reduceCtorEq, imp_false, not_not, List.isEmpty_iff] at notYet
    rw [step_of_operations notYet]
    exact .routed notYet
  | page serial states =>
    cases usable : replica.channel.isUsable with
    | false =>
      rw [step_of_unusable usable]
      exact .dropped usable
    | true =>
      cases more : (PageSerial.ofText serial).cursor with
      | none =>
        rw [completed?_of_last usable more] at notYet
        cases notYet
      | some cursor =>
        rw [step_of_open_page usable more]
        exact .gathered usable more
  | snapshot states => cases notYet
  | channel state =>
    cases state with
    | attached announced =>
      cases announced with
      | true =>
        have begun : (replica.step (.channel (.attached true)) now).2 =
            { replica.beginSync.2 with channel := .attached true } :=
          congrArg Prod.snd (replica.beginSync_announced (.attached true))
        rw [begun]
        exact .expected
      | false => cases notYet
    | initialized => exact .unattached (.inl rfl)
    | attaching => exact .unattached (.inr rfl)
    | suspended | detached | failed => exact .abandoned rfl
  | collect time => exact .collected

private theorem step_config (replica : Replica) (input : Input) (now : Int) :
    (replica.step input now).2.config = replica.config := by
  cases completed : replica.completed? input with
  | some states =>
    obtain ⟨result, -, same⟩ := step_of_completed completed now
    rw [same, routeAll_eq]
    exact (adoptSnapshot_moves _ states now).2.2.2.1
  | none =>
    have goes := goesOn_step completed now
    generalize (replica.step input now).2 = next at goes
    cases goes with
    | routed plain => rw [routeAll_eq]
    | gathered usable more => exact replica.beginSync_config
    | expected => exact replica.beginSync_config
    | dropped | unattached | abandoned | collected => rfl

theorem after_concat (replica : Replica) (inputs : List (Input × Int)) (entry : Input × Int) :
    replica.after (inputs ++ [entry]) = ((replica.after inputs).step entry.1 entry.2).2 := by
  rw [after, List.foldl_append]
  rfl

theorem after_config (replica : Replica) (inputs : List (Input × Int)) :
    (replica.after inputs).config = replica.config := by
  induction inputs generalizing replica with
  | nil => rfl
  | cons entry rest ih => exact (ih _).trans (replica.step_config entry.1 entry.2)

/-- What is pending, what waits for it, and the phase to go back to agree with each other. -/
structure Coherent (replica : Replica) : Prop where
  phase : replica.phase = .syncing ↔ replica.pending.isSome = true
  fallback : replica.fallback ≠ .syncing
  usable : replica.pending.isSome = true → replica.channel.isUsable = true
  buffered : replica.pending = none → replica.buffered = []
  unnamed : ∀ pending, replica.pending = some pending → pending.sequence = none → pending.states = []

private theorem coherent_new (config : Config) : (Replica.new config).Coherent where
  phase := ⟨nofun, nofun⟩
  fallback := nofun
  usable := nofun
  buffered _ := rfl
  unnamed := nofun

/-- Nothing is there of a sequence that is not the pending one. -/
theorem Coherent.gatheredOf_of_other (coherent : replica.Coherent) {sequence : String}
    (other : ∀ pending, replica.pending = some pending → pending.sequence ≠ some sequence) :
    PendingSync.gatheredOf replica.pending sequence = [] := by
  cases waits : replica.pending with
  | none => rfl
  | some pending =>
    simp only [PendingSync.gatheredOf, Option.getD_some, PendingSync.statesOf]
    cases named : pending.sequence with
    | none => exact coherent.unnamed pending waits named
    | some known => exact if_neg fun same => other pending waits (named.trans (congrArg some same))

private theorem fallback_beginSync (settled : replica.fallback ≠ .syncing) :
    replica.beginSync.2.fallback ≠ .syncing := by
  cases waits : replica.pending with
  | some pending =>
    rw [beginSync_of_pending waits]
    exact settled
  | none =>
    rw [beginSync_of_idle waits]
    simp only
    split
    case isTrue => exact settled
    case isFalse other => exact other

theorem Coherent.beginSync (coherent : replica.Coherent) (usable : replica.channel.isUsable = true) :
    replica.beginSync.2.Coherent := by
  have fallback := fallback_beginSync coherent.fallback
  cases waits : replica.pending with
  | some pending =>
    rw [beginSync_of_pending waits]
    exact coherent
  | none =>
    rw [beginSync_of_idle waits] at fallback ⊢
    refine ⟨⟨fun _ => rfl, fun _ => rfl⟩, fallback, fun _ => usable, nofun, ?_⟩
    intro pending new unnamed
    cases new
    rfl

/-- The channel may change while a description is awaited, unless it is lost. -/
theorem Coherent.announce (coherent : replica.Coherent) {state : ChannelState}
    (usable : state.isUsable = true) : { replica with channel := state }.Coherent :=
  ⟨coherent.phase, coherent.fallback, fun _ => usable, coherent.buffered, coherent.unnamed⟩

/-- A description that was completed leaves nothing pending behind. -/
theorem adoptSnapshot_settles (replica : Replica) (states : List ObjectState) (now : Int) :
    let next := (replica.adoptSnapshot states now).2
    next.pending = none ∧ next.buffered = [] ∧ next.fallback = replica.beginSync.2.fallback ∧
      (next.phase = .synced ∨ next.phase = replica.beginSync.2.fallback) := by
  simp only [adoptSnapshot]
  cases applied : replica.beginSync.2.graph.applySnapshot states now with
  | ok result =>
    rw [commit_of_ok applied]
    exact ⟨rfl, rfl, rfl, .inl rfl⟩
  | error fault =>
    rw [commit_of_error applied]
    exact ⟨rfl, rfl, rfl, .inr rfl⟩

private theorem Coherent.of_idle (idle : replica.pending = none) (nothing : replica.buffered = [])
    (fallback : replica.fallback ≠ .syncing) (phase : replica.phase ≠ .syncing) : replica.Coherent where
  phase := by simp only [phase, idle, Option.isSome_none, Bool.false_eq_true]
  fallback := fallback
  usable := by simp only [idle, Option.isSome_none, Bool.false_eq_true, false_implies]
  buffered _ := nothing
  unnamed := by simp only [idle, reduceCtorEq, false_implies, implies_true]

theorem Coherent.routeAll (coherent : replica.Coherent) (messages : List Message) (now : Int) :
    (replica.routeAll messages now).2.Coherent := by
  rw [routeAll_eq]
  refine ⟨coherent.phase, coherent.fallback, coherent.usable, fun idle => ?_, coherent.unnamed⟩
  have idle : replica.pending = none := idle
  simp only [coherent.buffered idle, holdsBack, idle, Option.isSome_none, Bool.false_and, Bool.and_false,
    Bool.false_eq_true, ↓reduceIte, List.append_nil]

theorem Coherent.step (coherent : replica.Coherent) (input : Input) (now : Int) :
    (replica.step input now).2.Coherent := by
  cases completed : replica.completed? input with
  | some states =>
    obtain ⟨result, -, same⟩ := step_of_completed completed now
    obtain ⟨idle, nothing, fallback, phase⟩ := adoptSnapshot_settles
      { replica with channel := input.channelAfter replica.channel } states now
    have settled : { replica with channel := input.channelAfter replica.channel }.beginSync.2.fallback ≠
        .syncing := fallback_beginSync coherent.fallback
    rw [same]
    refine Coherent.routeAll (.of_idle idle nothing (fallback ▸ settled) ?_) input.operations now
    rcases phase with synced | fallen
    · rw [synced]
      exact SyncPhase.noConfusion
    · rw [fallen]
      exact settled
  | none =>
    have goes := goesOn_step completed now
    generalize (replica.step input now).2 = next at goes
    cases goes with
    | routed plain => exact coherent.routeAll _ now
    | dropped lost => exact coherent
    | gathered usable more =>
      have begun := coherent.beginSync usable
      have phase : replica.beginSync.2.phase = .syncing := begun.phase.2 replica.isSome_pending_beginSync
      refine ⟨⟨fun _ => rfl, fun _ => phase⟩, begun.fallback, fun _ => ?_, nofun, ?_⟩
      · exact (congrArg ChannelState.isUsable replica.beginSync_channel).trans usable
      · intro pending new unnamed
        cases new
        cases unnamed
    | expected =>
      have begun : { replica with channel := .attached true }.beginSync.2.Coherent :=
        (coherent.announce rfl).beginSync rfl
      rw [beginSync_announced] at begun
      exact begun
    | unattached early =>
      refine coherent.announce ?_
      rcases early with rfl | rfl <;> rfl
    | abandoned lost =>
      refine .of_idle rfl rfl coherent.fallback ?_
      simp only [abandon]
      split
      case isTrue => exact coherent.fallback
      case isFalse idle => exact fun syncing => idle (coherent.phase.1 syncing)
    | collected =>
      exact ⟨coherent.phase, coherent.fallback, coherent.usable, coherent.buffered, coherent.unnamed⟩

theorem pending_of_completed (completed : replica.completed? input = some states) (now : Int) :
    (replica.step input now).2.pending = none := by
  obtain ⟨result, -, same⟩ := step_of_completed completed now
  rw [same, routeAll_eq]
  exact (adoptSnapshot_settles { replica with channel := input.channelAfter replica.channel } states now).1

/-- While a description is awaited, the phase to go back to stays, and operations wait if they
are meant to. -/
theorem Coherent.step_of_pending (coherent : replica.Coherent) {now : Int}
    (still : (replica.step input now).2.pending ≠ none) :
    let next := (replica.step input now).2
    next.fallback = replica.beginSync.2.fallback ∧
      next.buffered = replica.buffered ++
        if replica.config.bufferDuringSync then input.operations else [] := by
  have kept (waits : replica.pending ≠ none) : replica.beginSync.2.fallback = replica.fallback := by
    obtain ⟨pending, same⟩ := Option.ne_none_iff_exists'.1 waits
    rw [beginSync_of_pending same]
  cases completed : replica.completed? input with
  | some states => exact absurd (pending_of_completed completed now) still
  | none =>
    have nothing (operations : List Message) (silent : operations = []) : replica.buffered =
        replica.buffered ++ if replica.config.bufferDuringSync then operations else [] := by
      rw [silent, ite_self, List.append_nil]
    have goes := goesOn_step completed now
    generalize (replica.step input now).2 = next at goes still
    cases goes with
    | routed plain =>
      rw [routeAll_eq] at still ⊢
      have waits : replica.pending ≠ none := still
      have usable := coherent.usable (Option.isSome_iff_ne_none.2 waits)
      refine ⟨(kept waits).symm, ?_⟩
      simp only [holdsBack, usable, Option.isSome_iff_ne_none.2 waits, Bool.true_and]
    | dropped lost => exact ⟨(kept still).symm, nothing _ rfl⟩
    | gathered usable more => exact ⟨rfl, replica.beginSync_buffered.trans (nothing _ rfl)⟩
    | expected => exact ⟨rfl, replica.beginSync_buffered.trans (nothing _ rfl)⟩
    | unattached early => exact ⟨(kept still).symm, nothing _ rfl⟩
    | abandoned lost => exact absurd rfl still
    | collected => exact ⟨(kept still).symm, nothing _ rfl⟩

theorem Coherent.after (coherent : replica.Coherent) (history : List (Input × Int)) :
    (replica.after history).Coherent := by
  induction history generalizing replica with
  | nil => exact coherent
  | cons entry rest ih => exact ih (coherent.step entry.1 entry.2)

/-- Whatever happens to a participant, its records of catching up agree. -/
theorem coherent_after (config : Config) (history : List (Input × Int)) :
    ((Replica.new config).after history).Coherent :=
  (coherent_new config).after history

end Replica

end SharedGraph
