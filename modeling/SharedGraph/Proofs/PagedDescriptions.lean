import SharedGraph.Proofs.CatchingUp
import SharedGraph.Proofs.Listings

/-! However a description comes, it is the same description. Whether it comes as such, as the one
page of a sequence or as the states of a batch makes no difference. If it comes in several pages,
with operations between them, that is as good as one piece before the operations: they wait and
are applied right after the last page. -/
namespace SharedGraph

/-- Inputs that all come at one time. -/
def Input.allAt (now : Int) (inputs : List Input) : List (Input × Int) := inputs.map fun input => (input, now)

private theorem Input.allAt_cons (now : Int) (input : Input) (rest : List Input) :
    Input.allAt now (input :: rest) = (input, now) :: Input.allAt now rest := rfl

private theorem Input.allAt_append (now : Int) (inputs more : List Input) :
    Input.allAt now (inputs ++ more) = Input.allAt now inputs ++ Input.allAt now more := List.map_append

/-- A page that others follow, and the batches that come before the next page. -/
structure Part where
  cursor : String
  states : List ObjectState
  batches : List (List Message)

/-- A part of a sequence as it is sent. -/
def Part.inputs (sequence : String) (part : Part) : List Input :=
  .page (PageSerial.toText ⟨sequence, some part.cursor⟩) part.states :: part.batches.map .messages

namespace Replica

variable {replica : Replica}

/-- A batch of states is the description that they form. -/
theorem step_of_states {states : List ObjectState} {batch : List Message}
    (given : batch.map Message.state = states.map some) (now : Int) :
    replica.step (.messages batch) now =
      if states = [] then ({}, replica) else replica.adoptSnapshot states now := by
  have described : batch.filterMap Message.state = states :=
    calc
      _ = (batch.map Message.state).filterMap id := List.filterMap_map.symm
      _ = (states.map some).filterMap id := by rw [given]
      _ = states := List.filterMap_map.trans List.filterMap_some
  have plain : batch.filter (fun message => message.state.isNone) = [] := by
    refine List.filter_eq_nil_iff.2 fun message member => ?_
    have known : message.state ∈ states.map some := given ▸ List.mem_map_of_mem member
    obtain ⟨state, -, same⟩ := List.mem_map.1 known
    rw [← same]
    exact Bool.false_ne_true
  simp only [step, handleMessages, described, plain, routeAll, List.foldl_nil, List.isEmpty_iff, List.append_nil]

private theorem routeAll_append (replica : Replica) (messages more : List Message) (now : Int) :
    replica.routeAll (messages ++ more) now =
      ((replica.routeAll messages now).1 ++ ((replica.routeAll messages now).2.routeAll more now).1,
        ((replica.routeAll messages now).2.routeAll more now).2) := by
  induction messages generalizing replica with
  | nil => rfl
  | cons message rest ih => simp only [List.cons_append, routeAll_cons, ih, List.append_assoc]

private theorem routeMoves_append (replica : Replica) (messages more : List Message) (now : Int) :
    replica.routeMoves (messages ++ more) now =
      replica.routeMoves messages now ++ (replica.routeAll messages now).2.routeMoves more now := by
  unfold routeMoves
  rw [appliesNow_routeAll]
  split
  · exact List.map_append
  · rfl

/-- How operations are cut into batches does not matter. -/
theorem run_batches (replica : Replica) {batches : List (List Message)}
    (plain : ∀ batch ∈ batches, ∀ message ∈ batch, message.state = none) (now : Int) :
    let inputs := Input.allAt now (batches.map .messages)
    replica.movesAfter inputs = replica.routeMoves batches.flatten now ∧
      (replica.reactions inputs).flatMap Reaction.events = [] ∧
      replica.after inputs = (replica.routeAll batches.flatten now).2 := by
  induction batches generalizing replica with
  | nil => exact ⟨(ite_self _).symm, rfl, rfl⟩
  | cons batch rest ih =>
    obtain ⟨plainFirst, plainRest⟩ := List.forall_mem_cons.1 plain
    obtain ⟨moves, events, last⟩ := ih (replica.routeAll batch now).2 plainRest
    simp only [List.map_cons, Input.allAt_cons, movesAfter, reactions, after_cons, List.flatMap_cons,
      step_of_plain replica plainFirst, moves_of_plain plainFirst, moves, events, last, List.flatten_cons,
      routeMoves_append, routeAll_append, List.append_nil, and_self]

/-- While a description is awaited, batches are put aside without a word. -/
theorem run_of_holdsBack (waits : replica.holdsBack = true) {batches : List (List Message)}
    (plain : ∀ batch ∈ batches, ∀ message ∈ batch, message.state = none) (now : Int) :
    let inputs := Input.allAt now (batches.map .messages)
    replica.movesAfter inputs = [] ∧ (replica.reactions inputs).flatMap Reaction.events = [] ∧
      replica.after inputs = { replica with buffered := replica.buffered ++ batches.flatten } := by
  have later : replica.appliesNow = false := by
    simp only [holdsBack, Bool.and_eq_true] at waits
    simp only [appliesNow, waits.1, waits.2, Bool.and_self, Bool.not_true, Bool.and_false]
  obtain ⟨moves, events, last⟩ := replica.run_batches plain now
  have nothing : replica.routeMoves batches.flatten now = [] := by
    simp only [routeMoves, later, Bool.false_eq_true, ↓reduceIte]
  rw [nothing] at moves
  rw [routeAll_eq, nothing, if_pos waits] at last
  exact ⟨moves, events, last⟩

/-- Whoever has put a description in place applies operations at once. -/
theorem appliesNow_commit (usable : replica.channel.isUsable = true) (states : List ObjectState) (now : Int) :
    (replica.commit states now).2.appliesNow = true := by
  obtain ⟨-, -, channel, -, pending⟩ := replica.commit_moves states now
  simp only [appliesNow, channel, usable, pending, Option.isSome_none, Bool.false_and, Bool.not_false,
    Bool.and_self]

/-- Operations may as well wait for the description that is put in place. -/
theorem commit_with_operations (usable : replica.channel.isUsable = true) (pending : Option PendingSync)
    (operations : List Message) (states : List ObjectState) (now : Int) :
    let committed := replica.commit states now
    let routed := committed.2.routeAll operations now
    { replica with pending, buffered := replica.buffered ++ operations }.commit states now =
      ({ committed.1 with updates := committed.1.updates ++ routed.1 }, routed.2) := by
  intro committed routed
  have applies : committed.2.appliesNow = true := appliesNow_commit usable states now
  simp only [routed, routeAll_of_appliesNow applies, applyAll_eq, committed]
  cases applied : replica.graph.applySnapshot states now with
  | ok result =>
    have appliedLater : { replica with pending, buffered := replica.buffered ++ operations }.graph.applySnapshot
        states now = .ok result := applied
    rw [commit_of_ok applied, commit_of_ok appliedLater]
    simp only [deliveries, List.map_append, Graph.moveAll_append, List.append_assoc]
  | error fault =>
    have appliedLater : { replica with pending, buffered := replica.buffered ++ operations }.graph.applySnapshot
        states now = .error fault := applied
    rw [commit_of_error applied, commit_of_error appliedLater]
    simp only [deliveries, List.map_append, Graph.moveAll_append]

/-- A participant that put operations off, and has told some events already. Whatever description
it puts in place next, it gets to where another one gets that takes the description and then the
operations. -/
structure PutsOff (waiting replica : Replica) (told : List SyncEvent) (operations : List Message)
    (now : Int) : Prop where
  buffered : waiting.buffered = replica.buffered ++ operations
  updates : ∀ states, (waiting.adoptSnapshot states now).1.updates =
    (replica.adoptSnapshot states now).1.updates ++
      ((replica.adoptSnapshot states now).2.routeAll operations now).1
  events : ∀ states, told ++ (waiting.adoptSnapshot states now).1.events =
    (replica.adoptSnapshot states now).1.events
  result : ∀ states, (waiting.adoptSnapshot states now).1.result =
    (replica.adoptSnapshot states now).1.result
  final : ∀ states, (waiting.adoptSnapshot states now).2 =
    ((replica.adoptSnapshot states now).2.routeAll operations now).2

theorem PutsOff.refl (replica : Replica) (now : Int) : replica.PutsOff replica [] [] now where
  buffered := (List.append_nil _).symm
  updates _ := (List.append_nil _).symm
  events _ := rfl
  result _ := rfl
  final _ := rfl

theorem PutsOff.trans {waiting between replica : Replica} {told toldLater : List SyncEvent}
    {operations more : List Message} {now : Int} (later : waiting.PutsOff between toldLater more now)
    (first : between.PutsOff replica told operations now) :
    waiting.PutsOff replica (told ++ toldLater) (operations ++ more) now where
  buffered := by rw [later.buffered, first.buffered, List.append_assoc]
  updates states := by
    rw [later.updates, first.updates, first.final, routeAll_append, List.append_assoc]
  events states := by rw [List.append_assoc, later.events, first.events]
  result states := (later.result states).trans (first.result states)
  final states := by rw [later.final, first.final, routeAll_append]

/-- What is put off comes after the description and what waited for it before. -/
theorem PutsOff.commitMoves_eq {waiting : Replica} {told : List SyncEvent} {operations : List Message}
    {now : Int} (putsOff : waiting.PutsOff replica told operations now) (states : List ObjectState) :
    waiting.commitMoves states now = replica.commitMoves states now ++ deliveries operations now := by
  rw [commitMoves, commitMoves, putsOff.buffered, deliveries, List.map_append]
  rfl

/-- The participant when a part of a sequence was put aside. -/
def putAside (replica : Replica) (sequence : String) (part : Part) : Replica :=
  { replica.beginSync.2 with
    pending := some ⟨some sequence, PendingSync.gatheredOf replica.pending sequence ++ part.states⟩
    buffered := replica.beginSync.2.buffered ++ part.batches.flatten }

theorem putsOff_putAside (usable : replica.channel.isUsable = true) (sequence : String) (part : Part)
    (now : Int) :
    (replica.putAside sequence part).PutsOff replica replica.beginSync.1 part.batches.flatten now := by
  have usableBegun : replica.beginSync.2.channel.isUsable = true := by rw [beginSync_channel, usable]
  have put (states : List ObjectState) : (replica.putAside sequence part).adoptSnapshot states now =
      (replica.putAside sequence part).commit states now :=
    adoptSnapshot_of_pending rfl states now
  have committed (states : List ObjectState) := commit_with_operations usableBegun
    (some ⟨some sequence, PendingSync.gatheredOf replica.pending sequence ++ part.states⟩)
    part.batches.flatten states now
  constructor
  case buffered => rw [putAside, beginSync_buffered]
  all_goals
    intro states
    rw [put, putAside, committed]
    rfl

variable {sequence : String}

/-- A page that others follow and the operations after it are put aside, and nothing is told but
that catching up begins. -/
theorem run_part (usable : replica.channel.isUsable = true)
    (buffers : replica.config.bufferDuringSync = true) (uncut : ':' ∉ sequence.toList) {part : Part}
    (more : part.cursor ≠ "") (plain : ∀ batch ∈ part.batches, ∀ message ∈ batch, message.state = none)
    (now : Int) :
    let inputs := Input.allAt now (part.inputs sequence)
    replica.movesAfter inputs = [] ∧
      (replica.reactions inputs).flatMap Reaction.events = replica.beginSync.1 ∧
      replica.after inputs = replica.putAside sequence part := by
  have read : PageSerial.ofText (PageSerial.toText ⟨sequence, some part.cursor⟩) =
      ⟨sequence, some part.cursor⟩ :=
    PageSerial.ofText_toText uncut fun empty => more (Option.some.inj empty)
  have opened := step_of_open_page usable (congrArg PageSerial.cursor read) part.states now
  rw [read] at opened
  have idle :
      replica.moves (.page (PageSerial.toText ⟨sequence, some part.cursor⟩) part.states) now = [] := by
    have added := addPage_beginSync replica ⟨sequence, some part.cursor⟩ part.states
    rw [PendingSync.addPage_of_cursor rfl replica.pending] at added
    simp only [moves, usable, Bool.not_true, Bool.false_eq_true, ↓reduceIte, read, added]
  have waits : (replica.step (.page (PageSerial.toText ⟨sequence, some part.cursor⟩) part.states)
      now).2.holdsBack = true := by
    simp only [opened, holdsBack, beginSync_channel, beginSync_config, usable, buffers, Option.isSome_some,
      Bool.and_self]
  obtain ⟨silent, quiet, aside⟩ := run_of_holdsBack waits plain now
  simp only [Part.inputs, Input.allAt_cons, movesAfter, reactions, after_cons, List.flatMap_cons, idle,
    silent, quiet, aside]
  rw [opened]
  exact ⟨rfl, List.append_nil _, rfl⟩

/-- So are several parts, one after the other. -/
theorem run_parts (usable : replica.channel.isUsable = true)
    (buffers : replica.config.bufferDuringSync = true) (uncut : ':' ∉ sequence.toList) {parts : List Part}
    (more : ∀ part ∈ parts, part.cursor ≠ "")
    (plain : ∀ part ∈ parts, ∀ batch ∈ part.batches, ∀ message ∈ batch, message.state = none) (now : Int) :
    let inputs := Input.allAt now (parts.flatMap (Part.inputs sequence))
    let waiting := replica.after inputs
    replica.movesAfter inputs = [] ∧ waiting.channel.isUsable = true ∧
      PendingSync.gatheredOf waiting.pending sequence =
        PendingSync.gatheredOf replica.pending sequence ++ parts.flatMap Part.states ∧
      waiting.PutsOff replica ((replica.reactions inputs).flatMap Reaction.events)
        (parts.flatMap Part.batches).flatten now := by
  induction parts generalizing replica with
  | nil => exact ⟨rfl, usable, (List.append_nil _).symm, .refl replica now⟩
  | cons part rest ih =>
    obtain ⟨moreFirst, moreRest⟩ := List.forall_mem_cons.1 more
    obtain ⟨plainFirst, plainRest⟩ := List.forall_mem_cons.1 plain
    obtain ⟨silent, begins, aside⟩ := run_part usable buffers uncut moreFirst plainFirst now
    have usableAside : (replica.putAside sequence part).channel.isUsable = true :=
      (congrArg ChannelState.isUsable replica.beginSync_channel).trans usable
    have buffersAside : (replica.putAside sequence part).config.bufferDuringSync = true :=
      (congrArg Config.bufferDuringSync replica.beginSync_config).trans buffers
    have gathered : PendingSync.gatheredOf (replica.putAside sequence part).pending sequence =
        PendingSync.gatheredOf replica.pending sequence ++ part.states := if_pos rfl
    -- The other parts come to a participant that has put this one off already.
    obtain ⟨silentRest, usableRest, gatheredRest, putsOff⟩ := ih usableAside buffersAside moreRest plainRest
    simp only [List.flatMap_cons, Input.allAt_append, movesAfter_append, reactions_append, after_append,
      List.flatMap_append, silent, begins, aside, silentRest, gatheredRest, gathered, List.append_assoc,
      List.flatten_append, List.nil_append, true_and]
    exact ⟨usableRest, putsOff.trans (putsOff_putAside usable sequence part now)⟩

/-- A description in one piece comes before the operations that follow it. -/
theorem movesAfter_snapshot (usable : replica.channel.isUsable = true) (states : List ObjectState)
    {batches : List (List Message)} (plain : ∀ batch ∈ batches, ∀ message ∈ batch, message.state = none)
    (now : Int) :
    replica.movesAfter (Input.allAt now (.snapshot states :: batches.map .messages)) =
      replica.commitMoves states now ++ deliveries batches.flatten now := by
  have usableBegun : replica.beginSync.2.channel.isUsable = true := by rw [beginSync_channel, usable]
  have applies : (replica.step (.snapshot states) now).2.appliesNow = true :=
    appliesNow_commit usableBegun states now
  have routed := ((replica.step (.snapshot states) now).2.run_batches plain now).1
  rw [routeMoves, if_pos applies] at routed
  exact congrArg (replica.commitMoves states now ++ ·) routed

/-- The last page makes a participant do what the description does that it completes. -/
theorem moves_of_last_page (usable : replica.channel.isUsable = true) (uncut : ':' ∉ sequence.toList)
    (states : List ObjectState) (now : Int) :
    replica.moves (.page (PageSerial.toText ⟨sequence, none⟩) states) now =
      replica.commitMoves (PendingSync.gatheredOf replica.pending sequence ++ states) now := by
  have read : PageSerial.ofText (PageSerial.toText ⟨sequence, none⟩) = ⟨sequence, none⟩ :=
    PageSerial.ofText_toText uncut nofun
  simp only [moves, usable, Bool.not_true, Bool.false_eq_true, ↓reduceIte, read, PendingSync.addPage_of_last,
    gatheredOf_beginSync]

end Replica

open Replica in
/-- A description in pages, with batches of operations between them, is as good as the
description in one piece and then the batches, also if it is refused. It does not matter what the
participant was waiting for, as long as it was not this very sequence. Either way the same may be
told, and what is told differs at most in the order in which a deletion names the maps that lose
keys by it. -/
theorem paged_description_equals_one_piece (config : Config) (history : List (Input × Int))
    (sequence : String) (parts : List Part) (last : List ObjectState) (now : Int) :
    let replica := (Replica.new config).after history
    let lastPage := Input.page (PageSerial.toText ⟨sequence, none⟩) last
    let description := Input.snapshot (parts.flatMap Part.states ++ last)
    let early := Input.allAt now (parts.flatMap (Part.inputs sequence))
    let paged := early ++ [(lastPage, now)]
    let whole := Input.allAt now (description :: (parts.flatMap Part.batches).map .messages)
    replica.channel.isUsable = true → config.bufferDuringSync = true → ':' ∉ sequence.toList →
    (∀ pending, replica.pending = some pending → pending.sequence ≠ some sequence) →
    (∀ part ∈ parts, part.cursor ≠ "") →
    (∀ part ∈ parts, ∀ batch ∈ part.batches, ∀ message ∈ batch, message.state = none) →
    (∀ told, replica.MayTell paged told ↔ replica.MayTell whole told) ∧
      (∀ told again, replica.MayTell paged told → replica.MayTell whole again → Retold told again) ∧
      (replica.reactions paged).flatMap Reaction.events = (replica.reactions whole).flatMap Reaction.events ∧
      ((replica.after early).step lastPage now).1.result = (replica.step description now).1.result ∧
      replica.after paged = replica.after whole := by
  intro replica lastPage description early paged whole usable buffers uncut other more plain
  have buffersNow : replica.config.bufferDuringSync = true := by rw [after_config]; exact buffers
  obtain ⟨silent, usableEarly, gathered, putsOff⟩ := run_parts usable buffersNow uncut more plain now
  have nothing : PendingSync.gatheredOf replica.pending sequence = [] :=
    (coherent_after config history).gatheredOf_of_other other
  rw [nothing, List.nil_append] at gathered
  have plainBatches : ∀ batch ∈ parts.flatMap Part.batches, ∀ message ∈ batch, message.state = none := by
    intro batch member
    obtain ⟨part, given, inside⟩ := List.mem_flatMap.1 member
    exact plain part given batch inside
  have sameMoves : replica.movesAfter paged = replica.movesAfter whole := by
    have closed := moves_of_last_page usableEarly uncut last now
    rw [gathered, putsOff.commitMoves_eq] at closed
    rw [movesAfter_append, silent, movesAfter_snapshot usable _ plainBatches, movesAfter, movesAfter, closed,
      List.nil_append, List.append_nil]
  have finished : (replica.after early).step lastPage now =
      (replica.after early).adoptSnapshot (parts.flatMap Part.states ++ last) now :=
    gathered ▸ step_of_last_page usableEarly uncut last now
  obtain ⟨-, quiet, routed⟩ := (replica.step description now).2.run_batches plainBatches now
  refine ⟨fun told => ?_, fun told again first second => ?_, ?_, ?_, ?_⟩
  · rw [MayTell, MayTell, sameMoves]
  · rw [MayTell, sameMoves] at first
    exact Graph.MayTell.retold first second
  · rw [reactions_append, List.flatMap_append]
    simp only [whole, Input.allAt_cons, reactions, List.flatMap_cons, quiet, finished, List.flatMap_nil,
      List.append_nil]
    exact putsOff.events _
  · rw [finished]
    exact putsOff.result _
  · simp only [paged, whole, after_append, Input.allAt_cons, after_cons, finished, routed]
    exact putsOff.final _

private def tallied (serial : String) : Message :=
  ((Message.ofOperation (.counterInc ⟨"counter:abc@1"⟩ (.ofInt 2))).withOrigin "a" ⟨serial⟩).withTimestamp 7

private def discarded : Message :=
  ((Message.ofOperation (.objectDelete ⟨"counter:abc@1"⟩)).withOrigin "a" ⟨"03"⟩).withTimestamp 7

/-- The pages of `t` will not be completed. -/
private def interrupted : List (Input × Int) :=
  [(.channel (.attached true), 1), (.page "t:1" [{ id := ⟨"map:old@1"⟩ }], 2), (.messages [tallied "01"], 3)]

private theorem not_pending_interrupted (pending : PendingSync)
    (waits : ((Replica.new {}).after interrupted).pending = some pending) : pending.sequence ≠ some "s" := by
  have known : ((Replica.new {}).after interrupted).pending = some ⟨some "t", [{ id := ⟨"map:old@1"⟩ }]⟩ := by
    decide +kernel
  rw [waits] at known
  cases known
  decide

private def pointing (id : ObjectId) : ObjectState :=
  { id, entries := some (.ofList [("votes", .live (.reference ⟨"counter:abc@1"⟩) (some ⟨"01"⟩))]) }

private def tallyParts : List Part :=
  [⟨"1", [{ id := ⟨"counter:abc@1"⟩, count := some (.ofInt 5) }, pointing ⟨"map:poll@1"⟩],
    [[tallied "02"], [discarded]]⟩]

private theorem named_tally :
    let replica := (Replica.new {}).after interrupted
    let description := Input.snapshot (tallyParts.flatMap Part.states ++ [pointing .root])
    let whole := Input.allAt 4 (description :: (tallyParts.flatMap Part.batches).map .messages)
    (((replica.reactions whole).flatMap Reaction.updates).map Update.id).drop 5 =
      [⟨"map:poll@1"⟩, .root, ⟨"counter:abc@1"⟩] := by
  decide +kernel

open Replica in
/-- A counter of five comes with the first of two pages. Before the second one it is raised, and
deleted, so two maps lose the key that points there. -/
theorem paged_description_equals_one_piece_tally :
    let replica := (Replica.new {}).after interrupted
    let lastPage := Input.page (PageSerial.toText ⟨"s", none⟩) [pointing .root]
    let description := Input.snapshot (tallyParts.flatMap Part.states ++ [pointing .root])
    let early := Input.allAt 4 (tallyParts.flatMap (Part.inputs "s"))
    let paged := early ++ [(lastPage, 4)]
    let whole := Input.allAt 4 (description :: (tallyParts.flatMap Part.batches).map .messages)
    (((replica.reactions whole).flatMap Reaction.updates).map Update.id).drop 5 =
        [⟨"map:poll@1"⟩, .root, ⟨"counter:abc@1"⟩] ∧
      (∀ told, replica.MayTell paged told ↔ replica.MayTell whole told) ∧
      (∀ told again, replica.MayTell paged told → replica.MayTell whole again → Retold told again) ∧
      (replica.reactions paged).flatMap Reaction.events = (replica.reactions whole).flatMap Reaction.events ∧
      ((replica.after early).step lastPage 4).1.result = (replica.step description 4).1.result ∧
      replica.after paged = replica.after whole :=
  ⟨named_tally, paged_description_equals_one_piece {} interrupted "s" tallyParts [pointing .root] 4
    (by decide +kernel) rfl (by decide +kernel) not_pending_interrupted (by decide +kernel)
    (by decide +kernel)⟩

open Replica in
/-- A complete description has the same effect as the states of a batch, unless there are none,
and as the one page of a sequence that is not pending, unless pages are dropped because the
channel is not usable. -/
theorem description_in_one_piece (config : Config) (history : List (Input × Int))
    (states : List ObjectState) (batch : List Message) (sequence : String) (now : Int) :
    let replica := (Replica.new config).after history
    let adopted := replica.step (.snapshot states) now
    batch.map Message.state = states.map some → ':' ∉ sequence.toList →
    (∀ pending, replica.pending = some pending → pending.sequence ≠ some sequence) →
    (replica.step (.messages batch) now = if states = [] then ({}, replica) else adopted) ∧
      replica.step (.page (PageSerial.toText ⟨sequence, none⟩) states) now =
        if replica.channel.isUsable then adopted else ({}, replica) := by
  intro replica adopted given uncut other
  refine ⟨step_of_states given now, ?_⟩
  cases usable : replica.channel.isUsable with
  | false => exact step_of_unusable usable _ states now
  | true =>
    have nothing : PendingSync.gatheredOf replica.pending sequence = [] :=
      (coherent_after config history).gatheredOf_of_other other
    rw [step_of_last_page usable uncut, nothing]
    rfl

private def fiveVotes : ObjectState := { id := ⟨"counter:abc@1"⟩, count := some (.ofInt 5) }

open Replica in
/-- A counter of five comes in three ways, while pages of `t` and an operation wait. -/
theorem description_in_one_piece_counter :
    let replica := (Replica.new {}).after interrupted
    let adopted := replica.step (.snapshot [fiveVotes]) 4
    (replica.step (.messages [.ofState fiveVotes]) 4 = if [fiveVotes] = [] then ({}, replica) else adopted) ∧
      replica.step (.page (PageSerial.toText ⟨"s", none⟩) [fiveVotes]) 4 =
        if replica.channel.isUsable then adopted else ({}, replica) :=
  description_in_one_piece {} interrupted [fiveVotes] [.ofState fiveVotes] "s" 4 rfl (by decide +kernel)
    not_pending_interrupted

/-- An empty batch does not say that there are no objects, and a page is dropped while the channel
is suspended. -/
theorem other_than_in_one_piece :
    let fresh := Replica.new {}
    let suspended := fresh.after [(.channel .suspended, 1)]
    (fresh.step (.messages []) 1).2.phase = .initialized ∧ (fresh.step (.snapshot []) 1).2.phase = .synced ∧
      (suspended.step (.page "s:" [fiveVotes]) 2).2.graph.contains fiveVotes.id = false ∧
      (suspended.step (.page "s:" [fiveVotes]) 2).2.phase = .initialized ∧
      (suspended.step (.snapshot [fiveVotes]) 2).2.graph.contains fiveVotes.id = true ∧
      (suspended.step (.snapshot [fiveVotes]) 2).2.phase = .synced := by
  decide +kernel

end SharedGraph
