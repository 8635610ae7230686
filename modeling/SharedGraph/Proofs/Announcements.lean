import SharedGraph.Proofs.Buffering

/-! What the events tell of catching up. A participant that begins to catch up says so, and it says
so when a description is put in place or refused. It says nothing when it gives up because the
channel is lost, and an observer of the events takes it to be catching up from then on. -/
namespace SharedGraph

/-- What begins or ends catching up: an event that is sent, or the loss of the channel, of which
nothing is sent. -/
inductive SyncMark where
  | sent (event : SyncEvent)
  | lost
  deriving DecidableEq

namespace SyncMark

/-- Whether catching up begins with it. All else ends it. -/
def begins : SyncMark → Bool
  | .sent .syncing => true
  | .sent .synced | .sent (.failed _) | .lost => false

def sent? : SyncMark → Option SyncEvent
  | .sent event => some event
  | .lost => none

private theorem begins_iff {mark : SyncMark} : mark.begins = true ↔ mark = .sent .syncing := by
  cases mark with
  | sent event => cases event <;> simp [begins]
  | lost => simp [begins]

end SyncMark

/-- Beginnings and ends take turns. The first mark is an end if catching up is under way before it. -/
def TakeTurns (underWay : Bool) : List SyncMark → Prop
  | [] => True
  | mark :: rest => mark.begins = !underWay ∧ TakeTurns mark.begins rest

/-- Whether catching up is under way after some marks. -/
def underWayAfter (underWay : Bool) (marks : List SyncMark) : Bool :=
  (marks.getLast?.map SyncMark.begins).getD underWay

section Marks

variable {underWay : Bool} {marks more : List SyncMark}

private theorem underWayAfter_append : underWayAfter underWay (marks ++ more) =
    underWayAfter (underWayAfter underWay marks) more := by
  unfold underWayAfter
  rw [List.getLast?_append]
  cases more.getLast? <;> rfl

private theorem underWayAfter_cons (mark : SyncMark) :
    underWayAfter underWay (mark :: marks) = underWayAfter mark.begins marks := by
  rw [← List.singleton_append, underWayAfter_append]
  rfl

private theorem takeTurns_append : TakeTurns underWay (marks ++ more) ↔
    TakeTurns underWay marks ∧ TakeTurns (underWayAfter underWay marks) more := by
  induction marks generalizing underWay with
  | nil => exact (and_iff_right trivial).symm
  | cons mark rest ih =>
    rw [List.cons_append, TakeTurns, TakeTurns, ih, underWayAfter_cons, and_assoc]

/-- Between two beginnings there is an end. -/
theorem TakeTurns.exists_end {earlier between later : List SyncMark}
    (turns : TakeTurns underWay (earlier ++ .sent .syncing :: (between ++ .sent .syncing :: later))) :
    ∃ mark ∈ between, mark.begins = false := by
  have ⟨first, rest⟩ := (takeTurns_append.1 turns).2
  have ended := (takeTurns_append.1 rest).2.1
  rw [show SyncMark.begins (.sent .syncing) = true from rfl, eq_comm, Bool.not_eq_true'] at ended
  unfold underWayAfter at ended
  cases last : between.getLast? with
  | none =>
    rw [last] at ended
    cases ended
  | some mark =>
    rw [last] at ended
    exact ⟨mark, List.mem_of_getLast? last, ended⟩

/-- A loss takes back what was announced last. -/
theorem TakeTurns.getLast?_of_lost {earlier : List SyncMark}
    (turns : TakeTurns false (earlier ++ [.lost])) : earlier.getLast? = some (.sent .syncing) := by
  have open' := (takeTurns_append.1 turns).2.1
  rw [show SyncMark.begins .lost = false from rfl, eq_comm, Bool.not_eq_false'] at open'
  unfold underWayAfter at open'
  cases last : earlier.getLast? with
  | none =>
    rw [last] at open'
    cases open'
  | some mark =>
    rw [last] at open'
    rw [SyncMark.begins_iff.1 open']

/-- Without a loss the marks are the events. -/
theorem map_sent_of_kept (kept : .lost ∉ marks) : (marks.filterMap SyncMark.sent?).map .sent = marks := by
  induction marks with
  | nil => rfl
  | cons mark rest ih =>
    obtain ⟨other, keptRest⟩ := not_or.1 (mt List.mem_cons.2 kept)
    cases mark with
    | lost => exact absurd rfl other
    | sent event => exact congrArg _ (ih keptRest)

end Marks

namespace Replica

variable {replica : Replica} {input : Input} {states : List ObjectState}

/-- What an input contributes to the record. -/
def marks (replica : Replica) (input : Input) (now : Int) : List SyncMark :=
  (replica.step input now).1.events.map .sent ++
    if replica.pending.isSome && input.losesChannel then [.lost] else []

/-- The record of a run: the events that were sent, and the silent losses between them. -/
def record (replica : Replica) : List (Input × Int) → List SyncMark
  | [] => []
  | entry :: rest => replica.marks entry.1 entry.2 ++ (replica.step entry.1 entry.2).2.record rest

/-- The events that were sent in a run. -/
def announced (replica : Replica) (history : List (Input × Int)) : List SyncEvent :=
  (replica.reactions history).flatMap Reaction.events

private theorem record_append (replica : Replica) (history more : List (Input × Int)) :
    replica.record (history ++ more) = replica.record history ++ (replica.after history).record more := by
  induction history generalizing replica with
  | nil => rfl
  | cons entry rest ih =>
    rw [List.cons_append, record, record, ih, List.append_assoc]
    rfl

/-- The record without the losses is what was sent. -/
theorem filterMap_record (replica : Replica) (history : List (Input × Int)) :
    (replica.record history).filterMap SyncMark.sent? = replica.announced history := by
  induction history generalizing replica with
  | nil => rfl
  | cons entry rest ih =>
    have silent (lost : Bool) : (if lost then [SyncMark.lost] else []).filterMap SyncMark.sent? = [] := by
      cases lost <;> rfl
    have all (events : List SyncEvent) : (events.map SyncMark.sent).filterMap SyncMark.sent? = events := by
      rw [List.filterMap_map]
      exact List.filterMap_some
    rw [record, marks, List.filterMap_append, List.filterMap_append, all, silent, List.append_nil, ih]
    rfl

/-! ## One input -/

/-- A description that is completed is announced, and so is what became of it. -/
theorem events_of_completed (completed : replica.completed? input = some states) (now : Int) :
    ∃ ending : SyncEvent, ending ≠ .syncing ∧
      (replica.step input now).1.events = replica.beginSync.1 ++ [ending] := by
  obtain ⟨result, -, same⟩ := step_of_completed completed now
  rw [same]
  simp only [adoptSnapshot, beginSync_announced]
  generalize { replica.beginSync.2 with channel := input.channelAfter replica.channel } = begun
  cases applied : begun.graph.applySnapshot states now with
  | ok result =>
    rw [commit_of_ok applied]
    refine ⟨.synced, ?_, rfl⟩
    rintro ⟨⟩
  | error fault =>
    rw [commit_of_error applied]
    refine ⟨.failed (.malformedSync fault), ?_, rfl⟩
    rintro ⟨⟩

/-- While nothing is completed, all that can be announced is that catching up begins. -/
theorem events_of_open (notYet : replica.completed? input = none) (now : Int) :
    let result := replica.step input now
    result.1.events = replica.beginSync.1 ∧ result.2.pending.isSome = true ∧ input.losesChannel = false ∨
      result.1.events = [] ∧
        result.2.pending.isSome = (replica.pending.isSome && !input.losesChannel) := by
  have kept : replica.pending.isSome = (replica.pending.isSome && !false) := (Bool.and_true _).symm
  have settled : (none : Option PendingSync).isSome = (replica.pending.isSome && !true) :=
    (Bool.and_false _).symm
  cases input with
  | messages batch =>
    simp only [completed?, ite_eq_left_iff, reduceCtorEq, imp_false, not_not, List.isEmpty_iff] at notYet
    refine .inr ⟨?_, ?_⟩
    · simp only [step, handleMessages, notYet, List.isEmpty_nil, ↓reduceIte]
    · rw [step_of_operations notYet, routeAll_eq]
      exact kept
  | page serial states =>
    cases usable : replica.channel.isUsable with
    | false =>
      rw [step_of_unusable usable]
      exact .inr ⟨rfl, kept⟩
    | true =>
      cases more : (PageSerial.ofText serial).cursor with
      | none =>
        rw [completed?_of_last usable more] at notYet
        cases notYet
      | some cursor =>
        rw [step_of_open_page usable more]
        exact .inl ⟨rfl, rfl, rfl⟩
  | snapshot states => cases notYet
  | channel state =>
    cases state with
    | attached announced =>
      cases announced with
      | false => cases notYet
      | true =>
        have sent : (replica.step (.channel (.attached true)) now).1.events =
            { replica with channel := .attached true }.beginSync.1 := rfl
        rw [beginSync_announced] at sent
        exact .inl ⟨sent, { replica with channel := .attached true }.isSome_pending_beginSync, rfl⟩
    | initialized | attaching => exact .inr ⟨rfl, kept⟩
    | suspended | detached | failed => exact .inr ⟨rfl, settled⟩
  | collect time => exact .inr ⟨rfl, kept⟩

/-- The beginning is announced unless it was announced before. -/
theorem takeTurns_beginSync (replica : Replica) :
    TakeTurns replica.pending.isSome (replica.beginSync.1.map .sent) ∧
      underWayAfter replica.pending.isSome (replica.beginSync.1.map .sent) = true := by
  cases waits : replica.pending with
  | some pending =>
    rw [beginSync_of_pending waits]
    exact ⟨trivial, rfl⟩
  | none =>
    rw [beginSync_of_idle waits]
    exact ⟨⟨rfl, trivial⟩, rfl⟩

/-- What an input contributes to the record goes on with the turns, and leads to whether a
description is awaited after it. -/
theorem takeTurns_marks (replica : Replica) (input : Input) (now : Int) :
    TakeTurns replica.pending.isSome (replica.marks input now) ∧
      underWayAfter replica.pending.isSome (replica.marks input now) =
        (replica.step input now).2.pending.isSome := by
  obtain ⟨turns, begun⟩ := replica.takeTurns_beginSync
  cases completed : replica.completed? input with
  | some states =>
    obtain ⟨ending, ends, sent⟩ := events_of_completed completed now
    have kept : input.losesChannel = false := by
      rw [← Bool.not_eq_true]
      intro lost
      rw [completed?_of_losesChannel lost] at completed
      cases completed
    have closes : SyncMark.begins (.sent ending) = false := by
      rw [← Bool.not_eq_true, SyncMark.begins_iff]
      exact fun same => ends (SyncMark.sent.inj same)
    rw [marks, sent, kept, Bool.and_false, if_neg Bool.false_ne_true, List.append_nil, List.map_append,
      takeTurns_append, underWayAfter_append, begun, pending_of_completed completed]
    exact ⟨⟨turns, closes, trivial⟩, closes⟩
  | none =>
    rcases events_of_open completed now with ⟨sent, waits, kept⟩ | ⟨sent, after⟩
    · rw [marks, sent, kept, Bool.and_false, if_neg Bool.false_ne_true, List.append_nil, waits]
      exact ⟨turns, begun⟩
    · rw [marks, sent, after, List.map_nil, List.nil_append]
      cases replica.pending.isSome <;> cases input.losesChannel <;> exact ⟨by simp [TakeTurns, SyncMark.begins], rfl⟩

/-! ## A run -/

/-- Along every run beginnings and ends take turns, and a description is awaited exactly if a
beginning comes last. -/
theorem takeTurns_record (replica : Replica) (history : List (Input × Int)) :
    TakeTurns replica.pending.isSome (replica.record history) ∧
      underWayAfter replica.pending.isSome (replica.record history) = (replica.after history).pending.isSome := by
  induction history generalizing replica with
  | nil => exact ⟨trivial, rfl⟩
  | cons entry rest ih =>
    obtain ⟨turns, begun⟩ := replica.takeTurns_marks entry.1 entry.2
    rw [record, takeTurns_append, underWayAfter_append, begun]
    exact ⟨⟨turns, (ih _).1⟩, (ih _).2⟩

/-- Every loss was the last mark for a moment. -/
theorem exists_getLast?_of_lost (replica : Replica) {history : List (Input × Int)}
    (lost : .lost ∈ replica.record history) :
    ∃ taken, taken <+: history ∧ (replica.record taken).getLast? = some .lost := by
  induction history using List.reverseRecOn with
  | nil => cases lost
  | append_singleton earlier entry ih =>
    rw [record_append, List.mem_append] at lost
    rcases lost with before | now
    · obtain ⟨taken, part, last⟩ := ih before
      exact ⟨taken, part.trans (List.prefix_append ..), last⟩
    · refine ⟨_, List.prefix_rfl, ?_⟩
      rw [record, record, List.append_nil, marks, List.mem_append] at now
      rcases now with sent | silent
      · obtain ⟨event, -, same⟩ := List.mem_map.1 sent
        cases same
      · rw [record_append, record, record, List.append_nil, marks]
        split at silent
        case isTrue given => rw [if_pos given, ← List.append_assoc, List.getLast?_concat]
        case isFalse => cases silent

private theorem phase_iff_getLast?_record (config : Config) (history : List (Input × Int)) :
    ((Replica.new config).after history).phase = .syncing ↔
      ((Replica.new config).record history).getLast? = some (.sent .syncing) := by
  have after : underWayAfter false ((Replica.new config).record history) = _ :=
    ((Replica.new config).takeTurns_record history).2
  rw [(coherent_after config history).phase, ← after, underWayAfter]
  cases ((Replica.new config).record history).getLast? with
  | none => simp
  | some mark => simpa using SyncMark.begins_iff

/-- The event that was sent last tells the phase, unless the channel was lost since. -/
theorem getLast?_announced_iff (config : Config) (history : List (Input × Int)) :
    (((Replica.new config).announced history).getLast? = some .syncing ↔
        ((Replica.new config).after history).phase = .syncing) ↔
      ((Replica.new config).record history).getLast? ≠ some .lost := by
  rw [phase_iff_getLast?_record, ← filterMap_record]
  have turns : TakeTurns false ((Replica.new config).record history) :=
    ((Replica.new config).takeTurns_record history).1
  generalize (Replica.new config).record history = record at turns
  rcases List.eq_nil_or_concat' record with rfl | ⟨earlier, mark, rfl⟩
  · simp
  · cases mark with
    | sent event => simp [SyncMark.sent?]
    | lost =>
      obtain ⟨front, same⟩ := List.getLast?_eq_some_iff.1 turns.getLast?_of_lost
      simp [same, SyncMark.sent?, List.filterMap_cons]

end Replica

open Replica in
/-- Beginnings and ends of catching up take turns if losses of the channel count as ends, and the
participant is catching up exactly if a beginning comes last. The events alone do not tell of the
losses: what was sent last agrees with the phase except right after a loss. So the events of a run
agree with the phase all along, and an end is sent between any two beginnings, exactly if catching
up was never given up because of a loss. -/
theorem events_tell_phase_iff (config : Config) (history : List (Input × Int)) :
    let start := Replica.new config
    let record := start.record history
    let events := start.announced history
    record.filterMap SyncMark.sent? = events ∧ TakeTurns false record ∧
      ((start.after history).phase = .syncing ↔ record.getLast? = some (.sent .syncing)) ∧
      ((events.getLast? = some .syncing ↔ (start.after history).phase = .syncing) ↔
        record.getLast? ≠ some .lost) ∧
      (((∀ taken, taken <+: history →
            ((start.announced taken).getLast? = some .syncing ↔ (start.after taken).phase = .syncing)) ∧
          ∀ earlier between later,
            events = earlier ++ .syncing :: (between ++ .syncing :: later) → ∃ event ∈ between, event ≠ .syncing) ↔
        .lost ∉ record) := by
  intro start record events
  have turns : TakeTurns false record := (start.takeTurns_record history).1
  refine ⟨start.filterMap_record history, turns, phase_iff_getLast?_record config history,
    getLast?_announced_iff config history, ?_, ?_⟩
  · rintro ⟨agree, -⟩ lost
    obtain ⟨taken, part, last⟩ := start.exists_getLast?_of_lost lost
    exact (getLast?_announced_iff config taken).1 (agree taken part) last
  · intro kept
    constructor
    · intro taken ⟨rest, same⟩
      refine (getLast?_announced_iff config taken).2 fun last => kept ?_
      have whole : record = start.record taken ++ (start.after taken).record rest := by
        rw [← record_append, same]
      rw [whole]
      exact List.mem_append_left _ (List.mem_of_getLast? last)
    · intro earlier between later split
      have all : record = events.map .sent := by
        rw [show events = _ from (start.filterMap_record history).symm, map_sent_of_kept kept]
      rw [all, split, List.map_append, List.map_cons, List.map_append, List.map_cons] at turns
      obtain ⟨mark, member, ends⟩ := turns.exists_end
      obtain ⟨event, between, rfl⟩ := List.mem_map.1 member
      refine ⟨event, between, ?_⟩
      rintro rfl
      cases ends

/-- A participant that awaits a description loses the channel and then has it back. It is not
catching up in between, but the last event says so, and the next one says it again. -/
theorem loss_unannounced :
    let lost : List (Input × Int) := [(.channel (.attached true), 1), (.channel .suspended, 2)]
    ((Replica.new {}).announced lost).getLast? = some .syncing ∧
      ((Replica.new {}).after lost).phase = .initialized ∧
      (Replica.new {}).announced (lost ++ [(.channel (.attached true), 3)]) = [.syncing, .syncing] := by
  decide +kernel

end SharedGraph
