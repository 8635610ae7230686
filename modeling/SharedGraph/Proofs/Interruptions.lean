import Mathlib.Data.List.DropRight
import Mathlib.Data.List.Infix
import SharedGraph.Proofs.CatchingUp
import SharedGraph.Proofs.Overriding

/-! What the last page of a sequence completes. The pages of one sequence are gathered until
something else comes in between: a page of another sequence, or a description that is complete
by itself. What was gathered is forgotten then, and the sequence begins anew with its next page. -/
namespace SharedGraph

namespace Input

/-- Whether an input ends the gathering of a sequence, by completing it or otherwise. -/
def interrupts (sequence : String) : Input → Bool
  | .messages batch => batch.any fun message => message.state.isSome
  | .page serial _ =>
    (PageSerial.ofText serial).cursor.isNone || (PageSerial.ofText serial).sequence != sequence
  | .snapshot _ => true
  | .channel state => state == .attached false
  | .collect _ => false

/-- The states of a page. -/
def pageStates : Input → List ObjectState
  | .page _ states => states
  | .messages _ | .snapshot _ | .channel _ | .collect _ => []

end Input

/-- The states of the pages of a sequence that came since it was last interrupted. -/
def uninterrupted (sequence : String) (history : List (Input × Int)) : List ObjectState :=
  (history.rtakeWhile fun entry => !entry.1.interrupts sequence).flatMap fun entry => entry.1.pageStates

private theorem uninterrupted_concat (sequence : String) (history : List (Input × Int))
    (entry : Input × Int) :
    uninterrupted sequence (history ++ [entry]) =
      if entry.1.interrupts sequence then [] else uninterrupted sequence history ++ entry.1.pageStates := by
  unfold uninterrupted
  rw [List.rtakeWhile_concat]
  cases entry.1.interrupts sequence with
  | true => rfl
  | false => simp only [Bool.not_false, ↓reduceIte, List.flatMap_append, List.flatMap_singleton, Bool.false_eq_true]

namespace Replica

variable {replica : Replica} {input : Input} {states : List ObjectState}

/-- Whatever completes a description interrupts every sequence. -/
theorem interrupts_of_completed (completed : replica.completed? input = some states) (sequence : String) :
    input.interrupts sequence = true := by
  cases input with
  | messages batch =>
    simp only [completed?, List.isEmpty_iff] at completed
    split at completed
    case isTrue => cases completed
    case isFalse some =>
      obtain ⟨state, given⟩ := List.exists_mem_of_ne_nil _ some
      obtain ⟨message, member, same⟩ := List.mem_filterMap.1 given
      exact List.any_eq_true.2 ⟨message, member, Option.isSome_iff_exists.2 ⟨state, same⟩⟩
  | page serial states =>
    have last : (PageSerial.ofText serial).cursor = none := by
      cases more : (PageSerial.ofText serial).cursor with
      | none => rfl
      | some cursor =>
        simp only [completed?, PendingSync.addPage_of_cursor more, ite_self, reduceCtorEq] at completed
    simp only [Input.interrupts, last, Option.isNone_none, Bool.true_or]
  | snapshot states => rfl
  | channel state =>
    cases state with
    | attached announced =>
      cases announced with
      | true => cases completed
      | false => rfl
    | initialized | attaching | suspended | detached | failed => cases completed
  | collect time => cases completed

/-- While the channel is usable, an input adds the states of its page to what is there of a
sequence, unless it interrupts the sequence. -/
theorem gatheredOf_step (usable : replica.channel.isUsable = true) {now : Int}
    (stays : (replica.step input now).2.channel.isUsable = true) (sequence : String) :
    PendingSync.gatheredOf (replica.step input now).2.pending sequence =
      if input.interrupts sequence then []
      else PendingSync.gatheredOf replica.pending sequence ++ input.pageStates := by
  cases completed : replica.completed? input with
  | some states =>
    rw [pending_of_completed completed now, if_pos (interrupts_of_completed completed sequence)]
    rfl
  | none =>
    have kept : PendingSync.gatheredOf replica.pending sequence =
        PendingSync.gatheredOf replica.pending sequence ++ [] := (List.append_nil _).symm
    have goes := goesOn_step completed now
    generalize (replica.step input now).2 = next at goes stays
    cases goes with
    | @routed batch plain =>
      have uninterrupting : (Input.messages batch).interrupts sequence = false := by
        rw [Input.interrupts, List.any_eq_false]
        intro message member
        rw [List.filterMap_eq_nil_iff.1 plain message member]
        exact Bool.false_ne_true
      rw [routeAll_eq, uninterrupting]
      exact kept
    | dropped lost =>
      rw [lost] at usable
      cases usable
    | @gathered serial cursor states _ more =>
      simp only [Input.interrupts, more, Option.isNone_some, Bool.false_or, bne_iff_ne, ne_eq, ite_not,
        PendingSync.gatheredOf, Option.getD_some, PendingSync.statesOf, Input.pageStates]
      by_cases same : (PageSerial.ofText serial).sequence = sequence
      · rw [if_pos same, if_pos same, same]
      · rw [if_neg same, if_neg same]
    | expected => exact (replica.gatheredOf_beginSync sequence).trans kept
    | unattached early => rcases early with rfl | rfl <;> exact kept
    | abandoned lost => exact absurd stays (Bool.eq_false_iff.1 lost)
    | collected => exact kept

/-- What is there of a sequence came in pages since the sequence was last interrupted. -/
theorem gatheredOf_after (config : Config) {history : List (Input × Int)}
    (usable : ∀ taken, taken <+: history → ((Replica.new config).after taken).channel.isUsable = true)
    (sequence : String) :
    PendingSync.gatheredOf ((Replica.new config).after history).pending sequence =
      uninterrupted sequence history := by
  induction history using List.reverseRecOn with
  | nil => rfl
  | append_singleton earlier entry ih =>
    have usableBefore := usable earlier (List.prefix_append ..)
    have stays := usable _ List.prefix_rfl
    rw [after_concat] at stays ⊢
    rw [gatheredOf_step usableBefore stays, uninterrupted_concat,
      ih fun taken part => usable taken (part.trans (List.prefix_append ..))]

end Replica

open Replica in
/-- The last page of a sequence completes what came in pages since the sequence was last
interrupted, all of it, as if it came in one piece. None of the objects that these pages describe
as live, and do not describe as deleted afterwards, is deleted by that. -/
theorem completes_what_came_uninterrupted (config : Config) (history : List (Input × Int))
    (serial : String) (states : List ObjectState) (now : Int) :
    let replica := (Replica.new config).after history
    let gathered := uninterrupted (PageSerial.ofText serial).sequence history ++ states
    (∀ taken, taken <+: history → ((Replica.new config).after taken).channel.isUsable = true) →
    (PageSerial.ofText serial).cursor = none →
    replica.completed? (.page serial states) = some gathered ∧
      replica.step (.page serial states) now = replica.step (.snapshot gathered) now ∧
      ∀ updates next, replica.graph.applySnapshot gathered now = .ok (updates, next) →
        ∀ id state, Graph.lastState? gathered id = some state →
          (next.get? id).map LiveObject.tombstone = some state.tombstone := by
  intro replica gathered usable last
  have usableNow : replica.channel.isUsable = true := usable history List.prefix_rfl
  have completed : replica.completed? (.page serial states) = some gathered := by
    rw [completed?_of_last usableNow last, gatheredOf_after config usable]
  refine ⟨completed, step_of_completing_page completed now, fun updates next applied id state described => ?_⟩
  have sound : replica.graph.Sound := sound_after Graph.sound_initial history
  have listed : (Graph.describedStates gathered).get? id = some state := by
    rw [Graph.get?_describedStates]
    exact congrArg (fun found => Option.or found _) described
  have became := congrArg (Option.map ObjectState.tombstone) (sound.toState_of_described applied listed)
  rw [Option.map_map] at became
  exact became

private def votedFive : ObjectState := { id := ⟨"counter:abc@1"⟩, count := some (.ofInt 5) }

/-- A page of a sequence, another one of it after a batch of operations, and then the last one. -/
theorem completes_what_came_uninterrupted_poll :
    let history : List (Input × Int) :=
      [(.page "t:1" [votedFive], 1), (.page "s:1" [votedFive], 2), (.messages [], 3), (.page "s:2" [{ id := .root }], 4)]
    let replica := (Replica.new {}).after history
    let gathered := uninterrupted "s" history ++ []
    gathered = [votedFive, { id := .root }] ∧
    replica.completed? (.page "s:" []) = some gathered ∧
      replica.step (.page "s:" []) 5 = replica.step (.snapshot gathered) 5 ∧
      ∀ updates next, replica.graph.applySnapshot gathered 5 = .ok (updates, next) →
        ∀ id state, Graph.lastState? gathered id = some state →
          (next.get? id).map LiveObject.tombstone = some state.tombstone := by
  intro history
  have usable : ∀ taken ∈ history.inits, ((Replica.new {}).after taken).channel.isUsable = true := by
    decide +kernel
  refine ⟨by decide +kernel, ?_⟩
  exact completes_what_came_uninterrupted {} history "s:" [] 5
    (fun taken part => usable taken ((List.mem_inits _ _).2 part)) (by decide +kernel)

/-- A page of `t` comes between the two pages of `s`. The second one completes `s` without the
first one, and the counter that the first one describes is deleted. -/
theorem completed_without_interrupted_page :
    let history : List (Input × Int) :=
      [(.snapshot [votedFive], 1), (.page "s:1" [votedFive], 2), (.page "t:1" [], 3)]
    let replica := (Replica.new {}).after history
    (∀ taken ∈ history.inits, ((Replica.new {}).after taken).channel.isUsable = true) ∧
      replica.completed? (.page "s:" []) = some [] ∧
      replica.graph.isTombstoned votedFive.id = false ∧
      (replica.step (.page "s:" []) 4).2.graph.isTombstoned votedFive.id = true := by
  decide +kernel

end SharedGraph
