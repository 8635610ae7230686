import Mathlib.Data.List.DropRight
import SharedGraph.Proofs.CatchingUp

/-! What is gathered depends on the calls that came before through one pending sequence. This
relates it to the calls themselves: pages are gathered since gathering last came to an end, and of
those only the last ones in a row that belong to the same sequence count. -/
namespace SharedGraph

namespace PendingSync

/-- What may be done about the sequence that is awaited. -/
inductive Call where
  | start
  | abort
  /-- The serial is given as it was sent. -/
  | page (serial : String) (states : List ObjectState)

namespace Call

/-- Whether a call ends the gathering, by completing a sequence or by giving it up. -/
def ends : Call → Bool
  | .start => false
  | .abort => true
  | .page serial _ => (PageSerial.ofText serial).cursor.isNone

/-- The sequence of a page, and the states that it brings. -/
def page? : Call → Option (String × List ObjectState)
  | .page serial states => some ((PageSerial.ofText serial).sequence, states)
  | .start | .abort => none

end Call

/-- What is pending after a call. -/
def after (pending : Option PendingSync) : Call → Option PendingSync
  | .start => some (start pending).2
  | .abort => (abort pending).2
  | .page serial states => (addPage pending (.ofText serial) states).2

/-- What is pending after calls, if nothing was at first. -/
def afterAll (calls : List Call) : Option PendingSync := calls.foldl after none

/-- The calls since the last one that ended the gathering. -/
def sinceEnd (calls : List Call) : List Call := calls.rtakeWhile fun call => !call.ends

/-- The pages since then, those of the given sequence with which they end. -/
def lastRun (sequence : String) (calls : List Call) : List (String × List ObjectState) :=
  ((sinceEnd calls).filterMap Call.page?).rtakeWhile fun page => page.1 == sequence

/-! ## One more call -/

private theorem sinceEnd_concat (calls : List Call) (call : Call) :
    sinceEnd (calls ++ [call]) = if call.ends then [] else sinceEnd calls ++ [call] := by
  unfold sinceEnd
  rw [List.rtakeWhile_concat]
  cases call.ends <;> rfl

/-- A page goes on with the run of its sequence and begins that of any other one anew; to expect
a sequence makes no difference. -/
theorem lastRun_concat (sequence : String) (calls : List Call) (call : Call) :
    lastRun sequence (calls ++ [call]) =
      if call.ends then []
      else match call.page? with
        | none => lastRun sequence calls
        | some page => if page.1 = sequence then lastRun sequence calls ++ [page] else [] := by
  unfold lastRun
  rw [sinceEnd_concat]
  cases call.ends with
  | true => rfl
  | false =>
    rw [if_neg Bool.false_ne_true, if_neg Bool.false_ne_true, List.filterMap_append]
    cases shown : call.page? with
    | none => simp [shown]
    | some page => simp [shown, List.rtakeWhile_concat]

private theorem afterAll_concat (calls : List Call) (call : Call) :
    afterAll (calls ++ [call]) = after (afterAll calls) call := by
  simp [afterAll]

/-! ## All calls -/

/-- A sequence is awaited exactly if something was done since the last end. -/
theorem afterAll_eq_none_iff (calls : List Call) : afterAll calls = none ↔ sinceEnd calls = [] := by
  induction calls using List.reverseRecOn with
  | nil => exact iff_of_true rfl rfl
  | append_singleton calls call =>
    rw [afterAll_concat, sinceEnd_concat]
    cases call with
    | start => simp [after, Call.ends]
    | abort => simp [after, abort, Call.ends]
    | page serial states =>
      cases more : (PageSerial.ofText serial).cursor with
      | none => simp [after, addPage_of_last more, Call.ends, more]
      | some cursor => simp [after, addPage_of_cursor more, Call.ends, more]

/-- Expecting a sequence does not change what is there of any. -/
theorem gatheredOf_start (pending : Option PendingSync) (sequence : String) :
    gatheredOf (some (start pending).2) sequence = gatheredOf pending sequence := by
  cases pending <;> rfl

/-- Something was done since the last end if there is a call that no end follows. -/
theorem sinceEnd_ne_nil_iff (calls : List Call) : sinceEnd calls ≠ [] ↔
    ∃ earlier call later, calls = earlier ++ call :: later ∧
      ∀ other ∈ call :: later, other.ends = false := by
  simp only [sinceEnd, ne_eq, List.rtakeWhile_eq_nil_iff, not_forall, not_not, Bool.not_eq_true']
  constructor
  · rintro ⟨some, goesOn⟩
    refine ⟨calls.dropLast, calls.getLast some, [], (List.dropLast_append_getLast some).symm, ?_⟩
    simpa using goesOn
  · rintro ⟨earlier, call, later, rfl, goesOn⟩
    refine ⟨by simp, goesOn _ ?_⟩
    rw [List.getLast_append_of_ne_nil _ (List.cons_ne_nil call later)]
    exact List.getLast_mem _

/-- What is there of a sequence are the states of the run of pages that the calls end with. -/
theorem gatheredOf_afterAll (calls : List Call) (sequence : String) :
    gatheredOf (afterAll calls) sequence = (lastRun sequence calls).flatMap Prod.snd := by
  induction calls using List.reverseRecOn with
  | nil => rfl
  | append_singleton calls call ih =>
    rw [afterAll_concat, lastRun_concat]
    cases call with
    | start => exact (gatheredOf_start _ sequence).trans ih
    | abort => rfl
    | page serial states =>
      cases more : (PageSerial.ofText serial).cursor with
      | none =>
        simp only [after, addPage_of_last more, Call.ends, more, Option.isNone_none, ↓reduceIte]
        rfl
      | some cursor =>
        simp only [after, addPage_of_cursor more, Call.ends, more, Option.isNone_some, Bool.false_eq_true,
          ↓reduceIte, Call.page?]
        by_cases same : (PageSerial.ofText serial).sequence = sequence
        · rw [if_pos same, List.flatMap_append, ← ih, same]
          simp [gatheredOf, statesOf]
        · rw [if_neg same]
          simp [gatheredOf, statesOf, same]

end PendingSync

open PendingSync in
/-- Whatever was called before: a page completes a description exactly if its serial has no cursor
or an empty one, and what it completes are the states of the pages of its sequence that came one
after the other, and with no end to the gathering between them, up to this one. Expecting a
sequence is news exactly if none is awaited, there is something to give up exactly if one is, and
one is awaited exactly if one was expected, or a page came that others follow, and nothing ended
the gathering since. -/
theorem gathering_law (calls : List Call) (serial : String) (states : List ObjectState) :
    let pending := afterAll calls
    let added := (addPage pending (.ofText serial) states).1
    (added.isSome = true ↔
        ':' ∉ serial.toList ∨ ∃ sequence : String, ':' ∉ sequence.toList ∧ serial = sequence ++ ":") ∧
      (∀ complete, added = some complete → complete =
        (lastRun (PageSerial.ofText serial).sequence calls).flatMap Prod.snd ++ states) ∧
      ((start pending).1 = true ↔ pending = none) ∧
      ((abort pending).1 = true ↔ pending ≠ none) ∧
      (pending ≠ none ↔ ∃ earlier call later, calls = earlier ++ call :: later ∧
        (call = .start ∨ ∃ text given, call = .page text given) ∧
          ∀ other ∈ call :: later, other.ends = false) := by
  intro pending added
  have gathered : gatheredOf pending (PageSerial.ofText serial).sequence =
      (lastRun (PageSerial.ofText serial).sequence calls).flatMap Prod.snd := gatheredOf_afterAll ..
  refine ⟨?_, ?_, ?_, ?_, ?_⟩
  · rw [← PageSerial.cursor_eq_none_iff]
    cases more : (PageSerial.ofText serial).cursor with
    | none => simp [added, addPage_of_last more]
    | some cursor => simp [added, addPage_of_cursor more]
  · intro complete completed
    cases more : (PageSerial.ofText serial).cursor with
    | none =>
      rw [← gathered]
      simpa [added, addPage_of_last more] using completed.symm
    | some cursor => simp [added, addPage_of_cursor more] at completed
  · cases pending <;> simp [start]
  · cases pending <;> simp [abort]
  · rw [ne_eq, afterAll_eq_none_iff, ← ne_eq, sinceEnd_ne_nil_iff]
    constructor
    · rintro ⟨earlier, call, later, same, goesOn⟩
      refine ⟨earlier, call, later, same, ?_, goesOn⟩
      cases call with
      | start => exact .inl rfl
      | abort => cases goesOn .abort List.mem_cons_self
      | page text given => exact .inr ⟨text, given, rfl⟩
    · rintro ⟨earlier, call, later, same, -, goesOn⟩
      exact ⟨earlier, call, later, same, goesOn⟩

end SharedGraph
