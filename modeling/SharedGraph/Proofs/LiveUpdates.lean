import SharedGraph.Proofs.DeliveryReports
import SharedGraph.Proofs.Reapplication

/-! What an operation reports, against a comparison of the object before and after it. A report
is put together write by write, and yet it says exactly what the comparison of all entries would
say. Undefined numbers are the exception, because they differ from themselves: a comparison
would name them every time, a write only when they are written. -/
namespace SharedGraph

/-- Whether the value holds no undefined number, so that it equals itself. In a JSON value all
numbers are finite. -/
def Data.isDefinite : Data → Bool
  | .number value => value != .nan
  | .json value => value.isFinite
  | _ => true

private theorem Data.agrees_self_of_isDefinite {data : Data} (definite : data.isDefinite = true) :
    data.agrees data = true := by
  cases data with
  | number value =>
    cases value with
    | nan => cases definite
    | infinity | finite => simp only [agrees, Double.equal, beq_self_eq_true, Bool.true_or, Bool.and_self]
  | json value => exact value.agrees_self definite
  | reference | text | boolean | bytes => simp only [agrees, beq_self_eq_true]

namespace Entries

/-- No value of the map is an undefined number. -/
def Definite (entries : Entries) : Prop :=
  ∀ key entry data, entries.get? key = some entry → entry.value? = some data → data.isDefinite = true

variable {entries : Entries}

private theorem Definite.ofEntries_self (definite : Definite entries) (key : String) :
    KeyChange.ofEntries (entries.get? key) (entries.get? key) = none := by
  unfold KeyChange.ofEntries
  cases shown : (entries.get? key).bind Entry.value? with
  | none => rfl
  | some data =>
    obtain ⟨entry, present, value⟩ := Option.bind_eq_some_iff.1 shown
    exact if_pos (Data.agrees_self_of_isDefinite (definite key entry data present value))

theorem get?_diffEntries (before after : Entries) (key : String) :
    (diffEntries before after).get? key = KeyChange.ofEntries (before.get? key) (after.get? key) := by
  rw [diffEntries, get?_changesOf]
  split
  case isTrue => rfl
  case isFalse absent =>
    rw [mem_bothKeys, not_or, Option.not_isSome_iff_eq_none, Option.not_isSome_iff_eq_none] at absent
    rw [absent.1, absent.2]
    rfl

/-- There is nothing to tell between a map and itself. -/
theorem Definite.isEmpty_diffEntries (definite : Definite entries) :
    (diffEntries entries entries).isEmpty = true := by
  rw [SortedMap.isEmpty_iff]
  intro key
  rw [get?_diffEntries, definite.ofEntries_self]

/-- A write says what became of its register, also when it loses. -/
theorem Definite.write_change_eq (definite : Definite entries) (key : String) (entry : Entry) :
    (write entries key entry).1 =
      KeyChange.ofEntries (entries.get? key) (some (settle (entries.get? key) entry)) := by
  have self := definite.ofEntries_self key
  rw [write_change, canWrite]
  cases recorded : entries.get? key with
  | none => rfl
  | some old =>
    rw [recorded] at self
    cases newer : Serial.isNewer entry.serial old.serial with
    | true => rw [settle_of_newer newer, if_pos newer]
    | false => rw [settle_of_not_newer newer, if_neg (Bool.eq_false_iff.1 newer), self]

private theorem Definite.noteChange_write (definite : Definite entries) (key : String) (entry : Entry) :
    noteChange .empty key (write entries key entry).1 = diffEntries entries (write entries key entry).2 := by
  ext1 probe
  rw [get?_diffEntries, get?_write, definite.write_change_eq]
  by_cases same : probe = key
  · subst same
    rw [if_pos rfl]
    cases KeyChange.ofEntries (entries.get? probe) (some (settle (entries.get? probe) entry)) with
    | none => exact SortedMap.get?_empty probe
    | some change => exact SortedMap.get?_insert_self ..
  · rw [if_neg same, definite.ofEntries_self]
    cases KeyChange.ofEntries (entries.get? key) (some (settle (entries.get? key) entry)) with
    | none => exact SortedMap.get?_empty probe
    | some change => exact (SortedMap.get?_insert_of_ne _ _ same).trans (SortedMap.get?_empty probe)

/-- The changes that are collected while first contents are merged are those of the whole map. -/
theorem Definite.mergeInitial_changes (definite : Definite entries) (first : Entries) (time : Int) :
    (mergeInitial entries first time).1 = diffEntries entries (mergeInitial entries first time).2 := by
  ext1 key
  rw [get?_diffEntries, get?_mergeInitial, get?_mergeInitial_changes]
  cases first.get? key with
  | none => exact (definite.ofEntries_self key).symm
  | some entry => exact definite.write_change_eq key (initialWrite time entry)

end Entries

namespace LiveObject

variable {object next : LiveObject} {operation : Operation} {message : Message} {update : Option Update}

/-- What an accepted operation does: a deleted object only remembers it, and a live one carries
out a step and reports it. -/
theorem applied_cases (accepted : object.apply operation message = .ok (.applied update, next)) :
    ∃ step origin, object.stepFor? operation = some step ∧
      (object.tombstone = true ∧ update = none ∧ next = object.admitting origin ∨
        object.tombstone = false ∧
          let result := (object.admitting origin).run step origin.2 (message.timestamp.getD 0)
          update = reportOf operation message result.1 ∧ next = result.2) := by
  cases asked : object.stepFor? operation with
  | none =>
    obtain ⟨fault, refused⟩ := apply_of_refused (.inl asked : _ ∨ message.origin? = none)
    rw [refused] at accepted
    cases accepted
  | some step =>
    cases from? : message.origin? with
    | none =>
      obtain ⟨fault, refused⟩ := apply_of_refused (.inr from? : object.stepFor? operation = none ∨ _)
      rw [refused] at accepted
      cases accepted
    | some origin =>
      rw [apply_of_step asked from?] at accepted
      refine ⟨step, origin, rfl, ?_⟩
      by_cases open? : object.admits origin = true
      case neg =>
        rw [if_neg open?] at accepted
        cases accepted
      rw [if_pos open?] at accepted
      by_cases dead : object.tombstone = true
      · rw [if_pos dead] at accepted
        cases accepted
        exact .inl ⟨dead, rfl, rfl⟩
      · rw [if_neg dead] at accepted
        cases accepted
        exact .inr ⟨Bool.eq_false_iff.2 dead, rfl, if_neg dead⟩

private theorem reportOf_eq_none_iff {update : Update} :
    reportOf operation message update = none ↔ update.isNoop = true ∧ operation.action ≠ .counterInc := by
  have same : (update.causedBy message.clientId message.connectionId).isNoop = update.isNoop := rfl
  rw [reportOf, same]
  simp only [ite_eq_left_iff, reduceCtorEq, imp_false, Decidable.not_not, Bool.and_eq_true, bne_iff_ne]

/-- Naming who caused an update does not change what it says. -/
theorem change_of_mem_reportOf {update reported : Update}
    (told : reported ∈ reportOf operation message update) : reported.change = update.change := by
  rw [reportOf] at told
  split at told
  · cases told
  · cases told
    rfl

/-! ## Maps -/

/-- A step of a map reports the difference of its entries. -/
theorem run_map_update {entries : Entries} (held : object.contents = .map entries)
    (definite : entries.Definite) (effect : MapEffect) (serial : Serial) (time : Int) :
    ∃ after, (object.run (.map effect entries) serial time).2.contents = .map after ∧
      (object.run (.map effect entries) serial time).2.tombstone = object.tombstone ∧
      (object.run (.map effect entries) serial time).1 = .ofKeys object.id (diffEntries entries after) := by
  cases effect with
  | set key data =>
    exact ⟨_, rfl, rfl, congrArg (Update.ofKeys object.id) (definite.noteChange_write key _)⟩
  | remove key =>
    exact ⟨_, rfl, rfl, congrArg (Update.ofKeys object.id) (definite.noteChange_write key _)⟩
  | create first =>
    simp only [run, mergeEntries]
    split
    case isTrue =>
      have nothing : diffEntries entries entries = .empty :=
        SortedMap.ext fun key => (SortedMap.isEmpty_iff.1 definite.isEmpty_diffEntries key).trans
          (SortedMap.get?_empty key).symm
      exact ⟨entries, held, rfl, by rw [nothing]⟩
    case isFalse =>
      exact ⟨_, rfl, rfl, congrArg (Update.ofKeys object.id) (definite.mergeInitial_changes first time)⟩

/-! ## Counters -/

/-- The amount that an operation would add to the counter. -/
def addition? (object : LiveObject) (operation : Operation) : Option Double :=
  if object.tombstone then none
  else (object.stepFor? operation).bind fun
    | .counter (.add amount) _ => some amount
    | .counter (.create first) _ => if object.createMerged then none else some first
    | _ => none

private theorem run_counter_update {count : Double} {effect : CounterEffect}
    (live : object.tombstone = false)
    (asked : object.stepFor? operation = some (.counter effect count)) {value : Int}
    (known : count.units? = some value)
    (exact : ∀ amount ∈ object.addition? operation, count.SumsExactly amount)
    (origin : String × Serial) (time : Int) :
    ∃ after amount total, ((object.admitting origin).run (.counter effect count) origin.2 time).2.contents =
        .counter after ∧
      ((object.admitting origin).run (.counter effect count) origin.2 time).2.tombstone = false ∧
      ((object.admitting origin).run (.counter effect count) origin.2 time).1 = .ofAmount object.id amount ∧
      after.units? = some total ∧ amount.units? = some (total - value) := by
  have held : object.contents = .counter count := fits_of_stepFor? asked
  have added {amount : Double} (adds : object.addition? operation = some amount) :
      ∃ total, (count.add amount).units? = some total ∧ amount.units? = some (total - value) := by
    obtain ⟨x, y, countSame, amountSame, sum⟩ := exact amount adds
    rw [known, Option.some.injEq] at countSame
    refine ⟨x + y, sum, ?_⟩
    rw [amountSame, countSame]
    congr 1
    omega
  cases effect with
  | add amount =>
    obtain ⟨total, sum, difference⟩ := added (by simp only [addition?, live, asked]; rfl)
    exact ⟨_, _, total, rfl, live, rfl, sum, difference⟩
  | create first =>
    simp only [run, mergeCount]
    split
    case isTrue =>
      refine ⟨count, _, value, held, live, rfl, known, ?_⟩
      rw [Int.sub_self]
      exact Double.units?_zero false
    case isFalse fresh =>
      obtain ⟨total, sum, difference⟩ := added
        (by simp only [addition?, live, asked]; exact if_neg fresh)
      exact ⟨_, _, total, rfl, live, rfl, sum, difference⟩

/-! ## Operations -/

/-- What an accepted operation of a map reports is the difference of its entries before and
after. Nothing is reported if there is none, unless the map was deleted just now. -/
theorem applied_map {before : Entries} (held : object.contents = .map before) (definite : before.Definite)
    (accepted : object.apply operation message = .ok (.applied update, next)) :
    ∃ after, next.contents = .map after ∧
      (∀ reported ∈ update, reported.keyChanges? = some (diffEntries before after)) ∧
      (update = none ↔ (diffEntries before after).isEmpty = true ∧
        ¬ (object.tombstone = false ∧ next.tombstone = true)) := by
  obtain ⟨step, origin, asked, ⟨dead, rfl, rfl⟩ | ⟨live, rfl, rfl⟩⟩ := applied_cases accepted
  · refine ⟨before, held, by simp, iff_of_true rfl ⟨definite.isEmpty_diffEntries, ?_⟩⟩
    rw [dead]
    exact fun deleted => nomatch deleted.1
  have heldToo : (object.admitting origin).contents = .map before := held
  have fits := fits_of_stepFor? asked
  cases step with
  | counter effect count => cases held.symm.trans fits
  | map effect entries =>
    obtain rfl : before = entries := Contents.map.inj (held.symm.trans fits)
    have plain : operation.action ≠ .counterInc :=
      Graph.plain_of_stepFor? asked fun _ _ => by simp only [ne_eq, reduceCtorEq, not_false_eq_true]
    obtain ⟨after, contents, tombstone, said⟩ :=
      run_map_update heldToo definite effect origin.2 (message.timestamp.getD 0)
    have stays : object.tombstone = ((object.admitting origin).run (.map effect before) origin.2
      (message.timestamp.getD 0)).2.tombstone := tombstone.symm
    refine ⟨after, contents, fun reported told => ?_, ?_⟩
    · rw [Update.keyChanges?, change_of_mem_reportOf told, said]
      rfl
    · rw [reportOf_eq_none_iff, said, ← stays, live]
      simp [Update.isNoop, Update.ofKeys, plain]
  | delete =>
    have plain : operation.action ≠ .counterInc :=
      Graph.plain_of_stepFor? asked fun _ _ => by simp only [ne_eq, reduceCtorEq, not_false_eq_true]
    refine ⟨.empty, by simp only [run, delete, kind, heldToo]; rfl, fun reported told => ?_, ?_⟩
    · rw [Update.keyChanges?, change_of_mem_reportOf told]
      simp only [run, delete, heldToo]
      rfl
    · rw [reportOf_eq_none_iff]
      simp [Update.isNoop, run, delete, live]

/-- What an accepted operation of a counter reports is the value after it minus the value before
it, if the addition is exact. -/
theorem applied_counter {before : Double} (held : object.contents = .counter before) {value : Int}
    (known : before.units? = some value)
    (exact : ∀ amount ∈ object.addition? operation, before.SumsExactly amount)
    (accepted : object.apply operation message = .ok (.applied update, next)) :
    ∃ after total, next.contents = .counter after ∧ after.units? = some total ∧
      (∀ reported ∈ update, reported.amount?.bind Double.units? = some (total - value)) ∧
      (update = none ↔ total - value = 0 ∧
        ¬ (operation.action = .counterInc ∧ object.tombstone = false) ∧
        ¬ (object.tombstone = false ∧ next.tombstone = true)) := by
  obtain ⟨step, origin, asked, ⟨dead, rfl, rfl⟩ | ⟨live, rfl, rfl⟩⟩ := applied_cases accepted
  · refine ⟨before, value, held, known, by simp, iff_of_true rfl ⟨Int.sub_self value, ?_⟩⟩
    rw [dead]
    exact ⟨fun added => (nomatch added.2), fun deleted => nomatch deleted.1⟩
  have heldToo : (object.admitting origin).contents = .counter before := held
  have fits := fits_of_stepFor? asked
  cases step with
  | map effect entries => cases held.symm.trans fits
  | counter effect count =>
    obtain rfl : before = count := Contents.counter.inj (held.symm.trans fits)
    obtain ⟨after, amount, total, contents, alive, said, sum, difference⟩ :=
      run_counter_update live asked known exact origin (message.timestamp.getD 0)
    refine ⟨after, total, contents, sum, fun reported told => ?_, ?_⟩
    · rw [Update.amount?, change_of_mem_reportOf told, said]
      exact difference
    · rw [reportOf_eq_none_iff, said, alive, live]
      have zero : amount.isZero = true ↔ total - value = 0 := by
        rw [Double.isZero_iff, difference, Option.some.injEq]
      simp [Update.isNoop, Update.ofAmount, zero]
  | delete =>
    refine ⟨.zero false, 0, by simp only [run, delete, kind, heldToo]; rfl, Double.units?_zero false,
      fun reported told => ?_, ?_⟩
    · rw [Update.amount?, change_of_mem_reportOf told]
      simp only [run, delete, heldToo, Update.ofAmount, Option.bind_some, Double.units?_zero_sub, known,
        Option.map_some, Int.zero_sub]
    · rw [reportOf_eq_none_iff]
      simp [Update.isNoop, run, delete, live]

/-- What an accepted operation reports is what a comparison of the object before and after it
gives. For a map these are the keys whose values differ, and nothing is reported just if there
are none and the map was not deleted. For a counter it is the value after the operation minus the
value before it, if that needs no rounding; here nothing is reported just if the amount is zero,
nothing was added to a live counter, and the counter was not deleted. -/
theorem applied_update_eq_difference
    (accepted : object.apply operation message = .ok (.applied update, next)) :
    (∀ before, object.contents = .map before → before.Definite →
      ∃ after, next.contents = .map after ∧
        (∀ reported ∈ update, reported.keyChanges? = some (diffEntries before after)) ∧
        (update = none ↔ (diffEntries before after).isEmpty = true ∧
          ¬ (object.tombstone = false ∧ next.tombstone = true))) ∧
    ∀ before value, object.contents = .counter before → before.units? = some value →
      (∀ amount ∈ object.addition? operation, before.SumsExactly amount) →
      ∃ after total, next.contents = .counter after ∧ after.units? = some total ∧
        (∀ reported ∈ update, reported.amount?.bind Double.units? = some (total - value)) ∧
        (update = none ↔ total - value = 0 ∧
          ¬ (operation.action = .counterInc ∧ object.tombstone = false) ∧
          ¬ (object.tombstone = false ∧ next.tombstone = true)) :=
  ⟨fun _ held definite => applied_map held definite accepted,
    fun _ _ held known exact => applied_counter held known exact accepted⟩

private def board : Entries :=
  SortedMap.empty.insert "title" (.live (.text "left") (some ⟨"01"⟩))

/-- A title that is set to what it was already is accepted and not reported, since a comparison
finds no difference. -/
theorem applied_update_eq_difference_title :
    let object := { placeholder .root .map with contents := .map board }
    let message := (Message.ofOperation (.mapSet .root "title" (.text "left"))).withOrigin "a" ⟨"02"⟩
    ∃ next after, object.apply (.mapSet .root "title" (.text "left")) message = .ok (.applied none, next) ∧
      next.contents = .map after ∧ (diffEntries board after).isEmpty = true := by
  intro object message
  have accepted : object.apply (.mapSet .root "title" (.text "left")) message = .ok (.applied none, _) := rfl
  have definite : board.Definite := by
    intro key entry data present value
    rw [board, SortedMap.get?_insert_ite, SortedMap.get?_empty] at present
    split at present <;> cases present
    cases value
    rfl
  obtain ⟨after, contents, -, silent⟩ :=
    (applied_update_eq_difference accepted).1 board rfl definite
  exact ⟨_, after, accepted, contents, (silent.1 rfl).1⟩

end LiveObject

end SharedGraph
