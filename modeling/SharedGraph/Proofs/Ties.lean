import SharedGraph.Proofs.Interleaving
import SharedGraph.Proofs.Visibility

/-! Two sites write the same key without knowing of each other. What is left does not depend on
who comes first, as long as the two serials differ. If they are the same, nothing else decides
between the writes, and each participant keeps the one that it heard first. -/
namespace SharedGraph

namespace Entries

/-- Two writes to a register are in a tie if they share their serial and beat what stands there. -/
def Ties (recorded : Option Entry) (first second : Entry) : Prop :=
  Serial.effective first.serial = Serial.effective second.serial ∧
    ∀ old ∈ recorded, Serial.isNewer first.serial old.serial = true

instance (recorded : Option Entry) (first second : Entry) : Decidable (Ties recorded first second) :=
  inferInstanceAs (Decidable (_ ∧ _))

variable {recorded : Option Entry} {first second : Entry}

private theorem isNewer_congr (same : Serial.effective first.serial = Serial.effective second.serial)
    (old : Option Serial) : Serial.isNewer first.serial old = Serial.isNewer second.serial old := by
  simp only [Serial.isNewer, same]

theorem Ties.symm (ties : Ties recorded first second) : Ties recorded second first :=
  ⟨ties.1.symm, fun old present => isNewer_congr ties.1 old.serial ▸ ties.2 old present⟩

/-- In a tie the write that comes first stands. -/
theorem Ties.settle (ties : Ties recorded first second) :
    Entries.settle (some (Entries.settle recorded first)) second = first := by
  have won : Entries.settle recorded first = first := by
    cases recorded with
    | none => rfl
    | some old => exact settle_of_newer (ties.2 old rfl)
  rw [won]
  refine settle_of_not_newer ?_
  rw [← isNewer_congr ties.1, Serial.isNewer_irrefl]

/-- Writes that do not tie settle in either order. -/
theorem settle_comm_of_not_ties (untied : ¬ Ties recorded first second) :
    settle (some (settle recorded first)) second = settle (some (settle recorded second)) first := by
  by_cases same : Serial.effective first.serial = Serial.effective second.serial
  · cases recorded with
    | none => exact absurd ⟨same, by simp⟩ untied
    | some old =>
      have kept : Serial.isNewer first.serial old.serial = false := by
        refine Bool.eq_false_iff.2 fun newer => untied ⟨same, fun other present => ?_⟩
        cases present
        exact newer
      have keptToo : Serial.isNewer second.serial old.serial = false := by rw [← isNewer_congr same, kept]
      simp only [settle_of_not_newer kept, settle_of_not_newer keptToo]
  · exact settle_comm recorded same

end Entries

/-- A complete message that sets or removes a key of a map, by the entry that it writes and the
site and serial that it was issued with. -/
inductive Message.Writes (message : Message) (id : ObjectId) (key : String) :
    Entry → String × Serial → Prop
  | set {origin : String × Serial} {data : Data} (issued : message.origin? = some origin)
      (does : message.effect? = some (id, .onMap (.set key data))) :
      Writes message id key (.live data (some origin.2)) origin
  | remove {origin : String × Serial} (issued : message.origin? = some origin)
      (does : message.effect? = some (id, .onMap (.remove key))) :
      Writes message id key (.removed (some origin.2) (message.timestamp.getD 0)) origin

namespace Message.Writes

variable {message : Message} {id : ObjectId} {key : String} {entry : Entry} {origin : String × Serial}

private theorem does_effect (writes : message.Writes id key entry origin) :
    ∃ effect : MapEffect, message.effect? = some (id, .onMap effect) ∧
      effect.writes origin.2 (message.timestamp.getD 0) = [(key, entry)] ∧
      (Effect.onMap effect).isCreate = false := by
  cases writes with
  | set issued does => exact ⟨_, does, rfl, rfl⟩
  | remove issued does => exact ⟨_, does, rfl, rfl⟩

theorem issued (writes : message.Writes id key entry origin) : message.origin? = some origin := by
  cases writes with
  | set issued | remove issued => exact issued

end Message.Writes

namespace LiveObject

variable {object : LiveObject} {message : Message} {key : String} {entry : Entry}
  {origin : String × Serial}

/-- A write that is let in settles in the register of its key, unless the map is deleted. -/
theorem hear_of_writes (writes : message.Writes object.id key entry origin) (map : object.kind = .map)
    (newer : object.admits origin = true) :
    (object.hear message).serials = object.serials.record origin.1 origin.2 ∧
      (object.hear message).tombstone = object.tombstone ∧
      LiveObject.entry? (object.hear message) key =
        if object.tombstone then object.entry? key
        else some (Entries.settle (object.entry? key) entry) := by
  obtain ⟨effect, does, written, plain⟩ := writes.does_effect
  obtain ⟨entries, held⟩ := exists_entries map
  have through : object.passes (.onMap effect) origin = true := by
    simp only [passes, held, Effect.on?, Option.isSome_some, newer, Bool.and_self]
  rw [hear_of_passes does writes.issued through]
  unfold undergo
  by_cases dead : object.tombstone = true
  · simp only [dead, ↓reduceIte]
    exact ⟨rfl, dead, rfl⟩
  · simp only [dead, ↓reduceIte, reduceCtorEq, decide_false, Bool.false_eq, true_and]
    rw [entry?_of_map held]
    simp only [held, entry?, entries?, Contents.after, plain, Bool.and_false, Bool.false_eq_true,
      ↓reduceIte, Contents.enact, written, Contents.entries?, Option.bind_some]
    exact (Entries.get?_write entries key key entry).trans (if_pos rfl)

/-- Two writes of different sites, each newer than what the map has accepted from its site, are
both accepted, in either order. They leave the same entry unless they tie; then the one that
comes first stands. -/
theorem written_alike_iff {second : Message} {other : Entry} {passed : String × Serial}
    (map : object.kind = .map)
    (writes : message.Writes object.id key entry origin)
    (writesToo : second.Writes object.id key other passed) (different : origin.1 ≠ passed.1)
    (newer : object.admits origin = true) (newerToo : object.admits passed = true) :
    let forth := (object.hear message).hear second
    let back := (object.hear second).hear message
    forth.serials = back.serials ∧
      forth.serials.get? origin.1 = some origin.2 ∧ forth.serials.get? passed.1 = some passed.2 ∧
      (forth.entry? key = back.entry? key ↔ object.tombstone = true ∨
        ¬ Entries.Ties (object.entry? key) entry other ∨ entry = other) := by
  intro forth back
  have writesAfter : message.Writes (object.hear second).id key entry origin := by rwa [hear_id]
  have writesTooAfter : second.Writes (object.hear message).id key other passed := by rwa [hear_id]
  obtain ⟨serials, alive, settled⟩ := hear_of_writes writes map newer
  obtain ⟨serialsToo, aliveToo, settledToo⟩ := hear_of_writes writesToo map newerToo
  have newerAfter : (object.hear second).admits origin = true := by
    rw [admits, serialsToo, admits_record_of_ne different]
    exact newer
  have newerTooAfter : (object.hear message).admits passed = true := by
    rw [admits, serials, admits_record_of_ne different.symm]
    exact newerToo
  obtain ⟨serialsForth, -, forthSettled⟩ :=
    hear_of_writes writesTooAfter ((hear_kind ..).trans map) newerTooAfter
  obtain ⟨serialsBack, -, backSettled⟩ := hear_of_writes writesAfter ((hear_kind ..).trans map) newerAfter
  rw [serials] at serialsForth
  rw [serialsToo] at serialsBack
  rw [alive, settled] at forthSettled
  rw [aliveToo, settledToo] at backSettled
  refine ⟨?_, ?_, ?_, ?_⟩
  · rw [serialsForth, serialsBack, record_comm different]
  · rw [serialsForth, SiteSerials.record, SortedMap.get?_insert_of_ne _ _ different,
      SiteSerials.record, SortedMap.get?_insert_self]
  · rw [serialsForth, SiteSerials.record, SortedMap.get?_insert_self]
  · rw [forthSettled, backSettled]
    by_cases dead : object.tombstone = true
    · simp only [dead, ↓reduceIte, true_or]
    · simp only [dead, Bool.false_eq_true, ↓reduceIte, Option.some.injEq, false_or]
      by_cases ties : Entries.Ties (object.entry? key) entry other
      · rw [ties.settle, ties.symm.settle]
        exact ⟨.inr, fun settled => settled.resolve_left fun untied => untied ties⟩
      · exact iff_of_true (Entries.settle_comm_of_not_ties ties) (.inl ties)

private def written (site : String) (operation : Operation) : Message :=
  ((Message.ofOperation operation).withOrigin site ⟨"01"⟩).withTimestamp 7

private def titled (site title : String) : Message := written site (.mapSet .root "title" (.text title))

/-- Two sites that set a title with different serials are heard in either order. -/
theorem written_alike_iff_titles :
    let first := titled "a" "left"
    let second := { titled "b" "right" with serial := some ⟨"02"⟩ }
    let forth := ((placeholder .root .map).hear first).hear second
    let back := ((placeholder .root .map).hear second).hear first
    forth.entry? "title" = back.entry? "title" :=
  (written_alike_iff rfl (.set rfl rfl) (.set rfl rfl) (by decide) (by decide) (by decide)).2.2.2.2
    (.inr (.inl (by decide)))

/-- Two sites that set a title with the same serial are heard in either order, and each time
the title that was set first stays. -/
theorem tied_writes_differ :
    let forth := ((placeholder .root .map).hear (titled "a" "left")).hear (titled "b" "right")
    let back := ((placeholder .root .map).hear (titled "b" "right")).hear (titled "a" "left")
    forth.entry? "title" = some (.live (.text "left") (some ⟨"01"⟩)) ∧
      back.entry? "title" = some (.live (.text "right") (some ⟨"01"⟩)) := by
  decide +kernel

end LiveObject

end SharedGraph
