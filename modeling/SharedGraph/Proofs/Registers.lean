import SharedGraph.Entries
import SharedGraph.Proofs.Maps

/-! Every key of a map is a register of its own. Of two writes the one with the greater
serial stands, so writes to a key may come in either order as long as their serials
differ, and writes to different keys never meet. -/
namespace SharedGraph

namespace Serial

theorem lt_irrefl (serial : Serial) : ¬ serial < serial := String.lt_irrefl serial.text

theorem lt_trans {a b c : Serial} (first : a < b) (second : b < c) : a < c :=
  String.lt_trans first second

theorem lt_trichotomy (a b : Serial) : a < b ∨ a = b ∨ b < a := by
  rcases Std.lt_trichotomy a.text b.text with less | same | greater
  · exact .inl less
  · exact .inr (.inl (by cases a; cases b; cases same; rfl))
  · exact .inr (.inr greater)

theorem isNewer_iff {written recorded : Option Serial} : isNewer written recorded = true ↔
    ∃ new, effective written = some new ∧ ∀ old, effective recorded = some old → old < new := by
  unfold isNewer
  cases effective written <;> cases effective recorded <;> simp

theorem isNewer_trans {a b c : Option Serial} (first : isNewer a b = true)
    (second : isNewer b c = true) : isNewer a c = true := by
  rw [isNewer_iff] at first second ⊢
  obtain ⟨new, newSame, above⟩ := first
  obtain ⟨middle, middleSame, aboveOld⟩ := second
  exact ⟨new, newSame, fun old oldSame => lt_trans (aboveOld old oldSame) (above middle middleSame)⟩

theorem isNewer_irrefl (a : Option Serial) : isNewer a a = false := by
  rw [Bool.eq_false_iff, ne_eq, isNewer_iff]
  rintro ⟨new, same, above⟩
  exact lt_irrefl new (above new same)

/-- Of two different serials one is newer, and only one. -/
theorem isNewer_eq_not {a b : Option Serial} (distinct : effective a ≠ effective b) :
    isNewer a b = !isNewer b a := by
  cases forward : isNewer b a with
  | true =>
    rw [Bool.not_true, Bool.eq_false_iff]
    intro backward
    exact Bool.eq_false_iff.1 (isNewer_irrefl a) (isNewer_trans backward forward)
  | false =>
    rw [Bool.not_false, isNewer_iff]
    rw [Bool.eq_false_iff, ne_eq, isNewer_iff] at forward
    cases writtenSame : effective a with
    | none =>
      cases recordedSame : effective b with
      | none => exact absurd (writtenSame.trans recordedSame.symm) distinct
      | some other => exact absurd ⟨other, recordedSame, by simp [writtenSame]⟩ forward
    | some new =>
      refine ⟨new, rfl, fun old oldSame => ?_⟩
      rcases lt_trichotomy old new with less | same | greater
      · exact less
      · exact absurd (by rw [writtenSame, oldSame, same]) distinct
      · refine absurd ⟨old, oldSame, ?_⟩ forward
        intro older olderSame
        rw [writtenSame, Option.some.injEq] at olderSame
        exact olderSame ▸ greater

end Serial

namespace Entries

/-- What stands in a register after a write to it. -/
def settle (recorded : Option Entry) (entry : Entry) : Entry :=
  match recorded with
  | some old => if Serial.isNewer entry.serial old.serial then entry else old
  | none => entry

theorem settle_of_newer {entry old : Entry} (newer : Serial.isNewer entry.serial old.serial = true) :
    settle (some old) entry = entry := by
  simp only [settle, newer, ↓reduceIte]

theorem settle_of_not_newer {entry old : Entry}
    (kept : Serial.isNewer entry.serial old.serial = false) : settle (some old) entry = old := by
  simp only [settle, kept, Bool.false_eq_true, ↓reduceIte]

private theorem settle_pair {first second : Entry}
    (distinct : Serial.effective first.serial ≠ Serial.effective second.serial) :
    settle (some first) second = settle (some second) first := by
  have either := Serial.isNewer_eq_not distinct
  rcases Bool.eq_false_or_eq_true (Serial.isNewer second.serial first.serial) with newer | kept
  · rw [newer, Bool.not_true] at either
    rw [settle_of_newer newer, settle_of_not_newer either]
  · rw [kept, Bool.not_false] at either
    rw [settle_of_newer either, settle_of_not_newer kept]

/-- Two writes with different serials may settle in either order. -/
theorem settle_comm (recorded : Option Entry) {first second : Entry}
    (distinct : Serial.effective first.serial ≠ Serial.effective second.serial) :
    settle (some (settle recorded first)) second = settle (some (settle recorded second)) first := by
  cases recorded with
  | none => exact settle_pair distinct
  | some old =>
    rcases Bool.eq_false_or_eq_true (Serial.isNewer first.serial old.serial) with newer | kept
    · rcases Bool.eq_false_or_eq_true (Serial.isNewer second.serial old.serial) with later | older
      · rw [settle_of_newer newer, settle_of_newer later]
        exact settle_pair distinct
      · have loses : Serial.isNewer second.serial first.serial = false :=
          Bool.eq_false_iff.2 fun wins =>
            Bool.eq_false_iff.1 older (Serial.isNewer_trans wins newer)
        rw [settle_of_newer newer, settle_of_not_newer older, settle_of_not_newer loses,
          settle_of_newer newer]
    · rcases Bool.eq_false_or_eq_true (Serial.isNewer second.serial old.serial) with later | older
      · have loses : Serial.isNewer first.serial second.serial = false :=
          Bool.eq_false_iff.2 fun wins =>
            Bool.eq_false_iff.1 kept (Serial.isNewer_trans wins later)
        rw [settle_of_not_newer kept, settle_of_newer later, settle_of_not_newer loses]
      · rw [settle_of_not_newer kept, settle_of_not_newer older, settle_of_not_newer kept]

private theorem write_entries (entries : Entries) (key : String) (entry : Entry) :
    (write entries key entry).2 = if canWrite entries key entry.serial then entries.insert key entry
      else entries := by
  unfold write
  split <;> rfl

theorem get?_write (entries : Entries) (key other : String) (entry : Entry) :
    (write entries key entry).2.get? other =
      if other = key then some (settle (entries.get? key) entry) else entries.get? other := by
  rw [write_entries]
  unfold canWrite settle
  cases recorded : entries.get? key with
  | none => simp only [↓reduceIte, SortedMap.get?_insert_ite]
  | some old =>
    cases newer : Serial.isNewer entry.serial old.serial with
    | true => simp only [newer, ↓reduceIte, SortedMap.get?_insert_ite]
    | false =>
      simp only [newer, Bool.false_eq_true, ↓reduceIte]
      split
      case isTrue same => rw [same, recorded]
      case isFalse => rfl

theorem write_comm (entries : Entries) {key other : String} {first second : Entry}
    (distinct : key = other → Serial.effective first.serial ≠ Serial.effective second.serial) :
    (write (write entries key first).2 other second).2 =
      (write (write entries other second).2 key first).2 := by
  ext1 probe
  simp only [get?_write]
  by_cases same : key = other
  · subst same
    by_cases atKey : probe = key
    · simp only [atKey, ↓reduceIte]
      rw [settle_comm _ (distinct rfl)]
    · simp only [atKey, ↓reduceIte]
  · by_cases atKey : probe = key
    · subst atKey
      simp only [same, ↓reduceIte]
    · simp only [atKey, Ne.symm same, ↓reduceIte]

/-- Many writes, one after another. -/
def writeAll (entries : Entries) (writes : List (String × Entry)) : Entries :=
  writes.foldl (fun current write => (Entries.write current write.1 write.2).2) entries

/-- The writes that first contents stand for. -/
def initialWrites (initial : Entries) (time : Int) : List (String × Entry) :=
  initial.toList.map fun entry => (entry.1, initialWrite time entry.2)

theorem mergeInitial_entries (entries initial : Entries) (time : Int) :
    (mergeInitial entries initial time).2 = writeAll entries (initialWrites initial time) := by
  unfold mergeInitial writeAll initialWrites
  generalize (SortedMap.empty : KeyChanges) = changes
  generalize initial.toList = list
  induction list generalizing entries changes with
  | nil => rfl
  | cons entry rest ih => simpa only [List.map_cons, List.foldl_cons] using ih _ _

theorem write_change (entries : Entries) (key : String) (entry : Entry) :
    (write entries key entry).1 = if canWrite entries key entry.serial then
      KeyChange.ofEntries (entries.get? key) (some entry) else none := by
  unfold write
  split <;> rfl

/-- Whether a write changes its register, and how, depends on that register alone. -/
theorem write_change_congr {entries other : Entries} {key : String}
    (same : entries.get? key = other.get? key) (entry : Entry) :
    (write entries key entry).1 = (write other key entry).1 := by
  have admitted : canWrite entries key entry.serial = canWrite other key entry.serial := by
    simp only [canWrite, same]
  rw [write_change, write_change, admitted, same]

private theorem foldl_mergeInitial (time : Int) {list : List (String × Entry)}
    (ordered : Ascending list) (changes : KeyChanges) (entries : Entries) (key : String) :
    let merged := list.foldl (fun (changes, merged) (key, entry) =>
      let (change, written) := write merged key (initialWrite time entry)
      (noteChange changes key change, written)) (changes, entries)
    merged.1.get? key =
        ((Ascending.find key list).bind fun entry =>
          (write entries key (initialWrite time entry)).1).or (changes.get? key) ∧
      merged.2.get? key =
        ((Ascending.find key list).map fun entry =>
          settle (entries.get? key) (initialWrite time entry)).or (entries.get? key) := by
  induction list generalizing changes entries with
  | nil => exact ⟨rfl, rfl⟩
  | cons first rest ih =>
    obtain ⟨below, restOrdered⟩ := List.pairwise_cons.1 ordered
    obtain ⟨changesSame, entriesSame⟩ := ih restOrdered
      (noteChange changes first.1 (write entries first.1 (initialWrite time first.2)).1)
      (write entries first.1 (initialWrite time first.2)).2
    simp only [List.foldl_cons, Ascending.find, Keyed.text_eq_iff]
    simp only at changesSame entriesSame
    rw [changesSame, entriesSame, get?_write]
    by_cases same : key = first.1
    · subst same
      rw [Ascending.find_eq_none_of_below below]
      simp only [↓reduceIte, Option.bind_none, Option.none_or, Option.map_none, Option.bind_some,
        Option.map_some, Option.some_or, and_true]
      cases (write entries first.1 (initialWrite time first.2)).1 with
      | none => rfl
      | some change => simp [noteChange]
    · have untouched : (noteChange changes first.1
          (write entries first.1 (initialWrite time first.2)).1).get? key = changes.get? key := by
        cases (write entries first.1 (initialWrite time first.2)).1 with
        | none => rfl
        | some change => exact SortedMap.get?_insert_of_ne _ _ same
      have recorded : (write entries first.1 (initialWrite time first.2)).2.get? key =
          entries.get? key := by rw [get?_write, if_neg same]
      simp only [same, ↓reduceIte, untouched, write_change_congr recorded, and_self]

/-- Merging first contents writes each of their keys once. -/
theorem get?_mergeInitial (entries initial : Entries) (time : Int) (key : String) :
    (mergeInitial entries initial time).2.get? key =
      ((initial.get? key).map fun entry =>
        settle (entries.get? key) (initialWrite time entry)).or (entries.get? key) :=
  (foldl_mergeInitial time initial.ascending .empty entries key).2

theorem get?_mergeInitial_changes (entries initial : Entries) (time : Int) (key : String) :
    (mergeInitial entries initial time).1.get? key =
      (initial.get? key).bind fun entry => (write entries key (initialWrite time entry)).1 := by
  refine ((foldl_mergeInitial time initial.ascending .empty entries key).1).trans ?_
  rw [SortedMap.get?_empty, Option.or_none]
  rfl

@[simp] theorem initialWrite_serial (time : Int) (entry : Entry) :
    (initialWrite time entry).serial = entry.serial := by
  unfold initialWrite
  split <;> rfl

/-- A write that reports nothing leaves the value of its register as it was. -/
theorem settle_of_silent {entries : Entries} {key : String} {entry : Entry}
    (silent : (write entries key entry).1 = none) :
    some (settle (entries.get? key) entry) = entries.get? key ∨
      KeyChange.ofEntries (entries.get? key) (some (settle (entries.get? key) entry)) = none := by
  rw [write_change] at silent
  unfold canWrite at silent
  cases recorded : entries.get? key with
  | none =>
    simp only [recorded, ↓reduceIte] at silent
    exact .inr silent
  | some old =>
    simp only [recorded] at silent
    rcases Bool.eq_false_or_eq_true (Serial.isNewer entry.serial old.serial) with newer | kept
    · rw [if_pos newer] at silent
      rw [settle_of_newer newer]
      exact .inr silent
    · rw [settle_of_not_newer kept]
      exact .inl rfl

/-- First contents that are nowhere newer leave everything as it is. -/
theorem mergeInitial_of_kept {entries initial : Entries}
    (kept : ∀ key entry, initial.get? key = some entry → canWrite entries key entry.serial = false)
    (time : Int) : mergeInitial entries initial time = (.empty, entries) := by
  refine Prod.ext ?_ ?_
  · ext1 key
    rw [get?_mergeInitial_changes, SortedMap.get?_empty]
    cases brought : initial.get? key with
    | none => rfl
    | some entry =>
      simp only [Option.bind_some, write_change, initialWrite_serial, kept key entry brought,
        Bool.false_eq_true, ↓reduceIte]
  · ext1 key
    rw [get?_mergeInitial]
    cases brought : initial.get? key with
    | none => rfl
    | some entry =>
      have stays := kept key entry brought
      unfold canWrite at stays
      cases recorded : entries.get? key with
      | none => simp [recorded] at stays
      | some old =>
        rw [recorded] at stays
        rw [Option.map_some, Option.some_or, settle_of_not_newer (by rwa [initialWrite_serial])]

/-- First contents that are newer somewhere show. -/
theorem mergeInitial_ne {entries initial : Entries} {key : String} {entry : Entry}
    (brought : initial.get? key = some entry) (newer : canWrite entries key entry.serial = true)
    (time : Int) : (mergeInitial entries initial time).2 ≠ entries := by
  intro same
  have found := congrArg (fun entries => entries.get? key) same
  simp only [get?_mergeInitial, brought, Option.map_some, Option.some_or] at found
  unfold canWrite at newer
  cases recorded : entries.get? key with
  | none => simp [recorded] at found
  | some old =>
    simp only [recorded] at newer
    rw [recorded, settle_of_newer (by rwa [initialWrite_serial]), Option.some.injEq] at found
    rw [← found, initialWrite_serial, Serial.isNewer_irrefl] at newer
    cases newer

/-! ## Removals are dated -/

/-- Every removal knows when it was made, so that it can be forgotten in time. -/
def Timed (entries : Entries) : Prop :=
  ∀ key entry, entries.get? key = some entry → entry.tombstone = true →
    entry.tombstonedAt.isSome = true

theorem timed_empty : Timed .empty := by
  intro key entry present
  cases present

private theorem timed_initialWrite (time : Int) (entry : Entry) :
    (initialWrite time entry).tombstone = true → (initialWrite time entry).tombstonedAt.isSome = true := by
  unfold initialWrite
  split
  · exact nofun
  · exact fun _ => rfl

private theorem timed_settle {recorded : Option Entry} {entry : Entry}
    (dated : ∀ old, recorded = some old → old.tombstone = true → old.tombstonedAt.isSome = true)
    (datedNew : entry.tombstone = true → entry.tombstonedAt.isSome = true) :
    (settle recorded entry).tombstone = true → (settle recorded entry).tombstonedAt.isSome = true := by
  unfold settle
  split
  case h_1 old => split
                  · exact datedNew
                  · exact dated old rfl
  case h_2 => exact datedNew

theorem Timed.write {entries : Entries} (timed : Timed entries) (key : String) {entry : Entry}
    (dated : entry.tombstone = true → entry.tombstonedAt.isSome = true) :
    Timed (Entries.write entries key entry).2 := by
  intro probe found present
  rw [get?_write] at present
  split at present
  · cases present
    exact timed_settle (timed key) dated
  · exact timed probe found present

theorem Timed.mergeInitial {entries : Entries} (timed : Timed entries) (initial : Entries) (time : Int) :
    Timed (Entries.mergeInitial entries initial time).2 := by
  intro key found present
  rw [get?_mergeInitial] at present
  cases brought : initial.get? key with
  | none =>
    rw [brought] at present
    exact timed key found present
  | some entry =>
    simp only [brought, Option.map_some, Option.some_or, Option.some.injEq] at present
    subst present
    exact timed_settle (timed key) (timed_initialWrite time entry)

theorem timed_ofState (described : Entries) (time : Int) : Timed (ofState described time) := by
  intro key found present
  rw [ofState, SortedMap.get?_map, Option.map_eq_some_iff] at present
  obtain ⟨entry, -, rfl⟩ := present
  split
  · exact fun _ => rfl
  · rename_i live
    exact fun dead => absurd dead live

theorem Timed.dropExpired {entries : Entries} (timed : Timed entries) (cutoff : Int) :
    Timed (Entries.dropExpired entries cutoff) := by
  intro key found present
  rw [Entries.dropExpired, SortedMap.get?_filter, Option.filter_eq_some_iff] at present
  exact timed key found present.1

/-- Contents whose removals are dated are taken over as they are. -/
theorem Timed.ofState_eq {entries : Entries} (timed : Timed entries) (time : Int) :
    ofState entries time = entries := by
  ext1 key
  rw [ofState, SortedMap.get?_map]
  cases present : entries.get? key with
  | none => rfl
  | some entry =>
    simp only [Option.map_some, Option.some.injEq]
    split
    · obtain ⟨date, known⟩ := Option.isSome_iff_exists.1 (timed key entry present ‹_›)
      obtain ⟨tombstone, serial, data, tombstonedAt⟩ := entry
      simp only at known
      simp only [known, Option.getD_some]
    · rfl

end Entries

end SharedGraph
