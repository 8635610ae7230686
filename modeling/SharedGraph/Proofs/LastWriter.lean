import SharedGraph.Proofs.Registers
import Mathlib.Data.List.Induction

/-! The last writer wins. Whatever is done to the contents of a map is a list of writes, and
what stands under a key in the end is the first one among the writes to it that have the
greatest serial. Where no two serials are the same, the order of the writes is of no
importance. -/
namespace SharedGraph

/-! ## The order of writes -/

/-- Whether a write has a smaller serial than another. One without a serial, or with an empty
one, comes before every write that has one. -/
def Entry.Precedes (first second : Entry) : Prop :=
  match Serial.effective first.serial, Serial.effective second.serial with
  | none, some _ => True
  | some low, some high => low < high
  | _, none => False

/-- The first one of the writes with the greatest serial. -/
def Prevails (writes : List Entry) (entry : Entry) : Prop :=
  ∃ earlier later, writes = earlier ++ entry :: later ∧
    (∀ write ∈ earlier, write.Precedes entry) ∧ ∀ write ∈ later, ¬ entry.Precedes write

namespace Entry

variable {a b c : Entry}

private theorem precedes_iff : a.Precedes b ↔ Serial.isNewer b.serial a.serial = true := by
  rw [Serial.isNewer_iff]
  unfold Precedes
  cases Serial.effective a.serial <;> cases Serial.effective b.serial <;> simp

instance (first second : Entry) : Decidable (first.Precedes second) := decidable_of_iff' _ precedes_iff

private theorem not_precedes_self (entry : Entry) : ¬ entry.Precedes entry := by
  rw [precedes_iff, Serial.isNewer_irrefl]
  exact nofun

theorem Precedes.trans (first : a.Precedes b) (second : b.Precedes c) : a.Precedes c := by
  rw [precedes_iff] at first second ⊢
  exact Serial.isNewer_trans second first

/-- Of two writes with different serials one precedes the other. -/
theorem precedes_of_not (distinct : Serial.effective a.serial ≠ Serial.effective b.serial)
    (notAfter : ¬ b.Precedes a) : a.Precedes b := by
  rw [precedes_iff] at notAfter ⊢
  rw [Serial.isNewer_eq_not distinct.symm, Bool.eq_false_iff.2 notAfter, Bool.not_false]

/-- Writes that share a serial precede the same ones. -/
theorem precedes_of_not_precedes (notAfter : ¬ b.Precedes a) (first : b.Precedes c) : a.Precedes c := by
  by_cases same : Serial.effective a.serial = Serial.effective b.serial
  · unfold Precedes at first ⊢
    rwa [same]
  · exact (precedes_of_not same notAfter).trans first

end Entry

namespace Prevails

variable {writes others : List Entry} {entry other : Entry}

theorem mem (prevails : Prevails writes entry) : entry ∈ writes := by
  obtain ⟨earlier, later, rfl, -, -⟩ := prevails
  exact List.mem_append_right _ (List.mem_cons_self ..)

/-- No write comes after the one that prevails. -/
theorem greatest (prevails : Prevails writes entry) : ∀ write ∈ writes, ¬ entry.Precedes write := by
  obtain ⟨earlier, later, rfl, below, notAbove⟩ := prevails
  intro write member
  rcases List.mem_append.1 member with early | late
  · exact fun after => Entry.not_precedes_self write ((below write early).trans after)
  · rcases List.mem_cons.1 late with rfl | late
    · exact Entry.not_precedes_self write
    · exact notAbove write late

theorem unique (first : Prevails writes entry) (second : Prevails writes other) : entry = other := by
  obtain ⟨earlier, later, rfl, below, notAbove⟩ := first
  obtain ⟨before, after, split, belowToo, notAboveToo⟩ := second
  -- were one of them earlier, the other one would both follow it and not
  rcases List.append_eq_append_iff.1 split with ⟨between, rfl, rest⟩ | ⟨between, rfl, rest⟩
  · cases between with
    | nil => injection rest
    | cons write between =>
      injection rest with head tail
      subst head tail
      exact absurd (belowToo entry (by simp)) (notAbove other (by simp))
  · cases between with
    | nil =>
      injection rest with head
      exact head.symm
    | cons write between =>
      injection rest with head tail
      subst head tail
      exact absurd (below other (by simp)) (notAboveToo entry (by simp))

/-- Where all serials are different, the order of the writes does not matter. -/
theorem of_perm (prevails : Prevails writes entry) (moved : others.Perm writes)
    (distinct : (others.map fun write => Serial.effective write.serial).Nodup) : Prevails others entry := by
  obtain ⟨earlier, later, rfl⟩ := List.append_of_mem (moved.mem_iff.2 prevails.mem)
  refine ⟨earlier, later, rfl, fun write early => ?_, fun write late => ?_⟩
  · rw [List.map_append, List.map_cons, List.nodup_append] at distinct
    have different := distinct.2.2 _ (List.mem_map_of_mem early) _ (List.mem_cons_self ..)
    exact Entry.precedes_of_not different
      (prevails.greatest write (moved.mem_iff.1 (List.mem_append_left _ early)))
  · exact prevails.greatest write (moved.mem_iff.1 (by simp [late]))

/-- A further write prevails if it comes after the one that prevailed so far. -/
theorem concat (prevails : Prevails writes entry) (write : Entry) :
    Prevails (writes ++ [write]) (Entries.settle (some entry) write) := by
  cases newer : Serial.isNewer write.serial entry.serial with
  | true =>
    rw [Entries.settle_of_newer newer]
    have after := Entry.precedes_iff.2 newer
    refine ⟨writes, [], rfl, fun other member => ?_, by simp⟩
    exact Entry.precedes_of_not_precedes (prevails.greatest other member) after
  | false =>
    obtain ⟨earlier, later, rfl, below, notAbove⟩ := prevails
    rw [Entries.settle_of_not_newer newer]
    have notAfter : ¬ entry.Precedes write := by rw [Entry.precedes_iff, newer]; exact nofun
    refine ⟨earlier, later ++ [write], by simp, below, fun other member => ?_⟩
    rcases List.mem_append.1 member with late | last
    · exact notAbove other late
    · rw [List.mem_singleton.1 last]
      exact notAfter

end Prevails

/-! ## What is written -/

/-- What operations do to the contents of a map. -/
inductive Edit where
  | set (key : String) (data : Data) (serial : Option Serial)
  | remove (key : String) (serial : Option Serial) (time : Int)
  /-- First contents are merged. -/
  | merge (first : Entries) (time : Int)

/-- The write that an entry of first contents stands for: a removal, unless it has a value. -/
def Entry.brought (time : Int) (entry : Entry) : Entry :=
  match entry.tombstone, entry.data with
  | false, some data => .live data entry.serial
  | _, _ => .removed entry.serial (entry.tombstonedAt.getD time)

namespace Edit

def apply (entries : Entries) : Edit → Entries
  | .set key data serial => (entries.set key data serial).2
  | .remove key serial time => (entries.remove key serial time).2
  | .merge first time => (entries.mergeInitial first time).2

/-- The keys that are written, each with what is written there. -/
def writes : Edit → List (String × Entry)
  | .set key data serial => [(key, .live data serial)]
  | .remove key serial time => [(key, .removed serial time)]
  | .merge first time => first.toList.map fun entry => (entry.1, entry.2.brought time)

/-- The contents after a list of edits of an empty map. -/
def run (edits : List Edit) : Entries := edits.foldl apply .empty

end Edit

/-- The writes to one key, in their order. -/
def writesTo (key : String) (writes : List (String × Entry)) : List Entry :=
  (writes.filter fun write => write.1 = key).map Prod.snd

private theorem Entry.initialWrite_eq_brought (time : Int) (entry : Entry) :
    Entries.initialWrite time entry = entry.brought time := by
  obtain ⟨tombstone, serial, data, tombstonedAt⟩ := entry
  cases tombstone <;> cases data <;> rfl

private theorem Edit.apply_eq (entries : Entries) (edit : Edit) :
    edit.apply entries = entries.writeAll edit.writes := by
  cases edit with
  | set key data serial => rfl
  | remove key serial time => rfl
  | merge first time =>
    simp only [apply, writes, Entries.mergeInitial_entries, Entries.initialWrites,
      Entry.initialWrite_eq_brought]

private theorem Entries.writeAll_append (entries : Entries) (writes others : List (String × Entry)) :
    entries.writeAll (writes ++ others) = (entries.writeAll writes).writeAll others :=
  List.foldl_append ..

/-- A list of edits is the list of their writes. -/
theorem Edit.run_eq (edits : List Edit) : run edits = Entries.writeAll .empty (edits.flatMap writes) := by
  unfold run
  generalize (SortedMap.empty : Entries) = entries
  induction edits generalizing entries with
  | nil => rfl
  | cons edit rest ih => rw [List.foldl_cons, ih, apply_eq, List.flatMap_cons, Entries.writeAll_append]

/-- Under a key there is what prevails among the writes to it, or nothing. -/
theorem Entries.get?_writeAll (writes : List (String × Entry)) (key : String) :
    (writesTo key writes = [] ∧ (writeAll .empty writes).get? key = none) ∨
      ∃ entry, (writeAll .empty writes).get? key = some entry ∧ Prevails (writesTo key writes) entry := by
  induction writes using List.reverseRecOn with
  | nil => exact .inl ⟨rfl, rfl⟩
  | append_singleton writes write ih =>
    have last : writeAll .empty (writes ++ [write]) =
        ((writeAll .empty writes).write write.1 write.2).2 := writeAll_append ..
    rw [last, get?_write]
    unfold writesTo at ih ⊢
    rw [List.filter_append, List.map_append]
    by_cases same : write.1 = key
    · subst same
      rw [if_pos rfl]
      refine .inr ⟨_, rfl, ?_⟩
      rcases ih with ⟨none, absent⟩ | ⟨entry, present, prevails⟩
      · rw [none, absent]
        exact ⟨[], [], by simp [settle], by simp, by simp⟩
      · rw [present]
        simpa using prevails.concat write.2
    · rw [if_neg (Ne.symm same)]
      simpa [same] using ih

private theorem Entries.get?_writeAll_eq_some_iff {writes : List (String × Entry)} {key : String}
    {entry : Entry} :
    (writeAll .empty writes).get? key = some entry ↔ Prevails (writesTo key writes) entry := by
  rcases get?_writeAll writes key with ⟨none, absent⟩ | ⟨found, present, prevails⟩
  · rw [absent, none]
    exact ⟨nofun, fun prevails => nomatch prevails.mem⟩
  · rw [present, Option.some.injEq]
    exact ⟨fun same => same ▸ prevails, prevails.unique⟩

private theorem Entries.isSome_get?_writeAll {writes : List (String × Entry)} {key : String} :
    ((writeAll .empty writes).get? key).isSome ↔ ∃ write ∈ writes, write.1 = key := by
  rcases get?_writeAll writes key with ⟨none, absent⟩ | ⟨found, present, prevails⟩
  · rw [absent]
    refine ⟨nofun, fun ⟨write, member, same⟩ => ?_⟩
    have listed : write.2 ∈ writesTo key writes :=
      List.mem_map_of_mem (List.mem_filter.2 ⟨member, decide_eq_true same⟩)
    rw [none] at listed
    cases listed
  · rw [present]
    obtain ⟨write, listed, -⟩ := List.mem_map.1 prevails.mem
    obtain ⟨member, same⟩ := List.mem_filter.1 listed
    exact ⟨fun _ => ⟨write, member, of_decide_eq_true same⟩, fun _ => rfl⟩

private theorem writesTo_perm (key : String) {writes others : List (String × Entry)}
    (moved : others.Perm writes) :
    (writesTo key others).Perm (writesTo key writes) :=
  (moved.filter _).map _

/-- Whatever is set, removed and merged, with whatever serials, a key holds the first one of
the writes to it that have the greatest serial; it holds something exactly if it was written;
and where no two writes to a key share their serial, nor lack it both, their order does not
matter. -/
theorem last_writer_wins (edits : List Edit) :
    (∀ key entry, (Edit.run edits).get? key = some entry ↔
      Prevails (writesTo key (edits.flatMap Edit.writes)) entry) ∧
    (∀ key, ((Edit.run edits).get? key).isSome ↔ ∃ edit ∈ edits, ∃ write ∈ edit.writes, write.1 = key) ∧
    ∀ others : List Edit, (others.flatMap Edit.writes).Perm (edits.flatMap Edit.writes) →
      (∀ key, ((writesTo key (edits.flatMap Edit.writes)).map fun write =>
        Serial.effective write.serial).Nodup) →
      Edit.run others = Edit.run edits := by
  refine ⟨fun key entry => ?_, fun key => ?_, fun others moved distinct => ?_⟩
  · rw [Edit.run_eq, Entries.get?_writeAll_eq_some_iff]
  · rw [Edit.run_eq, Entries.isSome_get?_writeAll]
    constructor
    · rintro ⟨write, member, same⟩
      obtain ⟨edit, listed, writes⟩ := List.mem_flatMap.1 member
      exact ⟨edit, listed, write, writes, same⟩
    · rintro ⟨edit, listed, write, writes, same⟩
      exact ⟨write, List.mem_flatMap.2 ⟨edit, listed, writes⟩, same⟩
  · ext1 key
    rw [Edit.run_eq, Edit.run_eq]
    have movedTo := writesTo_perm key moved
    apply Option.ext
    intro entry
    rw [Entries.get?_writeAll_eq_some_iff, Entries.get?_writeAll_eq_some_iff]
    have distinctToo := (movedTo.map fun write => Serial.effective write.serial).nodup_iff.2 (distinct key)
    exact ⟨fun prevails => prevails.of_perm movedTo.symm (distinct key),
      fun prevails => prevails.of_perm movedTo distinctToo⟩

private def drafts : List Edit :=
  [.set "title" (.text "late") none, .set "title" (.text "first") (some ⟨"01"⟩),
    .merge (SortedMap.empty.insert "title" ⟨true, some ⟨"02"⟩, some (.text "gone"), none⟩) 5]

/-- A removal that a create operation brings along beats a write without a serial and one
with a smaller one, whichever comes first. -/
theorem last_writer_wins_drafts :
    (Edit.run drafts).get? "title" = some (.removed (some ⟨"02"⟩) 5) ∧
      Edit.run drafts.reverse = Edit.run drafts :=
  have prevails : Prevails (writesTo "title" (drafts.flatMap Edit.writes)) (.removed (some ⟨"02"⟩) 5) :=
    ⟨[.live (.text "late") none, .live (.text "first") (some ⟨"01"⟩)], [], rfl,
      by decide, by simp⟩
  have moved : (drafts.reverse.flatMap Edit.writes).Perm (drafts.flatMap Edit.writes) :=
    (List.reverse_perm drafts).flatMap_right _
  have titled : ∀ write ∈ drafts.flatMap Edit.writes, write.1 = "title" := by decide
  have distinct (key : String) : ((writesTo key (drafts.flatMap Edit.writes)).map fun write =>
      Serial.effective write.serial).Nodup := by
    by_cases same : key = "title"
    · rw [same]
      decide
    · have none : writesTo key (drafts.flatMap Edit.writes) = [] := by
        rw [writesTo, List.map_eq_nil_iff, List.filter_eq_nil_iff]
        intro write member
        rw [titled write member, decide_eq_true_eq]
        exact Ne.symm same
      rw [none]
      exact List.nodup_nil
  ⟨((last_writer_wins drafts).1 "title" _).2 prevails,
    (last_writer_wins drafts).2.2 drafts.reverse moved distinct⟩

end SharedGraph
