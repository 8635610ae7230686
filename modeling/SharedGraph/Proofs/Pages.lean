import Mathlib.Data.List.TakeWhile
import SharedGraph.Proofs.Runs

/-! A description that is sent in pages arrives as a whole. The serials of the pages are
read as they were written, each page but the last is put aside, and the last one completes
the list of states that was cut. -/
namespace SharedGraph

namespace PageSerial

private theorem not_colon_of_plain {chars : List Char} (plain : ':' ∉ chars) :
    ∀ char ∈ chars, (char != ':') = true := by
  intro char member
  refine bne_iff_ne.2 fun colon => plain ?_
  rw [← colon]
  exact member

/-- A text is cut at its first colon. -/
theorem ofText_of_split {sequence : String} (plain : ':' ∉ sequence.toList) (rest : String) :
    ofText (sequence ++ ":" ++ rest) = ⟨sequence, if rest = "" then none else some rest⟩ := by
  have before := not_colon_of_plain plain
  have chars : (sequence ++ ":" ++ rest).toList = sequence.toList ++ ':' :: rest.toList := by
    rw [String.toList_append, String.toList_append, List.append_assoc]
    rfl
  unfold ofText
  rw [chars, List.takeWhile_append_of_pos before, List.dropWhile_append_of_pos before]
  simp only [List.takeWhile_cons, List.dropWhile_cons, bne_self_eq_false, Bool.false_eq_true, ↓reduceIte,
    List.append_nil, String.ofList_toList, List.drop_succ_cons, List.drop_zero, List.isEmpty_iff,
    String.toList_eq_nil_iff]

/-- Without a colon there is no cursor. -/
theorem ofText_of_plain {text : String} (plain : ':' ∉ text.toList) : ofText text = ⟨text, none⟩ := by
  have whole := not_colon_of_plain plain
  simp only [ofText, List.takeWhile_eq_self_iff.2 whole, List.dropWhile_eq_nil_iff.2 whole,
    String.ofList_toList, List.drop_nil, List.isEmpty_nil, ↓reduceIte]

theorem exists_split {text : String} (colon : ':' ∈ text.toList) :
    ∃ sequence rest : String, ':' ∉ sequence.toList ∧ text = sequence ++ ":" ++ rest := by
  obtain ⟨front, back, same, plain⟩ := List.eq_append_cons_of_mem colon
  refine ⟨.ofList front, .ofList back, by rwa [String.toList_ofList], ?_⟩
  apply String.toList_inj.1
  simpa using same

/-- The last page of a sequence has no cursor in its serial, or an empty one. -/
theorem cursor_eq_none_iff {text : String} : (ofText text).cursor = none ↔
    ':' ∉ text.toList ∨ ∃ sequence : String, ':' ∉ sequence.toList ∧ text = sequence ++ ":" := by
  by_cases colon : ':' ∈ text.toList
  · obtain ⟨sequence, rest, plain, rfl⟩ := exists_split colon
    rw [ofText_of_split plain]
    constructor
    · intro last
      have empty : rest = "" := by
        by_contra more
        rw [if_neg more] at last
        cases last
      exact .inr ⟨sequence, plain, by rw [empty, String.append_empty]⟩
    · rintro (without | ⟨other, otherPlain, same⟩)
      · exact absurd colon without
      · have again := ofText_of_split plain rest
        have read := ofText_of_split otherPlain ""
        rw [String.append_empty, ← same, again] at read
        exact congrArg PageSerial.cursor read
  · rw [ofText_of_plain colon]
    exact iff_of_true rfl (.inl colon)

/-- A serial is read back if its sequence holds no colon and its cursor is not empty. -/
theorem ofText_toText {serial : PageSerial} (plain : ':' ∉ serial.sequence.toList)
    (named : serial.cursor ≠ some "") : ofText serial.toText = serial := by
  obtain ⟨sequence, cursor⟩ := serial
  have read := ofText_of_split plain (cursor.getD "")
  cases cursor with
  | none => exact read
  | some cursor =>
    have some : cursor ≠ "" := fun empty => named (congrArg _ empty)
    exact read.trans (by rw [Option.getD_some, if_neg some])

end PageSerial

namespace PendingSync

private theorem take_chunks {α : Type} (items : List α) (width count : Nat) :
    ((List.range count).flatMap fun index => (items.drop (index * width)).take width) =
      items.take (count * width) := by
  induction count with
  | zero => simp only [List.range_zero, List.flatMap_nil, Nat.zero_mul, List.take_zero]
  | succ count ih =>
    rw [List.range_succ, List.flatMap_append, ih, List.flatMap_singleton, Nat.succ_mul, List.take_add]

/-- The pages of a description are its parts in their order; all but the last say that more
of the same sequence follows. -/
theorem pages_spec (sequence : String) (size : Nat) (states : List ObjectState) :
    ∃ early last, pages sequence size states = early ++ [(⟨sequence, none⟩, last)] ∧
      (∀ page ∈ early, ∃ number, page.1 = ⟨sequence, some ("page" ++ Nat.repr number)⟩) ∧
      early.flatMap Prod.snd ++ last = states := by
  unfold pages
  have wide : 0 < max size 1 := by omega
  generalize max size 1 = width at wide
  by_cases none : (states.length + (width - 1)) / width = 0
  · refine ⟨[], [], ?_, nofun, ?_⟩
    · simp only [none, ↓reduceIte, List.nil_append]
    · rw [Nat.div_eq_zero_iff] at none
      have empty : states.length = 0 := by omega
      rw [List.length_eq_zero_iff.1 empty]
      rfl
  · obtain ⟨count, counted⟩ := Nat.exists_eq_succ_of_ne_zero none
    have enough : states.length ≤ (count + 1) * width := by
      have divided := Nat.div_add_mod (states.length + (width - 1)) width
      have rest := Nat.mod_lt (states.length + (width - 1)) wide
      rw [counted, Nat.succ_eq_add_one, Nat.mul_comm] at divided
      omega
    refine ⟨(List.range count).map fun index => (⟨sequence, some ("page" ++ Nat.repr (index + 1))⟩,
      (states.drop (index * width)).take width), (states.drop (count * width)).take width, ?_, ?_, ?_⟩
    · simp only [counted, Nat.add_eq_zero_iff, Nat.succ_ne_self, and_false, ↓reduceIte, List.range_succ,
        List.map_append, List.map_singleton, Nat.succ_eq_add_one]
      congr 1
      apply List.map_congr_left
      intro index member
      rw [if_neg]
      have less := List.mem_range.1 member
      omega
    · intro page member
      obtain ⟨index, -, rfl⟩ := List.mem_map.1 member
      exact ⟨index + 1, rfl⟩
    · rw [List.flatMap_map, take_chunks, ← List.take_add, ← Nat.succ_mul, List.take_of_length_le enough]

end PendingSync

end SharedGraph
