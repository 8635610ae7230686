import SharedGraph.Graph.Reading
import SharedGraph.Proofs.Deliveries
import SharedGraph.Proofs.ExactSums

/-! What readers see, and what updates say about it. A reader compares values as numbers
and texts, so "nothing changed" is a relation of its own; it is kept from one step to the
next, and so is the promise that every change was named. -/
namespace SharedGraph

/-! ## Agreement of values -/

theorem Double.equal_trans {a b c : Double} (first : a.equal b = true) (second : b.equal c = true) :
    a.equal c = true := by
  cases a <;> cases b <;> cases c <;>
    simp only [equal, Bool.false_eq_true, Bool.and_eq_true, Bool.or_eq_true, beq_iff_eq] at *
  · rw [first, second]
  · obtain ⟨rfl, signs⟩ := first
    obtain ⟨rfl, signsToo⟩ := second
    refine ⟨rfl, ?_⟩
    rcases signs with same | zero
    · rw [same]
      exact signsToo
    · exact .inr zero

private theorem JsonNumber.agrees_trans {a b c : JsonNumber} (first : a.agrees b = true)
    (second : b.agrees c = true) : a.agrees c = true := by
  cases a <;> cases b <;> cases c <;> simp only [agrees, Bool.false_eq_true, beq_iff_eq] at *
  · rw [first, second]
  · exact Double.equal_trans first second

namespace Json

mutual

theorem agrees_trans (a b c : Json) (first : a.agrees b = true) (second : b.agrees c = true) :
    a.agrees c = true := by
  cases a <;> cases b <;> simp only [agrees, Bool.false_eq_true, beq_iff_eq] at first <;>
    cases c <;> simp only [agrees, Bool.false_eq_true, beq_iff_eq] at second ⊢
  case boolean => rw [first, second]
  case number => exact JsonNumber.agrees_trans first second
  case text => rw [first, second]
  case array => exact agreeItems_trans _ _ _ first second
  case object => exact agreeFields_trans _ _ _ first second
  termination_by structural a

private theorem agreeItems_trans (a b c : List Json) (first : agreeItems a b = true)
    (second : agreeItems b c = true) : agreeItems a c = true := by
  cases a <;> cases b <;> simp only [agreeItems, Bool.false_eq_true, Bool.and_eq_true] at first <;>
    cases c <;> simp only [agreeItems, Bool.false_eq_true, Bool.and_eq_true] at second ⊢
  exact ⟨agrees_trans _ _ _ first.1 second.1, agreeItems_trans _ _ _ first.2 second.2⟩
  termination_by structural a

private theorem agreeField_trans (a b c : String × Json) (first : agreeField a b = true)
    (second : agreeField b c = true) : agreeField a c = true := by
  obtain ⟨name, value⟩ := a
  obtain ⟨nameToo, valueToo⟩ := b
  simp only [agreeField, Bool.and_eq_true, beq_iff_eq] at *
  exact ⟨first.1.trans second.1, agrees_trans value valueToo c.2 first.2 second.2⟩
  termination_by structural a

private theorem agreeFields_trans (a b c : List (String × Json)) (first : agreeFields a b = true)
    (second : agreeFields b c = true) : agreeFields a c = true := by
  cases a <;> cases b <;> simp only [agreeFields, Bool.false_eq_true, Bool.and_eq_true] at first <;>
    cases c <;> simp only [agreeFields, Bool.false_eq_true, Bool.and_eq_true] at second ⊢
  exact ⟨agreeField_trans _ _ _ first.1 second.1, agreeFields_trans _ _ _ first.2 second.2⟩
  termination_by structural a

end

end Json

theorem Data.agrees_trans {a b c : Data} (first : a.agrees b = true) (second : b.agrees c = true) :
    a.agrees c = true := by
  cases a <;> cases b <;> simp only [agrees, Bool.false_eq_true, beq_iff_eq] at first <;>
    cases c <;> simp only [agrees, Bool.false_eq_true, beq_iff_eq] at second ⊢
  case number => exact Double.equal_trans first second
  case json => exact Json.agrees_trans _ _ _ first second
  all_goals rw [first, second]

/-- Values that agree point to the same object, if to any. -/
theorem Data.target?_of_agrees {a b : Data} (same : a.agrees b = true) : a.target? = b.target? := by
  cases a <;> cases b <;> simp only [agrees, Bool.false_eq_true, beq_iff_eq] at same <;> try rfl
  rw [same]

/-! ## Changes for a reader -/

/-- A reader cannot tell the two values apart. -/
def Unchanged (before after : Option Data) : Prop :=
  before = after ∨ KeyChange.between before after = none

namespace Unchanged

variable {a b c : Option Data}

instance (before after : Option Data) : Decidable (Unchanged before after) :=
  inferInstanceAs (Decidable (_ ∨ _))

theorem refl (a : Option Data) : Unchanged a a := .inl rfl

private theorem isNone_eq (same : Unchanged a b) : a = none ↔ b = none := by
  rcases same with rfl | same
  · rfl
  · cases a <;> cases b <;> simp_all [KeyChange.between]

theorem trans (first : Unchanged a b) (second : Unchanged b c) : Unchanged a c := by
  rcases first with rfl | first
  · exact second
  rcases second with rfl | second
  · exact .inr first
  refine .inr ?_
  cases a with
  | none => cases b <;> cases c <;> simp_all [KeyChange.between]
  | some x =>
    cases b with
    | none => simp [KeyChange.between] at first
    | some y =>
      cases c with
      | none => simp [KeyChange.between] at second
      | some z =>
        simp only [KeyChange.between, ite_eq_left_iff, reduceCtorEq, imp_false, Bool.not_eq_true,
          Bool.not_eq_false] at first second ⊢
        exact Data.agrees_trans first second

end Unchanged

namespace KeyChange

private theorem between_eq_removed_iff {before after : Option Data} {change : KeyChange}
    (changed : between before after = some change) : change = .removed ↔ after = none := by
  cases before <;> cases after <;> simp only [between, reduceCtorEq, Option.some.injEq] at changed
  · subst changed
    simp
  · subst changed
    simp
  · split at changed
    · cases changed
    · cases changed
      simp

end KeyChange

/-- The change of a key that an update names. -/
def Update.namedChange? (update : Update) (id : ObjectId) (key : String) : Option KeyChange :=
  if update.id = id then update.keyChanges?.bind fun changes => changes.get? key else none

/-- The changes of a key that a list of updates names, in their order. -/
def changesNamed (updates : List Update) (id : ObjectId) (key : String) : List KeyChange :=
  updates.filterMap fun update => update.namedChange? id key

@[simp] theorem changesNamed_append (updates more : List Update) (id : ObjectId) (key : String) :
    changesNamed (updates ++ more) id key = changesNamed updates id key ++ changesNamed more id key :=
  List.filterMap_append ..

/-- What is named is just what differs for a reader, or nothing is, where nothing changed. -/
def Precise (before after : Graph) (updates : List Update) : Prop :=
  ∀ id key,
    changesNamed updates id key = (KeyChange.between (before.read id key) (after.read id key)).toList ∨
      changesNamed updates id key = [] ∧ Unchanged (before.read id key) (after.read id key)

/-- Every change for a reader is named, and the last name it gets says truly whether the
key is still there. -/
structure Reported (before after : Graph) (updates : List Update) : Prop where
  named : ∀ id key, ¬ Unchanged (before.read id key) (after.read id key) →
    changesNamed updates id key ≠ []
  last : ∀ id key change, (changesNamed updates id key).getLast? = some change →
    (change = .removed ↔ after.read id key = none)

namespace Reported

variable {before middle after : Graph} {updates more : List Update}

theorem of_unchanged (same : ∀ id key, Unchanged (before.read id key) (after.read id key)) :
    Reported before after [] :=
  ⟨fun id key changed => absurd (same id key) changed, nofun⟩

theorem refl (graph : Graph) : Reported graph graph [] := of_unchanged fun _ _ => .refl _

/-- It is enough to name exactly what differs, or nothing where nothing changed. -/
theorem of_between (unrounded : Precise before after updates) : Reported before after updates where
  named id key changed := by
    rcases unrounded id key with same | ⟨-, same⟩
    · rw [same]
      intro none
      exact changed (.inr (Option.toList_eq_nil_iff.1 none))
    · exact absurd same changed
  last id key change named := by
    rcases unrounded id key with same | ⟨none, -⟩
    · cases found : KeyChange.between (before.read id key) (after.read id key) with
      | none => simp [same, found] at named
      | some other =>
        rw [same, found] at named
        obtain rfl : other = change := by simpa using named
        exact KeyChange.between_eq_removed_iff found
    · rw [none] at named
      cases named

/-- If keys only vanish, it is enough to name those that do. -/
theorem of_removed
    (named : ∀ id key, ¬ Unchanged (before.read id key) (after.read id key) →
      .removed ∈ changesNamed updates id key)
    (gone : ∀ id key change, change ∈ changesNamed updates id key →
      change = .removed ∧ after.read id key = none) : Reported before after updates where
  named id key changed := List.ne_nil_of_mem (named id key changed)
  last id key change last := by
    obtain ⟨rfl, none⟩ := gone id key change (List.mem_of_getLast? last)
    simp only [none]

/-- What is true of the graph with its placeholders is true of the graph without them. -/
theorem of_reads {other : Graph} (same : ∀ id key, before.read id key = other.read id key)
    (reported : Reported other after updates) : Reported before after updates :=
  ⟨fun id key changed => reported.named id key (same id key ▸ changed), reported.last⟩

theorem trans (first : Reported before middle updates) (second : Reported middle after more) :
    Reported before after (updates ++ more) where
  named id key changed := by
    rw [changesNamed_append, ne_eq, List.append_eq_nil_iff]
    rintro ⟨none, noneToo⟩
    have same := Classical.byContradiction fun changed => first.named id key changed none
    have sameToo := Classical.byContradiction fun changed => second.named id key changed noneToo
    exact changed (same.trans sameToo)
  last id key change named := by
    rw [changesNamed_append, List.getLast?_append] at named
    cases later : (changesNamed more id key).getLast? with
    | some other =>
      rw [later, Option.some_or, Option.some.injEq] at named
      exact second.last id key change (named ▸ later)
    | none =>
      rw [later, Option.none_or] at named
      have silent : changesNamed more id key = [] := List.getLast?_eq_none_iff.1 later
      have same := Classical.byContradiction fun changed => second.named id key changed silent
      rw [first.last id key change named, same.isNone_eq]

end Reported

/-! ## Amounts -/

/-- The amounts that a list of updates names for a counter. -/
def amountsNamed (updates : List Update) (id : ObjectId) : List Double :=
  updates.filterMap fun update => if update.id = id then update.amount? else none

@[simp] theorem amountsNamed_append (updates more : List Update) (id : ObjectId) :
    amountsNamed (updates ++ more) id = amountsNamed updates id ++ amountsNamed more id :=
  List.filterMap_append ..

/-- The amounts that are named for a counter add up to the change of its exact value. -/
def Accounted (before after : Graph) (updates : List Update) (id : ObjectId) : Prop :=
  ∃ amounts, (amountsNamed updates id).mapM Double.units? = some amounts ∧
    (after.countOf id).units? = (before.countOf id).units?.map fun count => count + amounts.sum

namespace Accounted

variable {before middle after : Graph} {updates more : List Update} {id : ObjectId}

/-- Nothing has to be named if the value did not change. -/
theorem of_unchanged (silent : amountsNamed updates id = [])
    (same : (after.countOf id).units? = (before.countOf id).units?) :
    Accounted before after updates id := by
  refine ⟨[], by rw [silent]; rfl, ?_⟩
  rw [same]
  cases (before.countOf id).units? <;> simp

theorem of_single {amount : Double} {count difference : Int} (said : amountsNamed updates id = [amount])
    (known : (before.countOf id).units? = some count) (amountSame : amount.units? = some difference)
    (next : (after.countOf id).units? = some (count + difference)) :
    Accounted before after updates id := by
  refine ⟨[difference], ?_, ?_⟩
  · rw [said, List.mapM_cons, amountSame, List.mapM_nil]
    rfl
  · rw [next, known, Option.map_some, List.sum_singleton]

theorem trans (first : Accounted before middle updates id) (second : Accounted middle after more id) :
    Accounted before after (updates ++ more) id := by
  obtain ⟨amounts, said, changed⟩ := first
  obtain ⟨others, saidToo, changedToo⟩ := second
  refine ⟨amounts ++ others, ?_, ?_⟩
  · rw [amountsNamed_append, List.mapM_append, said, saidToo]
    rfl
  · rw [changedToo, changed, Option.map_map, List.sum_append]
    simp only [Function.comp_def, Int.add_assoc]

end Accounted

/-! ## What reading looks at -/

namespace LiveObject

/-- What a reader of the object finds under a key, given what entries show to readers. -/
def shown (object : LiveObject) (value : Entry → Option Data) (key : String) : Option Data :=
  if object.tombstone then none else (object.entry? key).bind value

private theorem shown_placeholder (id : ObjectId) (kind : Kind) (value : Entry → Option Data)
    (key : String) : (placeholder id kind).shown value key = none := by
  cases kind <;> rfl

theorem shown_of_dead {object : LiveObject} (dead : object.tombstone = true)
    (value : Entry → Option Data) (key : String) : object.shown value key = none := if_pos dead

theorem entry?_of_map {object : LiveObject} {entries : Entries} (held : object.contents = .map entries)
    (key : String) : object.entry? key = entries.get? key := by
  simp only [LiveObject.entry?, entries?, held, Contents.entries?, Option.bind_some]

theorem entry?_of_counter {object : LiveObject} {count : Double} (held : object.contents = .counter count)
    (key : String) : object.entry? key = none := by
  simp only [LiveObject.entry?, entries?, held, Contents.entries?, Option.bind_none]

theorem entry?_initial {object : LiveObject} {kind : Kind} (held : object.contents = .initial kind)
    (key : String) : object.entry? key = none := by
  cases kind with
  | map => exact entry?_of_map held key
  | counter => exact entry?_of_counter held key

end LiveObject

namespace Graph

theorem read_eq (graph : Graph) (id : ObjectId) (key : String) :
    graph.read id key = (graph.get? id).bind fun object => object.shown graph.valueOf key := rfl

/-- What entries show depends on which objects are deleted, and on nothing else. -/
theorem valueOf_congr {before after : Graph}
    (same : ∀ id, isTombstoned before id = isTombstoned after id) : valueOf before = valueOf after := by
  have tombstones : isTombstoned before = isTombstoned after := funext same
  unfold valueOf
  rw [tombstones]

/-- The graph with placeholders for some names that it did not hold. -/
def Grown (before after : Graph) : Prop :=
  ∀ id, after.get? id = before.get? id ∨
    before.get? id = none ∧ ∃ kind, id.kind? = some kind ∧ after.get? id = some (.placeholder id kind)

theorem grown_of_get? {before after : Graph} {ids : List ObjectId}
    (known : ∀ id, after.get? id = if id ∈ ids then before.orPlaceholder id else before.get? id) :
    Grown before after := by
  intro id
  rw [known id]
  split
  case isFalse => exact .inl rfl
  case isTrue =>
    cases present : before.get? id with
    | some object => exact .inl (orPlaceholder_of_get? present)
    | none =>
      rw [orPlaceholder, present, Option.none_or]
      cases shown : id.kind? with
      | none => exact .inl rfl
      | some kind => exact .inr ⟨rfl, kind, rfl, rfl⟩

/-- A placeholder holds nothing, so whoever holds an entry was there before. -/
theorem Grown.get?_of_written {before after : Graph} (grown : Grown before after) {id : ObjectId}
    {object : LiveObject} {key : String} {entry : Entry} (present : after.get? id = some object)
    (written : object.entry? key = some entry) : before.get? id = some object := by
  rcases grown id with same | ⟨-, kind, -, fresh⟩
  · exact same.symm.trans present
  · rw [present, Option.some.injEq] at fresh
    rw [fresh, LiveObject.entry?_initial rfl] at written
    cases written

theorem get?_of_written {graph : Graph} {id : ObjectId} {mentioned : Prop} [Decidable mentioned]
    {object : LiveObject} {key : String} {entry : Entry}
    (known : (if mentioned then graph.orPlaceholder id else graph.get? id) = some object)
    (written : object.entry? key = some entry) : graph.get? id = some object := by
  split at known
  case isFalse => exact known
  case isTrue =>
    cases stored : graph.get? id with
    | some found => rwa [orPlaceholder_of_get? stored] at known
    | none =>
      rw [orPlaceholder, stored, Option.none_or] at known
      obtain ⟨kind, -, rfl⟩ := Option.map_eq_some_iff.1 known
      rw [LiveObject.entry?_initial rfl] at written
      cases written

namespace Grown

variable {before after : Graph}

theorem isTombstoned_eq (grown : Grown before after) (id : ObjectId) :
    isTombstoned after id = isTombstoned before id := by
  unfold isTombstoned
  rcases grown id with same | ⟨none, kind, -, placed⟩
  · rw [same]
  · rw [none, placed]
    rfl

theorem valueOf_eq (grown : Grown before after) : valueOf after = valueOf before :=
  valueOf_congr grown.isTombstoned_eq

/-- Nobody sees a placeholder. -/
theorem read_eq (grown : Grown before after) (id : ObjectId) (key : String) :
    after.read id key = before.read id key := by
  rw [Graph.read_eq, Graph.read_eq, grown.valueOf_eq]
  rcases grown id with same | ⟨none, kind, -, placed⟩
  · rw [same]
  · rw [none, placed, Option.bind_some, LiveObject.shown_placeholder, Option.bind_none]

theorem countOf_eq (grown : Grown before after) (id : ObjectId) :
    after.countOf id = before.countOf id := by
  unfold countOf
  rcases grown id with same | ⟨none, kind, -, placed⟩
  · rw [same]
  · rw [none, placed]
    cases kind <;> rfl

end Grown

end Graph

end SharedGraph
