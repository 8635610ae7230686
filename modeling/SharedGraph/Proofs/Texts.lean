import SharedGraph.Proofs.Literals

/-! Texts of trees. A tree whose literals read back reads back as a whole: the text of each part
starts with a character that tells what is coming, and ends where a separator follows. -/
namespace SharedGraph.WireTree

/-! ## Literals and depth -/

mutual

/-- The literals of a tree: all that is neither an array nor an object. -/
def leaves : WireTree → List WireTree
  | .array items => itemLeaves items
  | .object fields => fieldLeaves fields
  | leaf => [leaf]
  termination_by structural tree => tree

def itemLeaves : List WireTree → List WireTree
  | [] => []
  | item :: rest => leaves item ++ itemLeaves rest

def valueLeaves : String × WireTree → List WireTree
  | (_, value) => leaves value

def fieldLeaves : List (String × WireTree) → List WireTree
  | [] => []
  | field :: rest => valueLeaves field ++ fieldLeaves rest

end

theorem leaves_array (items : List WireTree) : (array items).leaves = items.flatMap leaves := by
  rw [leaves]
  induction items with
  | nil => rfl
  | cons item rest ih => rw [itemLeaves, ih, List.flatMap_cons]

theorem leaves_object (fields : List (String × WireTree)) :
    (object fields).leaves = fields.flatMap fun field => field.2.leaves := by
  rw [leaves]
  induction fields with
  | nil => rfl
  | cons field rest ih => rw [fieldLeaves, ih, List.flatMap_cons, valueLeaves]

/-- A literal whose text reads back as the literal. -/
def Legible : WireTree → Prop
  | .number value => readNumber (writeNumber value) = some (.number value, [])
  | .broken => False
  | _ => True

/-! ## Separators -/

private theorem follows_writeItems (items : List WireTree) (rest : List Char) :
    Follows (writeItems items ++ rest) := by
  cases items <;> simp [writeItems, Follows]

private theorem follows_writeFields (fields : List (String × WireTree)) (rest : List Char) :
    Follows (writeFields fields ++ rest) := by
  cases fields <;> simp [writeFields, Follows]

/-- What is written starts with a character that is not skipped and closes no array. -/
theorem head_write {tree : WireTree} (legible : ∀ leaf ∈ tree.leaves, leaf.Legible) :
    ∃ char rest, tree.write = char :: rest ∧ isBlank char = false ∧ char ≠ ']' := by
  cases tree with
  | null => exact ⟨_, _, rfl, rfl, by decide⟩
  | boolean value => cases value <;> exact ⟨_, _, rfl, rfl, by decide⟩
  | text value => exact ⟨_, _, rfl, rfl, by decide⟩
  | array items => cases items <;> exact ⟨_, _, rfl, rfl, by decide⟩
  | object fields => cases fields <;> exact ⟨_, _, rfl, rfl, by decide⟩
  | broken => exact (legible .broken (List.mem_singleton.2 rfl)).elim
  | number value =>
    have reads : (WireTree.number value).Legible := legible _ (List.mem_singleton.2 rfl)
    obtain ⟨char, rest, text, starts⟩ := head_of_readNumber reads
    exact ⟨char, rest, text, isBlank_of_starts starts, ne_of_starts starts (by decide) rfl⟩

/-- An array whose first item does not look like its end has items. -/
theorem readValue_array {char : Char} (solid : isBlank char = false) (other : char ≠ ']') (steps : Nat)
    (rest : List Char) :
    readValue (steps + 1) ('[' :: char :: rest) =
      (readItems steps (char :: rest)).map fun (items, rest) => (.array items, rest) := by
  rw [readValue, skipBlanks_cons (by rfl)]
  simp only [skipBlanks_cons solid]
  split
  case h_1 equal => exact absurd (List.cons.inj equal).1 other
  case h_2 => rfl

private theorem readValue_object (steps : Nat) (rest : List Char) :
    readValue (steps + 1) ('{' :: '"' :: rest) =
      (readFields steps ('"' :: rest)).map fun (fields, rest) => (objectTree fields, rest) := rfl

/-! ## Reading what was written -/

mutual

/-- A tree is read back from its text, whatever follows. The length of the text is enough steps. -/
theorem readValue_write (tree : WireTree) (legible : ∀ leaf ∈ tree.leaves, leaf.Legible) (steps : Nat)
    (enough : tree.write.length < steps) (rest : List Char) (follows : Follows rest) :
    readValue steps (tree.write ++ rest) = some (tree, rest) := by
  obtain ⟨steps, rfl⟩ : ∃ more, steps = more + 1 := Nat.exists_eq_succ_of_ne_zero (by omega)
  cases tree with
  | null => rfl
  | boolean value => cases value <;> rfl
  | text value =>
    rw [write, writeText, List.append_assoc, List.singleton_append, List.cons_append, readValue,
      skipBlanks_cons (by rfl)]
    simp only [readString_escape, Option.map_some, Option.getD_some]
  | number value => exact readValue_of_readNumber (legible _ (List.mem_singleton.2 rfl)) follows steps
  | broken => exact (legible .broken (List.mem_singleton.2 rfl)).elim
  | array items =>
    have read := readItems_write items legible
    cases items with
    | nil => rfl
    | cons first others =>
      have readItems := read (by simp) steps (Nat.succ_le_of_lt (by simpa [write] using enough)) rest
      obtain ⟨char, more, text, solid, other⟩ :=
        head_write fun leaf member => legible leaf (List.mem_append_left _ member)
      rw [writeItems, List.cons_append, List.tail_cons, text] at readItems
      rw [write, text]
      simp only [List.cons_append] at readItems ⊢
      rw [readValue_array solid other, readItems]
      rfl
  | object fields =>
    have read := readFields_write fields legible
    cases fields with
    | nil => rfl
    | cons first others =>
      obtain ⟨name, value⟩ := first
      have readFields := read (by simp) steps (Nat.succ_le_of_lt (by simpa [write] using enough)) rest
      rw [writeFields, List.cons_append, List.tail_cons, writeField, writeText] at readFields
      rw [write, writeField, writeText]
      simp only [List.cons_append] at readFields ⊢
      rw [readValue_object, readFields]
      rfl
  termination_by structural tree

private theorem readItems_write (items : List WireTree)
    (legible : ∀ leaf ∈ itemLeaves items, leaf.Legible)
    (some? : items ≠ []) (steps : Nat) (enough : (writeItems items).length ≤ steps) (rest : List Char) :
    readItems steps ((writeItems items).tail ++ rest) = some (items, rest) := by
  cases items with
  | nil => exact absurd rfl some?
  | cons item others =>
    rw [writeItems] at enough ⊢
    simp only [List.length_cons, List.length_append] at enough
    obtain ⟨steps, rfl⟩ : ∃ more, steps = more + 1 := Nat.exists_eq_succ_of_ne_zero (by omega)
    have separated : 0 < (writeItems others).length := by cases others <;> simp [writeItems]
    have readItem := readValue_write item fun leaf member => legible leaf (List.mem_append_left _ member)
    have readOthers := readItems_write others fun leaf member =>
      legible leaf (List.mem_append_right _ member)
    have readFirst := readItem steps (by omega) (writeItems others ++ rest) (follows_writeItems others rest)
    rw [List.cons_append, List.tail_cons, List.append_assoc, readItems, readFirst]
    simp only [bind, Option.bind_some]
    cases others with
    | nil => rfl
    | cons next others =>
      have readRest := readOthers (by simp) steps (by omega) rest
      rw [writeItems] at readRest ⊢
      rw [List.cons_append] at readRest ⊢
      rw [List.cons_append, skipBlanks_cons (by rfl)]
      simp only [List.tail_cons] at readRest
      simp only [readRest, Option.bind_some]
  termination_by structural items

private theorem readValue_writeField (field : String × WireTree)
    (legible : ∀ leaf ∈ valueLeaves field, leaf.Legible)
    (steps : Nat) (enough : field.2.write.length < steps) (rest : List Char) (follows : Follows rest) :
    readValue steps (field.2.write ++ rest) = some (field.2, rest) := by
  obtain ⟨name, value⟩ := field
  exact readValue_write value legible steps enough rest follows
  termination_by structural field

private theorem readFields_write (fields : List (String × WireTree))
    (legible : ∀ leaf ∈ fieldLeaves fields, leaf.Legible)
    (some? : fields ≠ []) (steps : Nat) (enough : (writeFields fields).length ≤ steps) (rest : List Char) :
    readFields steps ((writeFields fields).tail ++ rest) = some (some fields, rest) := by
  cases fields with
  | nil => exact absurd rfl some?
  | cons field others =>
    have readField := readValue_writeField field fun leaf member =>
      legible leaf (List.mem_append_left _ member)
    have readOthers := readFields_write others fun leaf member =>
      legible leaf (List.mem_append_right _ member)
    obtain ⟨name, value⟩ := field
    rw [writeFields, writeField] at enough ⊢
    simp only [List.length_cons, List.length_append] at enough
    obtain ⟨steps, rfl⟩ : ∃ more, steps = more + 1 := Nat.exists_eq_succ_of_ne_zero (by omega)
    have separated : 0 < (writeFields others).length := by cases others <;> simp [writeFields]
    have readFirst := readField steps (by simp only; omega) (writeFields others ++ rest)
      (follows_writeFields others rest)
    rw [writeText]
    simp only [List.cons_append, List.tail_cons, List.append_assoc, List.nil_append]
    rw [readFields, skipBlanks_cons (by rfl)]
    simp only [readString_escape, bind, Option.bind_some]
    rw [skipBlanks_cons (by rfl)]
    simp only [readFirst, Option.bind_some]
    cases others with
    | nil => rfl
    | cons next others =>
      have readRest := readOthers (by simp) steps (by omega) rest
      rw [writeFields] at readRest ⊢
      rw [List.cons_append] at readRest ⊢
      rw [List.cons_append, skipBlanks_cons (by rfl)]
      simp only [List.tail_cons] at readRest
      simp only [readRest, Option.bind_some]
      rfl
  termination_by structural fields

end

/-- The text of a tree reads back as the tree. -/
theorem ofText?_render {tree : WireTree} (legible : ∀ leaf ∈ tree.leaves, leaf.Legible) :
    ofText? tree.render = some tree := by
  have read := readValue_write tree legible (2 * tree.write.length + 2) (by omega) [] (by simp [Follows])
  rw [List.append_nil] at read
  simp only [ofText?, render, String.toList_ofList, read]
  rfl

/-! ## What is read -/

/-- All integers of the tree have 64 bits. -/
def Bounded (tree : WireTree) : Prop := ∀ value, .number (.integer value) ∈ tree.leaves → Fits value

private theorem bounded_text (value : String) : (text value).Bounded :=
  fun _ member => nomatch List.mem_singleton.1 member

private theorem bounded_broken : broken.Bounded := fun _ member => nomatch List.mem_singleton.1 member

theorem bounded_array {items : List WireTree} : (array items).Bounded ↔ ∀ item ∈ items, item.Bounded := by
  simp only [Bounded, leaves_array, List.mem_flatMap]
  exact ⟨fun fits item member value leaf => fits value ⟨item, member, leaf⟩,
    fun fits value ⟨item, member, leaf⟩ => fits item member value leaf⟩

theorem bounded_object {fields : List (String × WireTree)} :
    (object fields).Bounded ↔ ∀ field ∈ fields, field.2.Bounded := by
  simp only [Bounded, leaves_object, List.mem_flatMap]
  exact ⟨fun fits field member value leaf => fits value ⟨field, member, leaf⟩,
    fun fits value ⟨field, member, leaf⟩ => fits field member value leaf⟩

private theorem bounded_doubleTree (value : Double) : (doubleTree value).Bounded := by
  intro integer member
  unfold doubleTree at member
  split at member <;> cases List.mem_singleton.1 member

theorem bounded_integer {value : Int} (fits : Fits value) : (number (.integer value)).Bounded := by
  intro other member
  cases List.mem_singleton.1 member
  exact fits

private theorem bounded_numeral (negative : Bool) (whole : List Char) (fraction : Option (List Char))
    (exponent : Option Int) : (numeral negative whole fraction exponent).Bounded := by
  unfold numeral
  split
  case h_2 => exact bounded_doubleTree _
  case h_1 =>
    cases negative with
    | true =>
      simp only [↓reduceIte, Bool.and_eq_true, decide_eq_true_eq]
      split
      case isFalse => exact bounded_doubleTree _
      case isTrue size =>
        simp only [Nat.pow_eq] at size
        exact bounded_integer ⟨by unfold leastTime; omega, by unfold Numeral.digitsLimit; omega⟩
    | false =>
      simp only [Bool.false_eq_true, ↓reduceIte, decide_eq_true_eq]
      split
      case isFalse => exact bounded_doubleTree _
      case isTrue size =>
        simp only [Nat.pow_eq] at size
        exact bounded_integer ⟨by unfold leastTime; omega, by unfold Numeral.digitsLimit; omega⟩

private theorem bounded_of_readUnsigned {negative : Bool} {input rest : List Char} {tree : WireTree}
    (read : readUnsigned negative input = some (tree, rest)) : tree.Bounded := by
  simp only [readUnsigned, bind, Option.bind_eq_some_iff] at read
  obtain ⟨whole, -, fraction, -, exponent, -, same⟩ := read
  cases same
  exact bounded_numeral _ _ _ _

private theorem bounded_of_readNumber {input rest : List Char} {tree : WireTree}
    (read : readNumber input = some (tree, rest)) : tree.Bounded := by
  obtain ⟨char, more, rfl, -⟩ := head_of_readNumber read
  by_cases minus : char = '-'
  · subst minus
    exact bounded_of_readUnsigned read
  · rw [readNumber_of_head minus] at read
    exact bounded_of_readUnsigned read

private theorem consField_eq_some {name : Option String} {value : WireTree}
    {rest : Option (List (String × WireTree))}
    {fields : List (String × WireTree)} (made : consField name value rest = some fields) :
    ∃ known others, name = some known ∧ rest = some others ∧ fields = (known, value) :: others := by
  cases rest with
  | none => cases made
  | some others =>
    obtain ⟨known, named, rfl⟩ := Option.map_eq_some_iff.1 made
    exact ⟨known, others, named, rfl, rfl⟩

/-- With so many steps the readers find no integers but those of 64 bits. -/
structure ReadsBounded (steps : Nat) : Prop where
  value : ∀ input tree rest, readValue steps input = some (tree, rest) → tree.Bounded
  items : ∀ input items rest, readItems steps input = some (items, rest) → (array items).Bounded
  fields : ∀ input fields rest, readFields steps input = some (some fields, rest) → (object fields).Bounded

namespace ReadsBounded

variable {steps : Nat} {input rest : List Char}

private theorem succ_value (readers : ReadsBounded steps) {tree : WireTree}
    (read : readValue (steps + 1) input = some (tree, rest)) : tree.Bounded := by
  rw [readValue] at read
  split at read
  case h_1 =>
    obtain ⟨⟨value, left⟩, -, same⟩ := Option.map_eq_some_iff.1 read
    cases same
    cases value with
    | none => exact bounded_broken
    | some value => exact bounded_text value
  case h_2 =>
    split at read
    case h_1 =>
      cases read
      exact bounded_array.2 (by simp)
    case h_2 =>
      obtain ⟨⟨items, left⟩, found, same⟩ := Option.map_eq_some_iff.1 read
      cases same
      exact readers.items _ _ _ found
  case h_3 =>
    split at read
    case h_1 =>
      cases read
      exact bounded_object.2 (by simp)
    case h_2 =>
      obtain ⟨⟨fields, left⟩, found, same⟩ := Option.map_eq_some_iff.1 read
      cases same
      cases fields with
      | none => exact bounded_broken
      | some fields => exact readers.fields _ _ _ found
  case h_7 => exact bounded_of_readNumber read
  all_goals
    cases read
    intro value member
    cases List.mem_singleton.1 member

private theorem succ_items (readers : ReadsBounded steps) {items : List WireTree}
    (read : readItems (steps + 1) input = some (items, rest)) : (array items).Bounded := by
  simp only [readItems, bind, Option.bind_eq_some_iff] at read
  obtain ⟨⟨item, left⟩, readItem, read⟩ := read
  have first := readers.value _ _ _ readItem
  split at read
  case h_1 =>
    simp only [Option.bind_eq_some_iff] at read
    obtain ⟨⟨others, left⟩, readRest, same⟩ := read
    cases same
    rw [bounded_array, List.forall_mem_cons]
    exact ⟨first, bounded_array.1 (readers.items _ _ _ readRest)⟩
  case h_2 =>
    cases read
    rw [bounded_array, List.forall_mem_singleton]
    exact first
  case h_3 => cases read

private theorem succ_fields (readers : ReadsBounded steps) {fields : List (String × WireTree)}
    (read : readFields (steps + 1) input = some (some fields, rest)) : (object fields).Bounded := by
  rw [readFields] at read
  split at read
  case h_2 => cases read
  case h_1 =>
    simp only [bind, Option.bind_eq_some_iff] at read
    obtain ⟨⟨name, left⟩, -, read⟩ := read
    split at read
    case h_2 => cases read
    case h_1 =>
      rw [Option.bind_eq_some_iff] at read
      obtain ⟨⟨value, left⟩, readFirst, read⟩ := read
      have first := readers.value _ _ _ readFirst
      split at read
      case h_1 =>
        rw [Option.bind_eq_some_iff] at read
        obtain ⟨⟨others, left⟩, readRest, same⟩ := read
        simp only [Option.some.injEq, Prod.mk.injEq] at same
        obtain ⟨known, others, -, rfl, rfl⟩ := consField_eq_some same.1
        rw [bounded_object, List.forall_mem_cons]
        exact ⟨first, bounded_object.1 (readers.fields _ _ _ readRest)⟩
      case h_2 =>
        simp only [Option.some.injEq, Prod.mk.injEq] at read
        obtain ⟨known, others, -, same, rfl⟩ := consField_eq_some read.1
        cases same
        rw [bounded_object, List.forall_mem_singleton]
        exact first
      case h_3 => cases read

end ReadsBounded

/-- However many steps a reader may take, it finds no integers but those of 64 bits. -/
theorem readsBounded (steps : Nat) : ReadsBounded steps := by
  induction steps with
  | zero => exact ⟨by simp [readValue], by simp [readItems], by simp [readFields]⟩
  | succ steps ih =>
    exact ⟨fun _ _ _ read => ih.succ_value read, fun _ _ _ read => ih.succ_items read,
      fun _ _ _ read => ih.succ_fields read⟩

/-- What is read from a text has integers of 64 bits only. -/
theorem bounded_of_ofText? {text : String} {tree : WireTree} (read : ofText? text = some tree) :
    tree.Bounded := by
  simp only [ofText?] at read
  split at read
  case h_1 found =>
    split at read <;> cases read
    exact (readsBounded _).value _ _ _ found
  case h_2 => cases read

end SharedGraph.WireTree
