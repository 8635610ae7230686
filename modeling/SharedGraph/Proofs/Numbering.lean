import SharedGraph.Proofs.Acceptance

/-! The serials that a hub gives out. They are numbers written with so many digits that texts
compare like numbers, so every message is newer than all that was taken before it, and nothing
that an object of the hub recorded stops it. -/
namespace SharedGraph

namespace Hub

/-! ## Texts that compare like numbers -/

/-- A number with leading zeros. -/
def padded (width number : Nat) : List Char :=
  List.replicate (width - (Nat.toDigits 10 number).length) '0' ++ Nat.toDigits 10 number

private theorem toList_serialAt (place : Nat) :
    (serialAt place).text.toList = padded serialDigits (place + 1) := by
  simp only [serialAt, padded, String.toList_append, String.toList_ofList, Nat.toList_repr]
  rw [← String.length_toList, Nat.toList_repr]

private theorem length_padded {width number : Nat} (positive : 0 < width) (fits : number < 10 ^ width) :
    (padded width number).length = width := by
  have short := (Nat.length_toDigits_le_iff (by omega) positive).2 fits
  rw [padded, List.length_append, List.length_replicate]
  omega

/-- One more digit is one more at the end. -/
theorem padded_succ {width : Nat} (positive : 0 < width) (number : Nat) :
    padded (width + 1) number = padded width (number / 10) ++ [Nat.digitChar (number % 10)] := by
  by_cases small : number < 10
  · have none : number / 10 = 0 := by omega
    have same : number % 10 = number := by omega
    have more : width = width - 1 + 1 := by omega
    rw [none, same, padded, padded, Nat.toDigits_of_lt_base small, Nat.toDigits_zero, List.length_singleton,
      List.length_singleton, Nat.add_sub_cancel]
    nth_rewrite 1 [more]
    rw [List.replicate_succ']
  · have digits := Nat.toDigits_of_base_le (b := 10) (by omega) (Nat.le_of_not_lt small)
    rw [padded, padded, digits, List.length_append, List.length_singleton, Nat.add_sub_add_right,
      List.append_assoc]

private theorem digitChar_lt {digit other : Nat} (less : digit < other) (fits : other < 10) :
    digit.digitChar < other.digitChar := by
  have first := Nat.toNat_digitChar_of_lt_ten (Nat.lt_trans less fits)
  have second := Nat.toNat_digitChar_of_lt_ten fits
  apply Char.lt_def.2
  apply UInt32.lt_iff_toNat_lt.2
  have firstToo : digit.digitChar.val.toNat = 48 + digit := first
  have secondToo : other.digitChar.val.toNat = 48 + other := second
  omega

/-- Where texts of the same length differ already, it does not matter how they go on. -/
theorem append_lt_append {front other : List Char} (less : front < other)
    (same : front.length = other.length) (rest more : List Char) : front ++ rest < other ++ more := by
  induction front generalizing other with
  | nil =>
    cases other with
    | nil => exact absurd less (List.not_lt_nil _)
    | cons char chars => cases same
  | cons first front ih =>
    cases other with
    | nil => cases same
    | cons char chars =>
      rw [List.cons_append, List.cons_append, List.cons_lt_cons_iff]
      rcases List.cons_lt_cons_iff.1 less with differs | ⟨alike, later⟩
      · exact .inl differs
      · exact .inr ⟨alike, ih later (Nat.succ.inj same)⟩

/-- Numbers of the same width compare like their texts. -/
theorem padded_lt {width : Nat} (positive : 0 < width) {number other : Nat} (less : number < other)
    (fits : other < 10 ^ width) : padded width number < padded width other := by
  induction width, positive using Nat.le_induction generalizing number other with
  | base =>
    have single {digit : Nat} (small : digit < 10) : padded 1 digit = [digit.digitChar] := by
      rw [padded, Nat.toDigits_of_lt_base small]
      rfl
    rw [single (by omega), single (by omega)]
    exact List.cons_lt_cons_iff.2 (.inl (digitChar_lt less (by omega)))
  | succ width positive ih =>
    have fitsToo : other / 10 < 10 ^ width := by
      apply Nat.div_lt_of_lt_mul
      rwa [Nat.mul_comm, ← Nat.pow_succ]
    rw [padded_succ positive, padded_succ positive]
    -- Either the front digits decide, or they agree and the last one does.
    by_cases front : number / 10 < other / 10
    · apply append_lt_append (ih front fitsToo)
      rw [length_padded positive (by omega), length_padded positive fitsToo]
    · have same : number / 10 = other / 10 := by omega
      rw [same]
      apply List.append_left_lt
      exact List.cons_lt_cons_iff.2 (.inl (digitChar_lt (by omega) (by omega)))

/-- Later places have greater serials, as long as there are digits enough. -/
theorem serialAt_lt {place later : Nat} (less : place < later) (room : later + 1 < 10 ^ serialDigits) :
    serialAt place < serialAt later := by
  have positive : 0 < serialDigits := by decide
  have ordered := padded_lt positive (Nat.succ_lt_succ less) room
  rw [← toList_serialAt, ← toList_serialAt] at ordered
  exact String.lt_iff.2 ordered

-- All numbers of 64 bits have few enough digits.
example : 2 ^ 64 ≤ 10 ^ serialDigits := by decide

/-- With the first number that has more digits the order ends. -/
example : ¬ serialAt (10 ^ serialDigits - 2) < serialAt (10 ^ serialDigits - 1) := by decide +kernel

private theorem effective_serialAt (place : Nat) :
    Serial.effective (some (serialAt place)) = some (serialAt place) := by
  have written : (serialAt place).isEmpty = false := by
    rw [Serial.isEmpty, String.isEmpty_eq_false_iff]
    intro empty
    have digits := toList_serialAt place
    rw [empty, padded] at digits
    exact Nat.toDigits_ne_nil (List.append_eq_nil_iff.1 digits.symm).2
  rw [Serial.effective, Option.filter_some, written]
  rfl

/-- A stamped message says where it comes from, if the site has a name. -/
theorem origin?_stamp {connection : Connection} (named : connection.site ≠ "") (now : Int) (place : Nat)
    (message : Message) :
    (stamp connection now place message).origin? = some (connection.site, serialAt place) := by
  have site : connection.site.isEmpty = false := String.isEmpty_eq_false_iff.2 named
  have origin : (stamp connection now place message).origin? =
      (Serial.effective (some (serialAt place))).bind fun serial =>
        ((some connection.site).filter fun site => !site.isEmpty).map fun site => (site, serial) := rfl
  rw [origin, effective_serialAt, Option.bind_some, Option.filter_some, site]
  rfl

end Hub

/-! ## What objects recorded -/

/-- All that an object recorded are serials of the first so many places. -/
def LiveObject.Numbered (object : LiveObject) (count : Nat) : Prop :=
  ∀ site serial, object.serials.get? site = some serial → ∃ place < count, serial = Hub.serialAt place

def Graph.Numbered (graph : Graph) (count : Nat) : Prop :=
  ∀ id object, graph.get? id = some object → object.Numbered count

private theorem LiveObject.numbered_placeholder (id : ObjectId) (kind : Kind) (count : Nat) :
    (placeholder id kind).Numbered count := by
  intro site serial recorded
  cases recorded

private theorem LiveObject.Numbered.mono {object : LiveObject} {count more : Nat}
    (numbered : object.Numbered count) (le : count ≤ more) : object.Numbered more := by
  intro site serial recorded
  obtain ⟨place, earlier, same⟩ := numbered site serial recorded
  exact ⟨place, Nat.lt_of_lt_of_le earlier le, same⟩

/-- Whatever an object makes of a message, it records its serial at most. -/
theorem LiveObject.Numbered.hear_of_lt {object : LiveObject} {count place : Nat}
    (numbered : object.Numbered count) {message : Message}
    (placed : message.serial = some (Hub.serialAt place)) (earlier : place < count) :
    (object.hear message).Numbered count := by
  unfold LiveObject.hear
  cases carried : message.operation with
  | none => exact numbered
  | some operation =>
    simp only
    rcases take_cases object operation message with same | ⟨step, origin, -, from?, -, taken⟩
    · rw [same]
      exact numbered
    · have given := (Message.serial_of_origin? from?).1
      have own : origin.2 = Hub.serialAt place := Option.some.inj (given.symm.trans placed)
      intro site serial recorded
      rw [taken, carry_serials, SiteSerials.record, SortedMap.get?_insert_ite] at recorded
      split at recorded
      case isTrue =>
        cases recorded
        exact ⟨place, earlier, own⟩
      case isFalse => exact numbered site serial recorded

theorem LiveObject.Numbered.hear {object : LiveObject} {place : Nat} (numbered : object.Numbered place)
    {message : Message} (placed : message.serial = some (Hub.serialAt place)) :
    (object.hear message).Numbered (place + 1) :=
  (numbered.mono (Nat.le_succ place)).hear_of_lt placed (Nat.lt_succ_self place)

/-- What was recorded under earlier numbers does not stop a message with the next one. -/
theorem LiveObject.Numbered.admits {object : LiveObject} {count : Nat} (numbered : object.Numbered count)
    (room : count + 1 < 10 ^ Hub.serialDigits) (site : String) :
    object.admits (site, Hub.serialAt count) = true := by
  unfold LiveObject.admits SiteSerials.admits
  cases recorded : object.serials.get? site with
  | none => rfl
  | some serial =>
    obtain ⟨place, earlier, rfl⟩ := numbered site serial recorded
    exact decide_eq_true (Hub.serialAt_lt earlier room)

namespace Graph

variable {graph : Graph} {place : Nat}

private theorem numbered_initial (count : Nat) : Numbered .initial count := by
  intro id object present
  obtain ⟨rfl, rfl⟩ := get?_initial present
  exact LiveObject.numbered_placeholder .root .map count

theorem Numbered.orPlaceholder {count : Nat} (numbered : graph.Numbered count) {id : ObjectId}
    {object : LiveObject} (held : graph.orPlaceholder id = some object) : object.Numbered count := by
  unfold Graph.orPlaceholder at held
  rcases Option.or_eq_some_iff.1 held with known | ⟨-, made⟩
  · exact numbered id object known
  · obtain ⟨kind, -, rfl⟩ := Option.map_eq_some_iff.1 made
    exact LiveObject.numbered_placeholder id kind count

theorem Numbered.deliver (numbered : graph.Numbered place) (keyed : graph.Keyed) {message : Message}
    (placed : message.serial = some (Hub.serialAt place)) (now : Int) :
    (graph.deliver message now).2.Numbered (place + 1) := by
  intro id object present
  rw [get?_deliver keyed, Option.map_eq_some_iff] at present
  obtain ⟨before, known, rfl⟩ := present
  have numberedBefore : before.Numbered place := by
    split at known
    case isTrue => exact numbered.orPlaceholder known
    case isFalse => exact numbered id before known
  exact numberedBefore.hear placed

theorem Numbered.deliverAll (numbered : graph.Numbered place) (keyed : graph.Keyed) (connection : Connection)
    (messages : List Message) (now : Int) :
    (graph.deliverAll ((Hub.stampAll connection now place messages).map
      fun message => (message, now))).Numbered (place + messages.length) := by
  induction messages generalizing graph place with
  | nil => exact numbered
  | cons message rest ih =>
    have first : (graph.deliver (Hub.stamp connection now place message) now).2.Numbered (place + 1) := by
      apply numbered.deliver keyed
      rfl
    rw [List.length_cons, Nat.add_comm rest.length, ← Nat.add_assoc]
    exact ih first (keyed.deliver _ now)

end Graph

namespace Hub

variable {hub : Hub}

private theorem length_stampAll (connection : Connection) (now : Int) (place : Nat)
    (messages : List Message) : (stampAll connection now place messages).length = messages.length := by
  induction messages generalizing place with
  | nil => rfl
  | cons message rest ih => exact congrArg Nat.succ (ih (place + 1))

/-- The objects of the hub recorded serials that it gave out. -/
def Numbered (hub : Hub) : Prop := hub.server.graph.Numbered hub.log.length

theorem numbered_new (name : String) : (Hub.new name).Numbered := by
  rw [Numbered, graph_new]
  exact Graph.numbered_initial _

theorem Numbered.undergo (numbered : hub.Numbered) (keeps : hub.Keeps) {event : Event} (plain : event.Plain) :
    (hub.undergo event).Numbered := by
  cases event with
  | connect site => exact numbered
  | accepting open? => exact numbered
  | publish connection messages now =>
    cases accepts : hub.accepting with
    | false =>
      rw [Hub.undergo, accept_of_closed accepts]
      exact numbered
    | true =>
      rw [Hub.undergo, accept_of_live keeps.live accepts plain, Numbered, List.length_append,
        length_stampAll]
      exact Graph.Numbered.deliverAll numbered keeps.orderly.sound.keyed connection messages now

theorem Numbered.undergoAll (numbered : hub.Numbered) (keeps : hub.Keeps) {events : List Event}
    (plain : ∀ event ∈ events, event.Plain) : (hub.undergoAll events).Numbered := by
  induction events generalizing hub with
  | nil => exact numbered
  | cons event rest ih =>
    have first : event.Plain := plain event (List.mem_cons_self ..)
    apply ih (numbered.undergo keeps first) (keeps.undergo first)
    intro later member
    exact plain later (List.mem_cons_of_mem _ member)

end Hub

end SharedGraph
