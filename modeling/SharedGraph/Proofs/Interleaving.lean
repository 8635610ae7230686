import Mathlib.Data.List.Perm.Basic
import SharedGraph.Proofs.ExactSums
import SharedGraph.Proofs.Objects

/-! Messages of different sites may reach an object in either order. Neighbours of
different sites can change places without changing what the object describes; so can any
messages, as long as those of each site keep their order among themselves. -/
namespace SharedGraph

/-! ## Interleavings of a run -/

section Runs

variable {σ α ι : Type}

/-- Steps of different origins may change places in every run of the given kind. -/
structure Exchangeable (step : σ → α → σ) (origin : α → ι) (Alike : σ → σ → Prop)
    (Ready : σ → List α → Prop) : Prop where
  equivalence : Equivalence Alike
  congr : ∀ s t a, Alike s t → Alike (step s a) (step t a)
  next : ∀ s a rest, Ready s (a :: rest) → Ready (step s a) rest
  perm : ∀ s run other, run.Perm other → Ready s run → Ready s other
  swap : ∀ s a b rest, Ready s (a :: b :: rest) → origin a ≠ origin b →
    Alike (step (step s a) b) (step (step s b) a)

variable {step : σ → α → σ} {origin : α → ι} {Alike : σ → σ → Prop} {Ready : σ → List α → Prop}

/-- Runs that agree on each origin consist of the same steps. -/
theorem perm_of_filter_origin [DecidableEq α] [DecidableEq ι] {run other : List α}
    (same : ∀ i, run.filter (fun a => origin a = i) = other.filter (fun a => origin a = i)) :
    run.Perm other := by
  refine List.perm_iff_count.2 fun a => ?_
  have kept (list : List α) : (list.filter fun b => origin b = origin a).count a = list.count a :=
    List.count_filter (decide_eq_true rfl)
  rw [← kept, same (origin a), kept]

namespace Exchangeable

private theorem foldl_congr (free : Exchangeable step origin Alike Ready) {s t : σ} (alike : Alike s t)
    (run : List α) : Alike (run.foldl step s) (run.foldl step t) := by
  induction run generalizing s t with
  | nil => exact alike
  | cons a rest ih => exact ih (free.congr s t a alike)

/-- A step that no other step of its origin precedes may come first. -/
theorem foldl_move (free : Exchangeable step origin Alike Ready) {s : σ} {a : α} (early late : List α)
    (ready : Ready s (early ++ a :: late)) (foreign : ∀ b ∈ early, origin b ≠ origin a) :
    Alike ((a :: (early ++ late)).foldl step s) ((early ++ a :: late).foldl step s) := by
  induction early generalizing s with
  | nil => exact free.equivalence.refl _
  | cons b rest ih =>
    have different : origin b ≠ origin a := foreign b (List.mem_cons_self ..)
    have moved := ih (free.next s b _ ready) fun c member => foreign c (List.mem_cons_of_mem _ member)
    have readySwap : Ready s (b :: a :: (rest ++ late)) :=
      free.perm s _ _ (List.Perm.cons b List.perm_middle) ready
    have swapped := free.swap s b a (rest ++ late) readySwap different
    exact free.equivalence.trans
      (free.equivalence.symm (free.foldl_congr swapped (rest ++ late))) moved

/-- Runs that agree on each origin end alike. -/
theorem foldl_alike [DecidableEq α] [DecidableEq ι] (free : Exchangeable step origin Alike Ready)
    {s : σ} {run other : List α}
    (ready : Ready s run)
    (same : ∀ i, run.filter (fun a => origin a = i) = other.filter (fun a => origin a = i)) :
    Alike (run.foldl step s) (other.foldl step s) := by
  induction run generalizing s other with
  | nil =>
    have none : other = [] := List.Perm.nil_eq (perm_of_filter_origin same) ▸ rfl
    rw [none]
    exact free.equivalence.refl _
  | cons a rest ih =>
    have first := same (origin a)
    rw [List.filter_cons, decide_eq_true rfl, if_pos rfl] at first
    obtain ⟨early, late, rfl, foreign, -, -⟩ := List.filter_eq_cons_iff.1 first.symm
    have foreign : ∀ b ∈ early, origin b ≠ origin a :=
      fun b member => of_decide_eq_false (Bool.eq_false_iff.2 (foreign b member))
    have shorter : ∀ i, rest.filter (fun b => origin b = i) =
        (early ++ late).filter (fun b => origin b = i) := by
      intro i
      have whole := same i
      rw [List.filter_append, List.filter_cons, List.filter_cons] at whole
      rw [List.filter_append]
      by_cases mine : origin a = i
      · subst mine
        have none : early.filter (fun b => origin b = origin a) = [] :=
          List.filter_eq_nil_iff.2 fun b member => by simpa using foreign b member
        rw [none] at whole ⊢
        simpa using whole
      · simpa [mine] using whole
    have readyOther := free.perm s _ _ (perm_of_filter_origin same) ready
    exact free.equivalence.trans (ih (free.next s a rest ready) shorter)
      (free.foldl_move early late readyOther foreign)

end Exchangeable

end Runs

/-! ## What messages do -/

/-- The object that a message is for, and what it does there, if its operation is complete
and it says where it was issued. -/
def Message.effect? (message : Message) : Option (ObjectId × Effect) :=
  message.origin?.bind fun _ => message.operation.bind fun operation =>
    operation.effect.toOption.map fun effect => (operation.target, effect)

theorem Message.addressed_of_effect? {message : Message} {found : ObjectId × Effect}
    (does : message.effect? = some found) :
    (message.operation.any fun operation => operation.target = found.1) = true := by
  simp only [effect?, Option.bind_eq_some_iff, Option.map_eq_some_iff] at does
  obtain ⟨-, -, operation, carried, effect, -, rfl⟩ := does
  simp only [carried, Option.any_some, decide_true]

theorem Message.origin?_of_effect? {message : Message} {found : ObjectId × Effect}
    (does : message.effect? = some found) : ∃ origin, message.origin? = some origin := by
  obtain ⟨origin, from?, -⟩ := Option.bind_eq_some_iff.1 does
  exact ⟨origin, from?⟩

/-- The entries that an effect writes into a map, if no first contents were merged before. -/
def MapEffect.writes (serial : Serial) (time : Int) : MapEffect → List (String × Entry)
  | .set key data => [(key, .live data (some serial))]
  | .remove key => [(key, .removed (some serial) time)]
  | .create first => Entries.initialWrites first time

/-- What an effect adds to a counter, if no first count was added before. -/
def CounterEffect.amount : CounterEffect → Double
  | .add amount => amount
  | .create first => first

/-- What an effect makes of contents. -/
def Contents.enact (serial : Serial) (time : Int) (contents : Contents) : Effect → Contents
  | .onMap effect =>
    match contents with
    | .map entries => .map (entries.writeAll (effect.writes serial time))
    | .counter _ => contents
  | .onCounter effect =>
    match contents with
    | .map _ => contents
    | .counter count => .counter (count.add effect.amount)
  | .delete => .initial contents.kind

/-- The contents after an effect, given whether first contents were merged before. -/
def Contents.after (merged : Bool) (serial : Serial) (time : Int) (contents : Contents)
    (effect : Effect) : Contents :=
  if merged && effect.isCreate then contents else contents.enact serial time effect

namespace Entries

private theorem writeAll_write {key : String} {entry : Entry} (writes : List (String × Entry))
    (distinct : ∀ write ∈ writes, write.1 = key →
      Serial.effective write.2.serial ≠ Serial.effective entry.serial) (entries : Entries) :
    (Entries.write (writeAll entries writes) key entry).2 =
      writeAll (Entries.write entries key entry).2 writes := by
  induction writes generalizing entries with
  | nil => rfl
  | cons write rest ih =>
    have first : (Entries.write (Entries.write entries write.1 write.2).2 key entry).2 =
        (Entries.write (Entries.write entries key entry).2 write.1 write.2).2 :=
      write_comm entries fun same => distinct write (List.mem_cons_self ..) same
    have later := ih (fun other member => distinct other (List.mem_cons_of_mem _ member))
      (Entries.write entries write.1 write.2).2
    rw [first] at later
    exact later

/-- Two groups of writes may come in either order, if no two of them to one key have the
same serial. -/
theorem writeAll_comm {writes others : List (String × Entry)}
    (distinct : ∀ write ∈ writes, ∀ other ∈ others, write.1 = other.1 →
      Serial.effective write.2.serial ≠ Serial.effective other.2.serial) (entries : Entries) :
    writeAll (writeAll entries writes) others = writeAll (writeAll entries others) writes := by
  induction others generalizing entries with
  | nil => rfl
  | cons other rest ih =>
    have moved := writeAll_write writes
      (fun write member => distinct write member other (List.mem_cons_self ..)) entries
    have later := ih (fun write member next nextMember =>
      distinct write member next (List.mem_cons_of_mem _ nextMember)) (Entries.write entries other.1 other.2).2
    rw [← moved] at later
    exact later

end Entries

/-- Two effects, each with its serial and time, that may come in either order where the
contents are the given ones. -/
structure Contents.Independent (contents : Contents) (first second : Effect × Serial × Int) : Prop where
  single : ¬ (first.1.isCreate = true ∧ second.1.isCreate = true)
  writes : ∀ effect other, first.1 = .onMap effect → second.1 = .onMap other →
    ∀ write ∈ effect.writes first.2.1 first.2.2, ∀ next ∈ other.writes second.2.1 second.2.2,
      write.1 = next.1 → Serial.effective write.2.serial ≠ Serial.effective next.2.serial
  sums : ∀ effect other count, first.1 = .onCounter effect → second.1 = .onCounter other →
    contents = .counter count →
      (count.add effect.amount).add other.amount = (count.add other.amount).add effect.amount

private theorem Contents.enact_comm {contents : Contents} {first second : Effect × Serial × Int}
    (independent : contents.Independent first second) (stays : first.1 ≠ .delete)
    (staysToo : second.1 ≠ .delete) :
    (contents.enact first.2.1 first.2.2 first.1).enact second.2.1 second.2.2 second.1 =
      (contents.enact second.2.1 second.2.2 second.1).enact first.2.1 first.2.2 first.1 := by
  obtain ⟨first, serial, time⟩ := first
  obtain ⟨second, serialToo, timeToo⟩ := second
  obtain ⟨-, writes, sums⟩ := independent
  simp only at *
  cases first with
  | delete => exact absurd rfl stays
  | onMap effect =>
    cases second with
    | delete => exact absurd rfl staysToo
    | onMap other =>
      cases contents with
      | map entries => exact congrArg Contents.map (Entries.writeAll_comm (writes effect other rfl rfl) entries)
      | counter count => rfl
    | onCounter other => cases contents <;> rfl
  | onCounter effect =>
    cases second with
    | delete => exact absurd rfl staysToo
    | onMap other => cases contents <;> rfl
    | onCounter other =>
      cases contents with
      | map entries => rfl
      | counter count => exact congrArg Contents.counter (sums effect other count rfl rfl rfl)

/-- Effects that leave the object alive may come in either order. -/
theorem Contents.after_comm {contents : Contents} {first second : Effect × Serial × Int}
    (independent : contents.Independent first second) (stays : first.1 ≠ .delete)
    (staysToo : second.1 ≠ .delete) (merged : Bool) :
    (contents.after merged first.2.1 first.2.2 first.1).after (merged || first.1.isCreate)
        second.2.1 second.2.2 second.1 =
      (contents.after merged second.2.1 second.2.2 second.1).after (merged || second.1.isCreate)
        first.2.1 first.2.2 first.1 := by
  have swapped := enact_comm independent stays staysToo
  have single := independent.single
  unfold after
  -- a create operation that comes too late is the only effect that is skipped
  cases firstCreates : first.1.isCreate with
  | true =>
    have plain : second.1.isCreate = false := Bool.eq_false_iff.2 fun create => single ⟨firstCreates, create⟩
    cases merged <;> simp [plain, swapped]
  | false =>
    cases secondCreates : second.1.isCreate <;> cases merged <;> simp [swapped]

private theorem Contents.after_delete (merged : Bool) (serial : Serial) (time : Int)
    (contents : Contents) : contents.after merged serial time .delete = .initial contents.kind := by
  simp only [after, Effect.isCreate, Bool.and_false, Bool.false_eq_true, ↓reduceIte, enact]

/-- A count stays, goes back to zero, or is added to. -/
theorem Contents.count_after {merged : Bool} {serial : Serial} {time : Int} {contents : Contents}
    {effect : Effect} {count : Double} (same : contents.after merged serial time effect = .counter count) :
    ∃ before, contents = .counter before ∧ (count = before ∨ count = .zero false ∨
      ∃ change, effect = .onCounter change ∧ count = before.add change.amount) := by
  unfold after at same
  split at same
  · exact ⟨count, same, .inl rfl⟩
  · cases contents with
    | map entries => cases effect <;> simp only [enact, kind, initial, reduceCtorEq] at same
    | counter before =>
      refine ⟨before, rfl, ?_⟩
      cases effect with
      | onMap effect =>
        simp only [enact, counter.injEq] at same
        exact .inl same.symm
      | onCounter change =>
        simp only [enact, counter.injEq] at same
        exact .inr (.inr ⟨change, rfl, same.symm⟩)
      | delete =>
        simp only [enact, kind, initial, counter.injEq] at same
        exact .inr (.inl same.symm)

private theorem Contents.kind_after (merged : Bool) (serial : Serial) (time : Int) (contents : Contents)
    (effect : Effect) : (contents.after merged serial time effect).kind = contents.kind := by
  unfold after
  split
  · rfl
  · cases effect with
    | delete => exact LiveObject.kind_initial contents.kind
    | onMap effect => cases contents <;> rfl
    | onCounter effect => cases contents <;> rfl

namespace LiveObject

variable {object other : LiveObject} {message : Message} {effect : Effect} {step : Step}
  {origin : String × Serial}

/-- An object after an effect on it has passed the gate of its site. -/
def undergo (object : LiveObject) (effect : Effect) (origin : String × Serial) (time : Int) :
    LiveObject :=
  if object.tombstone then object.admitting origin
  else
    { object with
      serials := SiteSerials.record object.serials origin.1 origin.2
      contents := object.contents.after object.createMerged origin.2 time effect
      tombstone := effect = .delete
      tombstonedAt := if effect = .delete then some time else object.tombstonedAt
      createMerged := object.createMerged || effect.isCreate }

theorem carry_eq_undergo (made : effect.on? object.contents = some step) (time : Int) :
    object.carry step origin time = object.undergo effect origin time := by
  unfold carry undergo
  by_cases dead : object.tombstone = true
  · rw [if_pos dead, if_pos dead]
  rw [if_neg dead, if_neg dead]
  obtain ⟨id, serials, tombstone, tombstonedAt, createMerged, contents⟩ := object
  rw [Bool.not_eq_true] at dead
  simp only at dead made
  subst dead
  cases effect with
  | delete =>
    cases made
    simp [admitting, run, delete, kind, Contents.after, Contents.enact, Effect.isCreate]
  | onMap effect =>
    cases contents with
    | counter count => cases made
    | map entries =>
      cases made
      cases effect with
      | create first =>
        cases createMerged
        · simp [admitting, run, mergeEntries, Contents.after, Contents.enact, Effect.isCreate,
            Entries.mergeInitial_entries, MapEffect.writes]
        · simp [admitting, run, mergeEntries, Contents.after, Effect.isCreate]
      | _ => simp [admitting, run, keyUpdate, Contents.after, Contents.enact, Effect.isCreate, MapEffect.writes,
          Entries.writeAll, Entries.set, Entries.remove]
  | onCounter effect =>
    cases contents with
    | map entries => cases made
    | counter count =>
      cases made
      cases effect with
      | create first =>
        cases createMerged <;>
          simp [admitting, run, mergeCount, Contents.after, Contents.enact, Effect.isCreate, CounterEffect.amount]
      | add amount =>
        simp [admitting, run, Contents.after, Contents.enact, Effect.isCreate, CounterEffect.amount]

private theorem hear_of_effect? (does : message.effect? = some (object.id, effect))
    (from? : message.origin? = some origin) :
    object.hear message =
      if (effect.on? object.contents).isSome && object.admits origin then
        object.undergo effect origin (message.timestamp.getD 0)
      else object := by
  simp only [Message.effect?, from?, Option.bind_some, Option.bind_eq_some_iff, Option.map_eq_some_iff,
    Prod.mk.injEq] at does
  obtain ⟨operation, carried, found, complete, addressed, rfl⟩ := does
  have askedSame : object.stepFor? operation = found.on? object.contents := by
    rw [stepFor?, if_pos addressed, complete, Option.bind_some]
  simp only [hear, carried]
  cases made : found.on? object.contents with
  | none =>
    rw [take_of_refused (.inl (askedSame.trans made))]
    rfl
  | some step =>
    rw [take_of_step (askedSame.trans made) from?, carry_eq_undergo made]
    simp only [Option.isSome_some, Bool.true_and]

/-- A message that does nothing to an object leaves it as it is. -/
theorem hear_of_foreign (foreign : ∀ effect, message.effect? ≠ some (object.id, effect)) :
    object.hear message = object := by
  unfold hear
  cases carried : message.operation with
  | none => rfl
  | some operation =>
    rcases object.take_cases operation message with same | ⟨step, origin, asked, from?, -, -⟩
    · exact same
    · obtain ⟨addressed, effect, complete, -⟩ := effect_of_stepFor? asked
      refine absurd ?_ (foreign effect)
      simp only [Message.effect?, from?, carried, complete, Except.toOption, Option.bind_some,
        Option.map_some, addressed]

/-! ## Objects that are alike -/

/-- Two objects describe themselves alike, and agree on whether first contents were merged
as long as that can still matter. -/
def Alike (object other : LiveObject) : Prop :=
  object.toState = other.toState ∧ (object.tombstone = false → object.createMerged = other.createMerged)

theorem alike_equivalence : Equivalence Alike where
  refl object := ⟨rfl, fun _ => rfl⟩
  symm := by
    rintro object other ⟨same, agree⟩
    exact ⟨same.symm, fun live => (agree ((congrArg ObjectState.tombstone same).trans live)).symm⟩
  trans := by
    rintro object middle other ⟨same, agree⟩ ⟨sameToo, agreeToo⟩
    refine ⟨same.trans sameToo, fun live => (agree live).trans (agreeToo ?_)⟩
    exact (congrArg ObjectState.tombstone same).symm.trans live

/-- A deleted object stays deleted. -/
theorem take_tombstone (dead : object.tombstone = true) (operation : Operation) (message : Message) :
    (object.take operation message).tombstone = true := by
  rcases object.take_cases operation message with same | ⟨step, origin, -, -, -, same⟩
  · rw [same, dead]
  · rw [same, carry, if_pos dead]
    exact dead

theorem Alike.take (alike : object.Alike other) (operation : Operation) (message : Message) :
    (object.take operation message).Alike (other.take operation message) := by
  obtain ⟨same, agree⟩ := alike
  have accepts : object.acceptsCreate operation message = true → object.tombstone = false := by
    intro accepted
    simp only [acceptsCreate, Bool.and_eq_true, Bool.not_eq_true'] at accepted
    exact accepted.2
  refine ⟨(take_congr same fun accepted => agree (accepts accepted)).symm, fun live => ?_⟩
  have before : object.tombstone = false := by
    cases dead : object.tombstone with
    | false => rfl
    | true => exact absurd (take_tombstone dead operation message) (Bool.eq_false_iff.1 live)
  rw [take_createMerged, take_createMerged, agree before, acceptsCreate_congr same]

theorem Alike.hear (alike : object.Alike other) (message : Message) :
    (object.hear message).Alike (other.hear message) := by
  unfold LiveObject.hear
  cases message.operation with
  | none => exact alike
  | some operation => exact alike.take operation message

/-! ## Messages of different sites -/

theorem record_comm {site other : String} (different : site ≠ other) (serials : SiteSerials)
    (serial passed : Serial) :
    (serials.record site serial).record other passed = (serials.record other passed).record site serial := by
  ext1 probe
  simp only [SiteSerials.record, SortedMap.get?_insert_ite]
  by_cases same : probe = site
  · subst same
    simp only [different, ↓reduceIte]
  · simp only [same, ↓reduceIte]

private theorem undergo_of_dead (dead : object.tombstone = true) (effect : Effect)
    (origin : String × Serial)
    (time : Int) : object.undergo effect origin time = object.admitting origin := if_pos dead

/-- Two effects of different sites leave objects that are alike, in either order. -/
theorem undergo_comm {second : Effect} {passed : String × Serial} {time later : Int}
    (different : origin.1 ≠ passed.1)
    (independent : object.contents.Independent (effect, origin.2, time) (second, passed.2, later)) :
    ((object.undergo effect origin time).undergo second passed later).Alike
      ((object.undergo second passed later).undergo effect origin time) := by
  have recorded := record_comm different object.serials origin.2 passed.2
  by_cases dead : object.tombstone = true
  · have deadAfter (any : String × Serial) : (object.admitting any).tombstone = true := dead
    rw [undergo_of_dead dead, undergo_of_dead dead, undergo_of_dead (deadAfter _),
      undergo_of_dead (deadAfter _)]
    refine ⟨?_, fun _ => rfl⟩
    simp only [toState, admitting, entries?, recorded]
  · obtain ⟨id, serials, tombstone, tombstonedAt, createMerged, contents⟩ := object
    rw [Bool.not_eq_true] at dead
    simp only at dead independent recorded
    subst dead
    by_cases deletes : effect = .delete
    · subst deletes
      by_cases deletesToo : second = .delete
      · subst deletesToo
        simp [undergo, Alike, toState, admitting, entries?, recorded, Contents.after_delete]
      · simp [undergo, deletesToo, Alike, toState, admitting, entries?, recorded,
          Contents.after_delete, Contents.kind_after]
    · by_cases deletesToo : second = .delete
      · subst deletesToo
        simp [undergo, deletes, Alike, toState, admitting, entries?, recorded,
          Contents.after_delete, Contents.kind_after]
      · have swapped := Contents.after_comm independent deletes deletesToo createMerged
        simp only at swapped
        simp [undergo, deletes, deletesToo, Alike, toState, entries?, recorded, swapped, Bool.or_right_comm]

/-- The message gets through to the object. -/
def passes (object : LiveObject) (effect : Effect) (origin : String × Serial) : Bool :=
  (effect.on? object.contents).isSome && object.admits origin

/-- Whether a message gets through does not depend on those of other sites. -/
theorem passes_hear (object : LiveObject) {next : Message} (foreign : next.site ≠ some origin.1)
    (effect : Effect) :
    (object.hear next).passes effect origin = object.passes effect origin := by
  have fits : (effect.on? (object.hear next).contents).isSome = (effect.on? object.contents).isSome :=
    Effect.isSome_on? effect (hear_kind object next)
  have gate : (object.hear next).admits origin = object.admits origin := by
    unfold hear
    cases next.operation with
    | none => rfl
    | some operation =>
      rcases object.take_cases operation next with same | ⟨step, passed, -, from?, -, same⟩
      · simp only [same]
      · simp only [same, admits, carry_serials]
        refine admits_record_of_ne (fun equal => foreign ?_) ..
        rw [Message.site_of_origin? from?, equal]
  rw [passes, passes, fits, gate]

theorem hear_of_passes (does : message.effect? = some (object.id, effect))
    (from? : message.origin? = some origin) (through : object.passes effect origin = true) :
    object.hear message = object.undergo effect origin (message.timestamp.getD 0) := by
  rw [hear_of_effect? does from?]
  exact if_pos through

theorem hear_of_stopped (does : message.effect? = some (object.id, effect))
    (from? : message.origin? = some origin) (stopped : object.passes effect origin = false) :
    object.hear message = object := by
  rw [hear_of_effect? does from?]
  exact if_neg (Bool.eq_false_iff.1 stopped)

/-- A message that is about other objects may come before or after any other one. -/
theorem hear_comm_of_foreign {message : Message}
    (foreign : ∀ effect, message.effect? ≠ some (object.id, effect)) (next : Message) :
    (object.hear message).hear next = (object.hear next).hear message := by
  have foreignAfter : ∀ effect, message.effect? ≠ some ((object.hear next).id, effect) := by
    rwa [hear_id]
  rw [hear_of_foreign foreign, hear_of_foreign foreignAfter]

/-- Two messages of different sites leave an object alike, in either order, if what they do
to it may come in either order. -/
theorem hear_comm {message next : Message} (different : message.site ≠ next.site)
    (independent : ∀ effect second origin passed, message.effect? = some (object.id, effect) →
      next.effect? = some (object.id, second) → message.origin? = some origin →
      next.origin? = some passed → object.contents.Independent
        (effect, origin.2, message.timestamp.getD 0) (second, passed.2, next.timestamp.getD 0)) :
    ((object.hear message).hear next).Alike ((object.hear next).hear message) := by
  by_cases does : ∃ effect, message.effect? = some (object.id, effect)
  case neg =>
    rw [hear_comm_of_foreign fun effect same => does ⟨effect, same⟩]
    exact alike_equivalence.refl _
  by_cases doesToo : ∃ second, next.effect? = some (object.id, second)
  case neg =>
    rw [hear_comm_of_foreign fun second same => doesToo ⟨second, same⟩]
    exact alike_equivalence.refl _
  obtain ⟨effect, does⟩ := does
  obtain ⟨second, doesToo⟩ := doesToo
  obtain ⟨origin, from?⟩ := Message.origin?_of_effect? does
  obtain ⟨passed, fromToo⟩ := Message.origin?_of_effect? doesToo
  have foreign : next.site ≠ some origin.1 := by
    rw [← Message.site_of_origin? from?]
    exact different.symm
  have foreignToo : message.site ≠ some passed.1 := by
    rw [← Message.site_of_origin? fromToo]
    exact different
  have gate := object.passes_hear foreign effect
  have gateToo := object.passes_hear foreignToo second
  have doesAfter : message.effect? = some ((object.hear next).id, effect) := by rw [hear_id, does]
  have doesTooAfter : next.effect? = some ((object.hear message).id, second) := by rw [hear_id, doesToo]
  cases through : object.passes effect origin with
  | false =>
    rw [hear_of_stopped doesAfter from? (gate.trans through), hear_of_stopped does from? through]
    exact alike_equivalence.refl _
  | true =>
    cases throughToo : object.passes second passed with
    | false =>
      rw [hear_of_stopped doesTooAfter fromToo (gateToo.trans throughToo),
        hear_of_stopped doesToo fromToo throughToo]
      exact alike_equivalence.refl _
    | true =>
      rw [hear_of_passes doesAfter from? (gate.trans through),
        hear_of_passes doesTooAfter fromToo (gateToo.trans throughToo),
        hear_of_passes does from? through, hear_of_passes doesToo fromToo throughToo]
      have sites : origin.1 ≠ passed.1 := by
        intro same
        rw [Message.site_of_origin? fromToo, same] at foreign
        exact foreign rfl
      exact undergo_comm sites (independent effect second origin passed does doesToo from? fromToo)

end LiveObject

end SharedGraph
