import SharedGraph.Proofs.Reports

/-! Whether readers notice what is reported. Operations on live maps and descriptions name
just the keys whose value changed for readers. The deletion of a map names all keys that had
a value in the map, those included that were hidden from readers because what they point to
was deleted before. -/
namespace SharedGraph

namespace KeyChange

variable {before after : Option Data} {change : KeyChange}

/-- What a reader who compares the values notices: a value that is new or another one, or
that a value is gone. -/
def Noticed (before after : Option Data) : KeyChange → Prop
  | .updated => ∃ new, after = some new ∧ ∀ old, before = some old → old.agrees new = false
  | .removed => before.isSome = true ∧ after = none

private theorem noticed_of_between (found : between before after = some change) :
    change.Noticed before after := by
  cases before with
  | none =>
    cases after with
    | none => cases found
    | some new =>
      cases found
      refine ⟨new, rfl, fun old same => ?_⟩
      cases same
  | some old =>
    cases after with
    | none =>
      cases found
      exact ⟨rfl, rfl⟩
    | some new =>
      simp only [between] at found
      split at found
      case isTrue => cases found
      case isFalse differ =>
        cases found
        refine ⟨new, rfl, fun other same => ?_⟩
        cases same
        exact Bool.eq_false_iff.2 differ

end KeyChange

/-- Whoever names just what differs names only what readers notice. -/
theorem Precise.noticed {before after : Graph} {updates : List Update} (precise : Precise before after updates)
    {id : ObjectId} {key : String} {change : KeyChange} (named : change ∈ changesNamed updates id key) :
    change.Noticed (before.read id key) (after.read id key) := by
  rcases precise id key with same | ⟨none, -⟩
  · rw [same, Option.mem_toList] at named
    exact KeyChange.noticed_of_between named
  · rw [none] at named
    cases named

namespace Graph

variable {listing : Listing} {graph before after : Graph} {id : ObjectId} {key : String}
  {operation : Operation} {object next : LiveObject} {updates : List Update}

/-- The live map points, under the key, to an object that is deleted. -/
def Hides (graph : Graph) (id : ObjectId) (key : String) : Prop :=
  ∃ object, graph.get? id = some object ∧ object.tombstone = false ∧
    ∃ entry target, object.entry? key = some entry ∧ entry.target? = some target ∧
      graph.isTombstoned target = true

/-- Something is named of the key that a reader does not notice. -/
def Overstated (before after : Graph) (updates : List Update) (id : ObjectId) (key : String) : Prop :=
  ∃ change ∈ changesNamed updates id key, ¬ change.Noticed (before.read id key) (after.read id key)

theorem Hides.live (hides : graph.Hides id key) : graph.isTombstoned id = false := by
  obtain ⟨object, present, live, -⟩ := hides
  rw [isTombstoned, present, Option.any_some, live]

theorem Hides.read (hides : graph.Hides id key) : graph.read id key = none := by
  obtain ⟨object, present, live, entry, target, written, points, gone⟩ := hides
  rw [read_of_get? present, LiveObject.shown, live, written]
  exact valueOf_of_dead gone points

/-- A value that readers of a live map do not find points to an object that is deleted. -/
theorem hides_of_read (known : graph.get? id = some object) (live : object.tombstone = false)
    (valued : ((object.entry? key).bind Entry.value?).isSome = true) (unseen : graph.read id key = none) :
    graph.Hides id key := by
  obtain ⟨data, value⟩ := Option.isSome_iff_exists.1 valued
  obtain ⟨entry, written, held⟩ := Option.bind_eq_some_iff.1 value
  rw [read_of_get? known, LiveObject.shown, live, written] at unseen
  simp only [Bool.false_eq_true, ↓reduceIte, Option.bind_some, valueOf, held, Option.filter_some] at unseen
  split at unseen
  case isTrue => cases unseen
  case isFalse hidden =>
    rw [Bool.not_eq_true, Bool.not_eq_false', Option.any_eq_true] at hidden
    obtain ⟨target, points, gone⟩ := hidden
    refine ⟨object, known, live, entry, target, written, ?_, gone⟩
    rw [Entry.target?, held, Option.bind_some, points]

private theorem Grown.hides_iff (grown : Grown graph before) :
    before.Hides id key ↔ graph.Hides id key := by
  unfold Hides
  simp only [grown.isTombstoned_eq]
  rcases grown id with same | ⟨none, kind, -, placed⟩
  · rw [same]
  · rw [none, placed]
    constructor
    · rintro ⟨object, present, -, entry, target, written, -⟩
      cases present
      rw [LiveObject.entry?_initial rfl] at written
      cases written
    · rintro ⟨object, present, -⟩
      cases present

/-- Where the tombstones stay and all that is named is noticed, nothing is overstated. -/
theorem overstated_iff_of_noticed (same : after.isTombstoned id = graph.isTombstoned id)
    (noticed : ∀ change ∈ changesNamed updates id key, change.Noticed (graph.read id key) (after.read id key)) :
    Overstated graph after updates id key ↔ graph.Hides id key ∧ after.isTombstoned id = true := by
  constructor
  · rintro ⟨change, named, unnoticed⟩
    exact absurd (noticed change named) unnoticed
  · rintro ⟨hides, gone⟩
    rw [same, hides.live] at gone
    cases gone

/-- Where the deletion of an object shows elsewhere, readers notice it. -/
theorem noticed_of_referringKeys (known : before.get? operation.target = some object)
    (live : object.tombstone = false) (dead : next.tombstone = true) {other : LiveObject}
    (present : (before.insert operation.target next).get? id = some other)
    (refers : key ∈ referringKeys operation.target other) :
    KeyChange.removed.Noticed (before.read id key) (read (before.insert operation.target next) id key) := by
  obtain ⟨otherLive, entry, written, points⟩ := mem_referringKeys.1 refers
  have presentBefore : before.get? id = some other := by
    rw [SortedMap.get?_insert_ite] at present
    split at present
    case isTrue =>
      cases present
      rw [dead] at otherLive
      cases otherLive
    case isFalse => exact present
  have gone := (isTombstoned_insert_self before operation.target next).trans dead
  have alive : before.isTombstoned operation.target = false := by
    rw [isTombstoned, known, Option.any_some, live]
  constructor
  · obtain ⟨data, value, pointsToo⟩ := Option.bind_eq_some_iff.1 points
    rw [read_of_get? presentBefore, LiveObject.shown, otherLive, written]
    simp only [Bool.false_eq_true, ↓reduceIte, Option.bind_some, valueOf, value, Option.filter_some,
      pointsToo, Option.any_some, alive, Bool.not_false, Option.isSome_some]
  · rw [read_of_get? present, LiveObject.shown, otherLive, written]
    exact valueOf_of_dead gone points

/-- The deletion of an object overstates what happens to the hidden keys of a map, and
nothing else. -/
theorem overstated_delete_iff (known : before.get? operation.target = some object)
    (live : object.tombstone = false) (addressed : object.id = operation.target)
    (dead : next.tombstone = true) {time : Int} {clientId connectionId : Option String} :
    Overstated before (before.insert operation.target next)
        (cascade listing (before.insert operation.target next)
            ((object.delete time).1.causedBy clientId connectionId) ++
          [(object.delete time).1.causedBy clientId connectionId]) id key ↔
      before.Hides id key ∧ isTombstoned (before.insert operation.target next) id = true := by
  have readAfter : read (before.insert operation.target next) operation.target key = none := by
    rw [read_insert, if_pos rfl, LiveObject.shown_of_dead dead]
  have gone := (isTombstoned_insert_self before operation.target next).trans dead
  constructor
  · rintro ⟨change, named, unnoticed⟩
    rw [mem_changesNamed_deletion, addressed] at named
    obtain ⟨rfl, ⟨other, present, refers⟩ | ⟨rfl, valued⟩⟩ := named
    · exact absurd (noticed_of_referringKeys known live dead present refers) unnoticed
    · refine ⟨hides_of_read known live valued ?_, gone⟩
      rw [← Option.not_isSome_iff_eq_none]
      exact fun visible => unnoticed ⟨visible, readAfter⟩
  · rintro ⟨hides, deleted⟩
    -- Only the target dies, so it is the map that hides its key.
    obtain rfl : id = operation.target := by
      refine Classical.byContradiction fun other => ?_
      rw [isTombstoned, SortedMap.get?_insert_of_ne _ _ other, ← isTombstoned, hides.live] at deleted
      cases deleted
    refine ⟨.removed, mem_changesNamed_deletion.2 ⟨rfl, .inr ⟨addressed, ?_⟩⟩, fun noticed => ?_⟩
    · obtain ⟨found, present, -, entry, target, written, points, -⟩ := hides
      rw [known, Option.some.injEq] at present
      obtain ⟨data, value, -⟩ := Option.bind_eq_some_iff.1 points
      rw [present, written, Option.bind_some, value]
      rfl
    · obtain ⟨visible, -⟩ := noticed
      rw [hides.read] at visible
      cases visible

private theorem changesNamed_counter_step {effect : CounterEffect} {count : Double} (message : Message)
    (origin : String × Serial) (time : Int) :
    changesNamed (announced listing before operation message object
      ((object.admitting origin).run (.counter effect count) origin.2 time)) id key = [] := by
  have said : ∃ amount, ((object.admitting origin).run (.counter effect count) origin.2 time).1 =
      .ofAmount object.id amount := by
    cases effect with
    | add amount => exact ⟨amount, rfl⟩
    | create first =>
      simp only [LiveObject.run, LiveObject.mergeCount]
      split
      · exact ⟨_, rfl⟩
      · exact ⟨_, rfl⟩
  obtain ⟨amount, said⟩ := said
  rw [announced, said, announce_ofAmount]
  refine changesNamed_of_counters (fun update member => ?_) id key
  split at member
  · cases member
  · rw [List.mem_singleton.1 member]
    rfl

/-- Of the steps of a live object only a deletion overstates anything. -/
theorem overstated_step_iff {step : Step} (known : before.get? operation.target = some object)
    (live : object.tombstone = false) (asked : object.stepFor? operation = some step) (message : Message)
    (origin : String × Serial) (time : Int) :
    let result := (object.admitting origin).run step origin.2 time
    Overstated before (before.insert operation.target result.2)
        (announced listing before operation message object result) id key ↔
      before.Hides id key ∧ isTombstoned (before.insert operation.target result.2) id = true := by
  intro result
  have fits : step.Fits (object.admitting origin).contents := LiveObject.fits_of_stepFor? asked
  have tombstones (other : step ≠ .delete) :
      isTombstoned (before.insert operation.target result.2) id = before.isTombstoned id :=
    isTombstoned_insert known (LiveObject.run_tombstone other fits origin.2 time) id
  cases step with
  | map effect entries =>
    have precise := (precise_map_step listing known live asked message origin time).1
    refine overstated_iff_of_noticed (tombstones ?_) fun change named => precise.noticed named
    simp only [ne_eq, reduceCtorEq, not_false_eq_true]
  | counter effect count =>
    refine overstated_iff_of_noticed (tombstones ?_) fun change named => ?_
    · simp only [ne_eq, reduceCtorEq, not_false_eq_true]
    · rw [changesNamed_counter_step] at named
      cases named
  | delete =>
    have addressed : object.id = operation.target := (LiveObject.effect_of_stepFor? asked).1.symm
    have said : result.1 = (object.delete time).1 := rfl
    have dead : result.2.tombstone = true := rfl
    rw [announced, said, announce_delete _ _ _ _ _ _ rfl]
    exact overstated_delete_iff known live addressed dead

/-- A delivered message overstates nothing, unless it deletes a map with hidden keys. -/
theorem overstated_deliver_iff (graph : Graph) (message : Message) (now : Int) (id : ObjectId) (key : String) :
    Overstated graph (graph.deliver message now).2 (graph.deliver message now).1 id key ↔
      graph.Hides id key ∧ (graph.deliver message now).2.isTombstoned id = true := by
  have silent {before after : Graph} (same : after.isTombstoned id = before.isTombstoned id) :
      Overstated before after [] id key ↔ before.Hides id key ∧ after.isTombstoned id = true :=
    overstated_iff_of_noticed same fun _ named => absurd named List.not_mem_nil
  unfold deliver
  rcases deliver_cases .byName graph message now with same | ⟨operation, kind, object, shown, held, ended⟩
  · rw [same]
    exact silent rfl
  have known := prepare_target shown held
  have grown : Grown graph (prepare graph operation kind) := grown_prepare shown
  -- Readers do not see placeholders, so the prepared graph may stand for the graph before.
  rw [← grown.hides_iff, Overstated, ← grown.read_eq]
  rcases ended with same | ⟨step, origin, asked, ⟨-, same⟩ | ⟨live, same⟩⟩
  · rw [same]
    exact silent rfl
  · have tombstone : (object.admitting origin).tombstone = object.tombstone := rfl
    rw [same]
    exact silent (isTombstoned_insert known tombstone id)
  · simp only at same
    rw [same]
    exact overstated_step_iff known live asked (message.stampedAt now) origin _

/-- The move deletes a map that hides something under the key. -/
def DeletesHiding (graph : Graph) (id : ObjectId) (key : String) : Move → Prop
  | .deliver message now => graph.Hides id key ∧ (graph.deliver message now).2.isTombstoned id = true
  | .describe .. | .collect .. => False

private theorem overstated_move_iff (sound : graph.Sound) (move : Move) (id : ObjectId) (key : String) :
    Overstated graph (graph.move move).2 (graph.move move).1 id key ↔ graph.DeletesHiding id key move := by
  cases move with
  | deliver message now => exact overstated_deliver_iff graph message now id key
  | describe states now =>
    rw [DeletesHiding, iff_false]
    rintro ⟨change, named, unnoticed⟩
    simp only [Graph.move] at named unnoticed
    cases applied : graph.applySnapshot states now with
    | error fault =>
      rw [applied] at named
      cases named
    | ok result =>
      rw [applied] at named unnoticed
      exact unnoticed ((told_applySnapshot sound applied).1.noticed named)
  | collect grace now =>
    rw [DeletesHiding, iff_false]
    rintro ⟨change, named, -⟩
    cases named

end Graph

/-- Whatever a participant goes through, its updates are those of its moves, and a move names
nothing of a key but what readers notice of it, unless it deletes a map that hides something
under the key. -/
theorem overstated_iff (config : Config) (history : List (Input × Int)) (input : Input) (now : Int) :
    let before := (Replica.new config).after history
    let result := before.step input now
    let moves := before.moves input now
    result.1.updates = (before.graph.moveAll moves).1 ∧ result.2.graph = (before.graph.moveAll moves).2 ∧
      ∀ (earlier : List Move) (move : Move) (id : ObjectId) (key : String),
        let graph := (before.graph.moveAll earlier).2
        graph.Overstated (graph.move move).2 (graph.move move).1 id key ↔
          graph.DeletesHiding id key move := by
  intro before result moves
  obtain ⟨updatesSame, graphSame⟩ := before.step_moves input now
  refine ⟨updatesSame, graphSame, fun earlier move id key => ?_⟩
  have sound : before.graph.Sound := Replica.sound_after Graph.sound_initial history
  exact Graph.overstated_move_iff (sound.moveAll earlier) move id key

private def writtenBy (serial : String) (operation : Operation) : Message :=
  ((Message.ofOperation operation).withOrigin "a" ⟨serial⟩).withTimestamp 7

private def obscured : List (Input × Int) :=
  [(.messages [writtenBy "01" (.mapSet ⟨"map:m@1"⟩ "k" (.reference ⟨"counter:c@1"⟩)),
    writtenBy "02" (.objectDelete ⟨"counter:c@1"⟩)], 10)]

/-- A map whose only key was hidden is deleted: no reader notices anything of the key, but
it is named as removed. -/
theorem hidden_key_removed :
    let before := (Replica.new {}).after obscured
    let result := before.step (.messages [writtenBy "03" (.objectDelete ⟨"map:m@1"⟩)]) 11
    changesNamed result.1.updates ⟨"map:m@1"⟩ "k" = [.removed] ∧
      before.graph.read ⟨"map:m@1"⟩ "k" = none ∧ result.2.graph.read ⟨"map:m@1"⟩ "k" = none := by
  decide +kernel

end SharedGraph
