import SharedGraph.Proofs.DeliveryReports
import SharedGraph.Proofs.Runs

/-! No visible change goes unreported. A key of a map may change because of the map, of the
object that it points to, or of a description of anything; whichever it is, the updates of
that very input name the key, and their amounts add up to what counters gained. -/
namespace SharedGraph

namespace Graph

variable {graph : Graph} {id : ObjectId}

/-- What a move adds to a counter is not rounded. A description adds the difference. -/
def AddsExactly (graph : Graph) (id : ObjectId) : Move → Prop
  | .deliver message now =>
    ∀ amount ∈ amountsNamed (graph.deliver message now).1 id, (graph.countOf id).SumsExactly amount
  | .describe states now =>
    ∀ result ∈ (graph.applySnapshot states now).toOption,
      (result.2.countOf id).SumsExactly (graph.countOf id).neg
  | .collect .. => True

instance (graph : Graph) (id : ObjectId) : (move : Move) → Decidable (graph.AddsExactly id move)
  | .deliver message now =>
    inferInstanceAs (Decidable (∀ amount ∈ amountsNamed (graph.deliver message now).1 id, _))
  | .describe states now =>
    inferInstanceAs (Decidable (∀ result ∈ (graph.applySnapshot states now).toOption, _))
  | .collect .. => inferInstanceAs (Decidable True)

/-- No addition to a counter is rounded on the way. -/
def CountsExactly (graph : Graph) (id : ObjectId) : List Move → Prop
  | [] => True
  | move :: rest => graph.AddsExactly id move ∧ (graph.move move).2.CountsExactly id rest

instance decideCountsExactly (graph : Graph) (id : ObjectId) :
    (moves : List Move) → Decidable (graph.CountsExactly id moves)
  | [] => inferInstanceAs (Decidable True)
  | move :: rest =>
    have := decideCountsExactly (graph.move move).2 id rest
    inferInstanceAs (Decidable (_ ∧ _))

theorem told_move (sound : graph.Sound) (move : Move) :
    Reported graph (graph.move move).2 (graph.move move).1 ∧
      ∀ id, graph.AddsExactly id move → Accounted graph (graph.move move).2 (graph.move move).1 id := by
  cases move with
  | deliver message now =>
    have told := told_deliverIn .byName graph message now
    exact ⟨told.reported, told.accounted⟩
  | describe states now =>
    simp only [Graph.move, AddsExactly]
    cases applied : graph.applySnapshot states now with
    | ok result =>
      obtain ⟨precise, accounted⟩ := told_applySnapshot sound applied
      exact ⟨.of_between precise, fun id unrounded => accounted id (unrounded result rfl)⟩
    | error fault => exact ⟨.refl graph, fun id _ => .of_unchanged rfl rfl⟩
  | collect grace now =>
    constructor
    · apply Reported.of_unchanged
      intro id key
      simp only [Graph.move, read_collect]
      exact .refl _
    · refine fun id _ => .of_unchanged rfl ?_
      simp only [Graph.move, countOf_collect sound]

/-- What is told of each move tells all about a list of moves. -/
theorem told_moveAll (sound : graph.Sound) (moves : List Move) :
    Reported graph (graph.moveAll moves).2 (graph.moveAll moves).1 ∧
      ∀ id, graph.CountsExactly id moves →
        Accounted graph (graph.moveAll moves).2 (graph.moveAll moves).1 id := by
  induction moves generalizing graph with
  | nil => exact ⟨.refl graph, fun id _ => .of_unchanged rfl rfl⟩
  | cons move rest ih =>
    obtain ⟨reported, accounted⟩ := told_move sound move
    obtain ⟨reportedLater, accountedLater⟩ := ih (sound.move move)
    rw [moveAll_cons]
    refine ⟨reported.trans reportedLater, fun id unrounded => ?_⟩
    exact (accounted id unrounded.1).trans (accountedLater id unrounded.2)

end Graph

/-- After any history, whatever comes next: every key that a reader sees change is named by
an update, the last one that names a key says whether it is still there, and the amounts
named for a counter whose additions are not rounded add up to the change of its count. -/
theorem no_change_unreported (config : Config) (history : List (Input × Int)) (input : Input) (now : Int) :
    let before := (Replica.new config).after history
    let result := before.step input now
    (∀ id key, ¬ Unchanged (before.graph.read id key) (result.2.graph.read id key) →
      ∃ change, (changesNamed result.1.updates id key).getLast? = some change ∧
        (change = .removed ↔ result.2.graph.read id key = none)) ∧
    ∀ id, before.graph.CountsExactly id (before.moves input now) →
      Accounted before.graph result.2.graph result.1.updates id := by
  intro before result
  have sound : before.graph.Sound := Replica.sound_after Graph.sound_initial history
  obtain ⟨updatesSame, graphSame⟩ := before.step_moves input now
  obtain ⟨reported, accounted⟩ := Graph.told_moveAll sound (before.moves input now)
  rw [← updatesSame, ← graphSame] at reported accounted
  refine ⟨fun id key changed => ?_, accounted⟩
  have named := reported.named id key changed
  refine ⟨(changesNamed result.1.updates id key).getLast named, List.getLast?_eq_some_getLast named, ?_⟩
  exact reported.last id key _ (List.getLast?_eq_some_getLast named)

private def sent (serial : String) (operation : Operation) : Message :=
  ((Message.ofOperation operation).withOrigin "a" ⟨serial⟩).withTimestamp 7

private def votes : List (Input × Int) :=
  [(.messages [sent "01" (.counterCreate ⟨"counter:abc@1"⟩ (.ofInt 5) "n" ""),
    sent "02" (.mapSet .root "votes" (.reference ⟨"counter:abc@1"⟩))], 10)]

private def votedOut : Input :=
  .messages [sent "03" (.counterInc ⟨"counter:abc@1"⟩ (.ofInt 2)), sent "04" (.objectDelete ⟨"counter:abc@1"⟩)]

/-- A counter of five is raised by two and deleted, by which its key in the root vanishes. -/
theorem no_change_unreported_deletion :
    let before := (Replica.new {}).after votes
    let result := before.step votedOut 11
    (∃ change, (changesNamed result.1.updates .root "votes").getLast? = some change ∧
        (change = .removed ↔ result.2.graph.read .root "votes" = none)) ∧
      Accounted before.graph result.2.graph result.1.updates ⟨"counter:abc@1"⟩ :=
  ⟨(no_change_unreported {} votes votedOut 11).1 .root "votes" (by decide +kernel),
    (no_change_unreported {} votes votedOut 11).2 ⟨"counter:abc@1"⟩ (by decide +kernel)⟩

end SharedGraph
