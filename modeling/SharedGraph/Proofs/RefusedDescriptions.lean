import Mathlib.Data.List.Induction
import SharedGraph.Proofs.CatchingUp

/-! What becomes of a description that is refused. It is refused for the first of its states
that is not in order and for nothing else, whatever graph it meets. The participant then goes
back to the phase in which it was before it began to catch up, says so, and applies what
waited to the graph that it has. -/
namespace SharedGraph

/-- A list of checks fails with the fault of the first one that does. -/
theorem forM_eq_error_iff {α : Type} {check : α → Except Fault Unit} {items : List α} {fault : Fault} :
    items.forM check = .error fault ↔ ∃ earlier item later, items = earlier ++ item :: later ∧
      (∀ other ∈ earlier, check other = .ok ()) ∧ check item = .error fault := by
  induction items with
  | nil =>
    refine ⟨nofun, ?_⟩
    rintro ⟨earlier, item, later, split, -⟩
    cases earlier <;> cases split
  | cons first rest ih =>
    have unfolded : (first :: rest).forM check = (check first >>= fun _ => rest.forM check) := rfl
    rw [unfolded]
    cases checked : check first with
    | error other =>
      simp only [bind, Except.bind, Except.error.injEq]
      constructor
      · rintro rfl
        exact ⟨[], first, rest, rfl, nofun, checked⟩
      · rintro ⟨_ | ⟨_, earlier⟩, item, later, split, passed, failed⟩
        · cases split
          exact Except.error.inj (checked.symm.trans failed)
        · cases split
          have passedFirst := passed first (List.mem_cons_self ..)
          rw [checked] at passedFirst
          cases passedFirst
    | ok =>
      simp only [bind, Except.bind]
      rw [ih]
      constructor
      · rintro ⟨earlier, item, later, rfl, passed, failed⟩
        exact ⟨first :: earlier, item, later, rfl, List.forall_mem_cons.2 ⟨checked, passed⟩, failed⟩
      · rintro ⟨_ | ⟨_, earlier⟩, item, later, split, passed, failed⟩
        · cases split
          rw [checked] at failed
          cases failed
        · cases split
          exact ⟨earlier, item, later, rfl, (List.forall_mem_cons.1 passed).2, failed⟩

namespace Graph

variable {graph : Graph} {states : List ObjectState}

/-- A description is applied to an object of its own name and kind. -/
theorem Keyed.baseline (keyed : graph.Keyed) (state : ObjectState) (kind : Kind) :
    (graph.baseline state kind).id = state.id ∧ (graph.baseline state kind).kind = kind := by
  have new : (LiveObject.placeholder state.id kind).kind = kind := LiveObject.kind_initial kind
  unfold Graph.baseline
  cases present : graph.get? state.id with
  | none => exact ⟨rfl, new⟩
  | some known =>
    simp only
    split
    case isTrue same => exact ⟨keyed state.id known present, same⟩
    case isFalse => exact ⟨rfl, new⟩

/-- Once the kind of a state is known, nothing stops the object from taking it over. -/
theorem Keyed.exists_addDescribed (keyed : graph.Keyed) {state : ObjectState} {kind : Kind}
    (shown : state.kind = .ok kind) (working : Working) (now : Int) :
    ∃ next, working.addDescribed graph state now = .ok next := by
  obtain ⟨named, kindSame⟩ := keyed.baseline state kind
  have sameKind : state.kind = .ok (graph.baseline state kind).kind := by rw [shown, kindSame]
  have overridden := LiveObject.override_eq named.symm sameKind now
  simp only [Working.addDescribed, describedObject, shown, bind, Except.bind, overridden, Except.ok.injEq,
    exists_eq']

private theorem Keyed.exists_foldlM_addDescribed (keyed : graph.Keyed) {list : List ObjectState}
    (shown : ∀ state ∈ list, ∃ kind, state.kind = .ok kind) (now : Int) (working : Working) :
    ∃ next, list.foldlM (fun working state => working.addDescribed graph state now) working = .ok next := by
  induction list generalizing working with
  | nil => exact ⟨working, rfl⟩
  | cons state rest ih =>
    obtain ⟨kind, same⟩ := shown state (List.mem_cons_self ..)
    obtain ⟨next, added⟩ := keyed.exists_addDescribed same working now
    rw [List.foldlM_cons, added]
    exact ih (fun other member => shown other (List.mem_cons_of_mem _ member)) next

/-- Only the check of the states can stop a description. -/
theorem Keyed.applySnapshot_eq_error_iff (keyed : graph.Keyed) (states : List ObjectState) (now : Int)
    (fault : Fault) :
    graph.applySnapshot states now = .error fault ↔ states.forM ObjectState.check = .error fault := by
  cases checked : states.forM ObjectState.check with
  | error other =>
    have same : graph.applySnapshot states now = .error other := by
      simp only [applySnapshot, checked, bind, Except.bind]
    rw [same, Except.error.injEq, Except.error.injEq]
  | ok =>
    have shown : ∀ state ∈ (describedStates states).values, ∃ kind, state.kind = .ok kind := by
      intro state member
      obtain ⟨id, described⟩ := SortedMap.mem_values_iff.1 member
      rcases (of_get?_describedStates described).2 with given | rfl
      · obtain ⟨kind, same, -⟩ := ObjectState.kind_of_check (forM_eq_ok.1 checked state given)
        exact ⟨kind, same⟩
      · exact ⟨.map, rfl⟩
    obtain ⟨working, built⟩ := keyed.exists_foldlM_addDescribed shown now .empty
    simp only [applySnapshot, checked, bind, Except.bind, built, reduceCtorEq]

end Graph

namespace Replica

variable {replica start : Replica} {input : Input} {states : List ObjectState}
  {during : List (Input × Int)}

/-- Nothing is pending at the start, and something is after each of the inputs. -/
structure Awaits (start : Replica) (during : List (Input × Int)) : Prop where
  idle : start.pending = none
  pending : ∀ taken, taken <+: during → taken ≠ [] → (start.after taken).pending ≠ none

private theorem awaits_nil (idle : start.pending = none) : start.Awaits [] where
  idle := idle
  pending _ part some := absurd (List.prefix_nil.1 part) some

private theorem awaits_concat_iff {entry : Input × Int} : start.Awaits (during ++ [entry]) ↔
    start.Awaits during ∧ (start.after (during ++ [entry])).pending ≠ none := by
  constructor
  · intro awaits
    refine ⟨⟨awaits.idle, fun taken part some => ?_⟩, ?_⟩
    · exact awaits.pending taken (part.trans (List.prefix_append ..)) some
    · exact awaits.pending _ List.prefix_rfl (List.concat_ne_nil _ _)
  · rintro ⟨awaits, last⟩
    refine ⟨awaits.idle, fun taken part some => ?_⟩
    rcases List.prefix_concat_iff.1 part with rfl | earlier
    · exact last
    · exact awaits.pending taken earlier some

/-- There is always a last moment at which nothing was pending. -/
theorem exists_awaits (idle : replica.pending = none) (history : List (Input × Int)) :
    ∃ before during, history = before ++ during ∧ (replica.after before).Awaits during := by
  induction history using List.reverseRecOn with
  | nil => exact ⟨[], [], rfl, awaits_nil idle⟩
  | append_singleton earlier entry ih =>
    cases last : (replica.after (earlier ++ [entry])).pending with
    | none => exact ⟨earlier ++ [entry], [], (List.append_nil _).symm, awaits_nil last⟩
    | some pending =>
      obtain ⟨before, during, rfl, awaits⟩ := ih
      refine ⟨before, during ++ [entry], List.append_assoc .., awaits_concat_iff.2 ⟨awaits, ?_⟩⟩
      have same : (replica.after before).after (during ++ [entry]) =
          replica.after (before ++ during ++ [entry]) := by
        simp only [after, List.foldl_append]
      rw [same, last]
      exact Option.some_ne_none pending

/-- What is to be applied once a description is settled: the operations that came since it was
awaited, in their order, if they are put aside at all. -/
def waiting (config : Config) (during : List (Input × Int)) : List Message :=
  if config.bufferDuringSync then during.flatMap fun entry => entry.1.operations else []

/-- As long as a description is awaited, the participant knows the phase in which it was before,
and keeps the operations in their order. -/
theorem Awaits.kept (awaits : start.Awaits during) (coherent : start.Coherent) :
    let replica := start.after during
    replica.beginSync.2.fallback = start.phase ∧
      replica.buffered = waiting start.config during ∧
      replica.beginSync.1 = if during = [] then [.syncing] else [] := by
  induction during using List.reverseRecOn with
  | nil =>
    have settled : start.phase ≠ .syncing := by
      rw [ne_eq, coherent.phase, awaits.idle]
      exact Bool.false_ne_true
    have nothing : waiting start.config [] = [] := ite_self _
    simp only [after, List.foldl_nil, beginSync_of_idle awaits.idle, settled, ↓reduceIte,
      coherent.buffered awaits.idle, nothing, and_self]
  | append_singleton earlier entry ih =>
    obtain ⟨awaitsBefore, still⟩ := awaits_concat_iff.1 awaits
    obtain ⟨fallback, buffered, -⟩ := ih awaitsBefore
    -- The phase to go back to is settled by the first input and only handed on by this one.
    rw [after_concat] at still ⊢
    have coherentBefore : (start.after earlier).Coherent := coherent.after earlier
    obtain ⟨fallbackNext, bufferedNext⟩ := coherentBefore.step_of_pending still
    obtain ⟨pending, same⟩ := Option.ne_none_iff_exists'.1 still
    refine ⟨?_, ?_, ?_⟩
    · rw [beginSync_of_pending same, fallbackNext, fallback]
    · rw [bufferedNext, buffered, after_config, waiting, waiting, List.flatMap_append, List.flatMap_singleton]
      cases start.config.bufferDuringSync <;> rfl
    · rw [beginSync_of_pending same, if_neg (List.concat_ne_nil _ _)]

private theorem channelAfter_of_completed (completed : replica.completed? input = some states)
    (some : states ≠ []) : input.channelAfter replica.channel = replica.channel := by
  cases input with
  | channel state =>
    cases state with
    | attached announced =>
      cases announced with
      | true => cases completed
      | false =>
        cases completed
        exact absurd rfl some
    | initialized | attaching | suspended | detached | failed => cases completed
  | messages batch => rfl
  | page serial states => rfl
  | snapshot states => rfl
  | collect time => rfl

/-- A description that is refused leaves the graph to what waited for it and to the operations
that came with it. -/
theorem step_of_refused (completed : replica.completed? input = some states) (some : states ≠ [])
    {now : Int} {fault : Fault} (refused : replica.graph.applySnapshot states now = .error fault) :
    let result := replica.step input now
    let own := if replica.channel.isUsable then input.operations else []
    result.1.result = .error (.malformedSync fault) ∧
      result.1.events = replica.beginSync.1 ++ [.failed (.malformedSync fault)] ∧
      result.2.phase = replica.beginSync.2.fallback ∧
      (result.1.updates, result.2.graph) =
        replica.graph.moveAll (deliveries (replica.buffered ++ own) now) := by
  obtain ⟨outcome, answered, same⟩ := step_of_completed completed now
  have outcomeSame := answered.resolve_right some
  rw [channelAfter_of_completed completed some] at same outcomeSame
  have begunRefused : replica.beginSync.2.graph.applySnapshot states now = .error fault := by
    rw [beginSync_graph, refused]
  have adopted : replica.adoptSnapshot states now =
      ({ updates := (replica.graph.moveAll (deliveries replica.buffered now)).1
         events := replica.beginSync.1 ++ [.failed (.malformedSync fault)]
         result := .error (.malformedSync fault) },
        { replica.beginSync.2 with
          graph := (replica.graph.moveAll (deliveries replica.buffered now)).2
          phase := replica.beginSync.2.fallback
          pending := none
          buffered := [] }) := by
    simp only [adoptSnapshot, commit_of_error begunRefused, beginSync_graph, beginSync_buffered]
  rw [adopted] at same outcomeSame
  rw [same, outcomeSame, routeAll_eq]
  refine ⟨rfl, rfl, rfl, ?_⟩
  simp only [routeMoves, appliesNow, beginSync_channel, Option.isSome_none, Bool.false_and, Bool.not_false,
    Bool.and_true, deliveries, List.map_append, Graph.moveAll_append]
  cases replica.channel.isUsable <;> rfl

end Replica

open Replica in
/-- A description is refused exactly if one of its states is not in order, with the fault of the
first such state, and the graph stays as it is. A participant to which this happens goes back to
the phase of the last moment at which nothing was pending, says that it failed, and applies the
operations that waited in the order in which they came, and then those that came along. -/
theorem description_refused_as_a_whole :
    (∀ graph : Graph, graph.Keyed → ∀ (states : List ObjectState) (now : Int),
      ((∃ fault, graph.applySnapshot states now = .error fault) ↔ ∃ state ∈ states, state.check ≠ .ok ()) ∧
      ∀ fault, graph.applySnapshot states now = .error fault →
        graph.move (.describe states now) = ([], graph) ∧
        ∃ earlier state later, states = earlier ++ state :: later ∧
          (∀ other ∈ earlier, other.check = .ok ()) ∧ state.check = .error fault) ∧
    ∀ (config : Config) (history : List (Input × Int)) (input : Input) (states : List ObjectState) (now : Int),
      let replica := (Replica.new config).after history
      let result := replica.step input now
      replica.completed? input = some states → (∃ state ∈ states, state.check ≠ .ok ()) →
      ∃ before during fault,
        let start := (Replica.new config).after before
        let own := if replica.channel.isUsable then input.operations else []
        history = before ++ during ∧ start.Awaits during ∧
        replica.graph.applySnapshot states now = .error fault ∧
        result.1.result = .error (.malformedSync fault) ∧
        result.1.events = (if during = [] then [.syncing] else []) ++ [.failed (.malformedSync fault)] ∧
        result.2.phase = start.phase ∧
        (result.1.updates, result.2.graph) =
          replica.graph.moveAll (deliveries (waiting config during ++ own) now) := by
  have refused_iff {graph : Graph} (keyed : graph.Keyed) (states : List ObjectState) (now : Int) :
      (∃ fault, graph.applySnapshot states now = .error fault) ↔ ∃ state ∈ states, state.check ≠ .ok () := by
    have faulty : (∃ state ∈ states, state.check ≠ .ok ()) ↔ states.forM ObjectState.check ≠ .ok () := by
      rw [ne_eq, forM_eq_ok]
      simp only [not_forall, exists_prop, ne_eq]
    simp only [keyed.applySnapshot_eq_error_iff, faulty]
    cases states.forM ObjectState.check <;> simp
  refine ⟨fun graph keyed states now => ⟨refused_iff keyed states now, fun fault refused => ⟨?_, ?_⟩⟩, ?_⟩
  · simp only [Graph.move, refused]
  · exact forM_eq_error_iff.1 ((keyed.applySnapshot_eq_error_iff states now fault).1 refused)
  · intro config history input states now replica result completed faulty
    have sound : replica.graph.Sound := sound_after Graph.sound_initial history
    obtain ⟨fault, refused⟩ := (refused_iff sound.keyed states now).2 faulty
    have some : states ≠ [] := by
      rintro rfl
      obtain ⟨state, member, -⟩ := faulty
      cases member
    obtain ⟨answer, events, phase, moved⟩ := step_of_refused completed some refused
    have idle : (Replica.new config).pending = none := rfl
    obtain ⟨before, during, split, awaits⟩ := exists_awaits idle history
    have same : ((Replica.new config).after before).after during = replica := by
      simp only [replica, split, after, List.foldl_append]
    obtain ⟨fallback, buffered, begins⟩ := awaits.kept (coherent_after config before)
    rw [same] at fallback buffered begins
    rw [after_config] at buffered
    rw [begins] at events
    rw [fallback] at phase
    rw [buffered] at moved
    exact ⟨before, during, fault, split, awaits, refused, answer, events, phase, moved⟩

private def torn : ObjectState :=
  { id := ⟨"counter:abc@1"⟩, entries := some .empty, count := some (.ofInt 5) }

private def raised : Message :=
  ((Message.ofOperation (.counterInc ⟨"counter:abc@1"⟩ (.ofInt 2))).withOrigin "a" ⟨"01"⟩).withTimestamp 7

private def underWay : List (Input × Int) :=
  [(.channel (.attached true), 1), (.messages [raised], 2), (.page "s:1" [], 3)]

open Replica in
/-- A counter is raised while a description in pages is awaited, whose last page says of the
counter that it is a map as well. -/
theorem description_refused_as_a_whole_torn :
    ((∃ fault, Graph.initial.applySnapshot [torn] 4 = .error fault) ∧ torn.check ≠ .ok ()) ∧
    let replica := (Replica.new {}).after underWay
    let result := replica.step (.page "s:" [torn]) 4
    ∃ before during fault,
      let start := (Replica.new {}).after before
      let own := if replica.channel.isUsable then (Input.page "s:" [torn]).operations else []
      underWay = before ++ during ∧ start.Awaits during ∧
      replica.graph.applySnapshot [torn] 4 = .error fault ∧
      result.1.result = .error (.malformedSync fault) ∧
      result.1.events = (if during = [] then [.syncing] else []) ++ [.failed (.malformedSync fault)] ∧
      result.2.phase = start.phase ∧
      (result.1.updates, result.2.graph) =
        replica.graph.moveAll (deliveries (waiting {} during ++ own) 4) := by
  have faulty : ∃ state ∈ [torn], state.check ≠ .ok () := ⟨torn, List.mem_singleton_self _, by decide +kernel⟩
  refine ⟨⟨?_, by decide +kernel⟩, ?_⟩
  · exact (description_refused_as_a_whole.1 _ Graph.keyed_initial [torn] 4).1.2 faulty
  · exact description_refused_as_a_whole.2 {} underWay (.page "s:" [torn]) [torn] 4 (by decide +kernel) faulty

end SharedGraph
