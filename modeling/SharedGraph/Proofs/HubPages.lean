import SharedGraph.Proofs.Acknowledgements
import SharedGraph.Proofs.PagedDescriptions

/-! What becomes of a hub's description on its way. The hub writes the serials of its pages and a
participant reads them: a page belongs to what stands before the first colon of its serial. So the
pages come together again exactly if there is no colon in the name of their sequence; if there is
one, every page looks as if others followed, and the participant waits for ever. -/
namespace SharedGraph

/-! ## Serials as they are read -/

namespace PageSerial

/-- A colon in the name of the sequence hides the end of its cursor. -/
theorem ofText_toText_of_colon {sequence front back : String} (plain : ':' ∉ front.toList)
    (named : sequence = front ++ ":" ++ back) (cursor : Option String) :
    ofText (toText ⟨sequence, cursor⟩) = ⟨front, some (back ++ ":" ++ cursor.getD "")⟩ := by
  have text : toText ⟨sequence, cursor⟩ = front ++ ":" ++ (back ++ ":" ++ cursor.getD "") := by
    simp only [toText, named, String.append_assoc]
  have more : back ++ ":" ++ cursor.getD "" ≠ "" := by
    intro empty
    simpa using congrArg String.toList empty
  rw [text, ofText_of_split plain, if_neg more]

end PageSerial

/-- Whether a page is read as one of a sequence that others follow. -/
def OpenPage (sequence : String) (page : String × List ObjectState) : Prop :=
  ∃ cursor, PageSerial.ofText page.1 = ⟨sequence, some cursor⟩

theorem Message.Issued.tidy {message : Message} (issued : message.Issued) : message.Tidy := by
  rw [Message.tidy_iff]
  intro id mentioned _
  exact issued.isValid mentioned

namespace Hub

/-- All pages but the last say that others follow, of the same sequence as they are read. The last
one says so exactly if the name of the sequence has a colon. -/
theorem pages_read (hub : Hub) (sequence : String) (size : Nat) :
    ∃ early states owner, hub.pages sequence size = early ++ [(PageSerial.toText ⟨sequence, none⟩, states)] ∧
      early.flatMap Prod.snd ++ states = hub.snapshot ∧ (∀ page ∈ early, OpenPage owner page) ∧
      (':' ∉ sequence.toList → owner = sequence) ∧
      (':' ∈ sequence.toList → OpenPage owner (PageSerial.toText ⟨sequence, none⟩, states)) := by
  obtain ⟨early, last, cut, numbered, whole⟩ := PendingSync.pages_spec sequence size hub.snapshot
  have written : hub.pages sequence size =
      early.map (fun page => (page.1.toText, page.2)) ++ [(PageSerial.toText ⟨sequence, none⟩, last)] := by
    simp [pages, cut]
  have all : (early.map fun page => (page.1.toText, page.2)).flatMap Prod.snd ++ last = hub.snapshot := by
    rw [List.flatMap_map]
    exact whole
  have each (owner : String) (reads : ∀ number : Nat,
      ∃ cursor, PageSerial.ofText (PageSerial.toText ⟨sequence, some ("page" ++ Nat.repr number)⟩) =
        ⟨owner, some cursor⟩) :
      ∀ page ∈ early.map (fun page => (page.1.toText, page.2)), OpenPage owner page := by
    intro page member
    obtain ⟨original, given, rfl⟩ := List.mem_map.1 member
    obtain ⟨number, named⟩ := numbered original given
    rw [OpenPage, named]
    exact reads number
  generalize early.map (fun page => (page.1.toText, page.2)) = sent at written all each
  refine ⟨sent, last, ?_⟩
  by_cases colon : ':' ∈ sequence.toList
  · obtain ⟨front, back, plain, named⟩ := PageSerial.exists_split colon
    have reads := PageSerial.ofText_toText_of_colon plain named
    exact ⟨front, written, all, each front fun number => ⟨_, reads _⟩, fun none => absurd colon none,
      fun _ => ⟨_, reads none⟩⟩
  · refine ⟨sequence, written, all, each sequence fun number => ⟨"page" ++ Nat.repr number, ?_⟩, fun _ => rfl,
      fun some => absurd some colon⟩
    apply PageSerial.ofText_toText colon
    simp only [ne_eq, Option.some.injEq]
    intro empty
    simpa using congrArg String.toList empty

/-! ## Hubs that participants write to -/

/-- What participants do at a hub, and what is done to it. -/
inductive Visit where
  | connect (site : String)
  | accepting (open? : Bool)
  | write (client : Client) (write : Write) (messageId : String) (now : Int)

def visit (hub : Hub) : Visit → Hub
  | .connect site => hub.undergo (.connect site)
  | .accepting open? => hub.undergo (.accepting open?)
  | .write client write messageId now => (client.call write messageId now hub).2

def visitAll (hub : Hub) (visits : List Visit) : Hub := visits.foldl visit hub

variable {hub : Hub}

/-- A write that is taken is one tidy message more. -/
theorem keeps_visit (keeps : hub.Keeps) (tidy : ∀ message ∈ hub.log, message.Tidy) (visit : Visit) :
    (hub.visit visit).Keeps ∧ ∀ message ∈ (hub.visit visit).log, message.Tidy := by
  cases visit with
  | connect site => exact ⟨keeps.undergo (show Event.Plain (.connect site) from trivial), tidy⟩
  | accepting open? => exact ⟨keeps.undergo (show Event.Plain (.accepting open?) from trivial), tidy⟩
  | write client write messageId now =>
    simp only [Hub.visit]
    cases answered : (client.call write messageId now hub).1 with
    | error failure =>
      rw [Client.call_of_error answered]
      exact ⟨keeps, tidy⟩
    | ok =>
      have sent := Client.call_of_ok answered
      obtain ⟨operation, -, -, -, taken⟩ := Client.send_eq_ok_iff.1 sent
      have plain := client.engine.replica.state_of_mem_outgoing operation messageId
      have after : (client.call write messageId now hub).2 = hub.undergo (.publish client.connection
          [client.engine.replica.outgoing operation messageId] now) := by
        rw [Hub.undergo, taken]
      obtain ⟨-, message, -, -, issued, logged, -⟩ := Client.send_spec sent
      constructor
      · rw [after]
        exact keeps.undergo plain
      · rw [logged]
        intro other member
        rcases List.mem_append.1 member with earlier | new
        · exact tidy other earlier
        · exact List.mem_singleton.1 new ▸ issued.tidy

private theorem keeps_visitAll (keeps : hub.Keeps) (tidy : ∀ message ∈ hub.log, message.Tidy)
    (visits : List Visit) :
    (hub.visitAll visits).Keeps ∧ ∀ message ∈ (hub.visitAll visits).log, message.Tidy := by
  induction visits generalizing hub with
  | nil => exact ⟨keeps, tidy⟩
  | cons visit rest ih =>
    obtain ⟨keepsNext, tidyNext⟩ := keeps_visit keeps tidy visit
    exact ih keepsNext tidyNext

/-- Whoever wrote what: a sound graph takes over what the hub says about its objects. -/
theorem exists_applySnapshot_visitAll (name : String) (visits : List Visit) {graph : Graph}
    (sound : graph.Sound) (now : Int) :
    ∃ result, graph.applySnapshot ((Hub.new name).visitAll visits).snapshot now = .ok result := by
  have nothing : ∀ message ∈ (Hub.new name).log, message.Tidy :=
    fun message member => absurd member List.not_mem_nil
  obtain ⟨keeps, tidy⟩ := keeps_visitAll (keeps_new name) nothing visits
  rw [sound.exists_applySnapshot_iff]
  exact keeps.orderly.check_describe_iff.2 (keeps.knows.valid_iff.2 tidy)

end Hub

/-- A page that comes at a time. -/
def Input.pageAt (page : (String × List ObjectState) × Int) : Input × Int :=
  (.page page.1.1 page.1.2, page.2)

namespace Replica

variable {replica : Replica}

/-- A page that others follow is put aside. -/
theorem step_of_openPage (usable : replica.channel.isUsable = true) {owner : String}
    {page : String × List ObjectState} (opens : OpenPage owner page) (now : Int) :
    replica.step (.page page.1 page.2) now =
      ({ events := replica.beginSync.1 }, replica.putAside owner ⟨"", page.2, []⟩) := by
  obtain ⟨cursor, read⟩ := opens
  rw [step_of_open_page usable (congrArg PageSerial.cursor read), read]
  simp [putAside]

/-- So are several, one after the other, and nothing is told but that catching up begins. -/
theorem reactions_open_pages (usable : replica.channel.isUsable = true) {owner : String}
    {pages : List ((String × List ObjectState) × Int)} (opens : ∀ page ∈ pages, OpenPage owner page.1) :
    let inputs := pages.map Input.pageAt
    let waiting := replica.after inputs
    (replica.reactions inputs).flatMap Reaction.updates = [] ∧
      (∀ reaction ∈ replica.reactions inputs, reaction.result = .ok ()) ∧
      waiting.channel = replica.channel ∧ waiting.graph = replica.graph ∧
      (pages ≠ [] → waiting.pending.isSome = true) ∧
      PendingSync.gatheredOf waiting.pending owner =
        PendingSync.gatheredOf replica.pending owner ++ pages.flatMap (fun page => page.1.2) ∧
      ∀ later, waiting.PutsOff replica ((replica.reactions inputs).flatMap Reaction.events) [] later := by
  induction pages generalizing replica with
  | nil =>
    refine ⟨rfl, fun reaction member => absurd member List.not_mem_nil, rfl, rfl, fun some => absurd rfl some,
      (List.append_nil _).symm, fun later => .refl replica later⟩
  | cons page rest ih =>
    obtain ⟨opensFirst, opensRest⟩ := List.forall_mem_cons.1 opens
    have first := step_of_openPage usable opensFirst page.2
    have reacted : replica.reactions ((page :: rest).map Input.pageAt) =
        { events := replica.beginSync.1 } ::
          (replica.putAside owner ⟨"", page.1.2, []⟩).reactions (rest.map Input.pageAt) := by
      simp only [List.map_cons, reactions, Input.pageAt, first]
    have last : replica.after ((page :: rest).map Input.pageAt) =
        (replica.putAside owner ⟨"", page.1.2, []⟩).after (rest.map Input.pageAt) := by
      simp only [List.map_cons, after, List.foldl_cons, Input.pageAt, first]
    have usableNext : (replica.putAside owner ⟨"", page.1.2, []⟩).channel.isUsable = true :=
      (congrArg ChannelState.isUsable replica.beginSync_channel).trans usable
    have gatheredFirst : PendingSync.gatheredOf (replica.putAside owner ⟨"", page.1.2, []⟩).pending owner =
        PendingSync.gatheredOf replica.pending owner ++ page.1.2 := if_pos rfl
    -- The other pages come to a participant that has put this one aside already.
    obtain ⟨silent, fine, channel, graph, waits, gathered, putsOff⟩ := ih usableNext opensRest
    simp only [reacted, last, List.flatMap_cons, silent, List.forall_mem_cons, channel, graph, gathered,
      gatheredFirst, List.append_assoc, List.nil_append, true_and]
    refine ⟨fine, replica.beginSync_channel, replica.beginSync_graph, fun _ => ?_, fun later => ?_⟩
    · by_cases more : rest = []
      · rw [more]
        rfl
      · exact waits more
    · exact (putsOff later).trans (putsOff_putAside usable owner ⟨"", page.1.2, []⟩ later)

/-- However many have come, the participant waits. -/
theorem Coherent.waits_after_open_pages (coherent : replica.Coherent)
    (usable : replica.channel.isUsable = true) {owner : String}
    {pages : List ((String × List ObjectState) × Int)} (opens : ∀ page ∈ pages, OpenPage owner page.1)
    (some : pages ≠ []) :
    let waiting := replica.after (pages.map Input.pageAt)
    waiting.phase = .syncing ∧ waiting.graph = replica.graph ∧
      (replica.reactions (pages.map Input.pageAt)).flatMap Reaction.updates = [] := by
  obtain ⟨silent, -, -, graph, pending, -⟩ := reactions_open_pages usable opens
  exact ⟨(coherent.after _).phase.2 (pending some), graph, silent⟩

/-- With the last page of the sequence they are put in place as one description. -/
theorem reactions_closed_pages (usable : replica.channel.isUsable = true) {sequence : String}
    (uncut : ':' ∉ sequence.toList) {early : List ((String × List ObjectState) × Int)}
    (opens : ∀ page ∈ early, OpenPage sequence page.1) (states : List ObjectState) (now : Int) :
    let inputs := early.map Input.pageAt ++ [Input.pageAt ((PageSerial.toText ⟨sequence, none⟩, states), now)]
    let adopted := replica.adoptSnapshot
      (PendingSync.gatheredOf replica.pending sequence ++ early.flatMap (fun page => page.1.2) ++ states) now
    replica.after inputs = adopted.2 ∧
      (replica.reactions inputs).flatMap Reaction.updates = adopted.1.updates ∧
      (replica.reactions inputs).flatMap Reaction.events = adopted.1.events ∧
      (adopted.1.result = .ok () → ∀ reaction ∈ replica.reactions inputs, reaction.result = .ok ()) := by
  intro inputs
  obtain ⟨silent, fine, channel, -, -, gathered, putsOff⟩ := reactions_open_pages usable opens
  have usableStill : (replica.after (early.map Input.pageAt)).channel.isUsable = true :=
    (congrArg ChannelState.isUsable channel).trans usable
  have closed := step_of_last_page usableStill uncut states now
  rw [gathered] at closed
  generalize PendingSync.gatheredOf replica.pending sequence ++ early.flatMap (fun page => page.1.2) ++ states =
    whole at closed ⊢
  have reacted : replica.reactions inputs = replica.reactions (early.map Input.pageAt) ++
      [((replica.after (early.map Input.pageAt)).adoptSnapshot whole now).1] := by
    simp only [inputs, reactions_append, Input.pageAt, reactions, closed]
  have ended : replica.after inputs = ((replica.after (early.map Input.pageAt)).adoptSnapshot whole now).2 := by
    simp only [inputs, after_concat, Input.pageAt, closed]
  obtain ⟨-, updates, events, result, same⟩ := putsOff now
  simp only [reacted, ended, List.flatMap_append, List.flatMap_singleton, silent, updates, events, same,
    List.mem_append, List.mem_singleton, true_and]
  refine ⟨rfl, List.append_nil _, ?_⟩
  rintro accepted reaction (earlier | rfl)
  · exact fine reaction earlier
  · exact (result whole).trans accepted

private theorem adoptSnapshot_of_ok {states : List ObjectState} {now : Int} {result : List Update × Graph}
    (applied : replica.graph.applySnapshot states now = .ok result) :
    (replica.adoptSnapshot states now).1.result = .ok () ∧
      (replica.adoptSnapshot states now).2.phase = .synced := by
  rw [← beginSync_graph] at applied
  simp only [adoptSnapshot, commit_of_ok applied, and_self]

end Replica

open Replica in
/-- The pages that a hub makes of its description, each at its own time. Whatever was written at the
hub, and whatever the participant went through, as long as its channel is usable and it does not
wait for this very sequence: up to the last page it waits and nothing changes. If there is no colon
in the name of the sequence, the last page does what the description in one piece would do, which
is put in place. If there is one, the last page is put aside like the others, and the participant
still waits. -/
theorem hub_pages_decoded (name : String) (visits : List Hub.Visit) (config : Config)
    (history : List (Input × Int)) (sequence : String) (size : Nat)
    (early : List ((String × List ObjectState) × Int)) (last : String × List ObjectState) (now : Int)
    (paged : early.map Prod.fst ++ [last] = ((Hub.new name).visitAll visits).pages sequence size)
    (usable : ((Replica.new config).after history).channel.isUsable = true)
    (other : ∀ pending, ((Replica.new config).after history).pending = some pending →
      pending.sequence ≠ some sequence) :
    let hub := (Hub.new name).visitAll visits
    let replica := (Replica.new config).after history
    let inputs := early.map Input.pageAt ++ [Input.pageAt (last, now)]
    let told := replica.reactions inputs
    let final := replica.after inputs
    let adopted := replica.step (.snapshot hub.snapshot) now
    (∀ before, before <+: early → before ≠ [] →
        let waiting := replica.after (before.map Input.pageAt)
        waiting.phase = .syncing ∧ waiting.graph = replica.graph ∧
          (replica.reactions (before.map Input.pageAt)).flatMap Reaction.updates = []) ∧
      (∀ reaction ∈ told, reaction.result = .ok ()) ∧
      (':' ∉ sequence.toList → final.phase = .synced ∧ final = adopted.2 ∧
        told.flatMap Reaction.updates = adopted.1.updates ∧
        told.flatMap Reaction.events = adopted.1.events) ∧
      (':' ∈ sequence.toList → final.phase = .syncing ∧ final.graph = replica.graph ∧
        told.flatMap Reaction.updates = []) := by
  intro hub replica inputs told final adopted
  have coherent : replica.Coherent := coherent_after config history
  obtain ⟨sent, states, owner, cut, whole, opens, plain, hidden⟩ := hub.pages_read sequence size
  obtain ⟨earlySame, lastSame⟩ := List.append_inj' (paged.trans cut) rfl
  cases lastSame
  have opensEarly : ∀ page ∈ early, OpenPage owner page.1 :=
    fun page member => opens page.1 (earlySame ▸ List.mem_map_of_mem member)
  refine ⟨fun before isPrefix => coherent.waits_after_open_pages usable fun page member =>
    opensEarly page (isPrefix.subset member), ?_⟩
  by_cases colon : ':' ∈ sequence.toList
  · have opensAll : ∀ page ∈ early ++ [((PageSerial.toText ⟨sequence, none⟩, states), now)],
        OpenPage owner page.1 := by
      intro page member
      rcases List.mem_append.1 member with earlier | new
      · exact opensEarly page earlier
      · exact List.mem_singleton.1 new ▸ hidden colon
    have all : inputs = (early ++ [((PageSerial.toText ⟨sequence, none⟩, states), now)]).map Input.pageAt := by
      simp [inputs]
    obtain ⟨-, fine, -⟩ := reactions_open_pages usable opensAll
    simp only [final, told, all]
    exact ⟨fine, fun none => absurd colon none,
      fun _ => coherent.waits_after_open_pages usable opensAll (by simp)⟩
  · obtain rfl := plain colon
    have complete : PendingSync.gatheredOf replica.pending owner ++ early.flatMap (fun page => page.1.2) ++ states =
        hub.snapshot := by
      rw [coherent.gatheredOf_of_other other, List.nil_append, ← whole, ← earlySame, List.flatMap_map]
    obtain ⟨reached, updates, events, fine⟩ := reactions_closed_pages usable colon opensEarly states now
    rw [complete] at reached updates events fine
    have sound : replica.graph.Sound := sound_after Graph.sound_initial history
    obtain ⟨result, applied⟩ := Hub.exists_applySnapshot_visitAll name visits sound now
    obtain ⟨accepted, synced⟩ := adoptSnapshot_of_ok applied
    refine ⟨fine accepted, fun _ => ⟨?_, reached, updates, events⟩, fun some => absurd some colon⟩
    exact (congrArg Replica.phase reached).trans synced

/-- A title and a counter that somebody wrote. -/
private def inscriptions : List Hub.Visit :=
  let visitor : Client := { engine := .new {}, connection := ⟨"a", "conn-1", 0⟩ }
  [.connect "a", .write visitor (.set .root "title" (.text "tea?")) "m1" 5,
    .write visitor (.increment ⟨"counter:abc@1"⟩ (.ofInt 2)) "m2" 6]

private def sheets : List (String × List ObjectState) :=
  ((Hub.new "hall").visitAll inscriptions).pages "s" 1

open Replica in
/-- A participant that expects a description waits after the first of two pages and has the objects
of the hub after the second one. -/
theorem hub_pages_decoded_inscriptions :
    let replica := (Replica.new {}).after [(.channel (.attached true), 7)]
    let early := sheets.dropLast.map fun page => (page, (8 : Int))
    let final := replica.after (early.map Input.pageAt ++ [Input.pageAt (sheets.getLastD ("", []), 9)])
    sheets.length = 2 ∧ (replica.after (early.map Input.pageAt)).phase = .syncing ∧ final.phase = .synced ∧
      final = (replica.step (.snapshot ((Hub.new "hall").visitAll inscriptions).snapshot) 9).2 := by
  intro replica early final
  obtain ⟨waits, -, reaches, -⟩ := hub_pages_decoded "hall" inscriptions {} [(.channel (.attached true), 7)]
    "s" 1 early (sheets.getLastD ("", [])) 9 (by decide +kernel) rfl (by
      intro pending waits
      cases waits
      decide)
  obtain ⟨synced, same, -⟩ := reaches (by decide)
  exact ⟨by decide +kernel, (waits early List.prefix_rfl (by decide +kernel)).1, synced, same⟩

open Replica in
/-- The last page of the sequence `a:b` is read as one of the sequence `a` that others follow, so a
newcomer waits, while the description in one piece is put in place. -/
theorem last_page_hidden_by_colon :
    let hub := Hub.new "hall"
    let newcomer := Replica.new {}
    let sent := (hub.pages "a:b" 10).map fun page => Input.pageAt (page, 1)
    newcomer.channel.isUsable = true ∧ newcomer.pending = none ∧
      (hub.pages "a:b" 10).map Prod.fst = ["a:b:"] ∧
      PageSerial.ofText "a:b:" = ⟨"a", some "b:"⟩ ∧ (newcomer.after sent).phase = .syncing ∧
      (newcomer.step (.snapshot hub.snapshot) 1).2.phase = .synced := by
  decide +kernel

end SharedGraph
