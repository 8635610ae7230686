import Mathlib.Algebra.Order.BigOperators.Group.List
import SharedGraph.Proofs.Deliveries
import SharedGraph.Proofs.Interleaving

/-! Participants that were delivered the same messages hold the same graph. Each may get
them interleaved, cut into batches and repeated in its own way; only the messages of one
site for one object have to keep their order. -/
namespace SharedGraph

namespace Message

/-- The key that a message writes to. -/
def written? (message : Message) : Option (ObjectId × String) :=
  match message.effect? with
  | some (id, .onMap (.set key _)) | some (id, .onMap (.remove key)) => some (id, key)
  | _ => none

/-- The object that a message creates. -/
def created? (message : Message) : Option ObjectId :=
  message.effect?.bind fun found => if found.2.isCreate then some found.1 else none

/-- The keys that a message brings first entries for with a serial of their own. -/
def firstWrites (message : Message) : List ((ObjectId × String) × Serial) :=
  match message.effect? with
  | some (id, .onMap (.create first)) =>
    first.toList.filterMap fun entry =>
      (Serial.effective entry.2.serial).map fun serial => ((id, entry.1), serial)
  | _ => []

/-- What a message adds to a counter, as an increment or as its first count. -/
def added? (message : Message) : Option Double :=
  match message.effect? with
  | some (_, .onCounter effect) => some effect.amount
  | _ => none

/-- The size of the whole number that a message adds to a counter. -/
def weight (message : Message) : Nat := ((message.added?.bind Double.whole?).getD 0).natAbs

/-- The message was issued by the site and is for the object. -/
def isFrom (site : String) (id : ObjectId) (message : Message) : Bool :=
  message.site = some site && message.operation.any fun operation => operation.target = id

end Message

/-- Operations that may be interleaved: they are dated, no two writes to a key that can
change places have the same serial, no object is created twice, and counts stay whole
numbers that are added without rounding. -/
structure Compatible (collection : List Message) : Prop where
  dated : ∀ message ∈ collection,
    message.operation.isSome ∧ message.state = none ∧ message.timestamp.isSome
  apart : ∀ message ∈ collection, ∀ other ∈ collection, message.site ≠ other.site →
    message.written?.isSome → message.written? = other.written? → message.serial ≠ other.serial
  created : (collection.filterMap Message.created?).Nodup
  first : ∀ message ∈ collection, ∀ write ∈ message.firstWrites, ∀ other ∈ collection,
    other.written? = some write.1 → other.serial ≠ some write.2
  whole : ∀ message ∈ collection, ∀ amount ∈ message.added?, amount.whole?.isSome
  small : (collection.map Message.weight).sum ≤ 2 ^ 53

/-- A stream that brings each message of a list once, in this order, and now and then
repeats one that it brought before. -/
inductive Redelivery : List Message → List Message → Prop where
  | nil : Redelivery [] []
  | fresh {first stream : List Message} (message : Message) :
    Redelivery first stream → Redelivery (first ++ [message]) (stream ++ [message])
  | again {first stream : List Message} {message : Message} :
    message ∈ stream → Redelivery first stream → Redelivery first (stream ++ [message])

/-- A stream that brings the messages of a collection, and for each object and site those
of this site for this object in the order of the collection. -/
def Delivers (collection stream : List Message) : Prop :=
  ∃ first, first.Perm collection ∧
    (∀ site id, first.filter (Message.isFrom site id) = collection.filter (Message.isFrom site id)) ∧
    Redelivery first stream

namespace Compatible

variable {collection other : List Message}

theorem perm (compatible : Compatible collection) (same : collection.Perm other) : Compatible other where
  dated message member := compatible.dated message (same.mem_iff.2 member)
  apart message member next nextMember :=
    compatible.apart message (same.mem_iff.2 member) next (same.mem_iff.2 nextMember)
  created := (same.filterMap Message.created?).nodup_iff.1 compatible.created
  first message member write brought next nextMember :=
    compatible.first message (same.mem_iff.2 member) write brought next (same.mem_iff.2 nextMember)
  whole message member := compatible.whole message (same.mem_iff.2 member)
  small := (same.map Message.weight).sum_nat ▸ compatible.small

theorem sublist (compatible : Compatible collection) (part : other.Sublist collection) :
    Compatible other where
  dated message member := compatible.dated message (part.subset member)
  apart message member next nextMember :=
    compatible.apart message (part.subset member) next (part.subset nextMember)
  created := (part.filterMap Message.created?).nodup compatible.created
  first message member write brought next nextMember :=
    compatible.first message (part.subset member) write brought next (part.subset nextMember)
  whole message member := compatible.whole message (part.subset member)
  small := ((part.map Message.weight).sum_le_sum fun _ _ => Nat.zero_le _).trans compatible.small

end Compatible

/-! ## One object -/

namespace LiveObject

variable {object : LiveObject} {effect : Effect} {message next : Message} {rest : List Message}

/-- The messages may be offered in any order to come, and the counts they lead to are
whole numbers that are not rounded. -/
structure Ready (object : LiveObject) (rest : List Message) : Prop where
  compatible : Compatible rest
  counts : ∀ count, object.contents = .counter count → ∃ total : Int,
    count = .ofInt total ∧ total.natAbs + (rest.map Message.weight).sum ≤ 2 ^ 53

/-- A write of a message is the one that it asks for, or it comes with first contents. -/
theorem written_or_first {id : ObjectId} {change : MapEffect} {origin : String × Serial} {time : Int}
    (does : message.effect? = some (id, .onMap change)) (from? : message.origin? = some origin)
    {write : String × Entry} (member : write ∈ change.writes origin.2 time) :
    (message.written? = some (id, write.1) ∧ Serial.effective write.2.serial = message.serial) ∨
      ((Effect.onMap change).isCreate = true ∧ ∀ serial,
        Serial.effective write.2.serial = some serial → ((id, write.1), serial) ∈ message.firstWrites) := by
  obtain ⟨held, placed⟩ := Message.serial_of_origin? from?
  rw [held] at placed
  cases change with
  | set key data =>
    simp only [MapEffect.writes, List.mem_singleton] at member
    subst member
    refine .inl ⟨by simp only [Message.written?, does], ?_⟩
    simp only [Entry.live, placed, held]
  | remove key =>
    simp only [MapEffect.writes, List.mem_singleton] at member
    subst member
    refine .inl ⟨by simp only [Message.written?, does], ?_⟩
    simp only [Entry.removed, placed, held]
  | create first =>
    simp only [MapEffect.writes, Entries.initialWrites, List.mem_map] at member
    obtain ⟨entry, brought, rfl⟩ := member
    refine .inr ⟨rfl, fun serial own => ?_⟩
    simp only [Entries.initialWrite_serial] at own
    simp only [Message.firstWrites, does, List.mem_filterMap]
    exact ⟨entry, brought, by rw [own]; rfl⟩

/-- What a counter is added by a message is a whole number, of the size of its weight. -/
theorem weight_of_counter {id : ObjectId} {change : CounterEffect} (compatible : Compatible (message :: rest))
    (does : message.effect? = some (id, .onCounter change)) :
    ∃ whole, change.amount.whole? = some whole ∧ message.weight = whole.natAbs := by
  have added : message.added? = some change.amount := by simp only [Message.added?, does]
  have known := compatible.whole message (List.mem_cons_self ..) change.amount added
  obtain ⟨whole, same⟩ := Option.isSome_iff_exists.1 known
  refine ⟨whole, same, ?_⟩
  rw [Message.weight, added, Option.bind_some, same, Option.getD_some]

/-- Ready messages of different sites may change places. -/
theorem Ready.independent (ready : object.Ready (message :: next :: rest)) {second : Effect}
    {origin passed : String × Serial} (different : message.site ≠ next.site)
    (does : message.effect? = some (object.id, effect))
    (doesToo : next.effect? = some (object.id, second)) (from? : message.origin? = some origin)
    (fromToo : next.origin? = some passed) (time later : Int) :
    object.contents.Independent (effect, origin.2, time) (second, passed.2, later) := by
  have here : message ∈ message :: next :: rest := List.mem_cons_self ..
  have hereToo : next ∈ message :: next :: rest := List.mem_cons_of_mem _ (List.mem_cons_self ..)
  have single : ¬ (effect.isCreate = true ∧ second.isCreate = true) := by
    rintro ⟨creates, createsToo⟩
    have distinct := ready.compatible.created
    have created : message.created? = some object.id := by
      simp only [Message.created?, does, Option.bind_some, creates, ↓reduceIte]
    have createdToo : next.created? = some object.id := by
      simp only [Message.created?, doesToo, Option.bind_some, createsToo, ↓reduceIte]
    rw [List.filterMap_cons_some created, List.filterMap_cons_some createdToo] at distinct
    exact (List.nodup_cons.1 distinct).1 (List.mem_cons_self ..)
  obtain ⟨held, placed⟩ := Message.serial_of_origin? from?
  obtain ⟨heldToo, placedToo⟩ := Message.serial_of_origin? fromToo
  refine ⟨single, ?_, ?_⟩
  · rintro change other rfl rfl write member nextWrite nextMember sameKey sameSerial
    rcases written_or_first does from? member with ⟨written, own⟩ | ⟨creates, brought⟩
    · rcases written_or_first doesToo fromToo nextMember with ⟨writtenToo, ownToo⟩ | ⟨-, broughtToo⟩
      · refine ready.compatible.apart message here next hereToo different (written ▸ rfl) ?_ ?_
        · rw [written, writtenToo, sameKey]
        · rw [← own, ← ownToo, sameSerial]
      · have clash := broughtToo origin.2 (by rw [← sameSerial, own, held])
        exact ready.compatible.first next hereToo _ clash message here (by rw [written, sameKey]) held
    · rcases written_or_first doesToo fromToo nextMember with ⟨writtenToo, ownToo⟩ | ⟨createsToo, -⟩
      · have clash := brought passed.2 (by rw [sameSerial, ownToo, heldToo])
        exact ready.compatible.first message here _ clash next hereToo (by rw [writtenToo, sameKey]) heldToo
      · exact single ⟨creates, createsToo⟩
  · rintro change other count rfl rfl contents
    obtain ⟨total, counted, small⟩ := ready.counts count contents
    obtain ⟨x, whole, weight⟩ := weight_of_counter ready.compatible does
    obtain ⟨y, wholeToo, weightToo⟩ := weight_of_counter
      (ready.compatible.sublist (List.sublist_cons_self ..)) doesToo
    simp only [List.map_cons, List.sum_cons, weight, weightToo] at small
    have limit : Nat.pow 2 53 = 2 ^ 53 := rfl
    rw [counted, Double.ofInt_add whole (by omega), Double.ofInt_add wholeToo (by omega),
      Double.ofInt_add wholeToo (by omega), Double.ofInt_add whole (by omega)]
    congr 1
    omega

theorem Ready.hear (ready : object.Ready (message :: rest)) : (object.hear message).Ready rest := by
  refine ⟨ready.compatible.sublist (List.sublist_cons_self ..), fun count held => ?_⟩
  have small := fun count held => ready.counts count held
  simp only [List.map_cons, List.sum_cons] at small
  have unchanged (same : object.contents = .counter count) : ∃ total : Int,
      count = .ofInt total ∧ total.natAbs + (rest.map Message.weight).sum ≤ 2 ^ 53 := by
    obtain ⟨total, counted, bounded⟩ := small count same
    exact ⟨total, counted, by omega⟩
  by_cases does : ∃ effect, message.effect? = some (object.id, effect)
  case neg =>
    rw [hear_of_foreign fun effect same => does ⟨effect, same⟩] at held
    exact unchanged held
  obtain ⟨effect, does⟩ := does
  obtain ⟨origin, from?⟩ := Message.origin?_of_effect? does
  cases through : object.passes effect origin with
  | false =>
    rw [hear_of_stopped does from? through] at held
    exact unchanged held
  | true =>
    rw [hear_of_passes does from? through] at held
    unfold undergo at held
    split at held
    · exact unchanged held
    · obtain ⟨before, heldBefore, same | zero | ⟨change, rfl, added⟩⟩ := Contents.count_after held
      · exact unchanged (same ▸ heldBefore)
      · obtain ⟨total, -, bounded⟩ := small before heldBefore
        exact ⟨0, zero.trans Double.ofInt_zero.symm, by simp only [Int.natAbs_zero]; omega⟩
      · obtain ⟨total, counted, bounded⟩ := small before heldBefore
        obtain ⟨whole, known, weight⟩ := weight_of_counter ready.compatible does
        have limit : Nat.pow 2 53 = 2 ^ 53 := rfl
        refine ⟨total + whole, ?_, by omega⟩
        rw [added, counted, Double.ofInt_add known (by omega)]

theorem Ready.perm {other : List Message} (ready : object.Ready rest) (same : rest.Perm other) :
    object.Ready other := by
  refine ⟨ready.compatible.perm same, fun count held => ?_⟩
  rw [← (same.map Message.weight).sum_nat]
  exact ready.counts count held

theorem Ready.sublist {part : List Message} (ready : object.Ready rest) (less : part.Sublist rest) :
    object.Ready part := by
  refine ⟨ready.compatible.sublist less, fun count held => ?_⟩
  obtain ⟨total, counted, bounded⟩ := ready.counts count held
  have smaller := (less.map Message.weight).sum_le_sum fun _ _ => Nat.zero_le _
  exact ⟨total, counted, by omega⟩

/-- The messages of one object may be interleaved site by site. -/
theorem exchangeable : Exchangeable hear Message.site Alike Ready where
  equivalence := alike_equivalence
  congr _ _ message alike := alike.hear message
  next _ _ _ ready := ready.hear
  perm _ _ _ same ready := ready.perm same
  swap _ _ _ _ ready different := hear_comm different fun _ _ _ _ does doesToo from? fromToo =>
    ready.independent different does doesToo from? fromToo _ _

/-! ## Repetitions -/

/-- An object does not notice repetitions. -/
theorem foldl_hear_of_redelivery {first stream : List Message} (delivered : Redelivery first stream)
    (object : LiveObject) : stream.foldl LiveObject.hear object = first.foldl LiveObject.hear object := by
  induction delivered with
  | nil => rfl
  | fresh message _ ih => rw [List.foldl_append, List.foldl_append, ih]
  | again member _ ih =>
    rw [List.foldl_append, List.foldl_cons, List.foldl_nil, hear_of_heard object member, ih]

/-! ## Whole deliveries -/

/-- The message does something to the object. -/
def concerns (id : ObjectId) (message : Message) : Bool :=
  message.effect?.any fun found => found.1 = id

private theorem concerns_iff {id : ObjectId} :
    concerns id message = true ↔ ∃ effect, message.effect? = some (id, effect) := by
  unfold concerns
  cases message.effect? with
  | none => simp
  | some found =>
    obtain ⟨target, effect⟩ := found
    simp

private theorem foldl_hear_filter (object : LiveObject) (messages : List Message) :
    (messages.filter (concerns object.id)).foldl LiveObject.hear object =
      messages.foldl LiveObject.hear object := by
  induction messages generalizing object with
  | nil => rfl
  | cons message rest ih =>
    have next := ih (object.hear message)
    rw [hear_id] at next
    rw [List.filter_cons, List.foldl_cons]
    by_cases mine : concerns object.id message = true
    · rw [if_pos mine, List.foldl_cons, next]
    · have foreign : object.hear message = object :=
        hear_of_foreign fun effect same => mine (concerns_iff.2 ⟨effect, same⟩)
      rw [if_neg mine, foreign, ih]

/-- What concerns an object comes in the order of the collection, site by site. -/
theorem filter_concerns_site {collection first : List Message} {id : ObjectId}
    (ordered : ∀ site id,
      first.filter (Message.isFrom site id) = collection.filter (Message.isFrom site id))
    (site : Option String) :
    (first.filter (concerns id)).filter (fun message => message.site = site) =
      (collection.filter (concerns id)).filter fun message => message.site = site := by
  cases site with
  | none =>
    have nowhere (list : List Message) :
        (list.filter (concerns id)).filter (fun message => message.site = none) = [] := by
      simp only [List.filter_eq_nil_iff, List.mem_filter, decide_eq_true_eq]
      rintro message ⟨-, mine⟩ siteless
      obtain ⟨effect, does⟩ := concerns_iff.1 mine
      obtain ⟨origin, from?⟩ := Message.origin?_of_effect? does
      rw [Message.site_of_origin? from?] at siteless
      cases siteless
    rw [nowhere, nowhere]
  | some site =>
    have split (list : List Message) :
        (list.filter (concerns id)).filter (fun message => message.site = some site) =
          (list.filter (Message.isFrom site id)).filter (concerns id) := by
      rw [List.filter_filter, List.filter_filter]
      apply List.filter_congr
      intro message _
      cases mine : concerns id message with
      | false => rw [Bool.and_false, Bool.false_and]
      | true =>
        obtain ⟨effect, does⟩ := concerns_iff.1 mine
        simp only [Message.isFrom, Message.addressed_of_effect? does, Bool.and_true, Bool.true_and]
    rw [split, split, ordered]

private theorem foldl_hear_alike {collection stream : List Message} {object : LiveObject}
    (ready : object.Ready collection) (delivered : Delivers collection stream) :
    (stream.foldl LiveObject.hear object).Alike (collection.foldl LiveObject.hear object) := by
  obtain ⟨first, same, ordered, repeated⟩ := delivered
  rw [foldl_hear_of_redelivery repeated, ← foldl_hear_filter object first,
    ← foldl_hear_filter object collection]
  have readyPart : object.Ready (first.filter (concerns object.id)) :=
    (ready.perm same.symm).sublist List.filter_sublist
  exact exchangeable.foldl_alike readyPart (filter_concerns_site ordered)

private theorem ready_placeholder {collection : List Message} (compatible : Compatible collection)
    (id : ObjectId) (kind : Kind) : (placeholder id kind).Ready collection := by
  refine ⟨compatible, fun count held => ⟨0, ?_, ?_⟩⟩
  · cases kind with
    | map => simp only [placeholder, Contents.initial, reduceCtorEq] at held
    | counter =>
      simp only [placeholder, Contents.initial, Contents.counter.injEq] at held
      rw [Double.ofInt_zero, held]
  · rw [Int.natAbs_zero, Nat.zero_add]
    exact compatible.small

end LiveObject

/-! ## Whole graphs -/

theorem Redelivery.mem_iff {first stream : List Message} (delivered : Redelivery first stream)
    (message : Message) : message ∈ stream ↔ message ∈ first := by
  induction delivered with
  | nil => rfl
  | fresh next _ ih => rw [List.mem_append, List.mem_append, ih]
  | again member _ ih =>
    rw [List.mem_append, List.mem_singleton, ih]
    constructor
    · rintro (old | rfl)
      · exact old
      · exact ih.1 member
    · exact .inl

theorem Delivers.mem_iff {collection stream : List Message} (delivered : Delivers collection stream)
    (message : Message) : message ∈ stream ↔ message ∈ collection := by
  obtain ⟨first, same, -, repeated⟩ := delivered
  rw [repeated.mem_iff, same.mem_iff]

private theorem Graph.orPlaceholder_initial {id : ObjectId} {object : LiveObject}
    (present : Graph.initial.orPlaceholder id = some object) :
    ∃ kind, object = .placeholder id kind := by
  unfold orPlaceholder at present
  rw [initial, SortedMap.get?_insert_ite] at present
  split at present
  case isTrue same =>
    rw [Option.some_or, Option.some.injEq] at present
    rw [same]
    exact ⟨.map, present.symm⟩
  case isFalse =>
    rw [SortedMap.get?_empty, Option.none_or, Option.map_eq_some_iff] at present
    obtain ⟨kind, -, rfl⟩ := present
    exact ⟨kind, rfl⟩

/-- What a new graph describes after a delivery can be read off the collection. -/
theorem Graph.toState_deliverAll {collection : List Message} (compatible : Compatible collection)
    {stream : List (Message × Int)} (delivered : Delivers collection (stream.map Prod.fst))
    (id : ObjectId) :
    ((Graph.initial.deliverAll stream).get? id).map LiveObject.toState =
      (if ∃ message ∈ collection, id ∈ message.mentioned then Graph.initial.orPlaceholder id
        else Graph.initial.get? id).map
          fun object => (collection.foldl LiveObject.hear object).toState := by
  have members : (∃ delivery ∈ stream, id ∈ delivery.1.mentioned) ↔
      ∃ message ∈ collection, id ∈ message.mentioned := by
    constructor
    · rintro ⟨delivery, member, mentioned⟩
      exact ⟨delivery.1, (delivered.mem_iff _).1 (List.mem_map_of_mem member), mentioned⟩
    · rintro ⟨message, member, mentioned⟩
      obtain ⟨delivery, inStream, rfl⟩ := List.mem_map.1 ((delivered.mem_iff message).2 member)
      exact ⟨delivery, inStream, mentioned⟩
  have dated : ∀ delivery ∈ stream, delivery.1.timestamp.isSome := by
    intro delivery member
    exact (compatible.dated delivery.1
      ((delivered.mem_iff delivery.1).1 (List.mem_map_of_mem member))).2.2
  rw [get?_deliverAll keyed_initial, Option.map_map]
  simp only [members]
  generalize chosen : (if ∃ message ∈ collection, id ∈ message.mentioned then
    Graph.initial.orPlaceholder id else Graph.initial.get? id) = known
  cases known with
  | none => rfl
  | some object =>
    have placed : Graph.initial.orPlaceholder id = some object := by
      split at chosen
      · exact chosen
      · exact orPlaceholder_of_get? chosen
    obtain ⟨kind, rfl⟩ := orPlaceholder_initial placed
    have alike := LiveObject.foldl_hear_alike
      (LiveObject.ready_placeholder compatible id kind) delivered
    simp only [Option.map_some, Function.comp_apply, LiveObject.hearAll_of_dated dated, alike.1]

/-- A participant that knows nothing but the root and takes messages as they come. -/
structure Replica.Fresh (replica : Replica) : Prop extends replica.Live where
  empty : replica.graph = .initial

theorem Replica.Fresh.toState_after {replica : Replica} (fresh : replica.Fresh)
    {collection : List Message} (compatible : Compatible collection)
    {batches : List (List Message × Int)} (delivered : Delivers collection (batches.flatMap Prod.fst))
    (id : ObjectId) :
    ((replica.after (batches.map fun batch => (.messages batch.1, batch.2))).graph.get? id).map
        LiveObject.toState =
      (if ∃ message ∈ collection, id ∈ message.mentioned then Graph.initial.orPlaceholder id
        else Graph.initial.get? id).map
          fun object => (collection.foldl LiveObject.hear object).toState := by
  have plain : ∀ batch ∈ batches, ∀ message ∈ batch.1, message.state = none := by
    intro batch member message inBatch
    have streamed : message ∈ batches.flatMap Prod.fst := List.mem_flatMap.2 ⟨batch, member, inBatch⟩
    exact (compatible.dated message ((delivered.mem_iff message).1 streamed)).2.1
  rw [Replica.after_messages fresh.toLive plain, fresh.empty]
  refine Graph.toState_deliverAll compatible ?_ id
  rw [List.map_flatMap]
  simpa only [List.map_map, Function.comp_def, List.map_id'] using delivered

/-- Two participants that were delivered the same compatible messages, each interleaved, cut
into batches and repeated in its own way, know the same objects, and describe each of them
in the same way. -/
theorem deliveries_converge {collection : List Message} (compatible : Compatible collection)
    {left right : Replica} (freshLeft : left.Fresh) (freshRight : right.Fresh)
    (batchesLeft batchesRight : List (List Message × Int))
    (deliveredLeft : Delivers collection (batchesLeft.flatMap Prod.fst))
    (deliveredRight : Delivers collection (batchesRight.flatMap Prod.fst)) :
    let finalLeft := left.after (batchesLeft.map fun batch => (.messages batch.1, batch.2))
    let finalRight := right.after (batchesRight.map fun batch => (.messages batch.1, batch.2))
    finalLeft.graph.keys = finalRight.graph.keys ∧
      ∀ id, (finalLeft.graph.get? id).map LiveObject.toState =
        (finalRight.graph.get? id).map LiveObject.toState := by
  intro finalLeft finalRight
  have same : ∀ id, (finalLeft.graph.get? id).map LiveObject.toState =
      (finalRight.graph.get? id).map LiveObject.toState := by
    intro id
    rw [freshLeft.toState_after compatible deliveredLeft,
      freshRight.toState_after compatible deliveredRight]
  have described : finalLeft.graph.map (fun _ object => object.toState) =
      finalRight.graph.map fun _ object => object.toState := by
    ext1 id
    rw [SortedMap.get?_map, SortedMap.get?_map, same]
  refine ⟨?_, same⟩
  rw [← SortedMap.keys_map (fun _ object => LiveObject.toState object) finalLeft.graph, described,
    SortedMap.keys_map]

private theorem Replica.fresh_new (config : Config) : (Replica.new config).Fresh := ⟨⟨rfl, rfl⟩, rfl⟩

private def issued (site serial : String) (operation : Operation) : Message :=
  ((Message.ofOperation operation).withOrigin site ⟨serial⟩).withTimestamp 7

private def title : Message := issued "a" "01" (.mapSet .root "title" (.text "draft"))

private def counted : Message := issued "a" "02" (.counterCreate ⟨"counter:abc@1"⟩ (.ofInt 5) "n" "")

private def untitled : Message := issued "b" "02" (.mapRemove .root "title")

private def lowered : Message := issued "b" "03" (.counterInc ⟨"counter:abc@1"⟩ (.ofInt (-3)))

private theorem compatible_exchange : Compatible [title, counted, untitled, lowered] where
  dated := by decide
  apart := by decide +kernel
  created := by decide +kernel
  first := by decide +kernel
  whole := by decide +kernel
  small := by decide +kernel

private theorem exchange_in_order :
    Delivers [title, counted, untitled, lowered] [title, counted, untitled, lowered] :=
  ⟨_, .refl _, fun _ _ => rfl, .fresh lowered (.fresh untitled (.fresh counted (.fresh title .nil)))⟩

private theorem exchange_interleaved :
    Delivers [title, counted, untitled, lowered] [untitled, title, untitled, lowered, counted] := by
  refine ⟨[untitled, title, lowered, counted], by decide +kernel, fun site id => ?_,
    .fresh counted (.fresh lowered (.again (by decide) (.fresh title (.fresh untitled .nil))))⟩
  have fromA (message : Message) (here : message.site = some "a") (other : site ≠ "a") :
      message.isFrom site id = false := by simp [Message.isFrom, here, Ne.symm other]
  have fromB (message : Message) (here : message.site = some "b") (other : site ≠ "b") :
      message.isFrom site id = false := by simp [Message.isFrom, here, Ne.symm other]
  by_cases a : site = "a"
  · have notB : site ≠ "b" := by rw [a]; decide
    simp [List.filter, fromB untitled rfl notB, fromB lowered rfl notB]
  · simp [List.filter, fromA title rfl a, fromA counted rfl a]

private def inOrder : List (List Message × Int) := [([title, counted], 10), ([untitled, lowered], 11)]

private def interleaved : List (List Message × Int) :=
  [([untitled, title, untitled], 20), ([], 21), ([lowered, counted], 22)]

/-- A counter is created and a key set by one site while another lowers the count and
removes the key; the second participant gets the two sites mixed, and one message twice. -/
theorem deliveries_converge_exchange :
    let left := (Replica.new {}).after (inOrder.map fun batch => (.messages batch.1, batch.2))
    let right := (Replica.new {}).after (interleaved.map fun batch => (.messages batch.1, batch.2))
    left.graph.keys = right.graph.keys ∧ ∀ id,
      (left.graph.get? id).map LiveObject.toState = (right.graph.get? id).map LiveObject.toState :=
  deliveries_converge compatible_exchange (Replica.fresh_new {}) (Replica.fresh_new {}) inOrder
    interleaved exchange_in_order exchange_interleaved

end SharedGraph
