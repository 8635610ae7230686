import SharedGraph.Client

/-! The clock that times are taken from. It shows milliseconds up to the end of the
calendar and cannot be read after that. Not every step looks at it: operations that are
dropped or that wait for a description do not, nor do writes that are refused for what
they say. -/
namespace SharedGraph

/-- The last millisecond of the year 262142, with which the calendar ends. -/
def lastMoment : Int := 8210266876799999

/-- Whether a clock that stands at a time can be read. -/
def isReadable (time : Int) : Bool := time ≤ lastMoment

namespace Replica

/-- Whether operations of a batch are applied at once. -/
def appliesNow (replica : Replica) : Bool :=
  replica.channel.isUsable && !(replica.pending.isSome && replica.config.bufferDuringSync)

/-- Whether a page puts a description in place. -/
def completes (replica : Replica) (serial : String) (states : List ObjectState) : Bool :=
  replica.channel.isUsable &&
    (PendingSync.addPage replica.beginSync.2.pending (.ofText serial) states).1.isSome

/-- Whether the clock is looked at to handle an input. -/
def needsTime (replica : Replica) : Input → Bool
  | .messages batch =>
    batch.any (fun message => message.state.isSome) || (!batch.isEmpty && replica.appliesNow)
  | .page serial states => replica.completes serial states
  | .snapshot _ => true
  | .channel state => state = .attached false
  | .collect _ => false

private theorem route_of_appliesNow_eq_false {replica : Replica} (waits : replica.appliesNow = false)
    (message : Message) (now later : Int) :
    replica.route message now = replica.route message later ∧
      (replica.route message now).2.appliesNow = false := by
  unfold appliesNow at waits
  unfold route
  cases usable : replica.channel.isUsable with
  | false => simp [appliesNow, usable]
  | true =>
    have buffering : (replica.pending.isSome && replica.config.bufferDuringSync) = true := by
      simpa [usable] using waits
    simp [appliesNow, buffering]

private theorem routeAll_of_appliesNow_eq_false {replica : Replica} (waits : replica.appliesNow = false)
    (messages : List Message) (now later : Int) :
    replica.routeAll messages now = replica.routeAll messages later := by
  unfold routeAll
  generalize ([] : List Update) = updates
  induction messages generalizing updates replica with
  | nil => simp only [List.foldl_nil]
  | cons message rest ih =>
    obtain ⟨same, waitsNext⟩ := route_of_appliesNow_eq_false waits message now later
    simp only [List.foldl_cons, ← same]
    exact ih waitsNext _

/-- What does not look at the clock comes out the same at any time. -/
theorem step_eq_of_needsTime_eq_false {replica : Replica} {input : Input}
    (timeless : replica.needsTime input = false) (now later : Int) :
    replica.step input now = replica.step input later := by
  cases input with
  | messages batch =>
    simp only [needsTime, Bool.or_eq_false_iff] at timeless
    obtain ⟨stateless, waits⟩ := timeless
    have stateFree : batch.filterMap Message.state = [] := by
      simpa [List.filterMap_eq_nil_iff] using stateless
    simp only [step, handleMessages, stateFree, List.isEmpty_nil, ↓reduceIte]
    cases batch with
    | nil => simp only [List.filter_nil, routeAll, List.foldl_nil]
    | cons message rest =>
      rw [routeAll_of_appliesNow_eq_false (by simpa using waits) _ now later]
  | page serial states =>
    simp only [needsTime, completes] at timeless
    simp only [step, handlePage]
    cases usable : replica.channel.isUsable with
    | false => simp only [Bool.not_false, ↓reduceIte]
    | true =>
      have incomplete : (PendingSync.addPage replica.beginSync.2.pending (.ofText serial) states).1
          = none := by
        simpa [usable] using timeless
      simp only [Bool.not_true, Bool.false_eq_true, ↓reduceIte, incomplete]
  | snapshot states => simp [needsTime] at timeless
  | channel state =>
    have other : state ≠ .attached false := by simpa [needsTime] using timeless
    cases state with
    | attached present =>
      cases present with
      | true => simp only [step, handleChannel]
      | false => exact absurd rfl other
    | _ => simp only [step, handleChannel]
  | collect time => simp only [step]

end Replica

/-- A new object is named after the time, once its first contents are accepted. -/
def Write.needsTime : Write → Bool
  | .createMap entries _ => (entries.forM fun entry => checkData entry.2).isOk
  | .createCounter count _ => count.isFinite
  | _ => false

/-- Messages are stamped as they are accepted. -/
def Hub.needsTime (hub : Hub) (messages : List Message) : Bool :=
  hub.accepting && !messages.isEmpty

end SharedGraph
