import OpfsWebauthn.Foundation.Automaton
import OpfsWebauthn.Foundation.SlidingWindow
import OpfsWebauthn.Storage.TransportSpec

/-!
# One transport and its surroundings

The run of a single `createLeaderTransport`. Its channels, its writers and the other tabs are not
modelled: any message can arrive on a channel that is open, in any order, and a writer can answer
and fail at any time. The lock manager calls the callback of a request at most once. A microtask
runs at some later time. The clock does not go back.

Next to the transport stand the lock requests whose callback can still be called, and the history:
how often the writer factory was called, when a writer failed, which requests the page waits for,
and everything that the transport did outside of its closure, as far as a listener heard it.
-/

set_option autoImplicit false
set_option relaxedAutoImplicit false

namespace OpfsWebauthn.Storage

open Foundation

/-- A transport with its surroundings and its history. -/
structure TransportRun where
  transport : Transport
  clock : ℕ
  requests : List ℕ
  grants : ℕ
  factoryCalls : ℕ
  failures : List ℕ
  awaited : List ℕ
  log : List TransportEffect

/-- What can happen to a transport. -/
inductive TransportEvent
  /-- A message on the discovery channel. -/
  | discovery (message : LeaderMessage)
  /-- A message on the pair channel. -/
  | pairMessage (envelope : ServerEnvelope) (synthetic : Bool)
  /-- A message on the channel of a bridge. -/
  | bridgeMessage (clientId object : ℕ) (data : PageMessage)
  /-- The retry timer fires. -/
  | retry
  /-- The lock is granted to a request, and `writerFactory()` has an outcome. -/
  | grant (request : ℕ) (factory : Except String Unit)
  /-- A request that waits for the lock is rejected. -/
  | rejectRequest (request : ℕ) (message : String)
  /-- The continuation of a lock request runs. -/
  | lockSettled (request : ℕ) (outcome : Except String Unit)
  /-- The writer sends a message. -/
  | writerReply (data : WriterMessage)
  /-- The writer fires its `error` event, some time after the last failure. -/
  | writerError (elapsed : ℕ)
  /-- `postMessage(data)`. -/
  | post (data : PageMessage)
  /-- The oldest microtask runs. -/
  | microtask
  /-- `close()`. -/
  | close

/-- The number of a lock request. -/
def TransportEffect.lockRequest : TransportEffect → Option ℕ
  | .requestLock request => some request
  | _ => none

/-- The number that a `message` event answers. -/
def TransportEffect.answeredId : TransportEffect → Option ℕ
  | .message envelope _ => some envelope.id
  | _ => none

/-- Whether an effect arrives: a listener that was removed hears no event. -/
def TransportEffect.Arrives (listening : Bool) : TransportEffect → Bool
  | .message _ _ => listening
  | .error => listening
  | _ => true

namespace TransportRun

/-- The transport runs one of its functions. -/
def act (run : TransportRun) (handler : Transport → Transport) : TransportRun :=
  let transport := handler run.transport
  let effects := transport.outbox.filter (TransportEffect.Arrives transport.listening)
  { run with
    transport := { transport with outbox := [] }
    requests := run.requests ++ effects.filterMap TransportEffect.lockRequest
    awaited := run.awaited.filter fun id ↦ id ∉ effects.filterMap TransportEffect.answeredId
    log := run.log ++ effects }

/-- `createLeaderTransport(deps)` at some time. -/
def start (clientId clock : ℕ) : TransportRun :=
  act ⟨.initial clientId, clock, [], 0, 0, [], [], []⟩ fun _ ↦ .create clientId

/-- The transition function. -/
def step (run : TransportRun) : TransportEvent → Option TransportRun
  | .discovery message =>
    if run.transport.discovering then
      some (run.act fun transport ↦ transport.onDiscoveryMessage message)
    else none
  | .pairMessage envelope synthetic =>
    if run.transport.pairChannel.isSome then
      some (run.act fun transport ↦ transport.onPairMessage envelope synthetic)
    else none
  | .bridgeMessage clientId object data =>
    some (run.act fun transport ↦ transport.onBridgeMessage clientId object data)
  | .retry =>
    if run.transport.pendingPair.isSome then some (run.act Transport.onPairAckTimeout) else none
  | .grant request factory =>
    if request ∈ run.requests then
      some ({ run with
        requests := run.requests.erase request
        grants := run.grants + 1
        -- the callback of a closed transport does not get to the factory
        factoryCalls :=
          if run.transport.closed then run.factoryCalls else run.factoryCalls + 1 }.act
            fun transport ↦ transport.onLockGranted run.grants factory)
    else none
  | .rejectRequest request message =>
    if request ∈ run.requests then
      some ({ run with requests := run.requests.erase request }.act fun transport ↦
        transport.onLockSettled request (.error message))
    else none
  | .lockSettled request outcome =>
    some (run.act fun transport ↦ transport.onLockSettled request outcome)
  | .writerReply data =>
    if run.transport.writer.isSome then
      some (run.act fun transport ↦ transport.onWriterMessage data)
    else none
  | .writerError elapsed =>
    if run.transport.writer.isSome then
      some ({ run with
        clock := run.clock + elapsed
        failures := run.failures ++ [run.clock + elapsed] }.act fun transport ↦
          transport.onWriterError (run.clock + elapsed))
    else none
  | .post data =>
    some ({ run with
      awaited := if run.transport.closed then run.awaited
        else run.awaited ++ data.id.toList }.act fun transport ↦ transport.postMessage data)
  | .microtask =>
    if run.transport.microtasks = [] then none else some (run.act Transport.runMicrotask)
  | .close => some (run.act Transport.close)

/-- The transport with its surroundings as an automaton. -/
def automaton : Automaton TransportRun TransportEvent :=
  ⟨step⟩

/-- What was done since an earlier state. -/
def since (run later : TransportRun) : List TransportEffect :=
  later.log.drop run.log.length

/-- What arrives when a function runs. -/
def arrivals (handler : Transport → Transport) (transport : Transport) : List TransportEffect :=
  (handler transport).outbox.filter
    (TransportEffect.Arrives (handler transport).listening)

section Act

variable (run : TransportRun) (handler : Transport → Transport)

theorem since_act : since run (run.act handler) = arrivals handler run.transport :=
  List.drop_left

theorem requests_act : (run.act handler).requests =
    run.requests ++ (arrivals handler run.transport).filterMap TransportEffect.lockRequest :=
  rfl

theorem awaited_act : (run.act handler).awaited = run.awaited.filter fun id ↦
    id ∉ (arrivals handler run.transport).filterMap TransportEffect.answeredId :=
  rfl

end Act

end TransportRun

namespace Transport

/-! ### Functions that only pass messages on -/

/-- An effect that requests no lock and gives the listeners no message. -/
def Quiet (effect : TransportEffect) : Prop :=
  effect.lockRequest = none ∧ effect.answeredId = none

/-- One quiet effect. -/
theorem quiet_singleton {effect : TransportEffect} (hquiet : Quiet effect) :
    ∀ other ∈ [effect], Quiet other := by
  intro other hother
  rw [List.mem_singleton.mp hother]
  exact hquiet

/-- A function that keeps what a restart depends on, and what is in flight; it gives its listeners
no message and requests no lock. -/
structure Steady (before after : Transport) : Prop where
  closed : after.closed = before.closed
  failed : after.failed = before.failed
  listening : after.listening = before.listening
  inFlight : after.inFlight = before.inFlight
  microtasks : after.microtasks = before.microtasks
  failureTimestamps : after.failureTimestamps = before.failureTimestamps
  quiet : ∀ effect ∈ after.outbox, effect ∈ before.outbox ∨ Quiet effect

/-- A function that is steady, and neither makes a leader nor takes its writer. -/
structure Plain (before after : Transport) : Prop extends Steady before after where
  writer : after.writer = before.writer
  leaderId : after.leaderId = before.leaderId
  writerErrorListener : after.writerErrorListener = before.writerErrorListener

theorem Steady.trans {first second third : Transport} (hfirst : Steady first second)
    (hsecond : Steady second third) : Steady first third where
  closed := hsecond.closed.trans hfirst.closed
  failed := hsecond.failed.trans hfirst.failed
  listening := hsecond.listening.trans hfirst.listening
  inFlight := hsecond.inFlight.trans hfirst.inFlight
  microtasks := hsecond.microtasks.trans hfirst.microtasks
  failureTimestamps := hsecond.failureTimestamps.trans hfirst.failureTimestamps
  quiet := fun effect heffect ↦ (hsecond.quiet effect heffect).elim (hfirst.quiet effect) Or.inr

theorem Plain.refl (transport : Transport) : Plain transport transport :=
  ⟨⟨rfl, rfl, rfl, rfl, rfl, rfl, fun _ heffect ↦ Or.inl heffect⟩, rfl, rfl, rfl⟩

theorem Plain.trans {first second third : Transport} (hfirst : Plain first second)
    (hsecond : Plain second third) : Plain first third :=
  ⟨hfirst.toSteady.trans hsecond.toSteady, hsecond.writer.trans hfirst.writer,
    hsecond.leaderId.trans hfirst.leaderId,
    hsecond.writerErrorListener.trans hfirst.writerErrorListener⟩

/-- Appending quiet effects is plain. -/
theorem plain_emit (transport : Transport) {effects : List TransportEffect}
    (hquiet : ∀ effect ∈ effects, Quiet effect) : Plain transport (transport.emit effects) :=
  ⟨⟨rfl, rfl, rfl, rfl, rfl, rfl, fun effect heffect ↦
    (List.mem_append.mp heffect).imp_right (hquiet effect)⟩, rfl, rfl, rfl⟩

/-- The posts that replay what is in flight are quiet. -/
theorem quiet_replayed (transport : Transport) : ∀ effect ∈ transport.replayed, Quiet effect := by
  intro effect heffect
  unfold replayed at heffect
  cases hchannel : transport.pairChannel with
  | none =>
    rw [hchannel] at heffect
    cases heffect
  | some channel =>
    rw [hchannel] at heffect
    obtain ⟨data, -, rfl⟩ := List.mem_map.mp heffect
    exact ⟨rfl, rfl⟩

/-- The posts of bridges are quiet. -/
theorem quiet_channelPosts {port : BridgePort} {synthetic : Bool} {effects : List BridgeEffect} :
    ∀ effect ∈ channelPosts port synthetic effects, Quiet effect := by
  intro effect heffect
  obtain ⟨bridgeEffect, -, hsome⟩ := List.mem_filterMap.mp heffect
  cases bridgeEffect with
  | channelPost envelope =>
    obtain rfl := Option.some.inj hsome
    exact ⟨rfl, rfl⟩
  | writerPost message => cases hsome
  | channelClose => cases hsome
  | clientClosed => cases hsome

theorem plain_onDiscoveryMessage (transport : Transport) (message : LeaderMessage) :
    Plain transport (transport.onDiscoveryMessage message) := by
  have hcases := onDiscoveryMessage_cases transport message
  generalize transport.onDiscoveryMessage message = after at hcases ⊢
  cases hcases with
  | ignored => exact .refl transport
  | acknowledged pair hpending =>
    exact ⟨⟨rfl, rfl, rfl, rfl, rfl, rfl, fun effect heffect ↦
      (List.mem_append.mp heffect).imp_right (transport.quiet_replayed effect)⟩, rfl, rfl, rfl⟩
  | paired id hopen hother hnew =>
    exact ⟨⟨rfl, rfl, rfl, rfl, rfl, rfl, fun effect heffect ↦
      (List.mem_append.mp heffect).imp_right (quiet_singleton ⟨rfl, rfl⟩ effect)⟩, rfl, rfl, rfl⟩
  | bridged clientId name writer own hwriter hown =>
    exact ⟨⟨rfl, rfl, rfl, rfl, rfl, rfl, fun effect heffect ↦
      (List.mem_append.mp heffect).imp_right (quiet_singleton ⟨rfl, rfl⟩ effect)⟩, rfl, rfl, rfl⟩
  | deposed leaderId message hcurrent =>
    exact ⟨⟨rfl, rfl, rfl, rfl, rfl, rfl, fun effect heffect ↦
      (List.mem_append.mp heffect).imp_right (quiet_singleton ⟨rfl, rfl⟩ effect)⟩, rfl, rfl, rfl⟩
  | announced writer own hwriter hown =>
    exact transport.plain_emit (quiet_singleton ⟨rfl, rfl⟩)

theorem plain_onPairAckTimeout (transport : Transport) :
    Plain transport transport.onPairAckTimeout := by
  rcases onPairAckTimeout_cases transport with hsame | ⟨pair, -, -, hasked⟩
  · rw [hsame]
    exact .refl transport
  · rw [hasked]
    exact transport.plain_emit (quiet_singleton ⟨rfl, rfl⟩)

theorem plain_onLockSettled (transport : Transport) (request : ℕ) (outcome : Except String Unit) :
    Plain transport (transport.onLockSettled request outcome) := by
  obtain ⟨ready, abort, hquiet | hrejected⟩ := onLockSettled_cases transport request outcome
  · rw [hquiet]
    exact ⟨⟨rfl, rfl, rfl, rfl, rfl, rfl, fun _ heffect ↦ Or.inl heffect⟩, rfl, rfl, rfl⟩
  · rw [hrejected]
    exact ⟨⟨rfl, rfl, rfl, rfl, rfl, rfl, fun effect heffect ↦
      (List.mem_append.mp heffect).imp_right (quiet_singleton ⟨rfl, rfl⟩ effect)⟩, rfl, rfl, rfl⟩

theorem plain_onWriterMessage (transport : Transport) (data : WriterMessage) :
    Plain transport (transport.onWriterMessage data) := by
  refine ⟨⟨rfl, rfl, rfl, rfl, rfl, rfl, fun effect heffect ↦ ?_⟩, rfl, rfl, rfl⟩
  refine (List.mem_append.mp heffect).imp_right fun hpost ↦ ?_
  obtain ⟨bridge, -, hpost⟩ := List.mem_flatMap.mp hpost
  exact quiet_channelPosts effect hpost

theorem plain_performBridge (clientId : ℕ) (port : BridgePort) (original : PageMessage)
    (transport : Transport) (effect : BridgeEffect) :
    Plain transport (performBridge clientId port original transport effect) := by
  cases effect with
  | channelClose => exact .refl transport
  | clientClosed =>
    exact ⟨⟨rfl, rfl, rfl, rfl, rfl, rfl, fun _ heffect ↦ Or.inl heffect⟩, rfl, rfl, rfl⟩
  | writerPost data =>
    exact transport.plain_emit (quiet_singleton ⟨rfl, rfl⟩)
  | channelPost envelope =>
    exact transport.plain_emit (quiet_singleton ⟨rfl, rfl⟩)

theorem plain_onBridgeMessage (transport : Transport) (clientId object : ℕ) (data : PageMessage) :
    Plain transport (transport.onBridgeMessage clientId object data) := by
  have hperform : ∀ (port : BridgePort) (effects : List BridgeEffect) (before : Transport),
      Plain before (effects.foldl (performBridge clientId port data) before) := by
    intro port effects
    induction effects with
    | nil => exact .refl
    | cons effect rest ih =>
      exact fun before ↦ (plain_performBridge clientId port data before effect).trans (ih _)
  unfold onBridgeMessage
  cases transport.bridges.get? clientId with
  | none => exact .refl transport
  | some bridge =>
    dsimp only
    split_ifs
    · exact .refl transport
    · refine Plain.trans ?_ (hperform _ _ _)
      exact ⟨⟨rfl, rfl, rfl, rfl, rfl, rfl, fun _ heffect ↦ Or.inl heffect⟩, rfl, rfl, rfl⟩

/-! ### The lock callback -/

theorem steady_promoted (transport : Transport) (grant : ℕ) :
    Steady transport (transport.promoted grant) := by
  refine ⟨rfl, rfl, rfl, rfl, rfl, rfl, fun effect heffect ↦ ?_⟩
  refine (List.mem_append.mp heffect).imp_right fun hnew ↦ ?_
  rcases List.mem_append.mp hnew with hfirst | hlast
  · rcases List.mem_append.mp hfirst with hopened | hreplayed
    · exact quiet_singleton ⟨rfl, rfl⟩ effect hopened
    · obtain ⟨data, -, rfl⟩ := List.mem_map.mp hreplayed
      exact ⟨rfl, rfl⟩
  · exact quiet_singleton ⟨rfl, rfl⟩ effect hlast

theorem steady_unpromoted (transport : Transport) (grant : ℕ) (message : String) :
    Steady transport (transport.unpromoted grant message) :=
  ⟨rfl, rfl, rfl, rfl, rfl, rfl, fun effect heffect ↦
    (List.mem_append.mp heffect).imp_right (quiet_singleton ⟨rfl, rfl⟩ effect)⟩

/-! ### A writer that fails -/

/-- What a leader posts and releases when its writer fails. -/
theorem quiet_crashed (transport : Transport) (leader : ℕ) (message : String) :
    ∀ effect ∈ (transport.crashed leader message).outbox,
      effect ∈ transport.outbox ∨ Quiet effect := by
  intro effect heffect
  refine (List.mem_append.mp heffect).imp_right fun hnew ↦ ?_
  rcases List.mem_append.mp hnew with hfirst | hreleases
  · rcases List.mem_append.mp hfirst with hfailures | hposts
    · obtain ⟨bridge, -, hpost⟩ := List.mem_flatMap.mp hfailures
      exact quiet_channelPosts effect hpost
    · rcases List.mem_cons.mp hposts with rfl | hlast
      · exact ⟨rfl, rfl⟩
      · exact quiet_singleton ⟨rfl, rfl⟩ effect hlast
  · rcases List.mem_append.mp hreleases with hclose | hsettle
    · obtain ⟨writer, -, rfl⟩ := List.mem_map.mp hclose
      exact ⟨rfl, rfl⟩
    · obtain ⟨grant, -, rfl⟩ := List.mem_map.mp hsettle
      exact ⟨rfl, rfl⟩

/-- What a transport releases when it closes. -/
theorem quiet_shut (transport : Transport) : ∀ effect ∈ transport.shut.outbox,
    effect ∈ transport.outbox ∨ Quiet effect := by
  intro effect heffect
  refine (List.mem_append.mp heffect).imp_right fun hnew ↦ ?_
  rcases List.mem_append.mp hnew with habort | hreleases
  · obtain ⟨request, -, rfl⟩ := List.mem_map.mp habort
    exact ⟨rfl, rfl⟩
  · rcases List.mem_append.mp hreleases with hclose | hsettle
    · obtain ⟨writer, -, rfl⟩ := List.mem_map.mp hclose
      exact ⟨rfl, rfl⟩
    · obtain ⟨grant, -, rfl⟩ := List.mem_map.mp hsettle
      exact ⟨rfl, rfl⟩

/-- A restart counts the failures of the window, this one included: the lock is requested again
while there are fewer than the maximum, and the transport gives up otherwise. -/
theorem restartLockRequest_eq {transport : Transport} (hopen : transport.closed = false)
    (now : ℕ) : transport.restartLockRequest now =
      if maxFailures ≤ (purge restartWindowMs now transport.failureTimestamps).length + 1 then
        transport.abandoned (purge restartWindowMs now transport.failureTimestamps ++ [now])
      else transport.requested
        (purge restartWindowMs now transport.failureTimestamps ++ [now]) := by
  unfold restartLockRequest
  rw [if_neg (by simp [hopen])]
  have hlength : (purge restartWindowMs now transport.failureTimestamps ++ [now]).length =
      (purge restartWindowMs now transport.failureTimestamps).length + 1 := by
    rw [List.length_append, List.length_singleton]
  by_cases hbudget : maxFailures ≤
      (purge restartWindowMs now transport.failureTimestamps).length + 1
  · rw [if_pos hbudget]
    rw [← hlength] at hbudget
    refine (if_pos hbudget).trans ?_
    simp [failPermanently, emit, detachPair, clearPendingPair, abandoned, purge]
  · rw [if_neg hbudget]
    rw [← hlength] at hbudget
    refine (if_neg hbudget).trans ?_
    unfold requestLock
    rw [if_neg (by simp [hopen])]
    rfl

end Transport

end OpfsWebauthn.Storage
