import OpfsWebauthn.Storage.LeaderTransport

/-!
# What the transport functions do

Every function of the transport that an event runs has few outcomes. Each outcome that changes the
transport is a definition here, with all its updates in one record, and one lemma for each function
says which outcomes it has and when. The invariants of the transport are proved from these lemmas.
-/

set_option autoImplicit false
set_option relaxedAutoImplicit false

namespace OpfsWebauthn.Storage.Transport

open Foundation

variable (transport : Transport)

/-! ### The outcomes -/

/-- The posts that replay every request in flight. -/
def replayed : List TransportEffect :=
  match transport.pairChannel with
  | some channel => transport.inFlight.values.map fun data ↦ .pairPost channel data
  | none => []

/-- A pair channel for a leader was attached, and the leader was asked to open its side. -/
def paired (id : ℕ) : Transport :=
  { transport with
    currentLeaderId := some id
    pendingPair := some ⟨id, ⟨id, transport.clientId⟩⟩
    pairChannel := some ⟨transport.nextObject, ⟨id, transport.clientId⟩⟩
    nextObject := transport.nextObject + 1
    joined := transport.joined ++ [id]
    outbox := transport.outbox ++
      [.discoveryPost (.pairRequest id transport.clientId ⟨id, transport.clientId⟩)] }

/-- A fresh bridge for a client took the place of any older one, and the client got its ack. -/
def bridged (clientId : ℕ) (name : PairName) (writer own : ℕ) : Transport :=
  { transport with
    bridges := transport.bridges.set clientId (.create ⟨⟨transport.nextObject, name⟩, writer⟩)
    nextObject := transport.nextObject + 1
    outbox := transport.outbox ++ [.discoveryPost (.pairAck own clientId)] }

/-- The pending pair was acknowledged, and the requests in flight were replayed. -/
def acknowledged : Transport :=
  { transport with
    pendingPair := none
    whenReady := transport.whenReady.mark
    outbox := transport.outbox ++ transport.replayed }

/-- The pair channel of a failed leader was dropped. -/
def deposed : Transport :=
  { transport with
    pairChannel := none
    currentLeaderId := none
    pendingPair := none
    outbox := transport.outbox ++ [.error] }

/-- The transport became the leader of a grant. -/
def promoted (grant : ℕ) : Transport :=
  { transport with
    resolveLock := some grant
    pendingPair := none
    leaderId := some grant
    writer := some grant
    bridges := transport.bridges.set transport.clientId
      (.create ⟨⟨transport.nextObject, ⟨grant, transport.clientId⟩⟩, grant⟩)
    currentLeaderId := some grant
    pairChannel := some ⟨transport.nextObject + 1, ⟨grant, transport.clientId⟩⟩
    nextObject := transport.nextObject + 2
    joined := transport.joined ++ [grant]
    whenReady := transport.whenReady.mark
    writerErrorListener := some grant
    outbox := transport.outbox ++ ([.openWriter grant] ++ (transport.inFlight.values.map fun data ↦
      .pairPost ⟨transport.nextObject + 1, ⟨grant, transport.clientId⟩⟩ data) ++
      [.discoveryPost (.leaderElected grant)]) }

/-- The writer factory threw on a grant. -/
def unpromoted (grant : ℕ) (message : String) : Transport :=
  { transport with
    resolveLock := some grant
    pendingPair := none
    leaderId := some grant
    outbox := transport.outbox ++ [.settleLock grant (.error message)] }

/-- The closes and settlements of a transport that gives up leadership. -/
def releases : List TransportEffect :=
  transport.writer.toList.map TransportEffect.closeWriter ++
    transport.resolveLock.toList.map fun grant ↦ .settleLock grant (.ok ())

/-- The error envelopes for the requests that the bridges have forwarded. -/
def failures (message : String) : List TransportEffect :=
  transport.bridges.values.flatMap fun (bridge : LeaderBridge BridgePort) ↦
    channelPosts bridge.channel true (bridge.failPending message).2

/-- The writer failed; the lock is not requested again yet. -/
def crashed (leader : ℕ) (message : String) : Transport :=
  { transport with
    writerErrorListener := none
    bridges := .empty
    writer := none
    leaderId := none
    resolveLock := none
    currentLeaderId := none
    outbox := transport.outbox ++ (transport.failures message ++
      [.discoveryPost (.leaderFailed leader message), .error] ++ transport.releases) }

/-- The transport closed. -/
def shut : Transport :=
  { transport with
    closed := true
    pendingPair := none
    whenReady := transport.whenReady.fail "leader transport closed before ready"
    discovering := false
    pairChannel := none
    lockAbort := none
    writerErrorListener := none
    bridges := .empty
    writer := none
    leaderId := none
    resolveLock := none
    listening := false
    inFlight := .empty
    outbox := transport.outbox ++
      (transport.lockAbort.toList.map TransportEffect.abortLock ++ transport.releases) }

/-! ### The functions -/

variable {transport}

/-- An open transport that is not paired with the leader attaches a new pair channel. -/
theorem pairWithLeader_eq (hopen : transport.closed = false) {id : ℕ}
    (hnew : ¬ (transport.currentLeaderId = some id ∧ transport.pairChannel.isSome)) :
    transport.pairWithLeader id = transport.paired id := by
  unfold pairWithLeader
  rw [if_neg (by simp [hopen]), if_neg hnew]
  simp [newBroadcastChannel, clearPendingPair, attachPair, detachPair, sendPairRequest, hopen, emit,
    paired]

/-- `pairWithLeader` does nothing, or attaches a new pair channel. -/
theorem pairWithLeader_cases (transport : Transport) (id : ℕ) :
    transport.pairWithLeader id = transport ∨
      transport.closed = false ∧
        ¬ (transport.currentLeaderId = some id ∧ transport.pairChannel.isSome) ∧
        transport.pairWithLeader id = transport.paired id := by
  by_cases hclosed : transport.closed
  · left
    rw [pairWithLeader, if_pos hclosed]
  · have hopen : transport.closed = false := by simpa using hclosed
    by_cases hpaired : transport.currentLeaderId = some id ∧ transport.pairChannel.isSome
    · left
      rw [pairWithLeader, if_neg hclosed, if_pos hpaired]
    · right
      exact ⟨hopen, hpaired, pairWithLeader_eq hopen hpaired⟩

/-- The outcomes of a message on the discovery channel. -/
inductive Discovered (transport : Transport) : LeaderMessage → Transport → Prop
  | ignored (message : LeaderMessage) : Discovered transport message transport
  | paired (id : ℕ) (hopen : transport.closed = false) (hother : transport.leaderId ≠ some id)
      (hnew : ¬ (transport.currentLeaderId = some id ∧ transport.pairChannel.isSome)) :
      Discovered transport (.leaderElected id) (transport.paired id)
  | bridged (clientId : ℕ) (name : PairName) (writer own : ℕ)
      (hwriter : transport.writer = some writer) (hown : transport.leaderId = some own) :
      Discovered transport (.pairRequest own clientId name)
        (transport.bridged clientId name writer own)
  | acknowledged (pair : PendingPair) (hpending : transport.pendingPair = some pair) :
      Discovered transport (.pairAck pair.leaderId transport.clientId) transport.acknowledged
  | deposed (leaderId : ℕ) (message : String)
      (hcurrent : transport.currentLeaderId = some leaderId) :
      Discovered transport (.leaderFailed leaderId message) transport.deposed
  | announced (writer own : ℕ) (hwriter : transport.writer = some writer)
      (hown : transport.leaderId = some own) :
      Discovered transport .leaderQuery
        (transport.emit [.discoveryPost (.leaderElected own)])

/-- `onDiscoveryMessage` has one of its outcomes. -/
theorem onDiscoveryMessage_cases (transport : Transport) (message : LeaderMessage) :
    Discovered transport message (transport.onDiscoveryMessage message) := by
  cases message with
  | leaderElected id =>
    simp only [onDiscoveryMessage]
    split_ifs with hown
    · exact .ignored _
    · rcases pairWithLeader_cases transport id with hsame | ⟨hopen, hnew, hpaired⟩
      · rw [hsame]
        exact .ignored _
      · rw [hpaired]
        exact .paired id hopen hown hnew
  | pairRequest leaderId clientId channel =>
    simp only [onDiscoveryMessage]
    split
    · next writer own hwriter hown =>
      split_ifs with hleader
      · exact .ignored _
      · obtain rfl : leaderId = own := not_not.mp hleader
        exact .bridged clientId channel writer leaderId hwriter hown
    · exact .ignored _
  | pairAck leaderId clientId =>
    simp only [onDiscoveryMessage]
    split_ifs with hclient
    · exact .ignored _
    · obtain rfl : clientId = transport.clientId := not_not.mp hclient
      split
      · exact .ignored _
      · next pair hpending =>
        split_ifs with hleader
        · exact .ignored _
        · obtain rfl : pair.leaderId = leaderId := not_not.mp hleader
          have hresult := Discovered.acknowledged pair hpending
          split
          · next channel hchannel =>
            have hchannel : transport.pairChannel = some channel := hchannel
            have hsame : (transport.clearPendingPair.replayInFlight channel).markReady =
                transport.acknowledged := by
              simp [clearPendingPair, replayInFlight, emit, markReady, Transport.acknowledged,
                replayed, hchannel]
            rw [hsame]
            exact hresult
          · next hchannel =>
            have hchannel : transport.pairChannel = none := hchannel
            have hsame : transport.clearPendingPair.markReady = transport.acknowledged := by
              simp [clearPendingPair, markReady, Transport.acknowledged, replayed, hchannel]
            rw [hsame]
            exact hresult
  | leaderFailed leaderId message =>
    simp only [onDiscoveryMessage]
    split_ifs with hleader
    · exact .ignored _
    · exact .deposed leaderId message (not_not.mp hleader)
  | leaderQuery =>
    simp only [onDiscoveryMessage]
    split
    · next writer own hwriter hown => exact .announced writer own hwriter hown
    · exact .ignored _

/-- A granted lock is declined by a closed transport, promotes, or finds a factory that throws. -/
theorem onLockGranted_cases (transport : Transport) (grant : ℕ) (factory : Except String Unit) :
    (transport.closed = true ∧
      transport.onLockGranted grant factory = transport.emit [.settleLock grant (.ok ())]) ∨
    (transport.closed = false ∧ factory = .ok () ∧
      transport.onLockGranted grant factory = transport.promoted grant) ∨
    ∃ message, transport.closed = false ∧ factory = .error message ∧
      transport.onLockGranted grant factory = transport.unpromoted grant message := by
  unfold onLockGranted
  cases hclosed : transport.closed with
  | true =>
    left
    simp
  | false =>
    right
    cases factory with
    | ok _ =>
      left
      refine ⟨rfl, rfl, ?_⟩
      simp [becomeLeader, hclosed, clearPendingPair, emit, newBroadcastChannel, attachPair,
        detachPair, replayInFlight, promoted, markReady]
    | error message =>
      right
      refine ⟨message, rfl, rfl, ?_⟩
      simp [becomeLeader, hclosed, clearPendingPair, emit, unpromoted]

/-- `close` shuts an open transport. -/
theorem close_eq (hopen : transport.closed = false) : transport.close = transport.shut := by
  unfold close
  rw [hopen]
  simp [clearPendingPair, detachPair, emit, giveUpLeadership, shut, releases, failReady]

/-- A transport that is closed ignores `close`. -/
theorem close_closed (hclosed : transport.closed = true) : transport.close = transport := by
  unfold close
  rw [if_pos hclosed]

/-- A transport is closed after `close`. -/
theorem closed_close (transport : Transport) : transport.close.closed = true := by
  by_cases hclosed : transport.closed
  · rw [close_closed hclosed]
    exact hclosed
  · rw [close_eq (by simpa using hclosed)]
    rfl

/-- The lock requested again after a crash. -/
def requested (transport : Transport) (times : List ℕ) : Transport :=
  { transport with
    failureTimestamps := times
    lockAbort := some transport.nextRequest
    nextRequest := transport.nextRequest + 1
    outbox := transport.outbox ++ [.requestLock transport.nextRequest] }

/-- The transport gave up for good. -/
def abandoned (transport : Transport) (times : List ℕ) : Transport :=
  { transport with
    failureTimestamps := times
    failed := true
    inFlight := .empty
    pairChannel := none
    currentLeaderId := none
    pendingPair := none
    discovering := false
    outbox := transport.outbox ++ ((transport.inFlight.keys.map fun id ↦
      .message ⟨id, .error failMessage⟩ true) ++ [.error]) }

/-- A failure of the current writer is a crash, and then a restart. -/
theorem handleWriterFailure_eq (hopen : transport.closed = false) {leader : ℕ}
    (hleader : transport.leaderId = some leader) (message : String) (now : ℕ) :
    transport.handleWriterFailure leader message now =
      (transport.crashed leader message).restartLockRequest now := by
  unfold handleWriterFailure
  rw [hopen, hleader]
  simp [failBridges, emit, giveUpLeadership, crashed, failures, releases]

/-- A restart requests the lock again, or gives up. -/
theorem restartLockRequest_cases (hopen : transport.closed = false) (now : ℕ) :
    ∃ times, transport.restartLockRequest now = transport.requested times ∨
      transport.restartLockRequest now = transport.abandoned times := by
  unfold restartLockRequest
  rw [if_neg (by simp [hopen])]
  refine ⟨(transport.failureTimestamps.dropWhile fun time ↦ time + restartWindowMs < now) ++ [now],
    ?_⟩
  dsimp only
  split_ifs with hbudget
  · right
    simp [failPermanently, emit, detachPair, clearPendingPair, abandoned]
  · left
    unfold requestLock
    rw [if_neg (by simp [hopen])]
    rfl

/-- A failing writer is ignored, or the transport requests the lock again, or gives up. -/
theorem onWriterError_cases (transport : Transport) (now : ℕ) :
    transport.onWriterError now = transport ∨
      ∃ leader times, transport.closed = false ∧ transport.leaderId = some leader ∧
        (transport.onWriterError now =
            (transport.crashed leader "storage writer error").requested times ∨
          transport.onWriterError now =
            (transport.crashed leader "storage writer error").abandoned times) := by
  unfold onWriterError
  cases transport.writerErrorListener with
  | none => exact Or.inl rfl
  | some leader =>
    dsimp only
    by_cases hclosed : transport.closed
    · left
      rw [handleWriterFailure, if_pos hclosed]
    · have hopen : transport.closed = false := by simpa using hclosed
      by_cases hleader : transport.leaderId = some leader
      · right
        rw [handleWriterFailure_eq hopen hleader]
        obtain ⟨times, htimes⟩ := restartLockRequest_cases
          (show (transport.crashed leader "storage writer error").closed = false from hopen) now
        exact ⟨leader, times, hopen, hleader, htimes⟩
      · left
        rw [handleWriterFailure, if_neg hclosed, if_pos hleader]

/-- The continuation of a lock request changes only the readiness and the controller, and may fire
an `error` event. -/
theorem onLockSettled_cases (transport : Transport) (request : ℕ) (outcome : Except String Unit) :
    ∃ ready abort, transport.onLockSettled request outcome =
        { transport with whenReady := ready, lockAbort := abort } ∨
      transport.onLockSettled request outcome =
        { transport with
          whenReady := ready
          lockAbort := abort
          outbox := transport.outbox ++ [.error] } := by
  unfold onLockSettled
  cases outcome with
  | ok _ =>
    dsimp only
    split_ifs
    · exact ⟨transport.whenReady, none, Or.inl rfl⟩
    · exact ⟨transport.whenReady, transport.lockAbort, Or.inl rfl⟩
  | error message =>
    dsimp only
    split_ifs
    · exact ⟨transport.whenReady, none, Or.inl rfl⟩
    · exact ⟨transport.whenReady, transport.lockAbort, Or.inl rfl⟩
    · exact ⟨transport.whenReady.fail message, none, Or.inr rfl⟩
    · exact ⟨transport.whenReady.fail message, transport.lockAbort, Or.inr rfl⟩

/-- A retry asks the leader of the pending pair again, unless the transport is closed. -/
theorem onPairAckTimeout_cases (transport : Transport) :
    transport.onPairAckTimeout = transport ∨
      ∃ pair, transport.pendingPair = some pair ∧ transport.closed = false ∧
        transport.onPairAckTimeout = transport.emit
          [.discoveryPost (.pairRequest pair.leaderId transport.clientId pair.channel)] := by
  unfold onPairAckTimeout
  cases hpending : transport.pendingPair with
  | none => exact Or.inl rfl
  | some pair =>
    dsimp only
    unfold sendPairRequest
    split_ifs with hclosed
    · exact Or.inl rfl
    · exact Or.inr ⟨pair, rfl, by simpa using hclosed, rfl⟩

/-- The value that was posted is in flight. -/
def tracked (transport : Transport) (data : PageMessage) : OrderedMap ℕ PageMessage :=
  match data.id with
  | some id => transport.inFlight.set id data
  | none => transport.inFlight

/-- A value was posted on the pair channel, if there is one. -/
def posted (transport : Transport) (data : PageMessage) : Transport :=
  { transport with
    inFlight := transport.tracked data
    outbox := transport.outbox ++
      transport.pairChannel.toList.map fun channel ↦ .pairPost channel data }

/-- An open transport tracks what is posted, and posts it on its pair channel. -/
theorem postMessage_eq (hopen : transport.closed = false) (hworks : transport.failed = false)
    (data : PageMessage) : transport.postMessage data = transport.posted data := by
  have hpost : ∀ tracked : Transport,
      (match tracked.pairChannel with
        | some channel => tracked.emit [.pairPost channel data]
        | none => tracked) =
      tracked.emit (tracked.pairChannel.toList.map fun channel ↦ .pairPost channel data) := by
    intro tracked
    cases tracked.pairChannel with
    | none => simp [emit]
    | some channel => rfl
  unfold postMessage
  rw [if_neg (by simp [hopen]), if_neg (by simp [hworks])]
  dsimp only
  refine (hpost _).trans ?_
  unfold posted tracked
  cases data.id with
  | none => rfl
  | some id => rfl

/-- The refusal of a value waits for its microtask. -/
def deferred (transport : Transport) (data : PageMessage) : Transport :=
  { transport with microtasks := transport.microtasks ++ data.id.toList }

/-- A microtask refused a number. -/
def refused (transport : Transport) (id : ℕ) (rest : List ℕ) : Transport :=
  { transport with
    microtasks := rest
    outbox := transport.outbox ++ [.message ⟨id, .error failMessage⟩ true] }

/-- A microtask refuses the number that has waited longest. -/
theorem runMicrotask_cases (transport : Transport) :
    (transport.microtasks = [] ∧ transport.runMicrotask = transport) ∨
      ∃ id rest, transport.microtasks = id :: rest ∧
        transport.runMicrotask = transport.refused id rest := by
  unfold runMicrotask
  cases transport.microtasks with
  | nil => exact Or.inl ⟨rfl, rfl⟩
  | cons id rest => exact Or.inr ⟨id, rest, rfl, rfl⟩

/-- A microtask changes no channel, no bridge, and nothing that is in flight. -/
theorem client_runMicrotask (transport : Transport) :
    transport.runMicrotask.inFlight = transport.inFlight ∧
      transport.runMicrotask.closed = transport.closed ∧
      transport.runMicrotask.pairChannel = transport.pairChannel ∧
      transport.runMicrotask.pendingPair = transport.pendingPair ∧
      transport.runMicrotask.bridges = transport.bridges := by
  rcases runMicrotask_cases transport with ⟨-, hsame⟩ | ⟨id, rest, -, hrefused⟩
  · rw [hsame]
    exact ⟨rfl, rfl, rfl, rfl, rfl⟩
  · rw [hrefused]
    exact ⟨rfl, rfl, rfl, rfl, rfl⟩

/-- A posted value is ignored by a closed transport, refused later by a failed one, and else
posted. -/
theorem postMessage_cases (transport : Transport) (data : PageMessage) :
    (transport.closed = true ∧ transport.postMessage data = transport) ∨
    (transport.closed = false ∧ transport.failed = true ∧
      transport.postMessage data = transport.deferred data) ∨
    (transport.closed = false ∧ transport.failed = false ∧
      transport.postMessage data = transport.posted data) := by
  by_cases hclosed : transport.closed
  · left
    exact ⟨hclosed, by rw [postMessage, if_pos hclosed]⟩
  · right
    have hopen : transport.closed = false := by simpa using hclosed
    by_cases hfailed : transport.failed
    · left
      refine ⟨hopen, hfailed, ?_⟩
      rw [postMessage, if_neg hclosed, if_pos hfailed, deferred]
      cases data.id with
      | none => simp
      | some id => rfl
    · right
      have hworks : transport.failed = false := by simpa using hfailed
      exact ⟨hopen, hworks, postMessage_eq hopen hworks data⟩

/-- A post changes no channel, and no bridge. -/
theorem client_postMessage (transport : Transport) (data : PageMessage) :
    (transport.postMessage data).closed = transport.closed ∧
      (transport.postMessage data).pairChannel = transport.pairChannel ∧
      (transport.postMessage data).pendingPair = transport.pendingPair ∧
      (transport.postMessage data).bridges = transport.bridges := by
  rcases postMessage_cases transport data with ⟨-, hsame⟩ | ⟨-, -, hdeferred⟩ | ⟨-, -, hposted⟩
  · rw [hsame]
    exact ⟨rfl, rfl, rfl, rfl⟩
  · rw [hdeferred]
    exact ⟨rfl, rfl, rfl, rfl⟩
  · rw [hposted]
    exact ⟨rfl, rfl, rfl, rfl⟩

/-- What is in flight after a value was posted. -/
theorem mem_keys_tracked {transport : Transport} {data : PageMessage} {id : ℕ} :
    id ∈ (transport.tracked data).keys ↔ id ∈ transport.inFlight.keys ∨ data.id = some id := by
  unfold tracked
  cases hid : data.id with
  | none => simp
  | some own =>
    rw [OrderedMap.mem_keys_set, Option.some.injEq, or_comm, @eq_comm _ id own]

/-- What is in flight after a post was in flight before, or is the value posted. -/
theorem mem_keys_of_postMessage {transport : Transport} {data : PageMessage} {id : ℕ}
    (hid : id ∈ (transport.postMessage data).inFlight.keys) :
    id ∈ transport.inFlight.keys ∨
      transport.postMessage data = transport.posted data ∧ data.id = some id := by
  rcases postMessage_cases transport data with ⟨-, hsame⟩ | ⟨-, -, hdeferred⟩ | ⟨-, -, hposted⟩
  · rw [hsame] at hid
    exact Or.inl hid
  · rw [hdeferred] at hid
    exact Or.inl hid
  · rw [hposted] at hid
    exact (mem_keys_tracked.mp hid).imp_right fun hnumber ↦ ⟨hposted, hnumber⟩

/-- A post keeps what is in flight. -/
theorem mem_keys_postMessage {transport : Transport} {id : ℕ}
    (hid : id ∈ transport.inFlight.keys) (data : PageMessage) :
    id ∈ (transport.postMessage data).inFlight.keys := by
  rcases postMessage_cases transport data with ⟨-, hsame⟩ | ⟨-, -, hdeferred⟩ | ⟨-, -, hposted⟩
  · rw [hsame]
    exact hid
  · rw [hdeferred]
    exact hid
  · rw [hposted]
    exact mem_keys_tracked.mpr (Or.inl hid)

/-- A value without a number was passed on to the writer. -/
def passed (transport : Transport) (clientId writer : ℕ) (data : PageMessage) : Transport :=
  { transport with
    outbox := transport.outbox ++ [.writerPost writer clientId data data] }

/-- A request of a client was forwarded to the writer under the next number. -/
def forwarded (transport : Transport) (clientId : ℕ) (bridge : LeaderBridge BridgePort) (id : ℕ)
    (data : PageMessage) : Transport :=
  { transport with
    bridges := transport.bridges.set clientId
      { bridge with idMap := bridge.idMap.set transport.nextLeaderEnvelopeId id }
    nextLeaderEnvelopeId := transport.nextLeaderEnvelopeId + 1
    outbox := transport.outbox ++ [.writerPost bridge.channel.writer clientId data
      { data with id := some transport.nextLeaderEnvelopeId }] }

/-- A bridge answered the `close` of its client, and is gone. -/
def unbridged (transport : Transport) (clientId : ℕ) (channel : PairChannel) (id : ℕ) :
    Transport :=
  { transport with
    bridges := transport.bridges.erase clientId
    outbox := transport.outbox ++ [.channelPost channel ⟨id, .response .close⟩ false] }

/-- The outcomes of a message on the channel of a live bridge. -/
inductive BridgeHeard (transport : Transport) (clientId : ℕ) (bridge : LeaderBridge BridgePort)
    (data : PageMessage) : Transport → Prop
  | passed (hid : data.id = none) :
      BridgeHeard transport clientId bridge data
        (transport.passed clientId bridge.channel.writer data)
  | forwarded (id : ℕ) (hid : data.id = some id) (hkind : data.request.kind ≠ .close) :
      BridgeHeard transport clientId bridge data (transport.forwarded clientId bridge id data)
  | closed (id : ℕ) (hid : data.id = some id) (hkind : data.request.kind = .close) :
      BridgeHeard transport clientId bridge data
        (transport.unbridged clientId bridge.channel.channel id)

/-- A message for a bridge that is gone, or for an older object of it, is ignored; else the bridge
hears it. -/
theorem onBridgeMessage_cases (transport : Transport) (clientId object : ℕ) (data : PageMessage)
    (hlive : ∀ bridge, transport.bridges.get? clientId = some bridge → bridge.disposed = false) :
    ((∀ bridge, transport.bridges.get? clientId = some bridge →
        bridge.channel.channel.object ≠ object) ∧
      transport.onBridgeMessage clientId object data = transport) ∨
      ∃ bridge, transport.bridges.get? clientId = some bridge ∧
        bridge.channel.channel.object = object ∧
        BridgeHeard transport clientId bridge data
          (transport.onBridgeMessage clientId object data) := by
  unfold onBridgeMessage
  cases hbridge : transport.bridges.get? clientId with
  | none => exact Or.inl ⟨nofun, rfl⟩
  | some bridge =>
    dsimp only
    by_cases hobject : bridge.channel.channel.object = object
    · right
      refine ⟨bridge, rfl, hobject, ?_⟩
      rw [if_neg (not_not_intro hobject)]
      cases hid : data.id with
      | none =>
        rw [LeaderBridge.onClientMessage_raw _ (hlive bridge hbridge) hid]
        have hsame : transport.bridges.set clientId bridge = transport.bridges :=
          OrderedMap.set_of_get? hbridge
        have hpassed : BridgeHeard transport clientId bridge data
            (transport.passed clientId bridge.channel.writer data) := .passed hid
        simpa [performBridge, emit, Transport.passed, hsame] using hpassed
      | some id =>
        by_cases hkind : data.request.kind = .close
        · rw [LeaderBridge.onClientMessage_close _ (hlive bridge hbridge) hid hkind]
          have hclosed : BridgeHeard transport clientId bridge data
              (transport.unbridged clientId bridge.channel.channel id) := .closed id hid hkind
          have herase : (transport.bridges.set clientId { bridge with disposed := true }).erase
              clientId = transport.bridges.erase clientId := OrderedMap.erase_set_self _ _ _
          simpa [performBridge, emit, unbridged, herase] using hclosed
        · rw [LeaderBridge.onClientMessage_forward _ (hlive bridge hbridge) hid hkind]
          exact .forwarded id hid hkind
    · left
      refine ⟨fun found hfound ↦ ?_, by rw [if_pos hobject]⟩
      rw [← Option.some.inj hfound]
      exact hobject

/-- A bridge that hears its client changes nothing on the side of the client. -/
theorem client_onBridgeMessage (transport : Transport) (clientId object : ℕ) (data : PageMessage)
    (hlive : ∀ bridge, transport.bridges.get? clientId = some bridge → bridge.disposed = false) :
    (transport.onBridgeMessage clientId object data).inFlight = transport.inFlight ∧
      (transport.onBridgeMessage clientId object data).closed = transport.closed ∧
      (transport.onBridgeMessage clientId object data).pairChannel = transport.pairChannel ∧
      (transport.onBridgeMessage clientId object data).pendingPair = transport.pendingPair := by
  rcases onBridgeMessage_cases transport clientId object data hlive with
    ⟨-, hsame⟩ | ⟨bridge, -, -, hheard⟩
  · rw [hsame]
    exact ⟨rfl, rfl, rfl, rfl⟩
  · generalize transport.onBridgeMessage clientId object data = after at hheard ⊢
    cases hheard <;> exact ⟨rfl, rfl, rfl, rfl⟩

/-! ### All outcomes -/

/-- The outcomes of every function but the lock callback, when the discovery messages that were
received meet a condition, and when a leader may fall or may not. -/
inductive Ran (received : LeaderMessage → Prop) (falls : Prop) (transport : Transport) :
    Transport → Prop
  | idle : Ran received falls transport transport
  | paired (id : ℕ) (hreceived : received (.leaderElected id)) (hopen : transport.closed = false)
      (hother : transport.leaderId ≠ some id)
      (hnew : ¬ (transport.currentLeaderId = some id ∧ transport.pairChannel.isSome)) :
      Ran received falls transport (transport.paired id)
  | bridged (clientId : ℕ) (name : PairName) (writer own : ℕ)
      (hreceived : received (.pairRequest own clientId name))
      (hwriter : transport.writer = some writer) (hown : transport.leaderId = some own) :
      Ran received falls transport (transport.bridged clientId name writer own)
  | acknowledged (pair : PendingPair)
      (hreceived : received (.pairAck pair.leaderId transport.clientId))
      (hpending : transport.pendingPair = some pair) :
      Ran received falls transport transport.acknowledged
  | deposed (leaderId : ℕ) (message : String)
      (hreceived : received (.leaderFailed leaderId message))
      (hcurrent : transport.currentLeaderId = some leaderId) :
      Ran received falls transport transport.deposed
  | announced (writer own : ℕ) (hwriter : transport.writer = some writer)
      (hown : transport.leaderId = some own) :
      Ran received falls transport (transport.emit [.discoveryPost (.leaderElected own)])
  | asked (pair : PendingPair) (hpending : transport.pendingPair = some pair) :
      Ran received falls transport (transport.emit
        [.discoveryPost (.pairRequest pair.leaderId transport.clientId pair.channel)])
  | requested (leader : ℕ) (times : List ℕ) (hfalls : falls)
      (hwriter : transport.writer = some leader) :
      Ran received falls transport
        ((transport.crashed leader "storage writer error").requested times)
  | abandoned (leader : ℕ) (times : List ℕ) (hfalls : falls)
      (hwriter : transport.writer = some leader) :
      Ran received falls transport
        ((transport.crashed leader "storage writer error").abandoned times)
  | lockSettled (ready : Readiness) (abort : Option ℕ) :
      Ran received falls transport { transport with whenReady := ready, lockAbort := abort }
  | lockRejected (ready : Readiness) (abort : Option ℕ) :
      Ran received falls transport { transport with
        whenReady := ready
        lockAbort := abort
        outbox := transport.outbox ++ [.error] }
  | received (envelope : ServerEnvelope) (synthetic : Bool) :
      Ran received falls transport (transport.onPairMessage envelope synthetic)
  | heard (clientId : ℕ) (bridge : LeaderBridge BridgePort) (data : PageMessage)
      (next : Transport) (hbridge : transport.bridges.get? clientId = some bridge)
      (hheard : BridgeHeard transport clientId bridge data next) : Ran received falls transport next
  | replied (data : WriterMessage) : Ran received falls transport (transport.onWriterMessage data)
  | deferred (data : PageMessage) (hfailed : transport.failed = true) :
      Ran received falls transport (transport.deferred data)
  | refused (id : ℕ) (rest : List ℕ) (hqueued : transport.microtasks = id :: rest) :
      Ran received falls transport (transport.refused id rest)
  | posted (data : PageMessage) (hopen : transport.closed = false)
      (hworks : transport.failed = false) : Ran received falls transport (transport.posted data)
  | shut (hfalls : falls ∨ transport.writer = none) (hopen : transport.closed = false) :
      Ran received falls transport transport.shut

/-- A discovery message that names only leaders of the first grants, and pair channels by their
rule. -/
def Names (grants : ℕ) : LeaderMessage → Prop
  | .leaderElected id => id < grants
  | .pairRequest leaderId clientId channel => leaderId < grants ∧ channel = ⟨leaderId, clientId⟩
  | .leaderFailed leaderId _ => leaderId < grants
  | .pairAck leaderId _ => leaderId < grants
  | .leaderQuery => True

/-- No outcome opens a closed transport. -/
theorem closed_of_ran {received : LeaderMessage → Prop} {falls : Prop}
    {transport next : Transport}
    (hran : Ran received falls transport next)
    (hclosed : transport.closed = true) : next.closed = true := by
  cases hran with
  | heard clientId bridge data next hbridge hheard => cases hheard <;> exact hclosed
  | shut hfalls hopen => rfl
  | _ => exact hclosed

/-- Where no leader falls, the writer stays. -/
theorem writer_of_ran {received : LeaderMessage → Prop} {transport next : Transport}
    (hran : Ran received False transport next) : next.writer = transport.writer := by
  cases hran with
  | requested leader times hfalls hwriter => exact hfalls.elim
  | abandoned leader times hfalls hwriter => exact hfalls.elim
  | heard clientId bridge data next hbridge hheard => cases hheard <;> rfl
  | shut hfalls hopen => exact (hfalls.resolve_left id).symm
  | _ => rfl

/-- Where no leader falls, no transport gives up. -/
theorem failed_of_ran {received : LeaderMessage → Prop} {transport next : Transport}
    (hran : Ran received False transport next) : next.failed = transport.failed := by
  cases hran with
  | requested leader times hfalls hwriter => exact hfalls.elim
  | abandoned leader times hfalls hwriter => exact hfalls.elim
  | heard clientId bridge data next hbridge hheard => cases hheard <;> rfl
  | _ => rfl

/-- More grants make more leaders known. -/
theorem Names.mono {grants more : ℕ} {message : LeaderMessage} (hnames : Names grants message)
    (hmore : grants ≤ more) : Names more message := by
  cases message with
  | leaderElected id => exact Nat.lt_of_lt_of_le hnames hmore
  | pairRequest leaderId clientId channel => exact ⟨Nat.lt_of_lt_of_le hnames.1 hmore, hnames.2⟩
  | pairAck leaderId clientId => exact Nat.lt_of_lt_of_le hnames hmore
  | leaderQuery => trivial
  | leaderFailed leaderId reason => exact Nat.lt_of_lt_of_le hnames hmore

variable (received : LeaderMessage → Prop) (falls : Prop)

/-- `onDiscoveryMessage` is among the outcomes. -/
theorem ran_onDiscoveryMessage (transport : Transport) {message : LeaderMessage}
    (hmessage : received message) :
    Ran received falls transport (transport.onDiscoveryMessage message) := by
  have hcases := onDiscoveryMessage_cases transport message
  generalize transport.onDiscoveryMessage message = next at hcases ⊢
  cases hcases with
  | ignored => exact .idle
  | paired id hopen hother hnew => exact .paired id hmessage hopen hother hnew
  | bridged clientId name writer own hwriter hown =>
    exact .bridged clientId name writer own hmessage hwriter hown
  | acknowledged pair hpending => exact .acknowledged pair hmessage hpending
  | deposed leaderId message hcurrent => exact .deposed leaderId message hmessage hcurrent
  | announced writer own hwriter hown => exact .announced writer own hwriter hown

/-- The retry timer is among the outcomes. -/
theorem ran_onPairAckTimeout (transport : Transport) :
    Ran received falls transport transport.onPairAckTimeout := by
  rcases onPairAckTimeout_cases transport with hsame | ⟨pair, hpending, -, hasked⟩
  · rw [hsame]
    exact .idle
  · rw [hasked]
    exact .asked pair hpending

/-- A failing writer is among the outcomes. -/
theorem ran_onWriterError {transport : Transport} (hfalls : falls) {writer : ℕ}
    (hwriter : transport.writer = some writer) (hleads : transport.leaderId = some writer)
    (now : ℕ) : Ran received falls transport (transport.onWriterError now) := by
  rcases onWriterError_cases transport now with
    hsame | ⟨leader, times, -, hleader, hrequested | habandoned⟩
  · rw [hsame]
    exact .idle
  · obtain rfl : writer = leader := Option.some.inj (hleads.symm.trans hleader)
    rw [hrequested]
    exact .requested writer times hfalls hwriter
  · obtain rfl : writer = leader := Option.some.inj (hleads.symm.trans hleader)
    rw [habandoned]
    exact .abandoned writer times hfalls hwriter

/-- The continuation of a lock request is among the outcomes. -/
theorem ran_onLockSettled (transport : Transport) (request : ℕ) (outcome : Except String Unit) :
    Ran received falls transport (transport.onLockSettled request outcome) := by
  obtain ⟨ready, abort, hquiet | hrejected⟩ := onLockSettled_cases transport request outcome
  · rw [hquiet]
    exact .lockSettled ready abort
  · rw [hrejected]
    exact .lockRejected ready abort

/-- A message for a bridge is among the outcomes. -/
theorem ran_onBridgeMessage (transport : Transport) (clientId object : ℕ) (data : PageMessage)
    (hlive : ∀ bridge, transport.bridges.get? clientId = some bridge → bridge.disposed = false) :
    Ran received falls transport (transport.onBridgeMessage clientId object data) := by
  rcases onBridgeMessage_cases transport clientId object data hlive with
    ⟨-, hsame⟩ | ⟨bridge, hbridge, -, hheard⟩
  · rw [hsame]
    exact .idle
  · exact .heard clientId bridge data _ hbridge hheard

/-- `postMessage` is among the outcomes. -/
theorem ran_postMessage (transport : Transport) (data : PageMessage) :
    Ran received falls transport (transport.postMessage data) := by
  rcases postMessage_cases transport data with
    ⟨-, hsame⟩ | ⟨-, hfailed, hdeferred⟩ | ⟨hopen, hworks, hposted⟩
  · rw [hsame]
    exact .idle
  · rw [hdeferred]
    exact .deferred data hfailed
  · rw [hposted]
    exact .posted data hopen hworks

/-- `runMicrotask` is among the outcomes. -/
theorem ran_runMicrotask (transport : Transport) :
    Ran received falls transport transport.runMicrotask := by
  rcases runMicrotask_cases transport with ⟨-, hsame⟩ | ⟨id, rest, hqueued, hrefused⟩
  · rw [hsame]
    exact .idle
  · rw [hrefused]
    exact .refused id rest hqueued

/-- `close` is among the outcomes. -/
theorem ran_close {transport : Transport} (hfalls : falls ∨ transport.writer = none) :
    Ran received falls transport transport.close := by
  by_cases hclosed : transport.closed
  · rw [close_closed hclosed]
    exact .idle
  · have hopen : transport.closed = false := by simpa using hclosed
    rw [close_eq hopen]
    exact .shut hfalls hopen

end OpfsWebauthn.Storage.Transport
