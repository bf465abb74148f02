import OpfsWebauthn.Storage.LeaderBridge

/-!
# The leader transport

`createLeaderTransport` of `leader.ts`. `Transport` has the variables of the closure, and the
functions of the source are functions from the transport to the transport, in the order of the
source. What a function does outside of the closure it appends to the `outbox`: posts on channels,
events for the listeners, and what it asks of the lock manager and of the writer.

A leader is identified by the number of the lock grant that made it leader, and a client by the
number of its tab. A `BroadcastChannel` object is identified by the tab that opened it and a number
of that tab. The bridges in the map are exactly those that are not disposed. The timer of a pending
pair is armed as long as the pair is pending.

`joined` lists the leaders whose pair channel was attached; no function reads it.
-/

set_option autoImplicit false
set_option relaxedAutoImplicit false

namespace OpfsWebauthn.Storage

open Foundation

/-- `pairChannelName(leaderId, clientId)`. -/
structure PairName where
  leaderId : ℕ
  clientId : ℕ
deriving DecidableEq, Repr

/-- A `BroadcastChannel` object on a pair name, with its number in the tab that opened it. -/
structure PairChannel where
  object : ℕ
  name : PairName
deriving DecidableEq, Repr

/-- What a bridge holds on to: its channel and its writer. -/
structure BridgePort where
  channel : PairChannel
  writer : ℕ
deriving DecidableEq, Repr

/-- `LeaderMessage`. -/
inductive LeaderMessage
  | leaderElected (id : ℕ)
  | pairRequest (leaderId clientId : ℕ) (channel : PairName)
  | pairAck (leaderId clientId : ℕ)
  | leaderQuery
  | leaderFailed (leaderId : ℕ) (message : String)
deriving DecidableEq, Repr

/-- What the transport does outside of its closure. The flag of an envelope says whether it was
synthesized for a failure of the writer. -/
inductive TransportEffect
  /-- `discovery.postMessage(message)`. -/
  | discoveryPost (message : LeaderMessage)
  /-- `pairChannel.postMessage(data)` on the side of the client. -/
  | pairPost (channel : PairChannel) (data : PageMessage)
  /-- `channel.postMessage(envelope)` on the side of a bridge. -/
  | channelPost (channel : PairChannel) (envelope : ServerEnvelope) (synthetic : Bool)
  /-- `writer.postMessage(data)` by the bridge of a client, for the value that the client posted. -/
  | writerPost (writer clientId : ℕ) (original data : PageMessage)
  /-- A `message` event for the listeners of the transport. -/
  | message (envelope : ServerEnvelope) (synthetic : Bool)
  /-- An `error` event for the listeners of the transport. -/
  | error
  /-- `locks.request(...)`, by the number of the request. -/
  | requestLock (request : ℕ)
  /-- `lockAbort.abort()`. -/
  | abortLock (request : ℕ)
  /-- The settlement of the promise that the lock callback of a grant returned. -/
  | settleLock (grant : ℕ) (outcome : Except String Unit)
  /-- `writerFactory()`. -/
  | openWriter (writer : ℕ)
  /-- `writer.close()`. -/
  | closeWriter (writer : ℕ)

/-- `pendingPair`. -/
structure PendingPair where
  leaderId : ℕ
  channel : PairName
deriving DecidableEq, Repr

/-- `whenReady`. -/
inductive Readiness
  | pending
  | resolved
  | rejected (reason : String)
deriving DecidableEq, Repr

/-- A promise that settles once: resolving it. -/
def Readiness.mark : Readiness → Readiness
  | .pending => .resolved
  | settled => settled

/-- A promise that settles once: rejecting it. -/
def Readiness.fail (reason : String) : Readiness → Readiness
  | .pending => .rejected reason
  | settled => settled

/-- The variables of the closure. -/
structure Transport where
  clientId : ℕ
  inFlight : OrderedMap ℕ PageMessage
  pairChannel : Option PairChannel
  currentLeaderId : Option ℕ
  closed : Bool
  failed : Bool
  pendingPair : Option PendingPair
  writer : Option ℕ
  leaderId : Option ℕ
  bridges : OrderedMap ℕ (LeaderBridge BridgePort)
  nextLeaderEnvelopeId : ℕ
  /-- `pendingWriterErrorCleanup`: the listener on the writer, by the `myLeaderId` it captured. -/
  writerErrorListener : Option ℕ
  /-- `resolveLock`, by the grant whose promise it resolves. -/
  resolveLock : Option ℕ
  whenReady : Readiness
  failureTimestamps : List ℕ
  /-- `lockAbort`, by the request that it aborts. -/
  lockAbort : Option ℕ
  /-- Whether `onDiscoveryMessage` listens on an open discovery channel. -/
  discovering : Bool
  /-- Whether the listener sets of the transport still have their listeners. -/
  listening : Bool
  nextObject : ℕ
  nextRequest : ℕ
  /-- The microtasks that `postMessage` queued, by the number that each of them refuses. -/
  microtasks : List ℕ
  outbox : List TransportEffect
  joined : List ℕ

namespace Transport

/-- `PAIR_ACK_RETRY_MS` only says when the timer fires; `RESTART_WINDOW_MS` and `MAX_FAILURES` bound
the restarts. -/
def restartWindowMs : ℕ := 30000

def maxFailures : ℕ := 3

/-- The message of a transport that has given up. -/
def failMessage : String :=
  "storage worker permanently failed (" ++ toString maxFailures ++ " crashes in " ++
    toString (restartWindowMs / 1000) ++ "s)"

/-- Appends to the outbox. -/
def emit (transport : Transport) (effects : List TransportEffect) : Transport :=
  { transport with outbox := transport.outbox ++ effects }

/-- `markReady()`. -/
def markReady (transport : Transport) : Transport :=
  { transport with whenReady := transport.whenReady.mark }

/-- `failReady(err)`. -/
def failReady (transport : Transport) (reason : String) : Transport :=
  { transport with whenReady := transport.whenReady.fail reason }

/-- `onPairMessage`. -/
def onPairMessage (transport : Transport) (envelope : ServerEnvelope) (synthetic : Bool) :
    Transport :=
  { transport with inFlight := transport.inFlight.erase envelope.id }.emit
    [.message envelope synthetic]

/-- `detachPair()`. -/
def detachPair (transport : Transport) : Transport :=
  { transport with pairChannel := none }

/-- `clearPendingPair()`. -/
def clearPendingPair (transport : Transport) : Transport :=
  { transport with pendingPair := none }

/-- `attachPair(channel)`. -/
def attachPair (transport : Transport) (channel : PairChannel) : Transport :=
  { transport.detachPair with
    pairChannel := some channel
    joined := transport.joined ++ [channel.name.leaderId] }

/-- `replayInFlight(channel)`. -/
def replayInFlight (transport : Transport) (channel : PairChannel) : Transport :=
  transport.emit (transport.inFlight.values.map fun data ↦ .pairPost channel data)

/-- `newBroadcastChannel(name)`. -/
def newBroadcastChannel (transport : Transport) (name : PairName) : PairChannel × Transport :=
  (⟨transport.nextObject, name⟩, { transport with nextObject := transport.nextObject + 1 })

/-- `sendPairRequest(announcedLeaderId, name)`. -/
def sendPairRequest (transport : Transport) (announcedLeaderId : ℕ) (name : PairName) :
    Transport :=
  if transport.closed then transport
  else transport.emit
    [.discoveryPost (.pairRequest announcedLeaderId transport.clientId name)]

/-- `pairWithLeader(announcedLeaderId)`. -/
def pairWithLeader (transport : Transport) (announcedLeaderId : ℕ) : Transport :=
  if transport.closed then transport
  else if transport.currentLeaderId = some announcedLeaderId ∧ transport.pairChannel.isSome then
    transport
  else
    let transport := { transport with currentLeaderId := some announcedLeaderId }
    let transport := transport.clearPendingPair
    let name : PairName := ⟨announcedLeaderId, transport.clientId⟩
    let (channel, transport) := transport.newBroadcastChannel name
    let transport := transport.attachPair channel
    let transport := { transport with pendingPair := some ⟨announcedLeaderId, name⟩ }
    transport.sendPairRequest announcedLeaderId name

/-- The retry timer of the pending pair. -/
def onPairAckTimeout (transport : Transport) : Transport :=
  match transport.pendingPair with
  | none => transport
  | some pair => transport.sendPairRequest pair.leaderId pair.channel

/-- `onDiscoveryMessage`. -/
def onDiscoveryMessage (transport : Transport) : LeaderMessage → Transport
  | .leaderElected id =>
    if transport.leaderId = some id then transport else transport.pairWithLeader id
  | .pairRequest leaderId clientId channel =>
    match transport.writer, transport.leaderId with
    | some writer, some own =>
      if leaderId ≠ own then transport
      else
        -- an existing bridge is disposed, and its place in the map taken
        let (channel, transport) := transport.newBroadcastChannel channel
        { transport with
          bridges := transport.bridges.set clientId (.create ⟨channel, writer⟩) }.emit
            [.discoveryPost (.pairAck own clientId)]
    | _, _ => transport
  | .pairAck leaderId clientId =>
    if clientId ≠ transport.clientId then transport
    else
      match transport.pendingPair with
      | none => transport
      | some pair =>
        if pair.leaderId ≠ leaderId then transport
        else
          let transport := transport.clearPendingPair
          let transport :=
            match transport.pairChannel with
            | some channel => transport.replayInFlight channel
            | none => transport
          transport.markReady
  | .leaderFailed leaderId _ =>
    if transport.currentLeaderId ≠ some leaderId then transport
    else
      let transport := { transport.detachPair with currentLeaderId := none }
      transport.clearPendingPair.emit [.error]
  | .leaderQuery =>
    match transport.writer, transport.leaderId with
    | some _, some own => transport.emit [.discoveryPost (.leaderElected own)]
    | _, _ => transport

/-- `becomeLeader()`, with the id that `newLeaderId()` returns and the outcome of
`writerFactory()`. -/
def becomeLeader (transport : Transport) (newLeaderId : ℕ) (factory : Except String Unit) :
    Transport × Except String Unit :=
  if transport.closed then (transport, .ok ())
  else
    let transport := { transport.clearPendingPair with leaderId := some newLeaderId }
    match factory with
    | .error message => (transport, .error message)
    | .ok () =>
      let transport := { transport with writer := some newLeaderId }.emit [.openWriter newLeaderId]
      let name : PairName := ⟨newLeaderId, transport.clientId⟩
      let (bridgeSide, transport) := transport.newBroadcastChannel name
      let (clientSide, transport) := transport.newBroadcastChannel name
      let transport := { transport with
        bridges := transport.bridges.set transport.clientId (.create ⟨bridgeSide, newLeaderId⟩)
        currentLeaderId := some newLeaderId }
      let transport := (transport.attachPair clientSide).replayInFlight clientSide
      let transport := transport.markReady.emit [.discoveryPost (.leaderElected newLeaderId)]
      ({ transport with writerErrorListener := some newLeaderId }, .ok ())

/-- `giveUpLeadership()`. -/
def giveUpLeadership (transport : Transport) : Transport :=
  { transport with
    writerErrorListener := none
    bridges := .empty
    writer := none
    leaderId := none
    resolveLock := none }.emit
      (transport.writer.toList.map TransportEffect.closeWriter ++
        transport.resolveLock.toList.map fun grant ↦ TransportEffect.settleLock grant (.ok ()))

/-- `requestLock()`. -/
def requestLock (transport : Transport) : Transport :=
  if transport.closed then transport
  else
    { transport with
      lockAbort := some transport.nextRequest
      nextRequest := transport.nextRequest + 1 }.emit [.requestLock transport.nextRequest]

/-- The teardown of `restartLockRequest()` when the budget is exhausted: every request in flight
is failed, the channels are dropped, and the listeners get a last `error` event. -/
def failPermanently (transport : Transport) : Transport :=
  let transport := { transport with failed := true, inFlight := .empty }.emit
    (transport.inFlight.keys.map fun id ↦ .message ⟨id, .error failMessage⟩ true)
  let transport := { transport.detachPair with currentLeaderId := none }
  { transport.clearPendingPair with discovering := false }.emit [.error]

/-- `restartLockRequest()`, at the time `now`. -/
def restartLockRequest (transport : Transport) (now : ℕ) : Transport :=
  if transport.closed then transport
  else
    let recent := transport.failureTimestamps.dropWhile fun time ↦ time + restartWindowMs < now
    let transport := { transport with failureTimestamps := recent ++ [now] }
    if transport.failureTimestamps.length ≥ maxFailures then transport.failPermanently
    else transport.requestLock

/-- The posts among the effects of a bridge. -/
def channelPosts (port : BridgePort) (synthetic : Bool) (effects : List BridgeEffect) :
    List TransportEffect :=
  effects.filterMap fun effect ↦
    match effect with
    | .channelPost envelope => some (.channelPost port.channel envelope synthetic)
    | _ => none

/-- `failPending(message)` on every bridge. -/
def failBridges (transport : Transport) (message : String) : Transport :=
  let fail (bridge : LeaderBridge BridgePort) := bridge.failPending message
  { transport with bridges := transport.bridges.mapValues fun bridge ↦ (fail bridge).1 }.emit
    (transport.bridges.values.flatMap fun (bridge : LeaderBridge BridgePort) ↦
      channelPosts bridge.channel true (fail bridge).2)

/-- `handleWriterFailure(expectedLeaderId, message)`, at the time `now`. -/
def handleWriterFailure (transport : Transport) (expectedLeaderId : ℕ) (message : String)
    (now : ℕ) : Transport :=
  if transport.closed then transport
  else if transport.leaderId ≠ some expectedLeaderId then transport
  else
    let transport := (transport.failBridges message).emit
      [.discoveryPost (.leaderFailed expectedLeaderId message), .error]
    let transport := { transport.giveUpLeadership with currentLeaderId := none }
    transport.restartLockRequest now

/-- The listener that `becomeLeader` adds to the writer. -/
def onWriterError (transport : Transport) (now : ℕ) : Transport :=
  match transport.writerErrorListener with
  | none => transport
  | some myLeaderId => transport.handleWriterFailure myLeaderId "storage writer error" now

/-- The lock callback, for the grant of a number. -/
def onLockGranted (transport : Transport) (grant : ℕ) (factory : Except String Unit) : Transport :=
  if transport.closed then transport.emit [.settleLock grant (.ok ())]
  else
    match { transport with resolveLock := some grant }.becomeLeader grant factory with
    | (transport, .ok ()) => transport
    -- an exception in the executor rejects the promise
    | (transport, .error message) => transport.emit [.settleLock grant (.error message)]

/-- The `.catch` and the `.finally` of `requestLock()`. -/
def onLockSettled (transport : Transport) (request : ℕ) (outcome : Except String Unit) :
    Transport :=
  let transport :=
    match outcome with
    | .ok () => transport
    | .error message =>
      if transport.closed then transport else (transport.emit [.error]).failReady message
  if transport.lockAbort = some request then { transport with lockAbort := none } else transport

/-- What one bridge effect does to the transport of the leader. -/
def performBridge (clientId : ℕ) (port : BridgePort) (original : PageMessage)
    (transport : Transport) : BridgeEffect → Transport
  | .writerPost data => transport.emit [.writerPost port.writer clientId original data]
  | .channelPost envelope => transport.emit [.channelPost port.channel envelope false]
  -- a channel is open as long as its bridge is in the map
  | .channelClose => transport
  | .clientClosed => { transport with bridges := transport.bridges.erase clientId }

/-- A message on the channel of a client's bridge. -/
def onBridgeMessage (transport : Transport) (clientId object : ℕ) (data : PageMessage) :
    Transport :=
  match transport.bridges.get? clientId with
  | none => transport
  | some bridge =>
    if bridge.channel.channel.object ≠ object then transport
    else
      let (after, next, effects) := bridge.onClientMessage transport.nextLeaderEnvelopeId data
      let transport := { transport with
        bridges := transport.bridges.set clientId after
        nextLeaderEnvelopeId := next }
      effects.foldl (performBridge clientId bridge.channel data) transport

/-- A message of the writer, for the listeners of all bridges. -/
def onWriterMessage (transport : Transport) (data : WriterMessage) : Transport :=
  let deliver (bridge : LeaderBridge BridgePort) := bridge.onWriterMessage data
  { transport with bridges := transport.bridges.mapValues fun bridge ↦ (deliver bridge).1 }.emit
    (transport.bridges.values.flatMap fun (bridge : LeaderBridge BridgePort) ↦
      channelPosts bridge.channel false (deliver bridge).2)

/-- `postMessage(data)`. A transport that gave up refuses on a microtask. -/
def postMessage (transport : Transport) (data : PageMessage) : Transport :=
  if transport.closed then transport
  else if transport.failed then
    match data.id with
    | none => transport
    | some id => { transport with microtasks := transport.microtasks ++ [id] }
  else
    let transport :=
      match data.id with
      | some id => { transport with inFlight := transport.inFlight.set id data }
      | none => transport
    match transport.pairChannel with
    | some channel => transport.emit [.pairPost channel data]
    | none => transport

/-- The oldest microtask of `postMessage`. -/
def runMicrotask (transport : Transport) : Transport :=
  match transport.microtasks with
  | [] => transport
  | id :: rest => { transport with microtasks := rest }.emit
      [.message ⟨id, .error failMessage⟩ true]

/-- `close()`. -/
def close (transport : Transport) : Transport :=
  if transport.closed then transport
  else
    let transport := { transport with closed := true }.clearPendingPair
    let transport := transport.failReady "leader transport closed before ready"
    let transport := { transport with discovering := false }.detachPair
    let transport := { transport with lockAbort := none }.emit
      (transport.lockAbort.toList.map TransportEffect.abortLock)
    let transport := transport.giveUpLeadership
    { transport with listening := false, inFlight := .empty }

/-- The closure before the lock is requested. -/
def initial (clientId : ℕ) : Transport where
  clientId := clientId
  inFlight := .empty
  pairChannel := none
  currentLeaderId := none
  closed := false
  failed := false
  pendingPair := none
  writer := none
  leaderId := none
  bridges := .empty
  nextLeaderEnvelopeId := 1
  writerErrorListener := none
  resolveLock := none
  whenReady := .pending
  failureTimestamps := []
  lockAbort := none
  discovering := true
  listening := true
  nextObject := 0
  nextRequest := 0
  microtasks := []
  outbox := []
  joined := []

/-- `createLeaderTransport(deps)`. -/
def create (clientId : ℕ) : Transport :=
  (initial clientId).requestLock.emit [.discoveryPost .leaderQuery]

end Transport

end OpfsWebauthn.Storage
