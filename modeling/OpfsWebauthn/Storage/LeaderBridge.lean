import OpfsWebauthn.Storage.Rpc

/-!
# The bridge between the writer and one client

`LeaderBridge` of `leader.ts`. The writer worker has one message stream for all clients, so the
leader puts one bridge between the writer and each pair channel. A bridge gives every numbered
request a fresh id of the leader before it forwards it, remembers which id of the client that was,
and sends a message of the writer on to its client only when the id is one it remembers, under the
client's own id again.

The methods are functions from the bridge to the bridge and the list of what they do, in the order
of the source. The id allocator is shared by all bridges of a leader, so it is an argument and a
result. A bridge keeps its channel as an opaque value of type `χ`.
-/

set_option autoImplicit false
set_option relaxedAutoImplicit false

namespace OpfsWebauthn.Storage

open Foundation

/-- What a bridge does to the world. -/
inductive BridgeEffect
  /-- `this.#writer.postMessage(message)`. -/
  | writerPost (message : PageMessage)
  /-- `this.#channel.postMessage(envelope)`. -/
  | channelPost (envelope : ServerEnvelope)
  /-- `this.#channel.close()` and the removal of both listeners. -/
  | channelClose
  /-- The call of `onClientClose`. -/
  | clientClosed
deriving DecidableEq, Repr

/-- `LeaderBridge`: its channel, the map from the leader's ids to the ids of the client, and
whether it is disposed. -/
structure LeaderBridge (χ : Type*) where
  channel : χ
  idMap : OrderedMap Nat Nat
  disposed : Bool

namespace LeaderBridge

variable {χ : Type*}

/-- `new LeaderBridge(channel, writer, new Map(), allocate, onClientClose)`. -/
def create (channel : χ) : LeaderBridge χ :=
  ⟨channel, .empty, false⟩

/-- `dispose()`. -/
def dispose (bridge : LeaderBridge χ) : LeaderBridge χ × List BridgeEffect :=
  if bridge.disposed then (bridge, [])
  else ({ bridge with disposed := true }, [.channelClose])

/-- `#onClientMessage`, with the next id of the shared allocator. A value without a numeric id is
forwarded as it is; a `close` request is answered here and disposes the bridge; every other request
is forwarded under a fresh id. -/
def onClientMessage (bridge : LeaderBridge χ) (nextLeaderEnvelopeId : Nat) (data : PageMessage) :
    LeaderBridge χ × Nat × List BridgeEffect :=
  if bridge.disposed then (bridge, nextLeaderEnvelopeId, [])
  else
    match data.id with
    | none => (bridge, nextLeaderEnvelopeId, [.writerPost data])
    | some clientId =>
      if data.request.kind = .close then
        (bridge.dispose.1, nextLeaderEnvelopeId,
          [.channelPost ⟨clientId, .response .close⟩] ++ bridge.dispose.2 ++ [.clientClosed])
      else
        ({ bridge with idMap := bridge.idMap.set nextLeaderEnvelopeId clientId },
          nextLeaderEnvelopeId + 1,
          [.writerPost { data with id := some nextLeaderEnvelopeId }])

/-- `#onWriterMessage`: a message whose id the bridge does not remember belongs to another
bridge. -/
def onWriterMessage (bridge : LeaderBridge χ) (data : WriterMessage) :
    LeaderBridge χ × List BridgeEffect :=
  if bridge.disposed then (bridge, [])
  else
    match data.id with
    | none => (bridge, [])
    | some leaderId =>
      match bridge.idMap.get? leaderId with
      | none => (bridge, [])
      | some clientId =>
        ({ bridge with idMap := bridge.idMap.erase leaderId },
          [.channelPost ⟨clientId, data.body⟩])

/-- `failPending(message)`: one error envelope for each request in flight. -/
def failPending (bridge : LeaderBridge χ) (message : String) :
    LeaderBridge χ × List BridgeEffect :=
  if bridge.disposed then (bridge, [])
  else
    ({ bridge with idMap := .empty },
      bridge.idMap.values.map fun clientId ↦ .channelPost ⟨clientId, .error message⟩)

section Methods

variable (bridge : LeaderBridge χ) (next : Nat)

/-- A disposed bridge ignores its client. -/
theorem onClientMessage_disposed {bridge : LeaderBridge χ} (hdisposed : bridge.disposed = true)
    (data : PageMessage) : bridge.onClientMessage next data = (bridge, next, []) := by
  simp [onClientMessage, hdisposed]

/-- A live bridge answers `close` itself, and forwards nothing. -/
theorem onClientMessage_close {bridge : LeaderBridge χ} (hlive : bridge.disposed = false)
    {data : PageMessage} {clientId : Nat} (hid : data.id = some clientId)
    (hclose : data.request.kind = .close) :
    bridge.onClientMessage next data =
      ({ bridge with disposed := true }, next,
        [.channelPost ⟨clientId, .response .close⟩, .channelClose, .clientClosed]) := by
  simp [onClientMessage, dispose, hlive, hid, hclose]

/-- A live bridge forwards every other numbered request under the next id of the leader. -/
theorem onClientMessage_forward {bridge : LeaderBridge χ} (hlive : bridge.disposed = false)
    {data : PageMessage} {clientId : Nat} (hid : data.id = some clientId)
    (hclose : data.request.kind ≠ .close) :
    bridge.onClientMessage next data =
      ({ bridge with idMap := bridge.idMap.set next clientId }, next + 1,
        [.writerPost { data with id := some next }]) := by
  simp [onClientMessage, hlive, hid, hclose]

/-- A live bridge passes a value without a numeric id on as it is. -/
theorem onClientMessage_raw {bridge : LeaderBridge χ} (hlive : bridge.disposed = false)
    {data : PageMessage} (hid : data.id = none) :
    bridge.onClientMessage next data = (bridge, next, [.writerPost data]) := by
  simp [onClientMessage, hlive, hid]

/-- A live bridge that remembers the id of a writer message sends it on under the client's id and
forgets the id. -/
theorem onWriterMessage_mapped {bridge : LeaderBridge χ} (hlive : bridge.disposed = false)
    {leaderId clientId : Nat} (hmapped : bridge.idMap.get? leaderId = some clientId)
    (body : ServerBody) :
    bridge.onWriterMessage ⟨some leaderId, body⟩ =
      ({ bridge with idMap := bridge.idMap.erase leaderId }, [.channelPost ⟨clientId, body⟩]) := by
  simp [onWriterMessage, hlive, hmapped]

/-- A bridge that does not remember the id of a writer message does nothing. -/
theorem onWriterMessage_unmapped {bridge : LeaderBridge χ} {leaderId : Nat}
    (hunmapped : bridge.idMap.get? leaderId = none) (body : ServerBody) :
    bridge.onWriterMessage ⟨some leaderId, body⟩ = (bridge, []) := by
  by_cases hdisposed : bridge.disposed <;> simp [onWriterMessage, hdisposed, hunmapped]

/-- A disposed bridge ignores the writer. -/
theorem onWriterMessage_disposed {bridge : LeaderBridge χ} (hdisposed : bridge.disposed = true)
    (data : WriterMessage) : bridge.onWriterMessage data = (bridge, []) := by
  simp [onWriterMessage, hdisposed]

/-- A bridge ignores a writer message without a numeric id. -/
theorem onWriterMessage_raw (body : ServerBody) :
    bridge.onWriterMessage ⟨none, body⟩ = (bridge, []) := by
  simp [onWriterMessage]

/-- No message of the writer changes the channel of a bridge. -/
theorem channel_onWriterMessage (data : WriterMessage) :
    (bridge.onWriterMessage data).1.channel = bridge.channel := by
  unfold onWriterMessage
  split
  · rfl
  · split
    · rfl
    · split <;> rfl

/-- No message of the writer disposes a bridge. -/
theorem disposed_onWriterMessage (data : WriterMessage) :
    (bridge.onWriterMessage data).1.disposed = bridge.disposed := by
  unfold onWriterMessage
  split
  · rfl
  · split
    · rfl
    · split <;> rfl

/-- After a message of the writer a live bridge has forgotten its id, and no other. -/
theorem get?_onWriterMessage {bridge : LeaderBridge χ} (hlive : bridge.disposed = false)
    (leaderId other : Nat) (body : ServerBody) :
    (bridge.onWriterMessage ⟨some leaderId, body⟩).1.idMap.get? other =
      if other = leaderId then none else bridge.idMap.get? other := by
  cases hmapped : bridge.idMap.get? leaderId with
  | none =>
    rw [onWriterMessage_unmapped hmapped]
    by_cases hother : other = leaderId
    · rw [if_pos hother, hother, hmapped]
    · rw [if_neg hother]
  | some clientId =>
    rw [onWriterMessage_mapped hlive hmapped]
    exact OrderedMap.get?_erase bridge.idMap leaderId other

end Methods

end LeaderBridge

end OpfsWebauthn.Storage
