import Mathlib.Logic.Function.Basic
import OpfsWebauthn.Foundation.Automaton
import OpfsWebauthn.Foundation.Packets
import OpfsWebauthn.Storage.LeaderTransport

/-!
# Tabs, channels and the lock

Any number of tabs that run `createLeaderTransport` with a `WorkerClient` on it, the messages in
transit between them, the lock manager and the writers.

A post on a `BroadcastChannel` goes to the objects that are open on the same name when it is posted,
the sender's own object excepted. Each delivery is a step of its own: the messages of one sending
object to one receiving object arrive in order, everything else in any order, and a message whose
receiver has been closed is lost. The lock is granted to the oldest request when no promise of an
earlier grant is held; the promise settles first, and the lock is released in a later step. A tab
that dies does what `close()` does to its writer and its lock.

`posted`, `answered`, `forwarded` and `rejected` are the history: what was posted on the transports,
what their `message` listeners were given, what was forwarded to the writers and for which posted
value, and which promises were rejected because of a failure.
-/

set_option autoImplicit false
set_option relaxedAutoImplicit false

namespace OpfsWebauthn.Storage

open Foundation

/-- A message on the discovery channel. -/
structure DiscoveryPacket where
  source : ℕ
  target : ℕ
  message : LeaderMessage
deriving DecidableEq, Repr

/-- A message from the pair channel of a client to a bridge. -/
structure UplinkPacket where
  client : ℕ
  object : ℕ
  leader : ℕ
  bridge : ℕ
  data : PageMessage
deriving DecidableEq, Repr

/-- A message from a bridge to the pair channel of a client. -/
structure DownlinkPacket where
  leader : ℕ
  bridge : ℕ
  client : ℕ
  object : ℕ
  envelope : ServerEnvelope
  synthetic : Bool
deriving DecidableEq, Repr

/-- A message that a writer received and has not answered. -/
structure WriterRequest where
  writer : ℕ
  data : PageMessage
deriving DecidableEq, Repr

/-- A message that a bridge forwarded, with the value that its client posted. -/
structure Forwarded where
  writer : ℕ
  client : ℕ
  data : PageMessage
deriving DecidableEq, Repr

/-- A lock that was granted, and how the promise of its callback settled. -/
structure HeldLock where
  tab : ℕ
  request : ℕ
  grant : ℕ
  settled : Option (Except String Unit)

/-- A request that waits for the lock. -/
structure LockRequest where
  tab : ℕ
  number : ℕ
  aborted : Bool
deriving DecidableEq, Repr

/-- A lock request whose promise has settled, before its continuation runs. -/
structure LockSettlement where
  tab : ℕ
  request : ℕ
  outcome : Except String Unit

/-- The world. -/
structure World where
  booted : List ℕ
  dead : List ℕ
  transports : ℕ → Transport
  clients : ℕ → WorkerClient
  discovery : List DiscoveryPacket
  uplink : List UplinkPacket
  downlink : List DownlinkPacket
  inbox : List WriterRequest
  lock : Option HeldLock
  queue : List LockRequest
  settlements : List LockSettlement
  grants : ℕ
  openWriters : List ℕ
  posted : List (ℕ × PageMessage)
  answered : List (ℕ × ServerEnvelope)
  forwarded : List Forwarded
  rejected : List (ℕ × ℕ)

/-- What can happen. -/
inductive WorldEvent
  /-- A tab creates its transport. -/
  | boot (tab : ℕ)
  /-- The message at a position is delivered. -/
  | deliverDiscovery (position : ℕ)
  | deliverUplink (position : ℕ)
  | deliverDownlink (position : ℕ)
  /-- The retry timer of a tab fires. -/
  | retry (tab : ℕ)
  /-- The lock is granted to the oldest request, and `writerFactory()` has an outcome. -/
  | grant (factory : Except String Unit)
  /-- A lock request is rejected, by its signal or with another error. -/
  | rejectRequest (position : ℕ) (message : String)
  /-- The lock is released, because the promise of its callback settled. -/
  | releaseLock
  /-- The continuation of a lock request runs. -/
  | lockSettled (position : ℕ)
  /-- The writer of a tab answers a message. -/
  | writerReply (tab position : ℕ) (body : ServerBody)
  /-- The writer of a tab fires its `error` event. -/
  | writerError (tab now : ℕ)
  /-- `send(request)` on the client of a tab. -/
  | send (tab : ℕ) (request : WorkerRequest)
  /-- `postMessage(data)` on the transport of a tab. -/
  | post (tab : ℕ) (data : PageMessage)
  /-- A microtask of the transport of a tab runs. -/
  | microtask (tab : ℕ)
  /-- `close()` on the transport of a tab. -/
  | close (tab : ℕ)
  /-- `terminate()` on the client of a tab. -/
  | terminate (tab : ℕ)
  | die (tab : ℕ)

namespace World

/-- A transport that was not created. -/
def absent (tab : ℕ) : Transport :=
  { Transport.initial tab with closed := true, discovering := false, listening := false }

/-- The world before the first tab. -/
def initial : World where
  booted := []
  dead := []
  transports := absent
  clients := fun _ ↦ .create
  discovery := []
  uplink := []
  downlink := []
  inbox := []
  lock := none
  queue := []
  settlements := []
  grants := 0
  openWriters := []
  posted := []
  answered := []
  forwarded := []
  rejected := []

/-- A tab that runs. -/
def Live (world : World) (tab : ℕ) : Prop :=
  tab ∈ world.booted ∧ tab ∉ world.dead

instance (world : World) (tab : ℕ) : Decidable (world.Live tab) := by
  unfold Live
  infer_instance

section Effects

variable (booted : List ℕ) (transports : ℕ → Transport) (tab : ℕ)

/-- The packets of a post on the discovery channel. -/
def discoveryPackets : TransportEffect → List DiscoveryPacket
  | .discoveryPost message =>
    (booted.filter fun target ↦ target ≠ tab ∧ (transports target).discovering).map fun target ↦
      ⟨tab, target, message⟩
  | _ => []

/-- The packets of a post on the pair channel of a client. -/
def uplinkPackets : TransportEffect → List UplinkPacket
  | .pairPost channel data => booted.filterMap fun leader ↦
    match (transports leader).bridges.get? tab with
    | none => none
    | some bridge =>
      if bridge.channel.channel.name = channel.name then
        some ⟨tab, channel.object, leader, bridge.channel.channel.object, data⟩
      else none
  | _ => []

/-- The packets of a post by a bridge. -/
def downlinkPackets : TransportEffect → List DownlinkPacket
  | .channelPost channel envelope synthetic => booted.filterMap fun client ↦
    match (transports client).pairChannel with
    | none => none
    | some own =>
      if own.name = channel.name then
        some ⟨tab, channel.object, client, own.object, envelope, synthetic⟩
      else none
  | _ => []

end Effects

/-- What a writer receives. -/
def received : TransportEffect → Option WriterRequest
  | .writerPost writer _ _ data => some ⟨writer, data⟩
  | _ => none

/-- What is forwarded for a client. -/
def forwards : TransportEffect → Option Forwarded
  | .writerPost writer clientId original _ => some ⟨writer, clientId, original⟩
  | _ => none

/-- What the `message` listeners are given. -/
def answers : TransportEffect → Option ServerEnvelope
  | .message envelope _ => some envelope
  | _ => none

/-- The client after an event for its listeners, with the promises that were rejected because of a
failure. -/
def dispatch (listening : Bool) (state : WorkerClient × List ℕ) :
    TransportEffect → WorkerClient × List ℕ
  | .message envelope synthetic =>
    if listening then
      (state.1.onMessage envelope,
        if synthetic ∧ state.1.listening ∧ (state.1.pending.get? envelope.id).isSome then
          state.2 ++ [envelope.id]
        else state.2)
    else state
  | .error =>
    if listening then
      (state.1.onError, if state.1.listening then state.2 ++ state.1.pending.keys else state.2)
    else state
  | _ => state

/-- The lock after the promise of a grant was settled. -/
def settle (lock : Option HeldLock) : TransportEffect → Option HeldLock
  | .settleLock grant outcome => lock.map fun held ↦
    if held.grant = grant ∧ held.settled.isNone then { held with settled := some outcome } else held
  | _ => lock

/-- The queue of the lock after a request or an abort by a tab. -/
def enqueue (tab : ℕ) (queue : List LockRequest) : TransportEffect → List LockRequest
  | .requestLock request => queue ++ [⟨tab, request, false⟩]
  | .abortLock request => queue.map fun entry ↦
    if entry.tab = tab ∧ entry.number = request then { entry with aborted := true } else entry
  | _ => queue

/-- The writers that are not closed. -/
def trackWriters (writers : List ℕ) : TransportEffect → List ℕ
  | .openWriter writer => writers ++ [writer]
  | .closeWriter writer => writers.erase writer
  | _ => writers

/-- A tab runs one of the functions of its transport. -/
def act (world : World) (tab : ℕ) (handler : Transport → Transport) : World :=
  let transport := handler (world.transports tab)
  let effects := transport.outbox
  let transports := Function.update world.transports tab { transport with outbox := [] }
  let dispatched := effects.foldl (dispatch transport.listening) (world.clients tab, [])
  { world with
    transports := transports
    clients := Function.update world.clients tab dispatched.1
    discovery := world.discovery ++ effects.flatMap (discoveryPackets world.booted transports tab)
    uplink := world.uplink ++ effects.flatMap (uplinkPackets world.booted transports tab)
    downlink := world.downlink ++ effects.flatMap (downlinkPackets world.booted transports tab)
    inbox := world.inbox ++ effects.filterMap received
    lock := effects.foldl settle world.lock
    queue := effects.foldl (enqueue tab) world.queue
    openWriters := effects.foldl trackWriters world.openWriters
    answered := world.answered ++ if transport.listening then
      (effects.filterMap answers).map fun envelope ↦ (tab, envelope) else []
    forwarded := world.forwarded ++ effects.filterMap forwards
    rejected := world.rejected ++ dispatched.2.map fun id ↦ (tab, id) }

/-- A delivery on the discovery channel. -/
def deliverDiscovery (world : World) (packet : DiscoveryPacket) : World :=
  if (world.transports packet.target).discovering then
    world.act packet.target fun transport ↦ transport.onDiscoveryMessage packet.message
  else world

/-- A delivery to a bridge. -/
def deliverUplink (world : World) (packet : UplinkPacket) : World :=
  world.act packet.leader fun transport ↦
    transport.onBridgeMessage packet.client packet.bridge packet.data

/-- A delivery to the pair channel of a client. -/
def deliverDownlink (world : World) (packet : DownlinkPacket) : World :=
  match (world.transports packet.client).pairChannel with
  | none => world
  | some channel =>
    if channel.object = packet.object then
      world.act packet.client fun transport ↦
        transport.onPairMessage packet.envelope packet.synthetic
    else world

/-- A tab posts a value on its transport. -/
def post (world : World) (tab : ℕ) (data : PageMessage) : World :=
  { world with posted := world.posted ++ [(tab, data)] }.act tab fun transport ↦
    transport.postMessage data

/-- The transition function. -/
def step (world : World) : WorldEvent → Option World
  | .boot tab =>
    if tab ∈ world.booted then none
    else some ({ world with booted := world.booted ++ [tab] }.act tab fun _ ↦ .create tab)
  | .deliverDiscovery position =>
    (takePacket (fun packet ↦ (packet.source, packet.target)) world.discovery position).map
      fun (packet, rest) ↦ { world with discovery := rest }.deliverDiscovery packet
  | .deliverUplink position =>
    (takePacket (fun packet ↦ (packet.client, packet.object, packet.leader, packet.bridge))
      world.uplink position).map
        fun (packet, rest) ↦ { world with uplink := rest }.deliverUplink packet
  | .deliverDownlink position =>
    (takePacket (fun packet ↦ (packet.leader, packet.bridge, packet.client, packet.object))
      world.downlink position).map
        fun (packet, rest) ↦ { world with downlink := rest }.deliverDownlink packet
  | .retry tab =>
    if (world.transports tab).pendingPair.isSome then
      some (world.act tab Transport.onPairAckTimeout)
    else none
  | .grant factory =>
    match world.lock, world.queue with
    | none, entry :: rest =>
      some ({ world with
        lock := some ⟨entry.tab, entry.number, world.grants, none⟩
        queue := rest
        grants := world.grants + 1 }.act entry.tab fun transport ↦
          transport.onLockGranted world.grants factory)
    | _, _ => none
  | .rejectRequest position message =>
    world.queue[position]?.map fun entry ↦
      { world with
        queue := world.queue.eraseIdx position
        settlements := world.settlements ++ [⟨entry.tab, entry.number, .error message⟩] }
  | .releaseLock =>
    match world.lock with
    | some ⟨tab, request, _, some outcome⟩ => some { world with
        lock := none
        settlements := world.settlements ++ [⟨tab, request, outcome⟩] }
    | _ => none
  | .lockSettled position =>
    world.settlements[position]?.map fun settlement ↦
      { world with settlements := world.settlements.eraseIdx position }.act settlement.tab
        fun transport ↦ transport.onLockSettled settlement.request settlement.outcome
  | .writerReply tab position body =>
    match world.inbox[position]? with
    | none => none
    | some request =>
      if (world.transports tab).writer = some request.writer then
        some ({ world with inbox := world.inbox.eraseIdx position }.act tab fun transport ↦
          transport.onWriterMessage ⟨request.data.id, body⟩)
      else none
  | .writerError tab now =>
    if (world.transports tab).writer.isSome then
      some (world.act tab fun transport ↦ transport.onWriterError now)
    else none
  | .send tab request =>
    if world.Live tab then
      let (client, envelope) := (world.clients tab).send request
      some ({ world with clients := Function.update world.clients tab client }.post tab
        envelope.toMessage)
    else none
  | .post tab data => if world.Live tab then some (world.post tab data) else none
  | .microtask tab =>
    if (world.transports tab).microtasks = [] then none
    else some (world.act tab Transport.runMicrotask)
  | .close tab => if world.Live tab then some (world.act tab Transport.close) else none
  | .terminate tab =>
    if world.Live tab then
      -- the promise of the farewell is nobody's, so its refusal changes nothing
      let world := (world.post tab (world.clients tab).farewell.toMessage).act tab Transport.close
      some { world with
        clients := Function.update world.clients tab (world.clients tab).terminate }
    else none
  | .die tab =>
    if world.Live tab then
      some ({ world with
        dead := world.dead ++ [tab]
        queue := world.queue.filter fun entry ↦ entry.tab ≠ tab }.act tab Transport.close)
    else none

/-- The world as an automaton. -/
def automaton : Automaton World WorldEvent :=
  ⟨step⟩

/-! ### What a step does -/

/-- What an event does to a world in which it can happen. -/
inductive Happens (world : World) : WorldEvent → World → Prop
  | booted {tab : ℕ} (hnew : tab ∉ world.booted) : Happens world (.boot tab)
      ({ world with booted := world.booted ++ [tab] }.act tab fun _ ↦ .create tab)
  | heard {position : ℕ} {packet : DiscoveryPacket} {rest : List DiscoveryPacket}
      (htake : takePacket (fun packet ↦ (packet.source, packet.target)) world.discovery position =
        some (packet, rest))
      (hlistens : (world.transports packet.target).discovering = true) :
      Happens world (.deliverDiscovery position)
        ({ world with discovery := rest }.act packet.target fun transport ↦
          transport.onDiscoveryMessage packet.message)
  | unheard {position : ℕ} {packet : DiscoveryPacket} {rest : List DiscoveryPacket}
      (htake : takePacket (fun packet ↦ (packet.source, packet.target)) world.discovery position =
        some (packet, rest))
      (hdeaf : (world.transports packet.target).discovering = false) :
      Happens world (.deliverDiscovery position) { world with discovery := rest }
  | bridged {position : ℕ} {packet : UplinkPacket} {rest : List UplinkPacket}
      (htake : takePacket
        (fun packet ↦ (packet.client, packet.object, packet.leader, packet.bridge))
        world.uplink position = some (packet, rest)) :
      Happens world (.deliverUplink position) ({ world with uplink := rest }.deliverUplink packet)
  | received {position : ℕ} {packet : DownlinkPacket} {rest : List DownlinkPacket}
      {channel : PairChannel}
      (htake : takePacket
        (fun packet ↦ (packet.leader, packet.bridge, packet.client, packet.object))
        world.downlink position = some (packet, rest))
      (hchannel : (world.transports packet.client).pairChannel = some channel)
      (hobject : channel.object = packet.object) :
      Happens world (.deliverDownlink position)
        ({ world with downlink := rest }.act packet.client fun transport ↦
          transport.onPairMessage packet.envelope packet.synthetic)
  | lost {position : ℕ} {packet : DownlinkPacket} {rest : List DownlinkPacket}
      (htake : takePacket
        (fun packet ↦ (packet.leader, packet.bridge, packet.client, packet.object))
        world.downlink position = some (packet, rest))
      (hunheard : ∀ channel, (world.transports packet.client).pairChannel = some channel →
        channel.object ≠ packet.object) :
      Happens world (.deliverDownlink position) { world with downlink := rest }
  | retried {tab : ℕ} (hpending : (world.transports tab).pendingPair.isSome) :
      Happens world (.retry tab) (world.act tab Transport.onPairAckTimeout)
  | granted {entry : LockRequest} {rest : List LockRequest} {factory : Except String Unit}
      (hlock : world.lock = none) (hqueue : world.queue = entry :: rest) :
      Happens world (.grant factory) ({ world with
        lock := some ⟨entry.tab, entry.number, world.grants, none⟩
        queue := rest
        grants := world.grants + 1 }.act entry.tab fun transport ↦
          transport.onLockGranted world.grants factory)
  | withdrawn {position : ℕ} {message : String} {entry : LockRequest}
      (hentry : world.queue[position]? = some entry) :
      Happens world (.rejectRequest position message) { world with
        queue := world.queue.eraseIdx position
        settlements := world.settlements ++ [⟨entry.tab, entry.number, .error message⟩] }
  | released {held : HeldLock} {outcome : Except String Unit} (hlock : world.lock = some held)
      (hsettled : held.settled = some outcome) : Happens world .releaseLock { world with
        lock := none
        settlements := world.settlements ++ [⟨held.tab, held.request, outcome⟩] }
  | settled {position : ℕ} {settlement : LockSettlement}
      (hsettlement : world.settlements[position]? = some settlement) :
      Happens world (.lockSettled position)
        ({ world with settlements := world.settlements.eraseIdx position }.act settlement.tab
          fun transport ↦ transport.onLockSettled settlement.request settlement.outcome)
  | replied {tab position : ℕ} {body : ServerBody} {request : WriterRequest}
      (hrequest : world.inbox[position]? = some request)
      (hwriter : (world.transports tab).writer = some request.writer) :
      Happens world (.writerReply tab position body)
        ({ world with inbox := world.inbox.eraseIdx position }.act tab fun transport ↦
          transport.onWriterMessage ⟨request.data.id, body⟩)
  | crashed {tab now : ℕ} (hlives : (world.transports tab).writer.isSome) :
      Happens world (.writerError tab now)
        (world.act tab fun transport ↦ transport.onWriterError now)
  | sent {tab : ℕ} {request : WorkerRequest} (hlive : world.Live tab) :
      Happens world (.send tab request)
        ({ world with
          clients := Function.update world.clients tab ((world.clients tab).send request).1
        }.post tab
            ((world.clients tab).send request).2.toMessage)
  | posted {tab : ℕ} {data : PageMessage} (hlive : world.Live tab) :
      Happens world (.post tab data) (world.post tab data)
  | refused {tab : ℕ} (hqueued : (world.transports tab).microtasks ≠ []) :
      Happens world (.microtask tab) (world.act tab Transport.runMicrotask)
  | closed {tab : ℕ} (hlive : world.Live tab) :
      Happens world (.close tab) (world.act tab Transport.close)
  | terminated {tab : ℕ} (hlive : world.Live tab) : Happens world (.terminate tab)
      { (world.post tab (world.clients tab).farewell.toMessage).act tab Transport.close with
        clients := Function.update
          ((world.post tab (world.clients tab).farewell.toMessage).act tab Transport.close).clients
          tab (((world.post tab (world.clients tab).farewell.toMessage).act tab
            Transport.close).clients tab).terminate }
  | died {tab : ℕ} (hlive : world.Live tab) : Happens world (.die tab)
      ({ world with
        dead := world.dead ++ [tab]
        queue := world.queue.filter fun entry ↦ entry.tab ≠ tab }.act tab Transport.close)

/-- Every step is one of these. -/
theorem happens_of_step {world next : World} {event : WorldEvent}
    (hstep : world.step event = some next) : Happens world event next := by
  cases event with
  | boot tab =>
    obtain ⟨hnew, ⟨⟩⟩ := Option.ite_none_left_eq_some.mp hstep
    exact .booted hnew
  | deliverDiscovery position =>
    obtain ⟨⟨packet, rest⟩, htake, rfl⟩ := Option.map_eq_some_iff.mp hstep
    dsimp only [deliverDiscovery]
    split_ifs with hlistens
    · exact .heard htake hlistens
    · exact .unheard htake (by simpa using hlistens)
  | deliverUplink position =>
    obtain ⟨⟨packet, rest⟩, htake, rfl⟩ := Option.map_eq_some_iff.mp hstep
    exact .bridged htake
  | deliverDownlink position =>
    obtain ⟨⟨packet, rest⟩, htake, rfl⟩ := Option.map_eq_some_iff.mp hstep
    dsimp only [deliverDownlink]
    split
    · next hnone =>
      refine .lost htake fun channel hchannel ↦ ?_
      cases hnone.symm.trans hchannel
    · next channel hchannel =>
      split_ifs with hobject
      · exact .received htake hchannel hobject
      · refine .lost htake fun other hother ↦ ?_
        obtain rfl := Option.some.inj (hchannel.symm.trans hother)
        exact hobject
  | retry tab =>
    obtain ⟨hpending, ⟨⟩⟩ := Option.ite_none_right_eq_some.mp hstep
    exact .retried hpending
  | grant factory =>
    simp only [step] at hstep
    split at hstep
    · next entry rest hlock hqueue =>
      obtain rfl := Option.some.inj hstep
      exact .granted hlock hqueue
    · cases hstep
  | rejectRequest position message =>
    obtain ⟨entry, hentry, rfl⟩ := Option.map_eq_some_iff.mp hstep
    exact .withdrawn hentry
  | releaseLock =>
    simp only [step] at hstep
    split at hstep
    · next tab request grant outcome hlock =>
      obtain rfl := Option.some.inj hstep
      exact .released hlock rfl
    · cases hstep
  | lockSettled position =>
    obtain ⟨settlement, hsettlement, rfl⟩ := Option.map_eq_some_iff.mp hstep
    exact .settled hsettlement
  | writerReply tab position body =>
    simp only [step] at hstep
    split at hstep
    · cases hstep
    · next request hrequest =>
      obtain ⟨hwriter, ⟨⟩⟩ := Option.ite_none_right_eq_some.mp hstep
      exact .replied hrequest hwriter
  | writerError tab now =>
    obtain ⟨hlives, ⟨⟩⟩ := Option.ite_none_right_eq_some.mp hstep
    exact .crashed hlives
  | send tab request =>
    obtain ⟨hlive, ⟨⟩⟩ := Option.ite_none_right_eq_some.mp hstep
    exact .sent hlive
  | post tab data =>
    obtain ⟨hlive, ⟨⟩⟩ := Option.ite_none_right_eq_some.mp hstep
    exact .posted hlive
  | microtask tab =>
    obtain ⟨hqueued, ⟨⟩⟩ := Option.ite_none_left_eq_some.mp hstep
    exact .refused hqueued
  | close tab =>
    obtain ⟨hlive, ⟨⟩⟩ := Option.ite_none_right_eq_some.mp hstep
    exact .closed hlive
  | terminate tab =>
    obtain ⟨hlive, ⟨⟩⟩ := Option.ite_none_right_eq_some.mp hstep
    exact .terminated hlive
  | die tab =>
    obtain ⟨hlive, ⟨⟩⟩ := Option.ite_none_right_eq_some.mp hstep
    exact .died hlive

end World

end OpfsWebauthn.Storage
