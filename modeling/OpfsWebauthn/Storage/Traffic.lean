import OpfsWebauthn.Storage.SingleWriter

/-!
# Requests and replies in transit

Which functions of a transport post requests and replies, and which packets their posts become. A
post on the pair channel of a client becomes at most one packet, because only the leader has
bridges.
-/

set_option autoImplicit false
set_option relaxedAutoImplicit false

namespace OpfsWebauthn.Storage

open Foundation

namespace Transport

/-- The effects that are requests or replies: posts on pair channels, and to writers. -/
def OfTraffic : TransportEffect → Bool
  | .pairPost .. => true
  | .channelPost .. => true
  | .writerPost .. => true
  | _ => false

/-- The requests and replies of a transport that a function left in its outbox. -/
def traffic (transport : Transport) : List TransportEffect :=
  transport.outbox.filter OfTraffic

section Outcomes

variable {transport : Transport} (hsent : transport.outbox = [])

include hsent

theorem traffic_idle : transport.traffic = [] := by
  simp [traffic, hsent]

theorem traffic_paired (id : ℕ) : (transport.paired id).traffic = [] := by
  simp [traffic, paired, hsent, OfTraffic]

theorem traffic_bridged (clientId : ℕ) (name : PairName) (writer own : ℕ) :
    (transport.bridged clientId name writer own).traffic = [] := by
  simp [traffic, bridged, hsent, OfTraffic]

theorem traffic_acknowledged : transport.acknowledged.traffic = transport.replayed := by
  have hall : transport.replayed.filter OfTraffic = transport.replayed := by
    rw [List.filter_eq_self]
    unfold replayed
    split <;> simp [OfTraffic]
  simp [traffic, acknowledged, hsent, hall]

theorem traffic_deposed : transport.deposed.traffic = [] := by
  simp [traffic, deposed, hsent, OfTraffic]

theorem traffic_discoveryPost (message : LeaderMessage) :
    (transport.emit [.discoveryPost message]).traffic = [] := by
  simp [traffic, emit, hsent, OfTraffic]

theorem traffic_received (envelope : ServerEnvelope) (synthetic : Bool) :
    (transport.onPairMessage envelope synthetic).traffic = [] := by
  simp [traffic, onPairMessage, emit, hsent, OfTraffic]

theorem traffic_onLockSettled (request : ℕ) (outcome : Except String Unit) :
    (transport.onLockSettled request outcome).traffic = [] := by
  obtain ⟨ready, abort, hquiet | hrejected⟩ := onLockSettled_cases transport request outcome
  · rw [hquiet]
    simp [traffic, hsent]
  · rw [hrejected]
    simp [traffic, hsent, OfTraffic]

theorem traffic_deferred (data : PageMessage) : (transport.deferred data).traffic = [] := by
  simp [traffic, deferred, hsent]

theorem traffic_runMicrotask : transport.runMicrotask.traffic = [] := by
  rcases runMicrotask_cases transport with ⟨-, hsame⟩ | ⟨id, rest, -, hrefused⟩
  · rw [hsame]
    exact traffic_idle hsent
  · rw [hrefused]
    simp [traffic, refused, hsent, OfTraffic]

theorem traffic_posted (data : PageMessage) : (transport.posted data).traffic =
    transport.pairChannel.toList.map fun channel ↦ .pairPost channel data := by
  cases hchannel : transport.pairChannel <;> simp [traffic, posted, hsent, hchannel, OfTraffic]

theorem traffic_shut : transport.shut.traffic = [] := by
  simp [traffic, shut, releases, hsent, OfTraffic, List.filter_map, Function.comp_def]

theorem traffic_passed (clientId writer : ℕ) (data : PageMessage) :
    (transport.passed clientId writer data).traffic = [.writerPost writer clientId data data] := by
  simp [traffic, passed, hsent, OfTraffic]

theorem traffic_forwarded (clientId : ℕ) (bridge : LeaderBridge BridgePort) (id : ℕ)
    (data : PageMessage) : (transport.forwarded clientId bridge id data).traffic =
      [.writerPost bridge.channel.writer clientId data
        { data with id := some transport.nextLeaderEnvelopeId }] := by
  simp [traffic, forwarded, hsent, OfTraffic]

theorem traffic_unbridged (clientId : ℕ) (channel : PairChannel) (id : ℕ) :
    (transport.unbridged clientId channel id).traffic =
      [.channelPost channel ⟨id, .response .close⟩ false] := by
  simp [traffic, unbridged, hsent, OfTraffic]

theorem traffic_promoted (grant : ℕ) : (transport.promoted grant).traffic =
    transport.inFlight.values.map fun data ↦
      .pairPost ⟨transport.nextObject + 1, ⟨grant, transport.clientId⟩⟩ data := by
  have hall : (transport.inFlight.values.map fun data ↦ TransportEffect.pairPost
      ⟨transport.nextObject + 1, ⟨grant, transport.clientId⟩⟩ data).filter OfTraffic =
        transport.inFlight.values.map fun data ↦
          .pairPost ⟨transport.nextObject + 1, ⟨grant, transport.clientId⟩⟩ data := by
    rw [List.filter_eq_self]
    simp [OfTraffic]
  simp only [traffic, promoted, hsent, List.nil_append, List.filter_append, hall]
  simp [OfTraffic]

theorem traffic_unpromoted (grant : ℕ) (message : String) :
    (transport.unpromoted grant message).traffic = [] := by
  simp [traffic, unpromoted, hsent, OfTraffic]

theorem traffic_declined (grant : ℕ) (outcome : Except String Unit) :
    (transport.emit [.settleLock grant outcome]).traffic = [] := by
  simp [traffic, emit, hsent, OfTraffic]

theorem traffic_onWriterMessage (data : WriterMessage) : (transport.onWriterMessage data).traffic =
    transport.bridges.values.flatMap fun (bridge : LeaderBridge BridgePort) ↦
      channelPosts bridge.channel false (bridge.onWriterMessage data).2 := by
  have hall : ∀ (port : BridgePort) (effects : List BridgeEffect),
      (channelPosts port false effects).filter OfTraffic = channelPosts port false effects := by
    intro port effects
    rw [List.filter_eq_self]
    intro effect heffect
    obtain ⟨bridgeEffect, -, hsome⟩ := List.mem_filterMap.mp heffect
    cases bridgeEffect <;> cases hsome
    rfl
  simp [traffic, onWriterMessage, emit, hsent, List.filter_flatMap, hall]

end Outcomes

theorem traffic_create (tab : ℕ) : (Transport.create tab).traffic = [] := by
  simp [traffic, Transport.create, requestLock, Transport.initial, emit, OfTraffic]

/-- The replies that the bridges pass on are posts of theirs, and nothing a crash synthesized. -/
theorem channelPost_of_replied {transport : Transport} (hsent : transport.outbox = [])
    {data : WriterMessage} {effect : TransportEffect}
    (heffect : effect ∈ (transport.onWriterMessage data).traffic) :
    ∃ channel envelope, effect = .channelPost channel envelope false := by
  rw [traffic_onWriterMessage hsent] at heffect
  obtain ⟨bridge, -, hpost⟩ := List.mem_flatMap.mp heffect
  obtain ⟨bridgeEffect, -, hsome⟩ := List.mem_filterMap.mp hpost
  cases bridgeEffect with
  | channelPost envelope => exact ⟨_, envelope, (Option.some.inj hsome).symm⟩
  | writerPost message => cases hsome
  | channelClose => cases hsome
  | clientClosed => cases hsome

end Transport

namespace World

open Transport

variable {world : World} {tab : ℕ} {handler : Transport → Transport}

/-- Only traffic becomes packets. -/
theorem flatMap_eq_flatMap_filter {α β : Type*} {packets : α → List β} {keeps : α → Bool}
    (hignored : ∀ element, keeps element = false → packets element = []) (elements : List α) :
    elements.flatMap packets = (elements.filter keeps).flatMap packets := by
  induction elements with
  | nil => rfl
  | cons element rest ih =>
    cases hkeeps : keeps element with
    | true => rw [List.filter_cons_of_pos hkeeps, List.flatMap_cons, List.flatMap_cons, ih]
    | false =>
      rw [List.filter_cons_of_neg (by simp [hkeeps]), List.flatMap_cons,
        hignored element hkeeps, List.nil_append, ih]

/-- The requests on pair channels after a function ran. -/
theorem uplink_act : (world.act tab handler).uplink = world.uplink ++
    (handler (world.transports tab)).traffic.flatMap
      (uplinkPackets world.booted (world.act tab handler).transports tab) := by
  refine congrArg (world.uplink ++ ·) ?_
  refine flatMap_eq_flatMap_filter (fun effect heffect ↦ ?_) _
  cases effect <;> first | rfl | cases heffect

/-- The replies on pair channels after a function ran. -/
theorem downlink_act : (world.act tab handler).downlink = world.downlink ++
    (handler (world.transports tab)).traffic.flatMap
      (downlinkPackets world.booted (world.act tab handler).transports tab) := by
  refine congrArg (world.downlink ++ ·) ?_
  refine flatMap_eq_flatMap_filter (fun effect heffect ↦ ?_) _
  cases effect <;> first | rfl | cases heffect

/-- The requests at the writers after a function ran. -/
theorem inbox_act : (world.act tab handler).inbox = world.inbox ++
    (handler (world.transports tab)).traffic.filterMap received := by
  refine congrArg (world.inbox ++ ·) ?_
  rw [traffic, List.filterMap_filter]
  refine List.filterMap_congr fun effect _ ↦ ?_
  cases effect <;> rfl

/-- The requests forwarded after a function ran. -/
theorem forwarded_act : (world.act tab handler).forwarded = world.forwarded ++
    (handler (world.transports tab)).traffic.filterMap forwards := by
  refine congrArg (world.forwarded ++ ·) ?_
  rw [traffic, List.filterMap_filter]
  refine List.filterMap_congr fun effect _ ↦ ?_
  cases effect <;> rfl

/-- The packets of a post on a pair channel. -/
theorem mem_uplinkPackets {booted : List ℕ} {transports : ℕ → Transport} {packet : UplinkPacket}
    {channel : PairChannel} {data : PageMessage} :
    packet ∈ uplinkPackets booted transports tab (.pairPost channel data) ↔
      packet.leader ∈ booted ∧ ∃ bridge, (transports packet.leader).bridges.get? tab = some bridge ∧
        bridge.channel.channel.name = channel.name ∧
          packet = ⟨tab, channel.object, packet.leader, bridge.channel.channel.object, data⟩ := by
  unfold uplinkPackets
  rw [List.mem_filterMap]
  constructor
  · rintro ⟨leader, hleader, hpacket⟩
    split at hpacket
    · cases hpacket
    · next bridge hbridge =>
      split_ifs at hpacket with hname
      obtain rfl := Option.some.inj hpacket
      exact ⟨hleader, bridge, hbridge, hname, rfl⟩
  · rintro ⟨hleader, bridge, hbridge, hname, hpacket⟩
    refine ⟨packet.leader, hleader, ?_⟩
    rw [hbridge]
    dsimp only
    rw [if_pos hname, ← hpacket]

/-- The packets of a post by a bridge. -/
theorem mem_downlinkPackets {booted : List ℕ} {transports : ℕ → Transport}
    {packet : DownlinkPacket} {channel : PairChannel} {envelope : ServerEnvelope}
    {synthetic : Bool} :
    packet ∈ downlinkPackets booted transports tab (.channelPost channel envelope synthetic) ↔
      packet.client ∈ booted ∧ ∃ own, (transports packet.client).pairChannel = some own ∧
        own.name = channel.name ∧
          packet = ⟨tab, channel.object, packet.client, own.object, envelope, synthetic⟩ := by
  unfold downlinkPackets
  rw [List.mem_filterMap]
  constructor
  · rintro ⟨client, hclient, hpacket⟩
    split at hpacket
    · cases hpacket
    · next own hown =>
      split_ifs at hpacket with hname
      obtain rfl := Option.some.inj hpacket
      exact ⟨hclient, own, hown, hname, rfl⟩
  · rintro ⟨hclient, own, hown, hname, hpacket⟩
    refine ⟨packet.client, hclient, ?_⟩
    rw [hown]
    dsimp only
    rw [if_pos hname, ← hpacket]

/-- A leader whose bridge of a client takes a post has a writer. -/
theorem Sound.writer_of_uplink (hsound : world.Sound) {channel : PairChannel} {data : PageMessage}
    {leader : ℕ}
    (hsome : (match (world.transports leader).bridges.get? tab with
      | none => none
      | some bridge =>
        if bridge.channel.channel.name = channel.name then
          some (⟨tab, channel.object, leader, bridge.channel.channel.object, data⟩ : UplinkPacket)
        else none).isSome) :
    ∃ writer, (world.transports leader).writer = some writer := by
  cases hbridge : (world.transports leader).bridges.get? tab with
  | none =>
    rw [hbridge] at hsome
    cases hsome
  | some bridge => exact ⟨_, ((hsound.transport leader).bridge tab bridge hbridge).writer⟩

/-- A post on a pair channel becomes at most one packet. -/
theorem Sound.length_uplinkPackets (hsound : world.Sound) (channel : PairChannel)
    (data : PageMessage) :
    (uplinkPackets world.booted world.transports tab (.pairPost channel data)).length ≤ 1 := by
  refine length_filterMap_le_one hsound.booted fun first second hfirst hsecond ↦ ?_
  obtain ⟨one, hone⟩ := hsound.writer_of_uplink hfirst
  obtain ⟨two, htwo⟩ := hsound.writer_of_uplink hsecond
  exact (hsound.writer_unique hone htwo).1

/-- What a bridge does with a request: at most it forwards the request once, and it posts no
requests. -/
theorem traffic_onBridgeMessage {transport : Transport} (hsent : transport.outbox = [])
    (clientId object : ℕ) (data : PageMessage)
    (hlive : ∀ bridge, transport.bridges.get? clientId = some bridge → bridge.disposed = false) :
    (∀ channel data', TransportEffect.pairPost channel data' ∉
        (transport.onBridgeMessage clientId object data).traffic) ∧
      ((transport.onBridgeMessage clientId object data).traffic.filterMap forwards = [] ∨
        (data.id ≠ none → data.request.kind ≠ .close) ∧
        ∃ writer, (transport.onBridgeMessage clientId object data).traffic.filterMap forwards =
          [⟨writer, clientId, data⟩]) := by
  rcases onBridgeMessage_cases transport clientId object data hlive with
    ⟨-, hsame⟩ | ⟨bridge, -, -, hheard⟩
  · rw [hsame, traffic_idle hsent]
    simp
  · generalize transport.onBridgeMessage clientId object data = after at hheard ⊢
    cases hheard with
    | passed hid =>
      rw [traffic_passed hsent]
      simp [forwards, hid]
    | forwarded id hid hkind =>
      rw [traffic_forwarded hsent]
      simp [forwards, hkind]
    | closed id hid hkind =>
      rw [traffic_unbridged hsent]
      simp [forwards]

/-- A function without traffic posts no requests. -/
theorem quiet_of_traffic {handler : Transport → Transport}
    (htraffic : (handler (world.transports tab)).traffic = []) :
    (world.act tab handler).uplink = world.uplink ∧
      (world.act tab handler).forwarded = world.forwarded := by
  rw [uplink_act, forwarded_act, htraffic]
  exact ⟨List.append_nil _, List.append_nil _⟩

/-- A function whose traffic has no posts on a pair channel adds no requests in transit. -/
theorem uplink_act_of_forall {handler : Transport → Transport}
    (hnone : ∀ channel data,
      TransportEffect.pairPost channel data ∉ (handler (world.transports tab)).traffic) :
    (world.act tab handler).uplink = world.uplink := by
  rw [uplink_act]
  refine (congrArg (world.uplink ++ ·) ?_).trans (List.append_nil _)
  refine List.flatMap_eq_nil_iff.mpr fun effect heffect ↦ ?_
  cases effect with
  | pairPost channel data => exact absurd heffect (hnone channel data)
  | _ => rfl

/-- The replies that the bridges pass on are no requests. -/
theorem quiet_onWriterMessage (hsent : (world.transports tab).outbox = []) (data : WriterMessage) :
    (world.act tab fun transport ↦ transport.onWriterMessage data).uplink = world.uplink ∧
      (world.act tab fun transport ↦ transport.onWriterMessage data).forwarded =
        world.forwarded := by
  constructor
  · refine uplink_act_of_forall fun channel value hpost ↦ ?_
    obtain ⟨_, _, hsame⟩ := channelPost_of_replied hsent hpost
    cases hsame
  · rw [forwarded_act]
    refine (congrArg (world.forwarded ++ ·) ?_).trans (List.append_nil _)
    refine List.filterMap_eq_nil_iff.mpr fun effect heffect ↦ ?_
    obtain ⟨_, _, hsame⟩ := channelPost_of_replied hsent heffect
    rw [hsame]
    rfl

end World

end OpfsWebauthn.Storage
