import OpfsWebauthn.Storage.Traffic

/-!
# Channel objects and the messages for them

A `BroadcastChannel` object that a tab opens has a larger number than those before it. So a message
in transit never reaches an object that was opened after it was posted: a new bridge hears no old
request, and a new pair channel no old reply.

`Ports` is what a function of a transport does to its channels, and what it posts on them.
`Numbered` is the invariant of the messages in transit. What it is for is
`Numbered.not_deliverable`: when an error envelope that a crash has synthesized reaches its client,
no request of that client is on the way to an open bridge.
-/

set_option autoImplicit false
set_option relaxedAutoImplicit false

namespace OpfsWebauthn.Storage

open Foundation

namespace Transport

/-- What a function does to the channels of a transport and posts on them, when the leaders before
it are below a number. -/
structure Ports (grants : ℕ) (before after : Transport) : Prop where
  object : before.nextObject ≤ after.nextObject
  idle : before.closed = true → after.nextObject = before.nextObject
  /-- A pair channel or a bridge that was not there is on a new object. -/
  pair : ∀ channel, after.pairChannel = some channel →
    before.pairChannel = some channel ∨ before.nextObject ≤ channel.object
  bridge : ∀ clientId bridge, after.bridges.get? clientId = some bridge →
    (∃ old, before.bridges.get? clientId = some old ∧ old.channel = bridge.channel) ∨
      before.nextObject ≤ bridge.channel.channel.object
  writer : ∀ writer, after.writer = some writer → before.writer = some writer ∨ grants ≤ writer
  /-- Requests are posted on the pair channel, and are in flight. -/
  posts : ∀ channel data, .pairPost channel data ∈ after.traffic →
    after.pairChannel = some channel ∧ ∀ id, data.id = some id → id ∈ after.inFlight.keys
  /-- Only a leader whose writer is gone posts error envelopes of its own. -/
  fails : ∀ channel envelope, .channelPost channel envelope true ∈ after.traffic →
    after.writer = none ∧ before.writer = some channel.name.leaderId
  /-- Only a leader gives up. -/
  spends : after.failed = true →
    before.failed = true ∨ after.writer = none ∧ ∃ leader, before.writer = some leader

variable {grants tab : ℕ} {transport next : Transport}

/-- A function that changes no channels and has no traffic. -/
theorem Ports.of_same (hobject : next.nextObject = transport.nextObject)
    (hpair : next.pairChannel = none ∨ next.pairChannel = transport.pairChannel)
    (hbridges : next.bridges = .empty ∨ next.bridges = transport.bridges)
    (hwriter : next.writer = none ∨ next.writer = transport.writer)
    (hfailed : next.failed = transport.failed) (htraffic : next.traffic = []) :
    Ports grants transport next where
  object := Nat.le_of_eq hobject.symm
  idle := fun _ ↦ hobject
  pair := by
    intro channel hchannel
    rcases hpair with hnone | hsame
    · cases hnone.symm.trans hchannel
    · exact Or.inl (hsame.symm.trans hchannel)
  bridge := by
    intro clientId bridge hbridge
    rcases hbridges with hempty | hsame
    · rw [hempty] at hbridge
      cases hbridge
    · exact Or.inl ⟨bridge, hsame ▸ hbridge, rfl⟩
  writer := by
    intro writer hsome
    rcases hwriter with hnone | hsame
    · cases hnone.symm.trans hsome
    · exact Or.inl (hsame.symm.trans hsome)
  posts := by simp [htraffic]
  fails := by simp [htraffic]
  spends := fun hspent ↦ Or.inl (hfailed.symm.trans hspent)

/-- A transport that is not open, or was just created, has nothing. -/
theorem Ports.create (hobject : transport.nextObject = 0) :
    Ports grants transport (Transport.create tab) where
  object := Nat.le_of_eq hobject
  idle := fun _ ↦ hobject.symm
  pair := nofun
  bridge := nofun
  writer := nofun
  posts := by simp [traffic_create]
  fails := by simp [traffic_create]
  spends := nofun

/-- A replay posts what is in flight. -/
theorem mem_keys_of_mem_values {id : ℕ} {data : PageMessage} (hsound : Sound grants tab transport)
    (hdata : data ∈ transport.inFlight.values) (hid : data.id = some id) :
    id ∈ transport.inFlight.keys := by
  obtain ⟨own, hown⟩ := (OrderedMap.mem_values_iff _ _).mp hdata
  have hsame : own = id := Option.some.inj ((hsound.filed own data hown).symm.trans hid)
  exact (OrderedMap.mem_keys_iff _ _).mpr ⟨data, hsame ▸ hown⟩

/-- The error envelopes of a crash are posted on the channels of the bridges. -/
theorem channelPost_of_crashed (hsound : Sound grants tab transport) (hsent : transport.outbox = [])
    {leader : ℕ} {message : String} {channel : PairChannel} {envelope : ServerEnvelope}
    (hpost : .channelPost channel envelope true ∈ (transport.crashed leader message).outbox) :
    transport.writer = some channel.name.leaderId := by
  have hfailure : .channelPost channel envelope true ∈ transport.failures message := by
    simpa [crashed, hsent, releases] using hpost
  obtain ⟨bridge, hbridge, hpost⟩ := List.mem_flatMap.mp hfailure
  obtain ⟨clientId, hclient⟩ := (OrderedMap.mem_values_iff _ _).mp hbridge
  obtain ⟨effect, -, hsome⟩ := List.mem_filterMap.mp hpost
  have hserves := hsound.bridge clientId bridge hclient
  have hchannel : bridge.channel.channel = channel := by
    cases effect with
    | channelPost own => exact (TransportEffect.channelPost.inj (Option.some.inj hsome)).1
    | writerPost data => cases hsome
    | channelClose => cases hsome
    | clientClosed => cases hsome
  rw [← hchannel, hserves.name]
  exact hserves.writer

/-- A crash posts no requests. -/
theorem pairPost_not_mem_crashed (hsent : transport.outbox = []) {leader : ℕ} {message : String}
    (channel : PairChannel) (data : PageMessage) :
    .pairPost channel data ∉ (transport.crashed leader message).outbox := by
  have hfailures : .pairPost channel data ∉ transport.failures message := by
    simp only [failures, channelPosts, List.mem_flatMap, List.mem_filterMap, not_exists, not_and]
    intro bridge _ effect _
    cases effect <;> simp
  simp [crashed, hsent, releases, hfailures]

/-- A crash, and then a change of nothing but the requests, the timestamps and the pair channel. -/
theorem Ports.crashed (hsound : Sound grants tab transport) (hsent : transport.outbox = [])
    {leader : ℕ} {message : String} (hleads : transport.writer = some leader)
    (hobject : next.nextObject = transport.nextObject)
    (hpair : next.pairChannel = none ∨ next.pairChannel = transport.pairChannel)
    (hbridges : next.bridges = .empty) (hwriter : next.writer = none)
    {effects : List TransportEffect} (heffects : effects.filter OfTraffic = [])
    (houtbox : next.outbox = (transport.crashed leader message).outbox ++ effects) :
    Ports grants transport next := by
  have htraffic : ∀ effect ∈ next.traffic, effect ∈ (transport.crashed leader message).outbox := by
    intro effect heffect
    rw [traffic, houtbox, List.filter_append, heffects, List.append_nil] at heffect
    exact List.mem_of_mem_filter heffect
  have hplain : Ports grants transport { next with failed := transport.failed, outbox := [] } :=
    .of_same hobject hpair (Or.inl hbridges) (Or.inl hwriter) rfl rfl
  refine ⟨hplain.object, hplain.idle, hplain.pair, hplain.bridge, hplain.writer, ?_, ?_,
    fun _ ↦ Or.inr ⟨hwriter, leader, hleads⟩⟩
  · intro channel data hpost
    exact absurd (htraffic _ hpost) (pairPost_not_mem_crashed hsent channel data)
  · intro channel envelope hpost
    exact ⟨hwriter, channelPost_of_crashed hsound hsent (htraffic _ hpost)⟩

/-- What a bridge that hears its client does to the channels. -/
theorem ports_heard (hsent : transport.outbox = []) {clientId : ℕ}
    {bridge : LeaderBridge BridgePort}
    (hbridge : transport.bridges.get? clientId = some bridge) {data : PageMessage}
    (hheard : BridgeHeard transport clientId bridge data next) : Ports grants transport next := by
  have hplain : Ports grants transport { transport with outbox := [] } :=
    .of_same rfl (Or.inr rfl) (Or.inr rfl) (Or.inr rfl) rfl rfl
  cases hheard with
  | passed hid =>
    refine ⟨hplain.object, hplain.idle, hplain.pair, hplain.bridge, hplain.writer, ?_, ?_, Or.inl⟩
    · simp [traffic_passed hsent]
    · simp [traffic_passed hsent]
  | forwarded id hid hkind =>
    refine ⟨hplain.object, hplain.idle, hplain.pair, ?_, hplain.writer, ?_, ?_, Or.inl⟩
    · intro other found hfound
      change (transport.bridges.set clientId _).get? other = some found at hfound
      rw [OrderedMap.get?_set] at hfound
      by_cases hother : other = clientId
      · rw [if_pos hother, Option.some.injEq] at hfound
        rw [← hfound, hother]
        exact Or.inl ⟨bridge, hbridge, rfl⟩
      · rw [if_neg hother] at hfound
        exact Or.inl ⟨found, hfound, rfl⟩
    · simp [traffic_forwarded hsent]
    · simp [traffic_forwarded hsent]
  | closed id hid hkind =>
    refine ⟨hplain.object, hplain.idle, hplain.pair, ?_, hplain.writer, ?_, ?_, Or.inl⟩
    · intro other found hfound
      change (transport.bridges.erase clientId).get? other = some found at hfound
      rw [OrderedMap.get?_erase] at hfound
      by_cases hother : other = clientId
      · rw [if_pos hother] at hfound
        cases hfound
      · rw [if_neg hother] at hfound
        exact Or.inl ⟨found, hfound, rfl⟩
    · simp [traffic_unbridged hsent]
    · simp [traffic_unbridged hsent]

/-- What every outcome does to the channels. -/
theorem Sound.ports (hsound : Sound grants tab transport) (hsent : transport.outbox = [])
    {received : LeaderMessage → Prop} {falls : Prop} (hran : Ran received falls transport next) :
    Ports grants transport next := by
  cases hran with
  | idle =>
    exact .of_same rfl (Or.inr rfl) (Or.inr rfl) (Or.inr rfl) rfl (traffic_idle hsent)
  | paired id hreceived hopen hother hnew =>
    refine ⟨Nat.le_succ _, fun hclosed ↦ ?_, ?_, fun clientId bridge hbridge ↦ ?_,
      fun writer hwriter ↦ Or.inl hwriter, ?_, ?_, Or.inl⟩
    · exact absurd (hopen.symm.trans hclosed) Bool.false_ne_true
    · intro channel hchannel
      obtain rfl : _ = channel := Option.some.inj hchannel
      exact Or.inr (Nat.le_refl _)
    · exact Or.inl ⟨bridge, hbridge, rfl⟩
    · simp [traffic_paired hsent]
    · simp [traffic_paired hsent]
  | bridged clientId name writer own hreceived hwriter hown =>
    refine ⟨Nat.le_succ _, fun hclosed ↦ ?_, fun channel hchannel ↦ Or.inl hchannel, ?_,
      fun writer hwriter ↦ Or.inl hwriter, ?_, ?_, Or.inl⟩
    · exact absurd ((hsound.opened writer hwriter).symm.trans hclosed) Bool.false_ne_true
    · intro other bridge hbridge
      change (transport.bridges.set clientId _).get? other = some bridge at hbridge
      rw [OrderedMap.get?_set] at hbridge
      by_cases hother : other = clientId
      · rw [if_pos hother, Option.some.injEq] at hbridge
        rw [← hbridge]
        exact Or.inr (Nat.le_refl _)
      · rw [if_neg hother] at hbridge
        exact Or.inl ⟨bridge, hbridge, rfl⟩
    · simp [traffic_bridged hsent]
    · simp [traffic_bridged hsent]
  | acknowledged pair hreceived hpending =>
    have hplain : Ports grants transport { transport with outbox := [] } :=
      .of_same rfl (Or.inr rfl) (Or.inr rfl) (Or.inr rfl) rfl rfl
    refine ⟨hplain.object, hplain.idle, hplain.pair, hplain.bridge, hplain.writer, ?_, ?_, Or.inl⟩
    · intro channel data hpost
      rw [traffic_acknowledged hsent] at hpost
      unfold replayed at hpost
      cases hchannel : transport.pairChannel with
      | none =>
        rw [hchannel] at hpost
        cases hpost
      | some own =>
        rw [hchannel] at hpost
        obtain ⟨value, hvalue, hsame⟩ := List.mem_map.mp hpost
        obtain ⟨rfl, rfl⟩ := TransportEffect.pairPost.inj hsame
        have hkeys : ∀ id, value.id = some id → id ∈ transport.inFlight.keys :=
          fun id hid ↦ mem_keys_of_mem_values hsound hvalue hid
        exact ⟨hchannel, hkeys⟩
    · intro channel envelope hpost
      rw [traffic_acknowledged hsent] at hpost
      unfold replayed at hpost
      cases hchannel : transport.pairChannel with
      | none =>
        rw [hchannel] at hpost
        cases hpost
      | some own =>
        rw [hchannel] at hpost
        obtain ⟨value, -, hsame⟩ := List.mem_map.mp hpost
        cases hsame
  | deposed leaderId message hreceived hcurrent =>
    exact .of_same rfl (Or.inl rfl) (Or.inr rfl) (Or.inr rfl) rfl (traffic_deposed hsent)
  | announced writer own hwriter hown =>
    exact .of_same rfl (Or.inr rfl) (Or.inr rfl) (Or.inr rfl) rfl (traffic_discoveryPost hsent _)
  | asked pair hpending =>
    exact .of_same rfl (Or.inr rfl) (Or.inr rfl) (Or.inr rfl) rfl (traffic_discoveryPost hsent _)
  | requested leader times hfalls hwriter =>
    exact .crashed hsound hsent hwriter rfl (Or.inr rfl) rfl rfl rfl rfl
  | abandoned leader times hfalls hwriter =>
    refine .crashed hsound hsent hwriter rfl (Or.inl rfl) rfl rfl ?_ rfl
    simp [OfTraffic, List.filter_map, Function.comp_def]
  | lockSettled ready abort =>
    exact .of_same rfl (Or.inr rfl) (Or.inr rfl) (Or.inr rfl) rfl (by simp [traffic, hsent])
  | lockRejected ready abort =>
    exact .of_same rfl (Or.inr rfl) (Or.inr rfl) (Or.inr rfl) rfl
      (by simp [traffic, hsent, OfTraffic])
  | received envelope synthetic =>
    exact .of_same rfl (Or.inr rfl) (Or.inr rfl) (Or.inr rfl) rfl (traffic_received hsent _ _)
  | heard clientId bridge data next hbridge hheard => exact ports_heard hsent hbridge hheard
  | replied data =>
    refine ⟨Nat.le_refl _, fun _ ↦ rfl, fun channel hchannel ↦ Or.inl hchannel, ?_,
      fun writer hwriter ↦ Or.inl hwriter, ?_, ?_, Or.inl⟩
    · intro clientId found hfound
      change (transport.bridges.mapValues _).get? clientId = some found at hfound
      rw [OrderedMap.get?_mapValues, Option.map_eq_some_iff] at hfound
      obtain ⟨bridge, hbridge, rfl⟩ := hfound
      exact Or.inl ⟨bridge, hbridge, (bridge.channel_onWriterMessage data).symm⟩
    · intro channel value hpost
      obtain ⟨_, _, hsame⟩ := channelPost_of_replied hsent hpost
      cases hsame
    · intro channel envelope hpost
      obtain ⟨_, _, hsame⟩ := channelPost_of_replied hsent hpost
      cases hsame
  | deferred data hfailed =>
    exact .of_same rfl (Or.inr rfl) (Or.inr rfl) (Or.inr rfl) rfl (traffic_deferred hsent data)
  | refused id rest hqueued =>
    exact .of_same rfl (Or.inr rfl) (Or.inr rfl) (Or.inr rfl) rfl
      (by simp [traffic, refused, hsent, OfTraffic])
  | posted data hopen hworks =>
    have hplain : Ports grants transport { transport with outbox := [] } :=
      .of_same rfl (Or.inr rfl) (Or.inr rfl) (Or.inr rfl) rfl rfl
    refine ⟨hplain.object, hplain.idle, hplain.pair, hplain.bridge, hplain.writer, ?_, ?_, Or.inl⟩
    · intro channel value hpost
      rw [traffic_posted hsent] at hpost
      obtain ⟨own, hown, hsame⟩ := List.mem_map.mp hpost
      obtain ⟨rfl, rfl⟩ := TransportEffect.pairPost.inj hsame
      refine ⟨Option.mem_toList.mp hown, fun id hid ↦ ?_⟩
      exact mem_keys_tracked.mpr (Or.inr hid)
    · intro channel envelope hpost
      rw [traffic_posted hsent] at hpost
      obtain ⟨own, -, hsame⟩ := List.mem_map.mp hpost
      cases hsame
  | shut hfalls hopen =>
    exact .of_same rfl (Or.inl rfl) (Or.inl rfl) (Or.inl rfl) rfl (traffic_shut hsent)

/-- What the promotion of a transport does to its channels. -/
theorem Sound.ports_promoted (hsound : Sound grants tab transport) (hsent : transport.outbox = [])
    (hopen : transport.closed = false) : Ports grants transport (transport.promoted grants) := by
  refine ⟨Nat.le_add_right _ _, fun hclosed ↦ ?_, ?_, ?_, ?_, ?_, ?_, Or.inl⟩
  · exact absurd (hopen.symm.trans hclosed) Bool.false_ne_true
  · intro channel hchannel
    obtain rfl : _ = channel := Option.some.inj hchannel
    exact Or.inr (Nat.le_succ _)
  · intro other bridge hbridge
    change (transport.bridges.set transport.clientId _).get? other = some bridge at hbridge
    rw [OrderedMap.get?_set] at hbridge
    by_cases hother : other = transport.clientId
    · rw [if_pos hother, Option.some.injEq] at hbridge
      rw [← hbridge]
      exact Or.inr (Nat.le_refl _)
    · rw [if_neg hother] at hbridge
      exact Or.inl ⟨bridge, hbridge, rfl⟩
  · intro writer hwriter
    exact Or.inr (Nat.le_of_eq (Option.some.inj hwriter))
  · intro channel data hpost
    rw [traffic_promoted hsent] at hpost
    obtain ⟨value, hvalue, hsame⟩ := List.mem_map.mp hpost
    obtain ⟨rfl, rfl⟩ := TransportEffect.pairPost.inj hsame
    have hkeys : ∀ id, value.id = some id → id ∈ transport.inFlight.keys :=
      fun id hid ↦ mem_keys_of_mem_values hsound hvalue hid
    exact ⟨rfl, hkeys⟩
  · intro channel envelope hpost
    rw [traffic_promoted hsent] at hpost
    obtain ⟨value, -, hsame⟩ := List.mem_map.mp hpost
    cases hsame

end Transport

namespace World

open Transport

variable {world next : World} {tab id : ℕ} {handler : Transport → Transport}

/-- A request in transit that its bridge would hear. -/
def Deliverable (world : World) (packet : UplinkPacket) : Prop :=
  ∃ bridge, (world.transports packet.leader).bridges.get? packet.client = some bridge ∧
    bridge.channel.channel.object = packet.bridge

/-- The invariant of the messages in transit. -/
structure Numbered (world : World) : Prop where
  unbooted : ∀ tab, tab ∉ world.booted → (world.transports tab).nextObject = 0
  sender : ∀ packet ∈ world.uplink, packet.object < (world.transports packet.client).nextObject
  target : ∀ packet ∈ world.uplink, packet.bridge < (world.transports packet.leader).nextObject
  ordered : ∀ packet ∈ world.uplink, ∀ channel,
    (world.transports packet.client).pairChannel = some channel → packet.object ≤ channel.object
  receiver : ∀ packet ∈ world.downlink,
    packet.object < (world.transports packet.client).nextObject
  latest : ∀ packet ∈ world.downlink, ∀ channel,
    (world.transports packet.client).pairChannel = some channel → packet.object ≤ channel.object
  /-- The leader of an error envelope is gone, -/
  dead : ∀ packet ∈ world.downlink, packet.synthetic = true → ∀ channel,
    (world.transports packet.client).pairChannel = some channel →
      channel.object = packet.object → ∀ leader,
        (world.transports leader).writer ≠ some channel.name.leaderId
  /-- and requests that a later leader would hear were posted on a later object. -/
  late : ∀ packet ∈ world.downlink, packet.synthetic = true → ∀ request ∈ world.uplink,
    request.client = packet.client → world.Deliverable request → packet.object < request.object

/-- When an error envelope reaches the pair channel of its client, no request of the client is on
the way to an open bridge. -/
theorem Numbered.not_deliverable (hnumbered : world.Numbered) {packet : DownlinkPacket}
    (hpacket : packet ∈ world.downlink) (hsynthetic : packet.synthetic = true)
    {channel : PairChannel}
    (hchannel : (world.transports packet.client).pairChannel = some channel)
    (hheard : channel.object = packet.object) {request : UplinkPacket}
    (hrequest : request ∈ world.uplink) (hclient : request.client = packet.client) :
    ¬ world.Deliverable request := by
  intro hdeliverable
  have hlate := hnumbered.late packet hpacket hsynthetic request hrequest hclient hdeliverable
  have hordered := hnumbered.ordered request hrequest channel (by rw [hclient]; exact hchannel)
  omega

/-- Without a writer nothing is deliverable. -/
theorem Sound.not_deliverable (hsound : world.Sound)
    (hnone : ∀ leader, (world.transports leader).writer = none) (packet : UplinkPacket) :
    ¬ world.Deliverable packet := by
  rintro ⟨bridge, hbridge, -⟩
  rw [(hsound.transport packet.leader).bridges_none (hnone packet.leader)] at hbridge
  cases hbridge

/-- The requests and replies in transit are among those of another world, and the tabs are the
same. -/
structure Trims (world next : World) : Prop where
  transports : next.transports = world.transports
  booted : world.booted ⊆ next.booted
  uplink : next.uplink ⊆ world.uplink
  downlink : next.downlink ⊆ world.downlink

/-- Losing packets keeps the invariant. -/
theorem Numbered.trim (hnumbered : world.Numbered) (htrims : Trims world next) : next.Numbered := by
  obtain ⟨htransports, hbooted, huplink, hdownlink⟩ := htrims
  refine ⟨?_, ?_, ?_, ?_, ?_, ?_, ?_, ?_⟩
  · intro other hother
    rw [htransports]
    exact hnumbered.unbooted other fun hold ↦ hother (hbooted hold)
  · rw [htransports]
    exact fun packet hpacket ↦ hnumbered.sender packet (huplink hpacket)
  · rw [htransports]
    exact fun packet hpacket ↦ hnumbered.target packet (huplink hpacket)
  · rw [htransports]
    exact fun packet hpacket ↦ hnumbered.ordered packet (huplink hpacket)
  · rw [htransports]
    exact fun packet hpacket ↦ hnumbered.receiver packet (hdownlink hpacket)
  · rw [htransports]
    exact fun packet hpacket ↦ hnumbered.latest packet (hdownlink hpacket)
  · rw [htransports]
    exact fun packet hpacket ↦ hnumbered.dead packet (hdownlink hpacket)
  · intro packet hpacket hsynthetic request hrequest hclient hdeliverable
    unfold Deliverable at hdeliverable
    rw [htransports] at hdeliverable
    exact hnumbered.late packet (hdownlink hpacket) hsynthetic request (huplink hrequest) hclient
      hdeliverable

/-! ### A function runs -/

section Act

variable {base : World} (hnumbered : world.Numbered) (hbase : base.Sound)
  (hsame : world.transports = base.transports) (hafter : (world.act tab handler).Sound)
  (hports : Ports base.grants (world.transports tab) (handler (world.transports tab)))

/-- The transports after a function ran: that of another tab, or that of the function. -/
theorem transports_act_cases (other : ℕ) :
    (other ≠ tab ∧ (world.act tab handler).transports other = world.transports other) ∨
      (other = tab ∧ (world.act tab handler).transports other =
        { handler (world.transports tab) with outbox := [] }) := by
  by_cases hother : other = tab
  · exact Or.inr ⟨hother, (transports_act _ _ _ _).trans (if_pos hother)⟩
  · exact Or.inl ⟨hother, (transports_act _ _ _ _).trans (if_neg hother)⟩

include hports in
/-- The objects of a tab are numbered on. -/
theorem nextObject_act (other : ℕ) : (world.transports other).nextObject ≤
    ((world.act tab handler).transports other).nextObject := by
  rcases @transports_act_cases world tab handler other with ⟨-, hkept⟩ | ⟨rfl, hran⟩
  · exact Nat.le_of_eq (by rw [hkept])
  · rw [hran]
    exact hports.object

include hports in
/-- The pair channel of a tab was there before, or is on a new object. -/
theorem pairChannel_act {other : ℕ} {channel : PairChannel}
    (hchannel : ((world.act tab handler).transports other).pairChannel = some channel) :
    (world.transports other).pairChannel = some channel ∨
      (world.transports other).nextObject ≤ channel.object := by
  rcases @transports_act_cases world tab handler other with ⟨-, hkept⟩ | ⟨rfl, hran⟩
  · exact Or.inl (hkept ▸ hchannel)
  · rw [hran] at hchannel
    exact hports.pair channel hchannel

include hnumbered hports in
/-- A bridge that was just opened hears no request that was in transit. -/
theorem deliverable_act {packet : UplinkPacket} (hpacket : packet ∈ world.uplink)
    (hdeliverable : (world.act tab handler).Deliverable packet) : world.Deliverable packet := by
  obtain ⟨bridge, hbridge, hobject⟩ := hdeliverable
  rcases @transports_act_cases world tab handler packet.leader with ⟨-, hkept⟩ | ⟨hleader, hran⟩
  · exact ⟨bridge, hkept ▸ hbridge, hobject⟩
  · rw [hran] at hbridge
    rcases hports.bridge packet.client bridge hbridge with ⟨old, hold, hchannel⟩ | hnew
    · exact ⟨old, hleader ▸ hold, by rw [hchannel]; exact hobject⟩
    · have htarget := hnumbered.target packet hpacket
      rw [hleader] at htarget
      omega

include hports in
/-- A new request was posted by the tab on its pair channel, to a bridge that is open on its
name. -/
theorem mem_uplink_act {packet : UplinkPacket} (hpacket : packet ∈ (world.act tab handler).uplink) :
    packet ∈ world.uplink ∨ ∃ channel,
      .pairPost channel packet.data ∈ (handler (world.transports tab)).traffic ∧
        packet.client = tab ∧ packet.object = channel.object ∧
        ((world.act tab handler).transports tab).pairChannel = some channel ∧
        packet.leader ∈ world.booted ∧ ∃ bridge,
          ((world.act tab handler).transports packet.leader).bridges.get? tab = some bridge ∧
            bridge.channel.channel.name = channel.name ∧
              bridge.channel.channel.object = packet.bridge := by
  rw [uplink_act] at hpacket
  rcases List.mem_append.mp hpacket with hold | hnew
  · exact Or.inl hold
  · right
    obtain ⟨effect, heffect, hpost⟩ := List.mem_flatMap.mp hnew
    cases effect with
    | pairPost channel data =>
      obtain ⟨hbooted, bridge, hbridge, hname, hsame⟩ := mem_uplinkPackets.mp hpost
      have hpair : ((world.act tab handler).transports tab).pairChannel = some channel := by
        rw [transports_act, if_pos rfl]
        exact (hports.posts channel data heffect).1
      rw [hsame] at hbridge ⊢
      exact ⟨channel, heffect, rfl, rfl, hpair, by rw [hsame] at hbooted; exact hbooted, bridge,
        hbridge, hname, rfl⟩
    | _ => cases hpost

/-- A new reply is for the pair channel of its client. -/
theorem mem_downlink_act {packet : DownlinkPacket}
    (hpacket : packet ∈ (world.act tab handler).downlink) :
    packet ∈ world.downlink ∨ ∃ channel own,
      .channelPost channel packet.envelope packet.synthetic ∈
          (handler (world.transports tab)).traffic ∧
        ((world.act tab handler).transports packet.client).pairChannel = some own ∧
        own.name = channel.name ∧ packet.object = own.object := by
  rw [downlink_act] at hpacket
  rcases List.mem_append.mp hpacket with hold | hnew
  · exact Or.inl hold
  · right
    obtain ⟨effect, heffect, hpost⟩ := List.mem_flatMap.mp hnew
    cases effect with
    | channelPost channel envelope synthetic =>
      obtain ⟨-, own, hown, hname, hsame⟩ := mem_downlinkPackets.mp hpost
      rw [hsame]
      rw [hsame] at hown
      exact ⟨channel, own, heffect, hown, hname, rfl⟩
    | _ => cases hpost

include hbase hsame hports in
/-- After a leader posted error envelopes there is no writer. -/
theorem writer_none_of_fails {channel : PairChannel} {envelope : ServerEnvelope}
    (hpost : .channelPost channel envelope true ∈ (handler (world.transports tab)).traffic)
    (leader : ℕ) : ((world.act tab handler).transports leader).writer = none := by
  obtain ⟨hgone, hwriter⟩ := hports.fails channel envelope hpost
  rcases @transports_act_cases world tab handler leader with ⟨hother, hkept⟩ | ⟨-, hran⟩
  · rw [hkept]
    cases hsome : (world.transports leader).writer with
    | none => rfl
    | some own =>
      rw [hsame] at hsome hwriter
      exact absurd (hbase.writer_unique hsome hwriter).1 hother
  · rw [hran]
    exact hgone

include hnumbered hbase hsame hports in
/-- The leaders of error envelopes do not come back. -/
theorem leader_gone_act {packet : DownlinkPacket}
    (hpacket : packet ∈ (world.act tab handler).downlink) (hsynthetic : packet.synthetic = true)
    {channel : PairChannel}
    (hchannel : ((world.act tab handler).transports packet.client).pairChannel = some channel)
    (hobject : channel.object = packet.object) (leader : ℕ) :
    ((world.act tab handler).transports leader).writer ≠ some channel.name.leaderId := by
  rcases mem_downlink_act hpacket with hold | ⟨posted, own, hpost, -, -, -⟩
  · have hbefore : (world.transports packet.client).pairChannel = some channel := by
      refine (pairChannel_act hports hchannel).resolve_right fun hnew ↦ ?_
      have hreceiver := hnumbered.receiver packet hold
      omega
    have hdead := hnumbered.dead packet hold hsynthetic channel hbefore hobject
    rcases @transports_act_cases world tab handler leader with ⟨-, hkept⟩ | ⟨-, hran⟩
    · rw [hkept]
      exact hdead leader
    · rw [hran]
      intro hwriter
      rcases hports.writer _ hwriter with hlives | hlater
      · exact hdead tab hlives
      · rw [hsame] at hbefore
        have hknown := (hbase.transport packet.client).pair_lt hbefore
        omega
  · rw [hsynthetic] at hpost
    rw [writer_none_of_fails hbase hsame hports hpost leader]
    exact nofun

include hnumbered hports in
/-- A reply in transit is for no later object than the pair channel. -/
theorem latest_act {packet : DownlinkPacket} (hpacket : packet ∈ (world.act tab handler).downlink)
    {channel : PairChannel}
    (hchannel : ((world.act tab handler).transports packet.client).pairChannel = some channel) :
    packet.object ≤ channel.object := by
  rcases mem_downlink_act hpacket with hold | ⟨posted, own, -, hown, -, hobject⟩
  · rcases pairChannel_act hports hchannel with hbefore | hnew
    · exact hnumbered.latest packet hold channel hbefore
    · have hreceiver := hnumbered.receiver packet hold
      omega
  · exact Nat.le_of_eq (by rw [hobject, Option.some.inj (hown.symm.trans hchannel)])

include hnumbered hbase hsame hafter hports in
/-- Requests that a bridge would hear are later than the error envelopes for their client. -/
theorem late_act {packet : DownlinkPacket} (hpacket : packet ∈ (world.act tab handler).downlink)
    (hsynthetic : packet.synthetic = true) {request : UplinkPacket}
    (hrequest : request ∈ (world.act tab handler).uplink) (hclient : request.client = packet.client)
    (hdeliverable : (world.act tab handler).Deliverable request) :
    packet.object < request.object := by
  rcases mem_downlink_act hpacket with hold | ⟨posted, own, hpost, -, -, -⟩
  · rcases mem_uplink_act hports hrequest with
      hwaiting | ⟨channel, -, hown, hobject, hpair, -, bridge, hbridge, hname, -⟩
    · exact hnumbered.late packet hold hsynthetic request hwaiting hclient
        (deliverable_act hnumbered hports hwaiting hdeliverable)
    · have hpaired : ((world.act tab handler).transports packet.client).pairChannel =
          some channel := by
        rw [← hclient, hown]
        exact hpair
      have hle := latest_act hnumbered hports hpacket hpaired
      rw [hobject]
      refine Nat.lt_of_le_of_ne hle fun hequal ↦ ?_
      -- the bridge is that of a leader that lives
      have hserves := (hafter.transport request.leader).bridge tab bridge hbridge
      have hleader : channel.name.leaderId = bridge.channel.writer := by
        rw [← hname, hserves.name]
      refine leader_gone_act hnumbered hbase hsame hports hpacket hsynthetic hpaired hequal.symm
        request.leader ?_
      rw [hleader]
      exact hserves.writer
  · rw [hsynthetic] at hpost
    exact absurd hdeliverable
      (hafter.not_deliverable (writer_none_of_fails hbase hsame hports hpost) request)

include hbase hafter hports in
/-- Every function keeps the invariant. -/
theorem Numbered.act (hbefore : base.Numbered) (htrims : Trims base world) :
    (world.act tab handler).Numbered := by
  have hnumbered : world.Numbered := hbefore.trim htrims
  have hsame : world.transports = base.transports := htrims.transports
  refine ⟨?_, ?_, ?_, ?_, ?_, ?_, ?_, ?_⟩
  · intro other hother
    rcases @transports_act_cases world tab handler other with ⟨-, hkept⟩ | ⟨rfl, hran⟩
    · rw [hkept]
      exact hnumbered.unbooted other hother
    · have hclosed : (world.transports other).closed = true := by
        rw [hsame]
        exact hbase.unbooted other fun hold ↦ hother (htrims.booted hold)
      rw [hran]
      exact (hports.idle hclosed).trans (hnumbered.unbooted other hother)
  · intro packet hpacket
    rcases mem_uplink_act hports hpacket with hold | ⟨channel, -, hown, hobject, hpair, -⟩
    · exact Nat.lt_of_lt_of_le (hnumbered.sender packet hold) (nextObject_act hports _)
    · rw [hobject, hown]
      exact ((hafter.transport tab).pair channel hpair).2.1
  · intro packet hpacket
    rcases mem_uplink_act hports hpacket with
      hold | ⟨channel, -, -, -, -, -, bridge, hbridge, -, hbridged⟩
    · exact Nat.lt_of_lt_of_le (hnumbered.target packet hold) (nextObject_act hports _)
    · rw [← hbridged]
      exact ((hafter.transport packet.leader).bridge tab bridge hbridge).object
  · intro packet hpacket channel hchannel
    rcases mem_uplink_act hports hpacket with hold | ⟨own, -, hown, hobject, hpair, -⟩
    · rcases pairChannel_act hports hchannel with hbefore | hnew
      · exact hnumbered.ordered packet hold channel hbefore
      · have hsender := hnumbered.sender packet hold
        omega
    · rw [hown] at hchannel
      exact Nat.le_of_eq (by rw [hobject, Option.some.inj (hpair.symm.trans hchannel)])
  · intro packet hpacket
    rcases mem_downlink_act hpacket with hold | ⟨posted, own, -, hown, -, hobject⟩
    · exact Nat.lt_of_lt_of_le (hnumbered.receiver packet hold) (nextObject_act hports _)
    · rw [hobject]
      exact ((hafter.transport packet.client).pair own hown).2.1
  · exact fun packet hpacket channel hchannel ↦ latest_act hnumbered hports hpacket hchannel
  · exact fun packet hpacket hsynthetic channel hchannel hobject leader ↦
      leader_gone_act hnumbered hbase hsame hports hpacket hsynthetic hchannel hobject leader
  · exact fun packet hpacket hsynthetic request hrequest hclient hdeliverable ↦
      late_act hnumbered hbase hsame hafter hports hpacket hsynthetic hrequest hclient hdeliverable

end Act

end World

end OpfsWebauthn.Storage
