import Mathlib.Data.Fintype.Basic
import OpfsWebauthn.Storage.StableLeader
import OpfsWebauthn.Storage.Traffic

/-!
# No request is lost

As long as the leader stays, every request of a client that has processed its ack is on the way to
its bridge, remembered by its bridge while the writer works on it, or its reply is on the way back.
So when nothing is in transit and the writer has answered everything, nothing is in flight.

The leader loses this when it disposes a bridge that still remembers requests: because a
pair-request was sent again and arrives after the ack, or because the client sent a `close` request.
-/

set_option autoImplicit false
set_option relaxedAutoImplicit false

namespace OpfsWebauthn.Storage.World

open Foundation Automaton Transport

variable {world next : World} {tab id : ℕ}

/-- The transport is open and has processed the ack for its pair channel. -/
def Acknowledged (transport : Transport) : Prop :=
  transport.closed = false ∧ transport.pairChannel ≠ none ∧ transport.pendingPair = none

/-- A request of a tab is on the way to the bridge that is open for the tab. -/
def OnTheWay (world : World) (tab id : ℕ) : Prop :=
  ∃ packet ∈ world.uplink, packet.client = tab ∧ packet.data.id = some id ∧
    ∃ bridge, (world.transports packet.leader).bridges.get? tab = some bridge ∧
      bridge.channel.channel.object = packet.bridge

/-- A writer works on a request of a tab, and the bridge of the tab remembers it. -/
def Remembered (world : World) (tab id : ℕ) : Prop :=
  ∃ leader bridge number, (world.transports leader).bridges.get? tab = some bridge ∧
    bridge.idMap.get? number = some id ∧
      ∃ request ∈ world.inbox, request.writer = bridge.channel.writer ∧
        request.data.id = some number

/-- A reply for a request of a tab is on the way to its pair channel. -/
def ReplyOnTheWay (world : World) (tab id : ℕ) : Prop :=
  ∃ channel, (world.transports tab).pairChannel = some channel ∧
    ∃ packet ∈ world.downlink, packet.client = tab ∧ packet.object = channel.object ∧
      packet.envelope.id = id

/-- A request of a tab is not lost. -/
def Served (world : World) (tab id : ℕ) : Prop :=
  world.OnTheWay tab id ∨ world.Remembered tab id ∨ world.ReplyOnTheWay tab id

/-- Every request of a tab that is in flight has its reply on the way. -/
def AllReplying (world : World) (tab : ℕ) : Prop :=
  ∀ id ∈ (world.transports tab).inFlight.keys, world.ReplyOnTheWay tab id

/-- The invariant. -/
structure Kept (world : World) : Prop where
  booted : ∀ entry ∈ world.posted, entry.1 ∈ world.booted
  answered : ∀ tab, (world.transports tab).closed = false → ∀ data id,
    (tab, data) ∈ world.posted → data.id = some id → id ∈ (world.transports tab).inFlight.keys ∨
      ∃ envelope, (tab, envelope) ∈ world.answered ∧ envelope.id = id
  served : ∀ tab, Acknowledged (world.transports tab) →
    ∀ id ∈ (world.transports tab).inFlight.keys, world.Served tab id

/-- Nothing is in transit on the pair channels, and the writers have answered everything. -/
def Quiescent (world : World) : Prop :=
  world.uplink = [] ∧ world.downlink = [] ∧ world.inbox = []

/-- Every request of a client that has processed its ack was answered, and nothing is in flight. -/
def AllAnswered (world : World) : Prop :=
  ∀ tab, Acknowledged (world.transports tab) → (world.transports tab).inFlight = .empty ∧
    ∀ data id, (tab, data) ∈ world.posted → data.id = some id →
      ∃ envelope, (tab, envelope) ∈ world.answered ∧ envelope.id = id

/-- Under the invariant nothing is in flight when nothing is in transit. -/
theorem Kept.allAnswered (hkept : world.Kept) (hquiescent : world.Quiescent) :
    world.AllAnswered := by
  intro tab hacknowledged
  have hkeys : (world.transports tab).inFlight.keys = [] := by
    refine List.eq_nil_iff_forall_not_mem.mpr fun id hid ↦ ?_
    rcases hkept.served tab hacknowledged id hid with
      ⟨packet, hpacket, -⟩ | ⟨_, _, _, -, -, request, hrequest, -⟩ | ⟨_, -, packet, hpacket, -⟩
    · rw [hquiescent.1] at hpacket
      cases hpacket
    · rw [hquiescent.2.2] at hrequest
      cases hrequest
    · rw [hquiescent.2.1] at hpacket
      cases hpacket
  refine ⟨OrderedMap.eq_empty_of_keys hkeys, fun data id hposted hid ↦ ?_⟩
  rcases hkept.answered tab hacknowledged.1 data id hposted hid with hflight | hanswered
  · rw [hkeys] at hflight
    cases hflight
  · exact hanswered

/-! ### Changes that lose nothing -/

/-- The bridges for a client are still there, with all that they remember. -/
def KeepsBridges (tab : ℕ) (before after : Transport) : Prop :=
  ∀ bridge, before.bridges.get? tab = some bridge →
    ∃ kept, after.bridges.get? tab = some kept ∧ kept.channel = bridge.channel ∧
      ∀ number id, bridge.idMap.get? number = some id → kept.idMap.get? number = some id

/-- A request stays served where nothing in transit is lost, the bridges of its client stay, and the
client keeps its pair channel. -/
theorem Served.mono (hserved : world.Served tab id) (huplink : world.uplink ⊆ next.uplink)
    (hinbox : world.inbox ⊆ next.inbox) (hdownlink : world.downlink ⊆ next.downlink)
    (hbridges : ∀ leader, KeepsBridges tab (world.transports leader) (next.transports leader))
    (hpair : (next.transports tab).pairChannel = (world.transports tab).pairChannel) :
    next.Served tab id := by
  rcases hserved with ⟨packet, hpacket, hclient, hid, bridge, hbridge, hobject⟩ |
    ⟨leader, bridge, number, hbridge, hnumber, request, hrequest, hwriter, hrequested⟩ |
    ⟨channel, hchannel, packet, hpacket, hreply⟩
  · obtain ⟨kept, hkept, hchannel, -⟩ := hbridges packet.leader bridge hbridge
    exact Or.inl ⟨packet, huplink hpacket, hclient, hid, kept, hkept, hchannel ▸ hobject⟩
  · obtain ⟨kept, hkept, hchannel, hmap⟩ := hbridges leader bridge hbridge
    exact Or.inr (Or.inl ⟨leader, kept, number, hkept, hmap number id hnumber, request,
      hinbox hrequest, hchannel ▸ hwriter, hrequested⟩)
  · exact Or.inr (Or.inr ⟨channel, hpair.trans hchannel, packet, hdownlink hpacket, hreply⟩)

/-- A reply stays on the way where nothing in transit is lost and the client keeps its pair
channel. -/
theorem ReplyOnTheWay.mono (hreply : world.ReplyOnTheWay tab id)
    (hdownlink : world.downlink ⊆ next.downlink)
    (hpair : (next.transports tab).pairChannel = (world.transports tab).pairChannel) :
    next.ReplyOnTheWay tab id := by
  obtain ⟨channel, hchannel, packet, hpacket, hrest⟩ := hreply
  exact ⟨channel, hpair.trans hchannel, packet, hdownlink hpacket, hrest⟩

/-- A transport whose bridges do not change keeps them. -/
theorem KeepsBridges.of_eq {before after : Transport} (hsame : after.bridges = before.bridges)
    (tab : ℕ) : KeepsBridges tab before after := by
  intro bridge hbridge
  exact ⟨bridge, hsame ▸ hbridge, rfl, fun _ _ hid ↦ hid⟩

section Act

variable {own : ℕ} {handler : Transport → Transport}

/-- A tab that keeps its bridges keeps those of the world. -/
theorem keepsBridges_act
    (hbridges : KeepsBridges tab (world.transports own) (handler (world.transports own)))
    (leader : ℕ) :
    KeepsBridges tab (world.transports leader) ((world.act own handler).transports leader) := by
  rw [transports_act]
  split_ifs with hleader
  · exact hleader ▸ hbridges
  · exact .of_eq rfl tab

/-- Packets and requests are only added by a function. -/
theorem subset_act : world.uplink ⊆ (world.act own handler).uplink ∧
    world.inbox ⊆ (world.act own handler).inbox ∧
      world.downlink ⊆ (world.act own handler).downlink :=
  ⟨List.subset_append_left _ _, List.subset_append_left _ _, List.subset_append_left _ _⟩

/-- What was answered stays answered. -/
theorem answered_act : world.answered ⊆ (world.act own handler).answered :=
  List.subset_append_left _ _

/-- A function that loses nothing keeps the invariant: the bridges stay, but for clients whose
replies are all on the way; a tab that has its ack had it before with the same pair channel; and
nothing new is in flight. -/
theorem Kept.act (hkept : world.Kept)
    (hbridges : ∀ client, Acknowledged (world.transports client) →
      KeepsBridges client (world.transports own) (handler (world.transports own)) ∨
        world.AllReplying client)
    (hflight : (handler (world.transports own)).inFlight = (world.transports own).inFlight ∨
      (handler (world.transports own)).closed = true)
    (hopen : (world.transports own).closed = true → (handler (world.transports own)).closed = true)
    (hacknowledged : Acknowledged (handler (world.transports own)) →
      Acknowledged (world.transports own) ∧
        (handler (world.transports own)).pairChannel = (world.transports own).pairChannel) :
    (world.act own handler).Kept where
  booted := hkept.booted
  answered := by
    intro tab hopenTab data id hposted hid
    rw [transports_act] at hopenTab ⊢
    by_cases htab : tab = own
    · subst htab
      rw [if_pos rfl] at hopenTab ⊢
      have hstill : (handler (world.transports tab)).closed = false := hopenTab
      have hbefore : (world.transports tab).closed = false := by
        by_contra hclosed
        exact Bool.false_ne_true (hstill.symm.trans (hopen (by simpa using hclosed)))
      have hsame := hflight.resolve_right (by simp [hstill])
      rcases hkept.answered tab hbefore data id hposted hid with hkey | ⟨envelope, hmem, hnumber⟩
      · left
        show id ∈ (handler (world.transports tab)).inFlight.keys
        rw [hsame]
        exact hkey
      · exact Or.inr ⟨envelope, answered_act hmem, hnumber⟩
    · rw [if_neg htab] at hopenTab ⊢
      rcases hkept.answered tab hopenTab data id hposted hid with hkey | ⟨envelope, hmem, hnumber⟩
      · exact Or.inl hkey
      · exact Or.inr ⟨envelope, answered_act hmem, hnumber⟩
  served := by
    intro tab hacknowledgedTab id hid
    obtain ⟨huplink, hinbox, hdownlink⟩ := @subset_act world own handler
    have hboth : Acknowledged (world.transports tab) ∧
        ((world.act own handler).transports tab).pairChannel = (world.transports tab).pairChannel ∧
        id ∈ (world.transports tab).inFlight.keys := by
      rw [transports_act] at hacknowledgedTab hid ⊢
      by_cases htab : tab = own
      · subst htab
        rw [if_pos rfl] at hacknowledgedTab hid ⊢
        obtain ⟨hbefore, hpair⟩ := hacknowledged hacknowledgedTab
        have hstill : (handler (world.transports tab)).closed = false := hacknowledgedTab.1
        have hsame := hflight.resolve_right (by simp [hstill])
        refine ⟨hbefore, hpair, ?_⟩
        change id ∈ (handler (world.transports tab)).inFlight.keys at hid
        rwa [hsame] at hid
      · rw [if_neg htab] at hacknowledgedTab hid ⊢
        exact ⟨hacknowledgedTab, rfl, hid⟩
    rcases hbridges tab hboth.1 with hkeeps | hreplying
    · exact (hkept.served tab hboth.1 id hboth.2.2).mono huplink hinbox hdownlink
        (keepsBridges_act hkeeps) hboth.2.1
    · exact Or.inr (Or.inr ((hreplying id hboth.2.2).mono hdownlink hboth.2.1))

end Act

/-! ### The conditions -/

/-- A tab has a bridge for the client of a tab. -/
def Bridged (world : World) (tab : ℕ) : Prop :=
  ∃ leader ∈ world.booted, ((world.transports leader).bridges.get? tab).isSome

/-- A message that a tab receives on the discovery channel disposes no bridge that still has
requests of an acknowledged client, and is no ack for a client whose bridge is gone. -/
def KeepsRequests (world : World) (tab : ℕ) : LeaderMessage → Prop
  | .pairRequest leaderId clientId _ =>
    (world.transports tab).writer = some leaderId → Acknowledged (world.transports clientId) →
      world.AllReplying clientId
  | .pairAck leaderId clientId =>
    clientId = tab → (world.transports tab).pendingPair.map PendingPair.leaderId = some leaderId →
      world.Bridged tab ∨ world.AllReplying tab
  | _ => True

/-- A `close` request disposes no bridge that still has other requests of an acknowledged client. -/
def ClosesLast (world : World) (packet : UplinkPacket) : Prop :=
  packet.data.request.kind = .close → Acknowledged (world.transports packet.client) →
    ((world.transports packet.leader).bridges.get? packet.client).map
      (fun bridge ↦ bridge.channel.channel.object) = some packet.bridge →
    ∀ id ∈ (world.transports packet.client).inFlight.keys, packet.data.id ≠ some id →
      world.ReplyOnTheWay packet.client id

/-- The condition on a step: no bridge is disposed while it has requests of an acknowledged client,
and an acknowledged client sends only when it has a bridge. -/
def LosesNothing (world : World) : WorldEvent → Prop
  | .deliverDiscovery position => ∀ found ∈
      takePacket (fun packet ↦ (packet.source, packet.target)) world.discovery position,
      (world.transports found.1.target).discovering = true →
        world.KeepsRequests found.1.target found.1.message
  | .deliverUplink position => ∀ found ∈
      takePacket (fun packet ↦ (packet.client, packet.object, packet.leader, packet.bridge))
        world.uplink position, world.ClosesLast found.1
  | .send tab _ => Acknowledged (world.transports tab) → world.Bridged tab
  | .post tab data => data.id ≠ none → Acknowledged (world.transports tab) → world.Bridged tab
  | _ => True

section Decidability

variable (world : World)

instance (transport : Transport) : Decidable (Acknowledged transport) := by
  unfold Acknowledged
  infer_instance

instance (tab id : ℕ) : Decidable (world.ReplyOnTheWay tab id) :=
  inferInstanceAs (Decidable (∃ channel ∈ (world.transports tab).pairChannel,
    ∃ packet ∈ world.downlink, packet.client = tab ∧ packet.object = channel.object ∧
      packet.envelope.id = id))

instance (tab : ℕ) : Decidable (world.AllReplying tab) := by
  unfold AllReplying
  infer_instance

instance (tab : ℕ) : Decidable (world.Bridged tab) := by
  unfold Bridged
  infer_instance

instance (tab : ℕ) (message : LeaderMessage) : Decidable (world.KeepsRequests tab message) := by
  unfold KeepsRequests
  split <;> infer_instance

instance (packet : UplinkPacket) : Decidable (world.ClosesLast packet) := by
  unfold ClosesLast
  infer_instance

instance (event : WorldEvent) : Decidable (LosesNothing world event) := by
  apply @WorldEvent.casesOn (fun event ↦ Decidable (LosesNothing world event)) event
  all_goals
    intros
    dsimp only [LosesNothing]
    infer_instance

end Decidability

/-! ### Preservation -/

/-- The bridge for an open tab that is paired is open on the name of its pair channel. -/
theorem Stable.name_eq (hstable : world.Stable) (hsound : world.Sound)
    (hopen : (world.transports tab).closed = false) {channel : PairChannel}
    (hchannel : (world.transports tab).pairChannel = some channel) {leader : ℕ}
    {bridge : LeaderBridge BridgePort}
    (hbridge : (world.transports leader).bridges.get? tab = some bridge) :
    bridge.channel.channel.name = channel.name := by
  obtain ⟨-, other, hother⟩ := hstable.paired tab hopen channel hchannel
  have hserves := (hsound.transport leader).bridge tab bridge hbridge
  have hsame := (hsound.writer_unique hserves.writer hother).2
  have hclient := ((hsound.transport tab).pair channel hchannel).1
  rw [hserves.name, hsame, ← hclient]

/-- A post that finds a bridge on the name of its channel is on the way. -/
theorem onTheWay_of_post {own : ℕ} {handler : Transport → Transport} {channel : PairChannel}
    {data : PageMessage}
    (hpost : .pairPost channel data ∈ (handler (world.transports own)).traffic)
    (hid : data.id = some id) {leader : ℕ} (hbooted : leader ∈ world.booted)
    {bridge : LeaderBridge BridgePort}
    (hbridge : ((world.act own handler).transports leader).bridges.get? own = some bridge)
    (hname : bridge.channel.channel.name = channel.name) :
    (world.act own handler).OnTheWay own id := by
  refine ⟨⟨own, channel.object, leader, bridge.channel.channel.object, data⟩, ?_, rfl, hid, bridge,
    hbridge, rfl⟩
  rw [uplink_act]
  refine List.mem_append_right _ (List.mem_flatMap.mpr ⟨_, hpost, ?_⟩)
  exact mem_uplinkPackets.mpr ⟨hbooted, bridge, hbridge, hname, rfl⟩

/-- A replay of all that is in flight, to a bridge that is open, keeps the invariant. -/
theorem Kept.replay (hkept : world.Kept) {own : ℕ} {handler : Transport → Transport}
    (hfiled : ∀ id data, (world.transports own).inFlight.get? id = some data → data.id = some id)
    (hbridges : ∀ client, client ≠ own → Acknowledged (world.transports client) →
      KeepsBridges client (world.transports own) (handler (world.transports own)))
    (hflight : (handler (world.transports own)).inFlight = (world.transports own).inFlight)
    (hclosed : (handler (world.transports own)).closed = (world.transports own).closed)
    (channel : PairChannel)
    (htraffic : (handler (world.transports own)).traffic =
      (world.transports own).inFlight.values.map fun data ↦ .pairPost channel data)
    (hserved : (∃ leader ∈ world.booted, ∃ bridge,
        ((world.act own handler).transports leader).bridges.get? own = some bridge ∧
          bridge.channel.channel.name = channel.name) ∨
      ∀ id ∈ (world.transports own).inFlight.keys, (world.act own handler).ReplyOnTheWay own id) :
    (world.act own handler).Kept where
  booted := hkept.booted
  answered := by
    intro tab hopenTab data id hposted hid
    have hboth : (world.transports tab).closed = false ∧
        ((world.act own handler).transports tab).inFlight = (world.transports tab).inFlight := by
      rw [transports_act] at hopenTab ⊢
      split_ifs at hopenTab ⊢ with htab
      · subst htab
        exact ⟨hclosed.symm.trans hopenTab, hflight⟩
      · exact ⟨hopenTab, rfl⟩
    rw [hboth.2]
    rcases hkept.answered tab hboth.1 data id hposted hid with hkey | ⟨envelope, hmem, hnumber⟩
    · exact Or.inl hkey
    · exact Or.inr ⟨envelope, answered_act hmem, hnumber⟩
  served := by
    intro tab hacknowledged id hid
    obtain ⟨huplink, hinbox, hdownlink⟩ := @subset_act world own handler
    by_cases htab : tab = own
    · subst htab
      have hkey : id ∈ (world.transports tab).inFlight.keys := by
        rw [transports_act, if_pos rfl] at hid
        exact hflight ▸ hid
      rcases hserved with ⟨leader, hbooted, bridge, hbridge, hname⟩ | hreplying
      · obtain ⟨data, hdata⟩ := (OrderedMap.mem_keys_iff _ _).mp hkey
        refine Or.inl (onTheWay_of_post ?_ (hfiled id data hdata) hbooted
          hbridge hname)
        rw [htraffic]
        exact List.mem_map.mpr ⟨data, (OrderedMap.mem_values_iff _ _).mpr ⟨id, hdata⟩, rfl⟩
      · exact Or.inr (Or.inr (hreplying id hkey))
    · rw [transports_act, if_neg htab] at hacknowledged hid
      refine (hkept.served tab hacknowledged id hid).mono huplink hinbox hdownlink
        (keepsBridges_act (hbridges tab htab hacknowledged)) ?_
      rw [transports_act, if_neg htab]

/-- A function that changes nothing but discovery and the lock keeps the invariant. -/
theorem Kept.quiet (hkept : world.Kept) {own : ℕ} {handler : Transport → Transport}
    (hbridges : (handler (world.transports own)).bridges = (world.transports own).bridges)
    (hflight : (handler (world.transports own)).inFlight = (world.transports own).inFlight)
    (hclosed : (handler (world.transports own)).closed = (world.transports own).closed)
    (hacknowledged : Acknowledged (handler (world.transports own)) →
      Acknowledged (world.transports own) ∧
        (handler (world.transports own)).pairChannel = (world.transports own).pairChannel) :
    (world.act own handler).Kept :=
  hkept.act (fun client _ ↦ Or.inl (.of_eq hbridges client)) (Or.inl hflight)
    (fun hshut ↦ hclosed.trans hshut) hacknowledged

/-- A message on the discovery channel that meets the condition keeps the invariant. -/
theorem Kept.discovered (hkept : world.Kept) (hsound : world.Sound) (hstable : world.Stable)
    {own : ℕ} {handler : Transport → Transport} (hopen : (world.transports own).closed = false)
    {message : LeaderMessage}
    (hcases : Discovered (world.transports own) message (handler (world.transports own)))
    (hkeeps : world.KeepsRequests own message)
    (hsilent : ∀ id reason, message ≠ .leaderFailed id reason) : (world.act own handler).Kept := by
  have hquiet := @Kept.quiet world hkept own handler
  have hact := @Kept.act world own handler hkept
  have hreplay := @Kept.replay world hkept own handler (hsound.transport own).filed
  have htransport := transports_act world own handler
  have hdown : world.downlink ⊆ (world.act own handler).downlink := subset_act.2.2
  generalize handler (world.transports own) = after at hcases hquiet hact hreplay htransport
  cases hcases with
  | ignored => exact hquiet rfl rfl rfl fun hacknowledged ↦ ⟨hacknowledged, rfl⟩
  | paired id hopen hother hnew =>
    exact hquiet rfl rfl rfl fun hacknowledged ↦ absurd hacknowledged.2.2 (by simp [paired])
  | bridged clientId name writer leader hwriter hleader =>
    obtain rfl : writer = leader :=
      Option.some.inj (((hsound.transport own).leads writer hwriter).symm.trans hleader)
    refine hact (fun client hclient ↦ ?_) (Or.inl rfl) id fun hacknowledged ↦ ⟨hacknowledged, rfl⟩
    by_cases hsame : client = clientId
    · -- the bridge of this client is replaced, and forgets its requests
      subst hsame
      exact Or.inr (hkeeps hwriter hclient)
    · left
      intro bridge hbridge
      refine ⟨bridge, ?_, rfl, fun _ _ hid ↦ hid⟩
      show ((world.transports own).bridges.set clientId _).get? client = some bridge
      rw [OrderedMap.get?_set, if_neg hsame]
      exact hbridge
  | acknowledged pair hpending =>
    obtain ⟨-, channel, hchannel, -⟩ := (hsound.transport own).pending pair hpending
    refine hreplay (fun client _ _ ↦ .of_eq rfl client) rfl rfl channel ?_ ?_
    · rw [traffic_acknowledged (hsound.sent own), replayed, hchannel]
    have hclient : (world.transports own).clientId = own := (hsound.transport own).client
    rcases hkeeps hclient (by rw [hpending]; rfl) with ⟨leader, hbooted, hsome⟩ | hreplying
    · left
      obtain ⟨bridge, hbridge⟩ := Option.isSome_iff_exists.mp hsome
      refine ⟨leader, hbooted, bridge, ?_,
        hstable.name_eq hsound hopen hchannel hbridge⟩
      rw [htransport]
      split_ifs with hleader
      · exact hleader ▸ hbridge
      · exact hbridge
    · right
      intro id hid
      refine (hreplying id hid).mono hdown ?_
      rw [htransport, if_pos rfl]
      rfl
  | deposed leaderId reason hcurrent => exact absurd rfl (hsilent leaderId reason)
  | announced writer own hwriter hown =>
    exact hquiet rfl rfl rfl fun hacknowledged ↦ ⟨hacknowledged, rfl⟩

/-- Taking a request out of transit leaves every other request served. -/
theorem Served.of_takePacket (hserved : world.Served tab id) {position : ℕ} {packet : UplinkPacket}
    {rest : List UplinkPacket} {κ : Type*} [DecidableEq κ] {channel : UplinkPacket → κ}
    (htake : takePacket channel world.uplink position = some (packet, rest)) :
    ({ world with uplink := rest } : World).Served tab id ∨
      (packet.client = tab ∧ packet.data.id = some id ∧
        ∃ bridge, (world.transports packet.leader).bridges.get? tab = some bridge ∧
          bridge.channel.channel.object = packet.bridge) := by
  rcases hserved with ⟨other, hother, hrest⟩ | hremembered | hreply
  · rcases eq_or_mem_rest htake hother with rfl | hmem
    · exact Or.inr hrest
    · exact Or.inl (Or.inl ⟨other, hmem, hrest⟩)
  · exact Or.inl (Or.inr (Or.inl hremembered))
  · exact Or.inl (Or.inr (Or.inr hreply))

/-- A bridge that forwards a request keeps what it remembers. -/
theorem keepsBridges_forwarded {transport : Transport} {grants own : ℕ}
    (hsound : transport.Sound grants own) {clientId : ℕ} {bridge : LeaderBridge BridgePort}
    (hbridge : transport.bridges.get? clientId = some bridge) (id : ℕ) (data : PageMessage)
    (tab : ℕ) : KeepsBridges tab transport (transport.forwarded clientId bridge id data) := by
  intro found hfound
  by_cases htab : tab = clientId
  · subst htab
    obtain rfl : bridge = found := Option.some.inj (hbridge.symm.trans hfound)
    refine ⟨_, OrderedMap.get?_set_self _ _ _, rfl, fun number other hother ↦ ?_⟩
    show (bridge.idMap.set transport.nextLeaderEnvelopeId id).get? number = some other
    have hne : number ≠ transport.nextLeaderEnvelopeId := by
      have hkey : number ∈ bridge.idMap.keys := (OrderedMap.mem_keys_iff _ _).mpr ⟨other, hother⟩
      exact Nat.ne_of_lt ((hsound.bridge tab bridge hbridge).allocated number hkey)
    rw [OrderedMap.get?_set, if_neg hne]
    exact hother
  · refine ⟨found, ?_, rfl, fun _ _ hother ↦ hother⟩
    show (transport.bridges.set clientId _).get? tab = some found
    rw [OrderedMap.get?_set, if_neg htab]
    exact hfound

/-- A delivery to a bridge that meets the condition keeps the invariant. -/
theorem Kept.deliverUplink (hkept : world.Kept) (hsound : world.Sound) (hstable : world.Stable)
    {position : ℕ} {packet : UplinkPacket} {rest : List UplinkPacket} {κ : Type*} [DecidableEq κ]
    {channel : UplinkPacket → κ}
    (htake : takePacket channel world.uplink position = some (packet, rest))
    (hcloses : world.ClosesLast packet) :
    ({ world with uplink := rest }.deliverUplink packet).Kept := by
  set taken : World := { world with uplink := rest } with htaken
  have hlive : ∀ bridge, (world.transports packet.leader).bridges.get? packet.client = some bridge →
      bridge.disposed = false := fun bridge hbridge ↦
    ((hsound.transport packet.leader).bridge packet.client bridge hbridge).live
  obtain ⟨hflight, hclosed, hpair, hpending⟩ := client_onBridgeMessage
    (world.transports packet.leader) packet.client packet.bridge packet.data hlive
  have hclient : ∀ tab, ((taken.deliverUplink packet).transports tab).inFlight =
        (world.transports tab).inFlight ∧
      ((taken.deliverUplink packet).transports tab).closed = (world.transports tab).closed ∧
      ((taken.deliverUplink packet).transports tab).pairChannel =
        (world.transports tab).pairChannel ∧
      ((taken.deliverUplink packet).transports tab).pendingPair =
        (world.transports tab).pendingPair := by
    intro tab
    unfold World.deliverUplink
    rw [transports_act]
    split_ifs with htab
    · subst htab
      exact ⟨hflight, hclosed, hpair, hpending⟩
    · exact ⟨rfl, rfl, rfl, rfl⟩
  refine ⟨hkept.booted, fun tab hopen data id hposted hid ↦ ?_, fun tab hacknowledged id hid ↦ ?_⟩
  · rw [(hclient tab).2.1] at hopen
    rw [(hclient tab).1]
    rcases hkept.answered tab hopen data id hposted hid with hkey | ⟨envelope, hmem, hnumber⟩
    · exact Or.inl hkey
    · exact Or.inr ⟨envelope, List.mem_append_left _ hmem, hnumber⟩
  obtain ⟨hsameFlight, hsameClosed, hsamePair, hsamePending⟩ := hclient tab
  have hbefore : Acknowledged (world.transports tab) :=
    ⟨hsameClosed ▸ hacknowledged.1, hsamePair ▸ hacknowledged.2.1, hsamePending ▸ hacknowledged.2.2⟩
  rw [hsameFlight] at hid
  have hserved := hkept.served tab hbefore id hid
  obtain ⟨-, hinbox, hdownlink⟩ := @subset_act taken packet.leader fun transport ↦
    transport.onBridgeMessage packet.client packet.bridge packet.data
  have huplink : taken.uplink ⊆ (taken.deliverUplink packet).uplink := List.subset_append_left _ _
  -- a request that is served without the packet stays served if the bridges stay
  have hstays : KeepsBridges tab (world.transports packet.leader)
      ((world.transports packet.leader).onBridgeMessage packet.client packet.bridge packet.data) →
      taken.Served tab id → (taken.deliverUplink packet).Served tab id := fun hkeeps hother ↦
    hother.mono huplink hinbox hdownlink
      (@keepsBridges_act taken tab packet.leader (fun transport ↦
        transport.onBridgeMessage packet.client packet.bridge packet.data) hkeeps) hsamePair
  have htransport : (taken.deliverUplink packet).transports packet.leader =
      { (world.transports packet.leader).onBridgeMessage packet.client packet.bridge
          packet.data with
        outbox := [] } := (transports_act _ _ _ _).trans (if_pos rfl)
  have hsent := hsound.sent packet.leader
  rcases onBridgeMessage_cases (world.transports packet.leader) packet.client packet.bridge
    packet.data hlive with ⟨hnobody, hsame⟩ | ⟨bridge, hbridge, hobject, hheard⟩
  · rcases hserved.of_takePacket htake with hother | ⟨rfl, -, found, hfound, hsameObject⟩
    · exact hstays (by rw [hsame]; exact .of_eq rfl tab) hother
    · exact absurd hsameObject (hnobody found hfound)
  have hrequests : (taken.deliverUplink packet).inbox = world.inbox ++
      ((world.transports packet.leader).onBridgeMessage packet.client packet.bridge
        packet.data).traffic.filterMap received := inbox_act
  have hreplies : (taken.deliverUplink packet).downlink = world.downlink ++
      ((world.transports packet.leader).onBridgeMessage packet.client packet.bridge
        packet.data).traffic.flatMap
          (downlinkPackets world.booted (taken.deliverUplink packet).transports packet.leader) :=
    downlink_act
  generalize (world.transports packet.leader).onBridgeMessage packet.client packet.bridge
    packet.data = after at hstays htransport hheard hrequests hreplies
  cases hheard with
  | passed hraw =>
    rcases hserved.of_takePacket htake with hother | ⟨-, hnumber, -⟩
    · exact hstays (.of_eq rfl tab) hother
    · cases hraw.symm.trans hnumber
  | forwarded number hnumber hkind =>
    have hkeeps := keepsBridges_forwarded (hsound.transport packet.leader) hbridge number
      packet.data tab
    rcases hserved.of_takePacket htake with hother | ⟨rfl, hown, -⟩
    · exact hstays hkeeps hother
    · -- the bridge remembers the request, and the writer has received it
      obtain rfl : number = id := Option.some.inj (hnumber.symm.trans hown)
      set fresh := (world.transports packet.leader).nextLeaderEnvelopeId with hfresh
      refine Or.inr (Or.inl ⟨packet.leader, { bridge with idMap := bridge.idMap.set fresh number },
        fresh, ?_, OrderedMap.get?_set_self _ _ _,
        ⟨bridge.channel.writer, { packet.data with id := some fresh }⟩, ?_, rfl, rfl⟩)
      · rw [htransport]
        exact OrderedMap.get?_set_self _ _ _
      · rw [hrequests, traffic_forwarded hsent]
        exact List.mem_append_right _ (List.mem_singleton_self _)
  | closed number hnumber hkind =>
    by_cases htab : tab = packet.client
    · subst htab
      right
      right
      by_cases hown : number = id
      · -- the bridge answers its `close` request before it is disposed
        obtain ⟨own, hpaired⟩ := Option.ne_none_iff_exists'.mp hbefore.2.1
        refine ⟨own, hsamePair.trans hpaired, ⟨packet.leader, bridge.channel.channel.object,
          packet.client, own.object, ⟨number, .response .close⟩, false⟩, ?_, rfl, rfl, hown⟩
        rw [hreplies, traffic_unbridged hsent, List.flatMap_singleton]
        refine List.mem_append_right _ (mem_downlinkPackets.mpr ⟨?_, own,
          hsamePair.trans hpaired, ?_, rfl⟩)
        · by_contra hnew
          exact Bool.false_ne_true (hbefore.1.symm.trans (hsound.unbooted packet.client hnew))
        · exact (hstable.name_eq hsound hbefore.1 hpaired hbridge).symm
      · have hothers := hcloses hkind hbefore (by rw [hbridge, Option.map_some, hobject]) id hid
          fun hsame ↦ hown (Option.some.inj (hnumber.symm.trans hsame))
        exact hothers.mono hdownlink hsamePair
    · rcases hserved.of_takePacket htake with hother | ⟨hclient, -⟩
      · refine hstays (fun found hfound ↦ ⟨found, ?_, rfl, fun _ _ hmap ↦ hmap⟩) hother
        show ((world.transports packet.leader).bridges.erase packet.client).get? tab = some found
        rw [OrderedMap.get?_erase, if_neg htab]
        exact hfound
      · exact absurd hclient.symm htab

/-- Taking a reply out of transit leaves every other request served. -/
theorem Served.of_takeReply (hserved : world.Served tab id) {position : ℕ} {packet : DownlinkPacket}
    {rest : List DownlinkPacket} {κ : Type*} [DecidableEq κ] {channel : DownlinkPacket → κ}
    (htake : takePacket channel world.downlink position = some (packet, rest)) :
    ({ world with downlink := rest } : World).Served tab id ∨
      (packet.client = tab ∧ packet.envelope.id = id ∧
        ∃ own, (world.transports tab).pairChannel = some own ∧ packet.object = own.object) := by
  rcases hserved with honTheWay | hremembered | ⟨own, hown, other, hother, hclient, hobject, hid⟩
  · exact Or.inl (Or.inl honTheWay)
  · exact Or.inl (Or.inr (Or.inl hremembered))
  · rcases eq_or_mem_rest htake hother with rfl | hmem
    · exact Or.inr ⟨hclient, hid, own, hown, hobject⟩
    · exact Or.inl (Or.inr (Or.inr ⟨own, hown, other, hmem, hclient, hobject, hid⟩))

/-- A reply that its pair channel receives is an answer, where the listeners are still there. -/
theorem answered_received (hsent : (world.transports tab).outbox = []) (envelope : ServerEnvelope)
    (synthetic : Bool) :
    (world.act tab fun transport ↦ transport.onPairMessage envelope synthetic).answered =
      world.answered ++ if (world.transports tab).listening then [(tab, envelope)] else [] := by
  refine congrArg (world.answered ++ ·) ?_
  simp only [onPairMessage, emit, hsent, List.nil_append, List.filterMap_cons, answers,
    List.filterMap_nil, List.map_cons, List.map_nil]

/-- A reply that its channel does not hear is lost, and was nobody's. -/
theorem Kept.undelivered (hkept : world.Kept) {position : ℕ} {packet : DownlinkPacket}
    {rest : List DownlinkPacket} {κ : Type*} [DecidableEq κ] {channel : DownlinkPacket → κ}
    (htake : takePacket channel world.downlink position = some (packet, rest))
    (hunheard : ∀ own, (world.transports packet.client).pairChannel = some own →
      own.object ≠ packet.object) : ({ world with downlink := rest } : World).Kept := by
  refine ⟨hkept.booted, hkept.answered, fun tab hacknowledged id hid ↦ ?_⟩
  rcases (hkept.served tab hacknowledged id hid).of_takeReply htake with
    hserved | ⟨rfl, -, own, hown, hobject⟩
  · exact hserved
  · exact absurd hobject.symm (hunheard own hown)

/-- A reply that its channel hears answers its request. -/
theorem Kept.received (hkept : world.Kept) (hsound : world.Sound) {position : ℕ}
    {packet : DownlinkPacket} {rest : List DownlinkPacket} {κ : Type*} [DecidableEq κ]
    {channel : DownlinkPacket → κ}
    (htake : takePacket channel world.downlink position = some (packet, rest)) :
    ({ world with downlink := rest }.act packet.client fun transport ↦
      transport.onPairMessage packet.envelope packet.synthetic).Kept := by
  set taken : World := { world with downlink := rest } with htaken
  have hafter : ∀ tab, ((taken.act packet.client fun transport ↦
      transport.onPairMessage packet.envelope packet.synthetic).transports tab) =
        if tab = packet.client then { (world.transports packet.client).onPairMessage
          packet.envelope packet.synthetic with outbox := [] } else world.transports tab :=
    transports_act _ _ _
  have hanswers : (taken.act packet.client fun transport ↦
      transport.onPairMessage packet.envelope packet.synthetic).answered = world.answered ++
        if (world.transports packet.client).listening then
          [(packet.client, packet.envelope)] else [] :=
    answered_received (hsound.sent packet.client) packet.envelope packet.synthetic
  refine ⟨hkept.booted, fun tab hopen data id hposted hid ↦ ?_,
    fun tab hacknowledged id hid ↦ ?_⟩
  · rw [hanswers]
    have hbefore : (world.transports tab).closed = false := by
      rw [hafter] at hopen
      split_ifs at hopen with htab
      · exact htab ▸ hopen
      · exact hopen
    rcases hkept.answered tab hbefore data id hposted hid with hkey | ⟨envelope, hmem, hnumber⟩
    · by_cases hreplied : tab = packet.client ∧ id = packet.envelope.id
      · obtain ⟨rfl, rfl⟩ := hreplied
        have hlistens : (world.transports packet.client).listening = true := by
          rw [(hsound.transport packet.client).hears, hbefore]
          rfl
        rw [if_pos hlistens]
        exact Or.inr ⟨packet.envelope, List.mem_append_right _ (List.mem_singleton_self _), rfl⟩
      · left
        rw [hafter]
        split_ifs with htab
        · subst htab
          exact (OrderedMap.mem_keys_erase _ _ _).mpr ⟨fun hsame ↦ hreplied ⟨rfl, hsame⟩, hkey⟩
        · exact hkey
    · exact Or.inr ⟨envelope, List.mem_append_left _ hmem, hnumber⟩
  · have hboth : Acknowledged (world.transports tab) ∧ id ∈ (world.transports tab).inFlight.keys ∧
        (tab = packet.client → id ≠ packet.envelope.id) ∧
        ((taken.act packet.client fun transport ↦
          transport.onPairMessage packet.envelope packet.synthetic).transports tab).pairChannel =
            (world.transports tab).pairChannel := by
      rw [hafter] at hacknowledged hid ⊢
      split_ifs at hacknowledged hid ⊢ with htab
      · subst htab
        obtain ⟨hother, hkey⟩ := (OrderedMap.mem_keys_erase _ _ _).mp hid
        exact ⟨hacknowledged, hkey, fun _ ↦ hother, rfl⟩
      · exact ⟨hacknowledged, hid, fun hsame ↦ absurd hsame htab, rfl⟩
    obtain ⟨hbefore, hkey, hother, hpair⟩ := hboth
    rcases (hkept.served tab hbefore id hkey).of_takeReply htake with
      hserved | ⟨hclient, hreplied, -⟩
    · exact hserved.mono subset_act.1 subset_act.2.1 subset_act.2.2
        (keepsBridges_act (.of_eq rfl tab)) hpair
    · exact absurd hreplied.symm (hother hclient.symm)

/-- A reply of the writer keeps the invariant: the bridge that remembers its request passes it
on. -/
theorem Kept.writerReply (hkept : world.Kept) (hsound : world.Sound) (hstable : world.Stable)
    {own position : ℕ} {request : WriterRequest} (hrequest : world.inbox[position]? = some request)
    (hwriter : (world.transports own).writer = some request.writer) (body : ServerBody) :
    ({ world with inbox := world.inbox.eraseIdx position }.act own fun transport ↦
      transport.onWriterMessage ⟨request.data.id, body⟩).Kept := by
  set data : WriterMessage := ⟨request.data.id, body⟩ with hdata
  set replied : World := { world with inbox := world.inbox.eraseIdx position } with hreplied
  set final := replied.act own fun transport ↦ transport.onWriterMessage data with hfinal
  have hafter : ∀ tab, final.transports tab = if tab = own then
      { (world.transports own).onWriterMessage data with outbox := [] }
      else world.transports tab := transports_act _ _ _
  have hclient : ∀ tab, (final.transports tab).inFlight = (world.transports tab).inFlight ∧
      (final.transports tab).closed = (world.transports tab).closed ∧
      (final.transports tab).pairChannel = (world.transports tab).pairChannel ∧
      (final.transports tab).pendingPair = (world.transports tab).pendingPair := by
    intro tab
    rw [hafter]
    split_ifs with htab
    · subst htab
      exact ⟨rfl, rfl, rfl, rfl⟩
    · exact ⟨rfl, rfl, rfl, rfl⟩
  have hbridges : ∀ leader tab bridge, (world.transports leader).bridges.get? tab = some bridge →
      leader = own ∧ (final.transports leader).bridges.get? tab =
        some (bridge.onWriterMessage data).1 := by
    intro leader tab bridge hbridge
    obtain rfl : leader = own := (hsound.writer_unique
      ((hsound.transport leader).bridge tab bridge hbridge).writer hwriter).1
    refine ⟨rfl, ?_⟩
    rw [hafter, if_pos rfl]
    show ((world.transports leader).bridges.mapValues _).get? tab = _
    rw [OrderedMap.get?_mapValues, hbridge, Option.map_some]
  have hdownlink : world.downlink ⊆ final.downlink := List.subset_append_left _ _
  refine ⟨hkept.booted, fun tab hopen found id hposted hid ↦ ?_, fun tab hacknowledged id hid ↦ ?_⟩
  · rw [(hclient tab).2.1] at hopen
    rw [(hclient tab).1]
    rcases hkept.answered tab hopen found id hposted hid with hkey | ⟨envelope, hmem, hnumber⟩
    · exact Or.inl hkey
    · exact Or.inr ⟨envelope, List.mem_append_left _ hmem, hnumber⟩
  obtain ⟨hflight, hclosed, hpair, hpending⟩ := hclient tab
  have hbefore : Acknowledged (world.transports tab) :=
    ⟨hclosed ▸ hacknowledged.1, hpair ▸ hacknowledged.2.1, hpending ▸ hacknowledged.2.2⟩
  rw [hflight] at hid
  rcases hkept.served tab hbefore id hid with
    ⟨packet, hpacket, hfrom, hnumber, bridge, hbridge, hobject⟩ |
    ⟨leader, bridge, number, hbridge, hnumber, waiting, hwaiting, hserves, hrequested⟩ | hreply
  · obtain ⟨-, hfound⟩ := hbridges packet.leader tab bridge hbridge
    refine Or.inl ⟨packet, List.mem_append_left _ hpacket, hfrom, hnumber, _, hfound, ?_⟩
    rw [bridge.channel_onWriterMessage data]
    exact hobject
  · have hlive := ((hsound.transport leader).bridge tab bridge hbridge).live
    obtain ⟨rfl, hfound⟩ := hbridges leader tab bridge hbridge
    right
    by_cases hsame : request.data.id = some number
    · -- this is the reply, so the bridge passes it on to the pair channel of the client
      obtain ⟨channel, hchannel⟩ := Option.ne_none_iff_exists'.mp hbefore.2.1
      right
      refine ⟨channel, hpair.trans hchannel, ⟨leader, bridge.channel.channel.object, tab,
        channel.object, ⟨id, body⟩, false⟩, ?_, rfl, rfl, rfl⟩
      have hposts : .channelPost bridge.channel.channel ⟨id, body⟩ false ∈
          ((replied.transports leader).onWriterMessage data).traffic := by
        rw [traffic_onWriterMessage (hsound.sent leader)]
        refine List.mem_flatMap.mpr ⟨bridge, (OrderedMap.mem_values_iff _ _).mpr ⟨tab, hbridge⟩, ?_⟩
        rw [hdata, hsame, LeaderBridge.onWriterMessage_mapped hlive hnumber]
        exact List.mem_singleton_self _
      rw [hfinal, downlink_act]
      refine List.mem_append_right _ (List.mem_flatMap.mpr ⟨_, hposts, ?_⟩)
      refine mem_downlinkPackets.mpr ⟨?_, channel, hpair.trans hchannel, ?_, rfl⟩
      · by_contra hnew
        exact Bool.false_ne_true (hbefore.1.symm.trans (hsound.unbooted tab hnew))
      · exact (hstable.name_eq hsound hbefore.1 hchannel hbridge).symm
    · left
      have hstays : waiting ∈ world.inbox.eraseIdx position := by
        rcases eq_or_mem_eraseIdx hrequest hwaiting with rfl | hmem
        · exact absurd hrequested hsame
        · exact hmem
      refine ⟨leader, _, number, hfound, ?_, waiting, List.mem_append_left _ hstays, ?_, hrequested⟩
      · cases hid : request.data.id with
        | none =>
          rw [hdata, hid, bridge.onWriterMessage_raw]
          exact hnumber
        | some replyId =>
          rw [hdata, hid, bridge.get?_onWriterMessage hlive, if_neg]
          · exact hnumber
          · rintro rfl
            exact hsame hid
      · rw [bridge.channel_onWriterMessage data]
        exact hserves
  · exact Or.inr (Or.inr (hreply.mono hdownlink hpair))

/-- A post keeps the invariant, when its tab has a bridge or waits for its ack. -/
theorem Kept.post (hkept : world.Kept) (hsound : world.Sound) (hstable : world.Stable)
    {data : PageMessage} (hbooted : tab ∈ world.booted)
    (hbridged : data.id ≠ none → Acknowledged (world.transports tab) → world.Bridged tab) :
    (world.post tab data).Kept := by
  set recorded : World := { world with posted := world.posted ++ [(tab, data)] } with hrecorded
  have hafter : ∀ other, (world.post tab data).transports other = if other = tab then
      { (world.transports tab).postMessage data with outbox := [] }
      else world.transports other := transports_act _ _ _
  have hsame : ∀ other, ((world.post tab data).transports other).closed =
        (world.transports other).closed ∧
      ((world.post tab data).transports other).pairChannel = (world.transports other).pairChannel ∧
      ((world.post tab data).transports other).pendingPair =
        (world.transports other).pendingPair ∧
      ((world.post tab data).transports other).bridges = (world.transports other).bridges := by
    intro other
    rw [hafter]
    split_ifs with hother
    · subst hother
      exact client_postMessage _ data
    · exact ⟨rfl, rfl, rfl, rfl⟩
  have hold : ∀ other id, id ∈ (world.transports other).inFlight.keys →
      id ∈ ((world.post tab data).transports other).inFlight.keys := by
    intro other id hid
    rw [hafter]
    split_ifs with hother
    · subst hother
      exact mem_keys_postMessage hid data
    · exact hid
  refine ⟨?_, fun other hopen found id hposted hid ↦ ?_, fun other hacknowledged id hid ↦ ?_⟩
  · intro entry hentry
    rcases List.mem_append.mp hentry with hbefore | hnew
    · exact hkept.booted entry hbefore
    · rw [List.mem_singleton.mp hnew]
      exact hbooted
  · rw [(hsame other).1] at hopen
    rcases List.mem_append.mp hposted with hbefore | hnew
    · rcases hkept.answered other hopen found id hbefore hid with hkey | ⟨envelope, hmem, hnumber⟩
      · exact Or.inl (hold other id hkey)
      · exact Or.inr ⟨envelope, List.mem_append_left _ hmem, hnumber⟩
    · obtain ⟨rfl, rfl⟩ := Prod.mk.inj (List.mem_singleton.mp hnew)
      rcases postMessage_cases (world.transports other) found with
        ⟨hclosed, -⟩ | ⟨-, hfailed, -⟩ | ⟨-, -, htracked⟩
      · exact absurd (hopen.symm.trans hclosed) Bool.false_ne_true
      · exact absurd ((hstable.works other).symm.trans hfailed) Bool.false_ne_true
      · left
        rw [hafter, if_pos rfl, htracked]
        exact mem_keys_tracked.mpr (Or.inr hid)
  · obtain ⟨hclosed, hpair, hpending, -⟩ := hsame other
    have hbefore : Acknowledged (world.transports other) :=
      ⟨hclosed ▸ hacknowledged.1, hpair ▸ hacknowledged.2.1, hpending ▸ hacknowledged.2.2⟩
    have hstill : id ∈ (world.transports other).inFlight.keys →
        (world.post tab data).Served other id := fun hkey ↦
      (hkept.served other hbefore id hkey).mono (List.subset_append_left _ _)
        (List.subset_append_left _ _) (List.subset_append_left _ _)
        (fun leader ↦ .of_eq (hsame leader).2.2.2 other) hpair
    rw [hafter] at hid
    split_ifs at hid with hother
    · subst hother
      rcases mem_keys_of_postMessage hid with hkey | ⟨htracked, hnumber⟩
      · exact hstill hkey
      · -- the value is on the way to the bridge
        obtain ⟨leader, hleader, hsome⟩ := hbridged (by rw [hnumber]; simp) hbefore
        obtain ⟨bridge, hbridge⟩ := Option.isSome_iff_exists.mp hsome
        obtain ⟨channel, hchannel⟩ := Option.ne_none_iff_exists'.mp hbefore.2.1
        refine Or.inl (@onTheWay_of_post recorded id other _ channel data ?_ hnumber leader hleader
          bridge ?_ (hstable.name_eq hsound hbefore.1 hchannel hbridge))
        · show _ ∈ ((world.transports other).postMessage data).traffic
          rw [htracked, traffic_posted (hsound.sent other), hchannel]
          exact List.mem_singleton_self _
        · exact (congrArg (·.get? other) (hsame leader).2.2.2).trans hbridge
    · exact hstill hid

/-- Changes of the other parts of the world keep the invariant. -/
theorem Kept.of_same (hkept : world.Kept) (hbooted : next.booted = world.booted)
    (hposted : next.posted = world.posted) (hanswered : next.answered = world.answered)
    (htransports : next.transports = world.transports) (huplink : next.uplink = world.uplink)
    (hinbox : next.inbox = world.inbox) (hdownlink : next.downlink = world.downlink) :
    next.Kept where
  booted := by
    rw [hposted, hbooted]
    exact hkept.booted
  answered := by
    rw [htransports, hposted, hanswered]
    exact hkept.answered
  served := by
    intro tab hacknowledged id hid
    rw [htransports] at hacknowledged hid
    refine (hkept.served tab hacknowledged id hid).mono ?_ ?_ ?_ ?_ ?_
    · rw [huplink]
      exact fun _ hmem ↦ hmem
    · rw [hinbox]
      exact fun _ hmem ↦ hmem
    · rw [hdownlink]
      exact fun _ hmem ↦ hmem
    · rw [htransports]
      exact fun leader ↦ .of_eq rfl tab
    · rw [htransports]

/-- A tab that is closed afterwards, and had no bridges, takes nothing from the others. -/
theorem Kept.departed (hkept : world.Kept) (hbooted : world.booted ⊆ next.booted)
    (hposted : ∀ entry ∈ next.posted, entry ∈ world.posted ∨ entry.1 = tab)
    (hknown : tab ∈ next.booted) (hanswered : world.answered ⊆ next.answered)
    (htransports : ∀ other, other ≠ tab → next.transports other = world.transports other)
    (hclosed : (next.transports tab).closed = true)
    (hnone : ∀ client, (world.transports tab).bridges.get? client = none)
    (huplink : world.uplink ⊆ next.uplink) (hinbox : world.inbox ⊆ next.inbox)
    (hdownlink : world.downlink ⊆ next.downlink) : next.Kept where
  booted := by
    intro entry hentry
    rcases hposted entry hentry with hold | hown
    · exact hbooted (hkept.booted entry hold)
    · exact hown ▸ hknown
  answered := by
    intro other hopen data id hmem hid
    have hother : other ≠ tab := by
      rintro rfl
      exact Bool.false_ne_true (hopen.symm.trans hclosed)
    rw [htransports other hother] at hopen ⊢
    have hold := (hposted _ hmem).resolve_right hother
    rcases hkept.answered other hopen data id hold hid with hkey | ⟨envelope, hgiven, hnumber⟩
    · exact Or.inl hkey
    · exact Or.inr ⟨envelope, hanswered hgiven, hnumber⟩
  served := by
    intro other hacknowledged id hid
    have hother : other ≠ tab := by
      rintro rfl
      exact Bool.false_ne_true (hacknowledged.1.symm.trans hclosed)
    have hsame := htransports other hother
    rw [hsame] at hacknowledged hid
    refine (hkept.served other hacknowledged id hid).mono huplink hinbox hdownlink ?_
      (by rw [hsame])
    intro leader bridge hbridge
    have hleader : leader ≠ tab := by
      rintro rfl
      cases (hnone other).symm.trans hbridge
    rw [htransports leader hleader]
    exact ⟨bridge, hbridge, rfl, fun _ _ hmap ↦ hmap⟩

/-- A transport that closes keeps the invariant, when it has no writer. -/
theorem Kept.close (hkept : world.Kept) (hsound : world.Sound) (hbooted : tab ∈ world.booted)
    (hwriter : (world.transports tab).writer = none) : (world.act tab Transport.close).Kept := by
  refine hkept.departed (fun _ hmem ↦ hmem) (fun _ hmem ↦ Or.inl hmem) hbooted answered_act
    (fun other hother ↦ ?_) ?_ ((hsound.transport tab).bridges_none hwriter) subset_act.1
    subset_act.2.1 subset_act.2.2
  · rw [transports_act, if_neg hother]
  · rw [transports_act, if_pos rfl]
    exact closed_close (world.transports tab)

/-- A tab that was just created keeps the invariant. -/
theorem Kept.created (hkept : world.Kept) (hsound : world.Sound) (hnew : tab ∉ world.booted) :
    ({ world with booted := world.booted ++ [tab] }.act tab fun _ ↦ .create tab).Kept := by
  set created := { world with booted := world.booted ++ [tab] }.act tab fun _ ↦ .create tab
  have hafter : ∀ other, created.transports other = if other = tab then
      { Transport.create tab with outbox := [] } else world.transports other := transports_act _ _ _
  have hnone : ∀ client, (world.transports tab).bridges.get? client = none := by
    refine (hsound.transport tab).bridges_none
      (Option.eq_none_iff_forall_ne_some.mpr fun writer hwriter ↦ ?_)
    exact hnew (hsound.mem_booted hwriter)
  refine ⟨fun entry hentry ↦ List.mem_append_left _ (hkept.booted entry hentry),
    fun other hopen data id hmem hid ↦ ?_, fun other hacknowledged id hid ↦ ?_⟩
  · have hother : other ≠ tab := by
      rintro rfl
      exact hnew (hkept.booted _ hmem)
    rw [hafter, if_neg hother] at hopen ⊢
    rcases hkept.answered other hopen data id hmem hid with hkey | ⟨envelope, hgiven, hnumber⟩
    · exact Or.inl hkey
    · exact Or.inr ⟨envelope, List.mem_append_left _ hgiven, hnumber⟩
  · have hother : other ≠ tab := by
      rintro rfl
      rw [hafter, if_pos rfl] at hacknowledged
      exact hacknowledged.2.1 rfl
    have hsame : created.transports other = world.transports other := by
      rw [hafter, if_neg hother]
    rw [hsame] at hacknowledged hid
    refine (hkept.served other hacknowledged id hid).mono (List.subset_append_left _ _)
      (List.subset_append_left _ _) (List.subset_append_left _ _) ?_ (by rw [hsame])
    intro leader bridge hbridge
    have hleader : leader ≠ tab := by
      rintro rfl
      cases (hnone other).symm.trans hbridge
    rw [hafter, if_neg hleader]
    exact ⟨bridge, hbridge, rfl, fun _ _ hmap ↦ hmap⟩

/-- The lock callback keeps the invariant, where the leader stays. -/
theorem Kept.granted (hkept : world.Kept) (hsound : world.Sound) (hstable : world.Stable)
    (hlock : world.lock = none) {own request : ℕ} {queue : List LockRequest}
    {factory : Except String Unit} : (world.afterGrant own request queue factory).Kept := by
  have hsent := hsound.sent own
  have hnone := hsound.writer_none hlock
  unfold afterGrant
  set granted : World := { world with
    lock := some ⟨own, request, world.grants, none⟩
    queue := queue
    grants := world.grants + 1 } with hgranted
  have hkeptGranted : granted.Kept := hkept.of_same rfl rfl rfl rfl rfl rfl rfl
  have hself : granted.transports own = world.transports own := rfl
  rcases onLockGranted_cases (world.transports own) world.grants factory with
    ⟨-, hdeclined⟩ | ⟨hopen, -, hpromoted⟩ | ⟨message, hopen, -, hunpromoted⟩
  · refine hkeptGranted.quiet ?_ ?_ ?_ ?_
    all_goals rw [hself, hdeclined]
    · rfl
    · rfl
    · rfl
    · exact fun hacknowledged ↦ ⟨hacknowledged, rfl⟩
  · -- the new leader replays its own requests to its own bridge
    refine hkeptGranted.replay (hsound.transport own).filed
      (fun client _ _ bridge hbridge ↦ ?_) ?_ ?_
      ⟨(world.transports own).nextObject + 1, ⟨world.grants, (world.transports own).clientId⟩⟩ ?_
      (Or.inl ⟨own, ?_, .create ⟨⟨(world.transports own).nextObject,
        ⟨world.grants, (world.transports own).clientId⟩⟩, world.grants⟩, ?_, rfl⟩)
    · cases ((hsound.transport own).bridges_none (hnone own) client).symm.trans hbridge
    · rw [hself, hpromoted]
      rfl
    · rw [hself, hpromoted]
      rfl
    · rw [hself, hpromoted]
      exact traffic_promoted hsent _
    · by_contra hnew
      exact Bool.false_ne_true (hopen.symm.trans (hsound.unbooted own hnew))
    · rw [transports_act, if_pos rfl, hself, hpromoted]
      show ((world.transports own).bridges.set (world.transports own).clientId _).get? own = _
      rw [(hsound.transport own).client]
      exact OrderedMap.get?_set_self _ _ _
  · refine hkeptGranted.quiet ?_ ?_ ?_ ?_
    all_goals rw [hself, hunpromoted]
    · rfl
    · rfl
    · rfl
    · exact fun hacknowledged ↦ absurd (hstable.pairChannel_none hnone hopen) hacknowledged.2.1

/-- Every step keeps the invariant, where the leader stays and the step loses nothing. -/
theorem Kept.step (hkept : world.Kept) (hsound : world.Sound) (hstable : world.Stable)
    {event : WorldEvent} (hloses : LosesNothing world event) (hstays : LeaderStays world event)
    (hstep : world.step event = some next) : next.Kept := by
  cases happens_of_step hstep with
  | booted hnew => exact hkept.created hsound hnew
  | @heard position packet rest htake hlistens =>
    have hreceived : ({ world with discovery := rest } : World).Sound :=
      hsound.of_sameCore ⟨rfl, rfl, rfl, rfl, rfl, fun _ hmem ↦ mem_of_mem_rest htake hmem⟩
    have hrestStable : ({ world with discovery := rest } : World).Stable :=
      ⟨fun found hfound ↦ hstable.announced found (mem_of_mem_rest htake hfound),
        fun found hfound ↦ hstable.silent found (mem_of_mem_rest htake hfound), hstable.paired,
        hstable.works⟩
    have hrest : ({ world with discovery := rest } : World).Kept :=
      hkept.of_same rfl rfl rfl rfl rfl rfl rfl
    have hopen := (hsound.transport packet.target).open_of_discovering hlistens
    exact hrest.discovered hreceived hrestStable hopen (onDiscoveryMessage_cases _ _)
      (hloses (packet, rest) htake hlistens) (hstable.silent packet (mem_of_takePacket htake))
  | unheard _ _ => exact hkept.of_same rfl rfl rfl rfl rfl rfl rfl
  | bridged htake => exact hkept.deliverUplink hsound hstable htake (hloses _ htake)
  | received htake _ _ => exact hkept.received hsound htake
  | lost htake hunheard => exact hkept.undelivered htake hunheard
  | @retried own _ =>
    rcases onPairAckTimeout_cases (world.transports own) with hsame | ⟨pair, -, -, hasked⟩
    · refine hkept.quiet ?_ ?_ ?_ ?_
      all_goals rw [hsame]
      exact fun hacknowledged ↦ ⟨hacknowledged, rfl⟩
    · refine hkept.quiet ?_ ?_ ?_ ?_
      all_goals rw [hasked]
      · rfl
      · rfl
      · rfl
      · exact fun hacknowledged ↦ ⟨hacknowledged, rfl⟩
  | granted hlock _ => exact hkept.granted hsound hstable hlock
  | withdrawn _ => exact hkept.of_same rfl rfl rfl rfl rfl rfl rfl
  | released _ _ => exact hkept.of_same rfl rfl rfl rfl rfl rfl rfl
  | @settled position settlement _ =>
    have hrest : ({ world with settlements := world.settlements.eraseIdx position } : World).Kept :=
      hkept.of_same rfl rfl rfl rfl rfl rfl rfl
    obtain ⟨ready, abort, hquiet | hrejected⟩ := onLockSettled_cases
      (world.transports settlement.tab) settlement.request settlement.outcome
    · refine hrest.quiet ?_ ?_ ?_ ?_
      all_goals rw [show onLockSettled _ _ _ = _ from hquiet]
      exact fun hacknowledged ↦ ⟨hacknowledged, rfl⟩
    · refine hrest.quiet ?_ ?_ ?_ ?_
      all_goals rw [show onLockSettled _ _ _ = _ from hrejected]
      exact fun hacknowledged ↦ ⟨hacknowledged, rfl⟩
  | replied hrequest hwriter => exact hkept.writerReply hsound hstable hrequest hwriter _
  | @crashed own now hlives =>
    have hnone : (world.transports own).writer = none := hstays
    rw [hnone] at hlives
    cases hlives
  | @sent own request hlive =>
    set clients := Function.update world.clients own ((world.clients own).send request).1
    have hrest : ({ world with clients := clients } : World).Kept :=
      hkept.of_same rfl rfl rfl rfl rfl rfl rfl
    exact hrest.post (hsound.of_sameCore ⟨rfl, rfl, rfl, rfl, rfl, fun _ hmem ↦ hmem⟩)
      ⟨hstable.announced, hstable.silent, hstable.paired, hstable.works⟩ hlive.1 fun _ ↦ hloses
  | posted hlive => exact hkept.post hsound hstable hlive.1 hloses
  | @refused own _ =>
    obtain ⟨hfiled, hclosed, hchannel, hpending, hbridges⟩ :=
      client_runMicrotask (world.transports own)
    refine hkept.quiet hbridges hfiled hclosed fun hacknowledged ↦ ⟨?_, hchannel⟩
    unfold Acknowledged at hacknowledged ⊢
    rwa [← hclosed, ← hchannel, ← hpending]
  | closed hlive => exact hkept.close hsound hlive.1 hstays
  | @terminated own hlive =>
    set data := (world.clients own).farewell.toMessage
    have hothers : ∀ other, other ≠ own →
        (world.post own data).transports other = world.transports other := by
      intro other hother
      exact (transports_act _ _ _ other).trans (if_neg hother)
    refine hkept.departed (fun _ hmem ↦ hmem) (fun entry hentry ↦ ?_) hlive.1
      (fun _ hmem ↦ List.mem_append_left _ (List.mem_append_left _ hmem)) (fun other hother ↦ ?_) ?_
      ((hsound.transport own).bridges_none hstays)
      (fun _ hmem ↦ List.mem_append_left _ (List.mem_append_left _ hmem))
      (fun _ hmem ↦ List.mem_append_left _ (List.mem_append_left _ hmem))
      (fun _ hmem ↦ List.mem_append_left _ (List.mem_append_left _ hmem))
    · rcases List.mem_append.mp hentry with hold | hnew
      · exact Or.inl hold
      · exact Or.inr (by rw [List.mem_singleton.mp hnew])
    · exact (transports_act _ _ _ other).trans ((if_neg hother).trans (hothers other hother))
    · refine (congrArg Transport.closed (transports_act _ _ _ own)).trans ?_
      rw [if_pos rfl]
      exact closed_close _
  | @died own hlive =>
    have hrest : ({ world with
        dead := world.dead ++ [own]
        queue := world.queue.filter fun entry ↦ entry.tab ≠ own } : World).Kept :=
      hkept.of_same rfl rfl rfl rfl rfl rfl rfl
    exact hrest.close (hsound.of_sameCore ⟨rfl, rfl, rfl, rfl, rfl, fun _ hmem ↦ hmem⟩) hlive.1
      hstays

/-- The condition on a step: the leader stays, and the step loses nothing. -/
def DisposesSafely (world : World) (event : WorldEvent) : Prop :=
  LeaderStays world event ∧ LosesNothing world event

instance (world : World) (event : WorldEvent) : Decidable (DisposesSafely world event) := by
  unfold DisposesSafely
  infer_instance

/-- The world before the first tab loses nothing. -/
theorem kept_initial : initial.Kept :=
  ⟨nofun, nofun, fun _ hacknowledged ↦ by cases hacknowledged.1⟩

/-- As long as the leader stays, and disposes no bridge that has requests of an acknowledged client,
everything that a client with an ack was given has been answered when nothing is in transit. -/
theorem none_lost (hreaches : automaton.ReachesWhere DisposesSafely initial world)
    (hquiescent : world.Quiescent) : world.AllAnswered := by
  have hall := hreaches.invariant (fun world ↦ world.Sound ∧ world.Stable ∧ world.Kept)
    ⟨sound_initial, stable_initial, kept_initial⟩
    fun world event next ⟨hsound, hstable, hkept⟩ ⟨hstays, hloses⟩ hstep ↦
      ⟨hsound.step hstep, hstable.step hsound hstays hstep,
        hkept.step hsound hstable hloses hstays hstep⟩
  exact hall.2.2.allAnswered hquiescent

/-- A follower asks its leader twice, and the second pair-request arrives before the ack. -/
def retriesBeforeAck : List WorldEvent :=
  [.boot 0, .grant (.ok ()), .boot 1, .deliverDiscovery 0, .deliverDiscovery 0, .retry 1,
    .send 1 (.deleteNote "a"), .deliverDiscovery 0, .deliverDiscovery 0, .deliverDiscovery 0,
    .deliverDiscovery 0, .deliverUplink 0, .writerReply 0 0 (.response .deleteNote),
    .deliverDownlink 0]

/-- The request that waited for the ack was answered. -/
theorem none_lost_retriesBeforeAck : ∃ world,
    automaton.run initial retriesBeforeAck = some world ∧ Acknowledged (world.transports 1) ∧
      world.posted.length = 1 ∧ world.AllAnswered := by
  have hrun : automaton.run initial retriesBeforeAck = some _ := rfl
  refine ⟨_, hrun, by decide, rfl, ?_⟩
  exact none_lost (reachesWhere_of_run hrun (by decide)) ⟨rfl, rfl, rfl⟩

/-- The same follower, and the second pair-request arrives when a request that was sent after the
ack is at the writer. -/
def retriesAfterAck : List WorldEvent :=
  [.boot 0, .grant (.ok ()), .boot 1, .deliverDiscovery 0, .deliverDiscovery 0, .retry 1,
    .deliverDiscovery 0, .deliverDiscovery 1, .send 1 (.deleteNote "a"), .deliverUplink 0,
    .deliverDiscovery 0, .deliverDiscovery 0, .writerReply 0 0 (.response .deleteNote)]

/-- The writer of a leader that stayed has answered everything and nothing is in transit, and the
request is still in flight, without an answer. -/
theorem not_allAnswered_retriesAfterAck : ∃ world,
    automaton.ReachesWhere LeaderStays initial world ∧ (world.transports 0).writer = some 0 ∧
      world.discovery = [] ∧ world.Quiescent ∧ Acknowledged (world.transports 1) ∧
      (world.transports 1).inFlight.keys = [1] ∧ world.answered = [] ∧ ¬ world.AllAnswered := by
  have hrun : automaton.run initial retriesAfterAck = some _ := rfl
  refine ⟨_, reachesWhere_of_run hrun (by decide), rfl, rfl, ⟨rfl, rfl, rfl⟩, by decide, by decide,
    rfl, fun hall ↦ ?_⟩
  obtain ⟨envelope, hanswered, -⟩ := (hall 1 (by decide)).2 ⟨some 1, .deleteNote "a"⟩ 1
    (by decide) rfl
  cases hanswered

end OpfsWebauthn.Storage.World
