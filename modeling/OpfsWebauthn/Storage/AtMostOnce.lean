import Mathlib.Data.List.Count
import OpfsWebauthn.Storage.StableLeader
import OpfsWebauthn.Storage.Traffic

/-!
# At most one execution per leader

As long as the leader stays, a posted value is forwarded to the writer at most as often as it was
posted, when no client posts while its pair is pending and its bridge is already open. A client that
does has its value forwarded by the bridge at once, and again when the ack replays it.

The invariant counts the values forwarded and those on the way to a bridge: together they are at
most those posted, and none as long as the client waits for its ack.
-/

set_option autoImplicit false
set_option relaxedAutoImplicit false

namespace OpfsWebauthn.Storage.World

open Foundation Automaton Transport

variable {world next : World} {tab : ℕ} {data : PageMessage}

/-- How often a value that a client posted was forwarded to a writer. -/
def forwardedCount (world : World) (tab : ℕ) (data : PageMessage) : ℕ :=
  world.forwarded.countP fun entry ↦ entry.client = tab ∧ entry.data = data

/-- How often a value that a client posted is on the way to a bridge. -/
def transitCount (world : World) (tab : ℕ) (data : PageMessage) : ℕ :=
  world.uplink.countP fun packet ↦ packet.client = tab ∧ packet.data = data

/-- How often a client posted a value. -/
def postedCount (world : World) (tab : ℕ) (data : PageMessage) : ℕ :=
  world.posted.count (tab, data)

/-- A value posted once is forwarded at most once. -/
def ForwardedOnce (world : World) : Prop :=
  ∀ tab data, world.forwardedCount tab data ≤ world.postedCount tab data

/-- A value that is replayed and forwarded: it has a number, and is not a `close` request. -/
def Replayable (data : PageMessage) : Prop :=
  data.id ≠ none ∧ data.request.kind ≠ .close

/-- No tab has a bridge for the client of a tab. -/
def Unbridged (world : World) (tab : ℕ) : Prop :=
  ∀ leader ∈ world.booted, (world.transports leader).bridges.get? tab = none

/-- No such value is posted while the pair of its client is pending and a bridge for the client is
open. -/
def PostsUnbridged (world : World) : WorldEvent → Prop
  | .send tab request => request.kind ≠ .close → (world.transports tab).pendingPair ≠ none →
      world.Unbridged tab
  | .post tab data => Replayable data → (world.transports tab).pendingPair ≠ none →
      world.Unbridged tab
  | _ => True

instance (world : World) (event : WorldEvent) : Decidable (PostsUnbridged world event) := by
  unfold PostsUnbridged Replayable Unbridged
  split <;> infer_instance

/-- The transport is open and has no pair channel, or waits for the ack of its pair. -/
def Waiting (transport : Transport) : Prop :=
  transport.closed = false ∧ (transport.pairChannel = none ∨ transport.pendingPair ≠ none)

/-- The invariant. -/
structure Once (world : World) : Prop where
  booted : ∀ entry ∈ world.posted, entry.1 ∈ world.booted
  filed : ∀ tab id data, (world.transports tab).inFlight.get? id = some data →
    (tab, data) ∈ world.posted
  closes : ∀ entry ∈ world.forwarded, entry.data.id ≠ none → entry.data.request.kind ≠ .close
  bounded : ∀ tab data, (data.id ≠ none → data.request.kind ≠ .close) →
    world.forwardedCount tab data + world.transitCount tab data ≤ world.postedCount tab data
  waiting : ∀ tab data, Waiting (world.transports tab) → Replayable data →
    world.forwardedCount tab data + world.transitCount tab data = 0

/-- Under the invariant every value is forwarded at most as often as it was posted. -/
theorem Once.forwardedOnce (honce : world.Once) : world.ForwardedOnce := by
  intro tab data
  by_cases hclose : data.id ≠ none → data.request.kind ≠ .close
  · exact Nat.le_trans (Nat.le_add_right _ _) (honce.bounded tab data hclose)
  · -- a numbered `close` is never forwarded
    have hnone : world.forwardedCount tab data = 0 := by
      refine List.countP_eq_zero.mpr fun entry hentry hsame ↦ hclose ?_
      have hdata : entry.data = data := (of_decide_eq_true hsame).2
      rw [← hdata]
      exact honce.closes entry hentry
    rw [hnone]
    exact Nat.zero_le _

/-! ### Posts and replays -/

/-- The packets of a post count only for its client and its value, and at most once. -/
theorem Sound.countP_uplinkPackets (hsound : world.Sound) (own : ℕ) (channel : PairChannel)
    (value : PageMessage) (tab : ℕ) (data : PageMessage) :
    (uplinkPackets world.booted world.transports own (.pairPost channel value)).countP
      (fun packet ↦ packet.client = tab ∧ packet.data = data) ≤
        if own = tab ∧ value = data then 1 else 0 := by
  split_ifs with hsame
  · exact Nat.le_trans List.countP_le_length (hsound.length_uplinkPackets channel value)
  · refine Nat.le_of_eq (List.countP_eq_zero.mpr fun packet hpacket hcounts ↦ hsame ?_)
    obtain ⟨-, bridge, -, -, hpost⟩ := mem_uplinkPackets.mp hpacket
    have hboth := of_decide_eq_true hcounts
    rw [hpost] at hboth
    exact hboth

/-- A transport has a value in flight at most once. -/
theorem count_inFlight_le_one {transport : Transport}
    (hfiled : ∀ id data, transport.inFlight.get? id = some data → data.id = some id)
    (data : PageMessage) : transport.inFlight.values.count data ≤ 1 := by
  refine List.nodup_iff_count_le_one.mp ?_ data
  refine List.Nodup.of_map PageMessage.id ?_
  have hkeys : transport.inFlight.values.map PageMessage.id = transport.inFlight.keys.map some := by
    rw [OrderedMap.values, OrderedMap.keys, List.map_map, List.map_map]
    refine List.map_congr_left fun entry hentry ↦ ?_
    exact hfiled entry.1 entry.2 ((OrderedMap.mem_entries_iff _ _ _).mp hentry)
  rw [hkeys]
  exact transport.inFlight.keys_nodup.map fun _ _ ↦ Option.some.inj

/-- A replay brings at most one packet for each value in flight, and none for other values. -/
theorem Sound.countP_replay (hsound : world.Sound) (own : ℕ) (channel : PairChannel)
    (values : List PageMessage) (tab : ℕ) (data : PageMessage) :
    ((values.map fun value ↦ TransportEffect.pairPost channel value).flatMap
      (uplinkPackets world.booted world.transports own)).countP
        (fun packet ↦ packet.client = tab ∧ packet.data = data) ≤
          if own = tab then values.count data else 0 := by
  rw [List.flatMap_map]
  split_ifs with hown
  · refine countP_flatMap_le_count (fun value ↦ ?_) values
    have hone := hsound.countP_uplinkPackets own channel value tab data
    simpa [hown] using hone
  · refine Nat.le_of_eq (List.countP_eq_zero.mpr fun packet hpacket hcounts ↦ hown ?_)
    obtain ⟨value, -, hpost⟩ := List.mem_flatMap.mp hpacket
    obtain ⟨-, bridge, -, -, hsame⟩ := mem_uplinkPackets.mp hpost
    have hboth := of_decide_eq_true hcounts
    rw [hsame] at hboth
    exact hboth.1

/-! ### Preservation -/

/-- A change that brings no new requests keeps the invariant. -/
theorem Once.of_le (honce : world.Once) (hbooted : world.booted ⊆ next.booted)
    (hposted : next.posted = world.posted)
    (hfiled : ∀ tab id data, (next.transports tab).inFlight.get? id = some data →
      (tab, data) ∈ world.posted)
    (hcloses : ∀ entry ∈ next.forwarded, entry ∈ world.forwarded ∨
      (entry.data.id ≠ none → entry.data.request.kind ≠ .close))
    (hcount : ∀ tab data, next.forwardedCount tab data + next.transitCount tab data ≤
      world.forwardedCount tab data + world.transitCount tab data)
    (hwaiting : ∀ tab, Waiting (next.transports tab) →
      Waiting (world.transports tab) ∨ tab ∉ world.booted) : next.Once where
  booted := fun entry hentry ↦ hbooted (honce.booted entry (hposted ▸ hentry))
  filed := by
    rw [hposted]
    exact hfiled
  closes := fun entry hentry ↦ (hcloses entry hentry).elim (honce.closes entry) id
  bounded := by
    intro tab data hclose
    rw [postedCount, hposted]
    exact Nat.le_trans (hcount tab data) (honce.bounded tab data hclose)
  waiting := by
    intro tab data hwaits hreplayable
    refine Nat.le_zero.mp (Nat.le_trans (hcount tab data) ?_)
    rcases hwaiting tab hwaits with hbefore | hnew
    · exact Nat.le_of_eq (honce.waiting tab data hbefore hreplayable)
    · -- a tab that was not created has posted nothing
      have hnone : world.postedCount tab data = 0 :=
        List.count_eq_zero.mpr fun hmem ↦ hnew (honce.booted _ hmem)
      rw [← hnone]
      exact honce.bounded tab data fun _ ↦ hreplayable.2

/-- A function that posts no requests keeps the invariant. -/
theorem Once.act (honce : world.Once) {handler : Transport → Transport}
    (hquiet : (world.act tab handler).uplink = world.uplink ∧
      (world.act tab handler).forwarded = world.forwarded)
    (hfiled : ∀ id data, (handler (world.transports tab)).inFlight.get? id = some data →
      (tab, data) ∈ world.posted)
    (hwaiting : Waiting (handler (world.transports tab)) → Waiting (world.transports tab)) :
    (world.act tab handler).Once := by
  refine honce.of_le (fun _ hmem ↦ hmem) rfl ?_ ?_ ?_ ?_
  · intro other id data hdata
    rw [transports_act] at hdata
    split_ifs at hdata with hother
    · exact hother ▸ hfiled id data hdata
    · exact honce.filed other id data hdata
  · intro entry hentry
    rw [hquiet.2] at hentry
    exact Or.inl hentry
  · intro other data
    rw [forwardedCount, transitCount, hquiet.1, hquiet.2]
    exact Nat.le_refl _
  · intro other hwaits
    rw [transports_act] at hwaits
    split_ifs at hwaits with hother
    · exact Or.inl (hother ▸ hwaiting hwaits)
    · exact Or.inl hwaits

/-- A function without traffic that keeps what is in flight, and lets no transport wait, keeps the
invariant. -/
theorem Once.quiet (honce : world.Once) {handler : Transport → Transport}
    (htraffic : (handler (world.transports tab)).traffic = [])
    (hfiled : (handler (world.transports tab)).inFlight = (world.transports tab).inFlight)
    (hwaiting : Waiting (handler (world.transports tab)) → Waiting (world.transports tab)) :
    (world.act tab handler).Once :=
  honce.act (quiet_of_traffic htraffic)
    (fun id data hdata ↦ honce.filed tab id data (hfiled ▸ hdata)) hwaiting

/-- The replay that ends the waiting of a client keeps the invariant. -/
theorem Once.replay (honce : world.Once)
    (hnumbers : ∀ id data, (world.transports tab).inFlight.get? id = some data → data.id = some id)
    {handler : Transport → Transport} (hafter : (world.act tab handler).Sound)
    (channel : PairChannel)
    (htraffic : (handler (world.transports tab)).traffic =
      (world.transports tab).inFlight.values.map fun data ↦ .pairPost channel data)
    (hfiled : (handler (world.transports tab)).inFlight = (world.transports tab).inFlight)
    (hwaits : Waiting (world.transports tab))
    (hdone : ¬ Waiting (handler (world.transports tab))) : (world.act tab handler).Once := by
  have hforwarded : (world.act tab handler).forwarded = world.forwarded := by
    rw [forwarded_act, htraffic, List.filterMap_map]
    simp [forwards, Function.comp_def]
  have hcount : ∀ other data, (world.act tab handler).transitCount other data ≤
      world.transitCount other data +
        if tab = other then (world.transports tab).inFlight.values.count data else 0 := by
    intro other data
    rw [transitCount, uplink_act, htraffic, List.countP_append]
    exact Nat.add_le_add_left (hafter.countP_replay tab channel _ other data) _
  refine ⟨honce.booted, ?_, ?_, ?_, ?_⟩
  · intro other id data hdata
    rw [transports_act] at hdata
    split_ifs at hdata with hother
    · subst hother
      exact honce.filed other id data (hfiled ▸ hdata)
    · exact honce.filed other id data hdata
  · rw [hforwarded]
    exact honce.closes
  · intro other data hclose
    rw [forwardedCount, hforwarded]
    refine Nat.le_trans (Nat.add_le_add_left (hcount other data) _) ?_
    rw [← Nat.add_assoc]
    split_ifs with hother
    · subst hother
      by_cases hmem : data ∈ (world.transports tab).inFlight.values
      · -- the value waited, so this is its first packet
        obtain ⟨id, hid⟩ := (OrderedMap.mem_values_iff _ _).mp hmem
        have hnumber : data.id = some id := hnumbers id data hid
        have hreplayable : Replayable data :=
          ⟨by simp [hnumber], hclose (by simp [hnumber])⟩
        have hnone := honce.waiting tab data hwaits hreplayable
        rw [forwardedCount] at hnone
        rw [hnone, Nat.zero_add]
        refine Nat.le_trans (count_inFlight_le_one hnumbers data) ?_
        exact List.count_pos_iff.mpr (honce.filed tab id data hid)
      · rw [List.count_eq_zero.mpr hmem]
        exact honce.bounded tab data hclose
    · exact honce.bounded other data hclose
  · intro other data hwaiting hreplayable
    rw [transports_act] at hwaiting
    split_ifs at hwaiting with hother
    · exact absurd hwaiting hdone
    · have hnone := honce.waiting other data hwaiting hreplayable
      have hsame := hcount other data
      rw [if_neg fun hsame ↦ hother hsame.symm] at hsame
      rw [forwardedCount, hforwarded]
      rw [forwardedCount] at hnone
      omega

/-- The history of posts may grow by a post of a tab that was created. -/
theorem Once.record (honce : world.Once) (hbooted : tab ∈ world.booted) (data : PageMessage) :
    ({ world with posted := world.posted ++ [(tab, data)] } : World).Once where
  booted := by
    intro entry hentry
    rcases List.mem_append.mp hentry with hold | hnew
    · exact honce.booted entry hold
    · rw [List.mem_singleton.mp hnew]
      exact hbooted
  filed := fun other id found hfound ↦ List.mem_append_left _ (honce.filed other id found hfound)
  closes := honce.closes
  bounded := by
    intro other found hclose
    refine Nat.le_trans (honce.bounded other found hclose) ?_
    rw [postedCount, postedCount, List.count_append]
    exact Nat.le_add_right _ _
  waiting := honce.waiting

/-- A post brings at most one packet, with the value posted. -/
theorem transitCount_posted {handler : Transport → Transport}
    (hafter : (world.act tab handler).Sound) {channel : Option PairChannel}
    (htraffic : (handler (world.transports tab)).traffic =
      channel.toList.map fun channel ↦ .pairPost channel data) (other : ℕ) (found : PageMessage) :
    (world.act tab handler).transitCount other found ≤
      world.transitCount other found + if tab = other ∧ data = found then 1 else 0 := by
  rw [transitCount, uplink_act, htraffic, List.countP_append]
  refine Nat.add_le_add_left ?_ _
  cases channel with
  | none => exact Nat.zero_le _
  | some channel =>
    rw [Option.toList_some, List.map_singleton, List.flatMap_singleton]
    exact hafter.countP_uplinkPackets tab channel data other found

/-- A post that meets the condition keeps the invariant. -/
theorem Once.post (honce : world.Once) (hsound : world.Sound)
    (hafter : (world.post tab data).Sound) (hbooted : tab ∈ world.booted)
    (hunbridged : Replayable data → (world.transports tab).pendingPair ≠ none →
      world.Unbridged tab) :
    (world.post tab data).Once := by
  have hrecord := honce.record hbooted data
  have hsent := hsound.sent tab
  set recorded : World := { world with posted := world.posted ++ [(tab, data)] } with hrecorded
  have hself : recorded.transports tab = world.transports tab := rfl
  have hquiet : ((world.transports tab).postMessage data).traffic = [] →
      ((world.transports tab).postMessage data).inFlight = (world.transports tab).inFlight →
      (Waiting ((world.transports tab).postMessage data) → Waiting (world.transports tab)) →
      (world.post tab data).Once := by
    intro htraffic hfiled hwaiting
    refine hrecord.act (quiet_of_traffic htraffic) (fun id found hfound ↦ ?_) hwaiting
    exact hrecord.filed tab id found (hfiled ▸ hfound)
  rcases postMessage_cases (world.transports tab) data with
    ⟨-, hsame⟩ | ⟨-, -, hdeferred⟩ | ⟨hopen, -, hposted⟩
  · rw [hsame] at hquiet
    exact hquiet (traffic_idle hsent) rfl id
  · rw [hdeferred] at hquiet
    exact hquiet (traffic_deferred hsent data) rfl id
  have htraffic : ((recorded.transports tab).postMessage data).traffic =
      (world.transports tab).pairChannel.toList.map fun channel ↦ .pairPost channel data := by
    rw [hself, hposted]
    exact traffic_posted hsent data
  have hcount : ∀ other found, (world.post tab data).transitCount other found ≤
      world.transitCount other found + if tab = other ∧ data = found then 1 else 0 :=
    transitCount_posted hafter htraffic
  have hforwarded : (world.post tab data).forwarded = world.forwarded := by
    refine forwarded_act.trans ?_
    rw [htraffic, List.filterMap_map]
    simp [forwards, Function.comp_def]
  have htransports : ∀ other, (world.post tab data).transports other =
      if other = tab then { (world.transports tab).posted data with outbox := [] }
      else world.transports other := by
    intro other
    refine (transports_act _ _ _ _).trans ?_
    rw [hself, hposted]
  refine ⟨hrecord.booted, ?_, ?_, ?_, ?_⟩
  · intro other id found hfound
    rw [htransports] at hfound
    split_ifs at hfound with hother
    · subst hother
      change ((world.transports other).tracked data).get? id = some found at hfound
      unfold tracked at hfound
      cases hid : data.id with
      | none =>
        rw [hid] at hfound
        exact hrecord.filed other id found hfound
      | some own =>
        rw [hid] at hfound
        dsimp only at hfound
        rw [OrderedMap.get?_set] at hfound
        split_ifs at hfound
        · rw [← Option.some.inj hfound]
          exact List.mem_append_right _ (List.mem_singleton_self _)
        · exact hrecord.filed other id found hfound
    · exact hrecord.filed other id found hfound
  · rw [hforwarded]
    exact honce.closes
  · intro other found hclose
    have hbefore := honce.bounded other found hclose
    have hpackets := hcount other found
    have hposts : (world.post tab data).postedCount other found =
        world.postedCount other found + if tab = other ∧ data = found then 1 else 0 := by
      show (world.posted ++ [(tab, data)]).count (other, found) = _
      rw [List.count_append, List.count_singleton, postedCount]
      congr 1
      simp
    rw [forwardedCount, hforwarded, hposts]
    rw [forwardedCount] at hbefore
    omega
  · intro other found hwaits hreplayable
    have hbefore : Waiting (world.transports other) := by
      rw [htransports] at hwaits
      split_ifs at hwaits with hother
      · exact hother ▸ hwaits
      · exact hwaits
    have hnone := honce.waiting other found hbefore hreplayable
    have hpackets := hcount other found
    rw [forwardedCount] at hnone
    rw [forwardedCount, hforwarded]
    by_cases hsame : tab = other ∧ data = found
    · obtain ⟨rfl, rfl⟩ := hsame
      -- the post of a client that waits reaches no bridge
      have hlost : (world.post tab data).uplink = world.uplink := by
        refine uplink_act.trans ?_
        rw [htraffic]
        refine (congrArg (world.uplink ++ ·) ?_).trans (List.append_nil _)
        refine List.flatMap_eq_nil_iff.mpr fun effect heffect ↦ ?_
        obtain ⟨channel, hchannel, rfl⟩ := List.mem_map.mp heffect
        have hpaired : (world.transports tab).pairChannel ≠ none := by
          rw [Option.mem_toList.mp hchannel]
          simp
        have hnobody := hunbridged hreplayable (hbefore.2.resolve_left hpaired)
        refine List.eq_nil_iff_forall_not_mem.mpr fun packet hpacket ↦ ?_
        obtain ⟨hbooted, bridge, hbridge, -⟩ := mem_uplinkPackets.mp hpacket
        have hsame : ((world.post tab data).transports packet.leader).bridges =
            (world.transports packet.leader).bridges := by
          rw [htransports]
          split_ifs with hleader
          · rw [hleader]
            rfl
          · rfl
        have hfound : ((world.post tab data).transports packet.leader).bridges.get? tab =
            some bridge := hbridge
        rw [hsame, hnobody packet.leader hbooted] at hfound
        cases hfound
      rw [transitCount, hlost]
      exact hnone
    · rw [if_neg hsame] at hpackets
      omega

/-- A delivery to a bridge keeps the invariant: the packet is gone, and its value was forwarded at
most once for it. -/
theorem Once.deliverUplink (honce : world.Once) (hsound : world.Sound) {position : ℕ}
    {packet : UplinkPacket} {rest : List UplinkPacket} {κ : Type*} [DecidableEq κ]
    {channel : UplinkPacket → κ}
    (htake : takePacket channel world.uplink position = some (packet, rest)) :
    ({ world with uplink := rest }.deliverUplink packet).Once := by
  have hlive : ∀ bridge, (world.transports packet.leader).bridges.get? packet.client = some bridge →
      bridge.disposed = false := fun bridge hbridge ↦
    ((hsound.transport packet.leader).bridge packet.client bridge hbridge).live
  obtain ⟨hposts, hforwards⟩ := traffic_onBridgeMessage (hsound.sent packet.leader) packet.client
    packet.bridge packet.data hlive
  obtain ⟨hinFlight, hclosed, hpair, hpending⟩ := client_onBridgeMessage
    (world.transports packet.leader) packet.client packet.bridge packet.data hlive
  have huplink : ({ world with uplink := rest }.deliverUplink packet).uplink = rest :=
    @uplink_act_of_forall { world with uplink := rest } packet.leader
      (fun transport ↦ transport.onBridgeMessage packet.client packet.bridge packet.data) hposts
  have hforwarded : ({ world with uplink := rest }.deliverUplink packet).forwarded =
      world.forwarded ++ ((world.transports packet.leader).onBridgeMessage packet.client
        packet.bridge packet.data).traffic.filterMap forwards := forwarded_act
  have htransports : ∀ other,
      ({ world with uplink := rest }.deliverUplink packet).transports other =
      if other = packet.leader then
        { (world.transports packet.leader).onBridgeMessage packet.client packet.bridge
            packet.data with
          outbox := [] }
      else world.transports other := transports_act _ _ _
  refine honce.of_le (fun _ hmem ↦ hmem) rfl ?_ ?_ ?_ ?_
  · intro other id data hdata
    rw [htransports] at hdata
    split_ifs at hdata with hother
    · subst hother
      exact honce.filed packet.leader id data (hinFlight ▸ hdata)
    · exact honce.filed other id data hdata
  · intro entry hentry
    rw [hforwarded] at hentry
    rcases List.mem_append.mp hentry with hold | hnew
    · exact Or.inl hold
    · right
      rcases hforwards with hnone | ⟨hclose, writer, hone⟩
      · rw [hnone] at hnew
        cases hnew
      · rw [hone] at hnew
        rw [List.mem_singleton.mp hnew]
        exact hclose
  · intro other data
    have hcount := countP_of_takePacket htake
      fun packet ↦ decide (packet.client = other ∧ packet.data = data)
    have hnew : (((world.transports packet.leader).onBridgeMessage packet.client packet.bridge
        packet.data).traffic.filterMap forwards).countP
          (fun entry ↦ decide (entry.client = other ∧ entry.data = data)) ≤
            if packet.client = other ∧ packet.data = data then 1 else 0 := by
      rcases hforwards with hnone | ⟨-, writer, hone⟩
      · rw [hnone]
        exact Nat.zero_le _
      · rw [hone, List.countP_singleton]
        simp
    rw [forwardedCount, transitCount, huplink, hforwarded, List.countP_append, forwardedCount,
      transitCount, hcount]
    simp only [decide_eq_true_eq] at hcount ⊢
    omega
  · intro other hwaits
    rw [htransports] at hwaits
    split_ifs at hwaits with hother
    · left
      subst hother
      exact ⟨hclosed ▸ hwaits.1, hwaits.2.imp (fun hnone ↦ hpair ▸ hnone)
        fun hwaiting ↦ hpending ▸ hwaiting⟩
    · exact Or.inl hwaits

/-- Changes of the other parts of the world keep the invariant. -/
theorem Once.of_same (honce : world.Once) (hbooted : next.booted = world.booted)
    (hposted : next.posted = world.posted) (htransports : next.transports = world.transports)
    (huplink : next.uplink = world.uplink) (hforwarded : next.forwarded = world.forwarded) :
    next.Once := by
  refine honce.of_le (fun _ hmem ↦ hbooted ▸ hmem) hposted ?_ ?_ ?_ ?_
  · rw [htransports]
    exact honce.filed
  · rw [hforwarded]
    exact fun entry hentry ↦ Or.inl hentry
  · intro tab data
    rw [forwardedCount, transitCount, huplink, hforwarded]
    exact Nat.le_refl _
  · rw [htransports]
    exact fun tab hwaits ↦ Or.inl hwaits

/-- An open transport that acts on an announcement has no pair channel. -/
theorem Stable.pairChannel_none_of_new (hstable : world.Stable) (hsound : world.Sound)
    {packet : DiscoveryPacket} (hpacket : packet ∈ world.discovery) {id : ℕ}
    (hmessage : packet.message = .leaderElected id)
    (hopen : (world.transports tab).closed = false)
    (hnew : ¬ ((world.transports tab).currentLeaderId = some id ∧
      (world.transports tab).pairChannel.isSome)) :
    (world.transports tab).pairChannel = none := by
  cases hchannel : (world.transports tab).pairChannel with
  | none => rfl
  | some channel =>
    obtain ⟨leader, hleader⟩ := hstable.announced packet hpacket id hmessage
    obtain ⟨hcurrent, other, hother⟩ := hstable.paired tab hopen channel hchannel
    have hsame : id = channel.name.leaderId := (hsound.writer_unique hleader hother).2
    exact absurd ⟨hsame ▸ hcurrent, by rw [hchannel]; rfl⟩ hnew

/-- A message on the discovery channel keeps the invariant, when it is no announcement for a paired
transport and no failure. -/
theorem Once.discovered (honce : world.Once) (hsound : world.Sound)
    {handler : Transport → Transport} (hafter : (world.act tab handler).Sound)
    (hopen : (world.transports tab).closed = false) {message : LeaderMessage}
    (hcases : Discovered (world.transports tab) message (handler (world.transports tab)))
    (hnew : ∀ id, message = .leaderElected id →
      ¬ ((world.transports tab).currentLeaderId = some id ∧
        (world.transports tab).pairChannel.isSome) → (world.transports tab).pairChannel = none)
    (hsilent : ∀ id reason, message ≠ .leaderFailed id reason) : (world.act tab handler).Once := by
  have hsent := hsound.sent tab
  have hquiet := @Once.quiet world tab honce handler
  have hreplay := fun channel ↦ honce.replay (hsound.transport tab).filed hafter channel
  generalize handler (world.transports tab) = after at hcases hquiet hreplay
  cases hcases with
  | ignored => exact hquiet (traffic_idle hsent) rfl id
  | paired id hopen hother hunpaired =>
    exact hquiet (traffic_paired hsent id) rfl fun _ ↦ ⟨hopen, Or.inl (hnew id rfl hunpaired)⟩
  | bridged clientId name writer own hwriter hown =>
    exact hquiet (traffic_bridged hsent _ _ _ _) rfl id
  | acknowledged pair hpending =>
    obtain ⟨-, channel, hchannel, -⟩ := (hsound.transport tab).pending pair hpending
    refine hreplay channel ?_ rfl ⟨hopen, Or.inr (by rw [hpending]; simp)⟩ ?_
    · rw [traffic_acknowledged hsent, replayed, hchannel]
    · rintro ⟨-, hnone | hwaiting⟩
      · cases hchannel.symm.trans hnone
      · exact hwaiting rfl
  | deposed leaderId reason hcurrent => exact absurd rfl (hsilent leaderId reason)
  | announced writer own hwriter hown => exact hquiet (traffic_discoveryPost hsent _) rfl id

/-- The lock callback keeps the invariant, where the leader stays. -/
theorem Once.granted (honce : world.Once) (hsound : world.Sound) (hstable : world.Stable)
    (hlock : world.lock = none) {own request : ℕ} {queue : List LockRequest}
    {factory : Except String Unit} : (world.afterGrant own request queue factory).Once := by
  have hafter : (world.afterGrant own request queue factory).Sound := hsound.afterGrant hlock
  have hsent := hsound.sent own
  unfold afterGrant at hafter ⊢
  set granted : World := { world with
    lock := some ⟨own, request, world.grants, none⟩
    queue := queue
    grants := world.grants + 1 } with hgranted
  have honceGranted : granted.Once := honce.of_same rfl rfl rfl rfl rfl
  have hself : granted.transports own = world.transports own := rfl
  rcases onLockGranted_cases (world.transports own) world.grants factory with
    ⟨-, hdeclined⟩ | ⟨hopen, -, hpromoted⟩ | ⟨message, hopen, -, hunpromoted⟩
  · refine honceGranted.quiet ?_ ?_ ?_
    · rw [hself, hdeclined]
      exact traffic_declined hsent _ _
    · rw [hself, hdeclined]
      rfl
    · rw [hself, hdeclined]
      exact id
  · -- nobody was paired before the first leader, so its requests have waited
    have hunpaired := hstable.pairChannel_none (hsound.writer_none hlock) hopen
    refine honceGranted.replay (hsound.transport own).filed hafter
      ⟨(world.transports own).nextObject + 1, ⟨world.grants, (world.transports own).clientId⟩⟩
      ?_ ?_ ⟨hopen, Or.inl hunpaired⟩ ?_
    · rw [hself, hpromoted]
      exact traffic_promoted hsent _
    · rw [hself, hpromoted]
      rfl
    · rw [hself, hpromoted]
      rintro ⟨-, hnone | hwaiting⟩
      · cases hnone
      · exact hwaiting rfl
  · refine honceGranted.quiet ?_ ?_ ?_
    · rw [hself, hunpromoted]
      exact traffic_unpromoted hsent _ _
    · rw [hself, hunpromoted]
      rfl
    · rw [hself, hunpromoted]
      rintro ⟨-, hnone | hwaiting⟩
      · exact ⟨hopen, Or.inl hnone⟩
      · exact absurd rfl hwaiting

/-- A transport that closes keeps the invariant. -/
theorem Once.close (honce : world.Once) (hsound : world.Sound) (own : ℕ) :
    (world.act own Transport.close).Once := by
  have hsent := hsound.sent own
  by_cases hclosed : (world.transports own).closed
  · have hsame := close_closed hclosed
    refine honce.quiet ?_ ?_ ?_
    · rw [hsame]
      exact traffic_idle hsent
    · rw [hsame]
    · rw [hsame]
      exact id
  · have hopen : (world.transports own).closed = false := by simpa using hclosed
    have hshut : (world.transports own).close = (world.transports own).shut := close_eq hopen
    refine honce.act (quiet_of_traffic ?_) ?_ ?_
    · rw [hshut]
      exact traffic_shut hsent
    · rw [hshut]
      exact nofun
    · rw [hshut]
      rintro ⟨hopen, -⟩
      cases hopen

/-- Every step keeps the invariant, where the leader stays and the posts meet the condition. -/
theorem Once.step (honce : world.Once) (hsound : world.Sound) (hstable : world.Stable)
    {event : WorldEvent} (hposts : PostsUnbridged world event) (hstays : LeaderStays world event)
    (hstep : world.step event = some next) : next.Once := by
  have hafter : next.Sound := hsound.step hstep
  cases happens_of_step hstep with
  | @booted own hnew =>
    have hquiet := @quiet_of_traffic { world with booted := world.booted ++ [own] } own
      (fun _ ↦ Transport.create own) (traffic_create own)
    refine honce.of_le (fun _ hmem ↦ List.mem_append_left _ hmem) rfl ?_ ?_ ?_ ?_
    · intro tab id data hdata
      rw [transports_act] at hdata
      split_ifs at hdata
      · cases hdata
      · exact honce.filed tab id data hdata
    · rw [hquiet.2]
      exact fun entry hentry ↦ Or.inl hentry
    · intro tab data
      rw [forwardedCount, transitCount, hquiet.1, hquiet.2]
      exact Nat.le_refl _
    · intro tab hwaits
      rw [transports_act] at hwaits
      split_ifs at hwaits with hown
      · exact Or.inr (hown ▸ hnew)
      · exact Or.inl hwaits
  | @heard position packet rest htake hlistens =>
    have hpacket := mem_of_takePacket htake
    have hreceived : ({ world with discovery := rest } : World).Sound :=
      hsound.of_sameCore ⟨rfl, rfl, rfl, rfl, rfl, fun _ hmem ↦ mem_of_mem_rest htake hmem⟩
    have hrest : ({ world with discovery := rest } : World).Once :=
      honce.of_same rfl rfl rfl rfl rfl
    have hopen := (hsound.transport packet.target).open_of_discovering hlistens
    exact hrest.discovered hreceived hafter hopen (onDiscoveryMessage_cases _ _)
      (fun id hmessage ↦ hstable.pairChannel_none_of_new hsound hpacket hmessage hopen)
      (hstable.silent packet hpacket)
  | unheard _ _ => exact honce.of_same rfl rfl rfl rfl rfl
  | bridged htake => exact honce.deliverUplink hsound htake
  | @received position packet rest channel _ _ _ =>
    have hrest : ({ world with downlink := rest } : World).Once := honce.of_same rfl rfl rfl rfl rfl
    refine hrest.act (quiet_of_traffic (traffic_received (hsound.sent packet.client) _ _)) ?_ id
    intro id data hdata
    change ((world.transports packet.client).inFlight.erase packet.envelope.id).get? id =
      some data at hdata
    rw [OrderedMap.get?_erase] at hdata
    split_ifs at hdata
    exact honce.filed packet.client id data hdata
  | lost _ _ => exact honce.of_same rfl rfl rfl rfl rfl
  | @retried own _ =>
    rcases onPairAckTimeout_cases (world.transports own) with hsame | ⟨pair, -, -, hasked⟩
    · refine honce.quiet ?_ ?_ ?_
      · rw [hsame]
        exact traffic_idle (hsound.sent own)
      · rw [hsame]
      · rw [hsame]
        exact id
    · refine honce.quiet ?_ ?_ ?_
      · rw [hasked]
        exact traffic_discoveryPost (hsound.sent own) _
      · rw [hasked]
        rfl
      · rw [hasked]
        exact id
  | granted hlock _ => exact honce.granted hsound hstable hlock
  | withdrawn _ => exact honce.of_same rfl rfl rfl rfl rfl
  | released _ _ => exact honce.of_same rfl rfl rfl rfl rfl
  | @settled position settlement _ =>
    have hrest : ({ world with settlements := world.settlements.eraseIdx position } : World).Once :=
      honce.of_same rfl rfl rfl rfl rfl
    have htraffic := traffic_onLockSettled (hsound.sent settlement.tab) settlement.request
      settlement.outcome
    obtain ⟨ready, abort, hquiet | hrejected⟩ := onLockSettled_cases
      (world.transports settlement.tab) settlement.request settlement.outcome
    · refine hrest.quiet htraffic ?_ ?_
      · show ((world.transports settlement.tab).onLockSettled _ _).inFlight = _
        rw [hquiet]
      · show Waiting ((world.transports settlement.tab).onLockSettled _ _) → _
        rw [hquiet]
        exact id
    · refine hrest.quiet htraffic ?_ ?_
      · show ((world.transports settlement.tab).onLockSettled _ _).inFlight = _
        rw [hrejected]
      · show Waiting ((world.transports settlement.tab).onLockSettled _ _) → _
        rw [hrejected]
        exact id
  | @replied own position body request _ _ =>
    have hrest : ({ world with inbox := world.inbox.eraseIdx position } : World).Once :=
      honce.of_same rfl rfl rfl rfl rfl
    exact hrest.act (quiet_onWriterMessage (hsound.sent own) _) (honce.filed own) id
  | @crashed own now hlives =>
    have hnone : (world.transports own).writer = none := hstays
    rw [hnone] at hlives
    cases hlives
  | @sent own request hlive =>
    set clients := Function.update world.clients own ((world.clients own).send request).1
    have hrest : ({ world with clients := clients } : World).Once :=
      honce.of_same rfl rfl rfl rfl rfl
    exact hrest.post (hsound.of_sameCore ⟨rfl, rfl, rfl, rfl, rfl, fun _ hmem ↦ hmem⟩) hafter
      hlive.1 fun hreplayable ↦ hposts hreplayable.2
  | posted hlive =>
    exact honce.post hsound hafter hlive.1 hposts
  | @refused own _ =>
    obtain ⟨hfiled, hclosed, hchannel, hpending, -⟩ := client_runMicrotask (world.transports own)
    refine honce.quiet (traffic_runMicrotask (hsound.sent own)) hfiled fun hwaits ↦ ?_
    unfold Waiting at hwaits ⊢
    rwa [← hclosed, ← hchannel, ← hpending]
  | @closed own _ => exact honce.close hsound own
  | @terminated own hlive =>
    set data := (world.clients own).farewell.toMessage
    -- the farewell is a `close` request, which no bridge forwards
    have hposted : (world.post own data).Once :=
      honce.post hsound hsound.post hlive.1 fun hreplayable ↦ absurd rfl hreplayable.2
    exact (hposted.close hsound.post own).of_same rfl rfl rfl rfl rfl
  | @died own _ =>
    have hrest : ({ world with
        dead := world.dead ++ [own]
        queue := world.queue.filter fun entry ↦ entry.tab ≠ own } : World).Once :=
      honce.of_same rfl rfl rfl rfl rfl
    exact hrest.close (hsound.of_sameCore ⟨rfl, rfl, rfl, rfl, rfl, fun _ hmem ↦ hmem⟩) own

/-- The condition on a step: the leader stays, and the posts meet their condition. -/
def PairsQuietly (world : World) (event : WorldEvent) : Prop :=
  LeaderStays world event ∧ PostsUnbridged world event

instance (world : World) (event : WorldEvent) : Decidable (PairsQuietly world event) := by
  unfold PairsQuietly
  infer_instance

/-- As long as the leader stays, and no client posts between the opening of its bridge and the ack,
no value is forwarded more often than it was posted. -/
theorem forwarded_once (hreaches : automaton.ReachesWhere PairsQuietly initial world) :
    world.ForwardedOnce := by
  have hstart : initial.Sound ∧ initial.Stable ∧ initial.Once :=
    ⟨sound_initial, stable_initial, nofun, nofun, nofun, fun _ _ _ ↦ Nat.le_refl 0,
      fun _ _ _ _ ↦ rfl⟩
  have hall := hreaches.invariant (fun world ↦ world.Sound ∧ world.Stable ∧ world.Once) hstart
    fun world event next ⟨hsound, hstable, honce⟩ ⟨hstays, hposts⟩ hstep ↦
      ⟨hsound.step hstep, hstable.step hsound hstays hstep,
        honce.step hsound hstable hposts hstays hstep⟩
  exact hall.2.2.forwardedOnce

/-- A follower pairs; it sends one request before the leader has a bridge for it, and one after its
ack. -/
def sendsAroundAck : List WorldEvent :=
  [.boot 0, .grant (.ok ()), .boot 1, .deliverDiscovery 0, .deliverDiscovery 0,
    .send 1 (.deleteNote "a"), .deliverDiscovery 0, .deliverDiscovery 0, .deliverUplink 0,
    .send 1 (.deleteNote "b"), .deliverUplink 0]

/-- Both requests are forwarded, and no value more often than it was posted. -/
theorem forwarded_once_sendsAroundAck : ∃ world,
    automaton.run initial sendsAroundAck = some world ∧ world.forwarded.length = 2 ∧
      world.ForwardedOnce := by
  have hrun : automaton.run initial sendsAroundAck = some _ := rfl
  exact ⟨_, hrun, rfl, forwarded_once (reachesWhere_of_run hrun (by decide))⟩

/-- A follower pairs, and sends a request when the leader has opened its bridge and the ack is on
the way. -/
def sendsBeforeAck : List WorldEvent :=
  [.boot 0, .grant (.ok ()), .boot 1, .deliverDiscovery 0, .deliverDiscovery 0, .deliverDiscovery 0,
    .send 1 (.deleteNote "a"), .deliverUplink 0, .deliverDiscovery 0, .deliverUplink 0]

/-- The request was posted once and forwarded twice, by a leader that stayed. -/
theorem not_forwardedOnce_sendsBeforeAck : ∃ world,
    automaton.ReachesWhere LeaderStays initial world ∧ (world.transports 0).writer = some 0 ∧
      world.postedCount 1 ⟨some 1, .deleteNote "a"⟩ = 1 ∧
      world.forwardedCount 1 ⟨some 1, .deleteNote "a"⟩ = 2 ∧ ¬ world.ForwardedOnce := by
  have hrun : automaton.run initial sendsBeforeAck = some _ := rfl
  refine ⟨_, reachesWhere_of_run hrun (by decide), rfl, by decide, by decide, fun honce ↦ ?_⟩
  exact absurd (honce 1 ⟨some 1, .deleteNote "a"⟩) (by decide)

end OpfsWebauthn.Storage.World
