import Mathlib.Data.Fintype.Basic
import OpfsWebauthn.Storage.ChannelObjects
import OpfsWebauthn.Storage.NoneLost

/-!
# Requests that failed

The promise of a request is rejected when a writer fails: by an error envelope that the dying leader
posts, or by an `error` event of the transport, which rejects everything that is pending. The
request itself stays in flight unless an error envelope has taken it out, and is replayed to the
next leader. So a request whose promise was rejected may still be executed.

`failed_not_executed` says when it is not: no replay finds a rejected request in flight, and no
`error` event comes while a request that it rejects is on the way to an open bridge. Error envelopes
need no condition. The invariant is `Guarded`: no rejected request is on the way to an open bridge.
-/

set_option autoImplicit false
set_option relaxedAutoImplicit false

namespace OpfsWebauthn.Storage.World

open Foundation Automaton Transport

variable {world next base : World} {tab id : ℕ} {handler : Transport → Transport}
  {bound : ℕ → ℕ}

/-- A step forwards no request to a writer whose promise was rejected before. -/
def ExecutesNoFailed (world : World) (event : WorldEvent) : Prop :=
  ∀ next, world.step event = some next →
    ∀ entry ∈ next.forwarded.drop world.forwarded.length, ∀ id, entry.data.id = some id →
      (entry.client, id) ∉ world.rejected

/-- A step in which every post on a transport is made by its client. -/
def FromClients (_ : World) : WorldEvent → Prop
  | .post .. => False
  | _ => True

/-! ### The condition -/

/-- No request that the client of a tab waits for is on the way to an open bridge. -/
def NoneOnTheWay (world : World) (tab : ℕ) : Prop :=
  ∀ id ∈ (world.clients tab).pending.keys, ¬ world.OnTheWay tab id

/-- No request that a tab has in flight was rejected. -/
def NoneFailed (world : World) (tab : ℕ) : Prop :=
  ∀ id ∈ (world.transports tab).inFlight.keys, (tab, id) ∉ world.rejected

/-- A bridge for a tab is open on the name of its pair channel. -/
def Joined (world : World) (tab : ℕ) : Prop :=
  ∃ leader ∈ world.booted, ∃ bridge, (world.transports leader).bridges.get? tab = some bridge ∧
    (world.transports tab).pairChannel.map PairChannel.name = some bridge.channel.channel.name

/-- The ack of the pending pair replays no request that was rejected, and the failure of the current
leader rejects no request that is on the way to an open bridge. -/
def HeedsMessage (world : World) (tab : ℕ) : LeaderMessage → Prop
  | .pairAck leaderId clientId => clientId = tab →
    (world.transports tab).pendingPair.map PendingPair.leaderId = some leaderId →
      world.Joined tab → world.NoneFailed tab
  | .leaderFailed leaderId _ => (world.transports tab).currentLeaderId = some leaderId →
    world.NoneOnTheWay tab
  | _ => True

/-- The condition on a step: a replay finds no rejected request in flight, and an `error` event that
is not that of a failing writer finds no pending request on the way to an open bridge. -/
def HeedsFailures (world : World) : WorldEvent → Prop
  | .deliverDiscovery position => ∀ found ∈
      takePacket (fun packet ↦ (packet.source, packet.target)) world.discovery position,
      (world.transports found.1.target).discovering = true →
        world.HeedsMessage found.1.target found.1.message
  | .grant factory => factory.isOk = true → world.lock.isNone = true → ∀ entry ∈ world.queue.head?,
      (world.transports entry.tab).closed = false → world.NoneFailed entry.tab
  | .lockSettled position => ∀ settlement ∈ world.settlements[position]?,
      settlement.outcome.isOk = false → (world.transports settlement.tab).closed = false →
        world.NoneOnTheWay settlement.tab
  | _ => True

section Decidability

variable (world)

instance (tab id : ℕ) : Decidable (world.OnTheWay tab id) :=
  inferInstanceAs (Decidable (∃ packet ∈ world.uplink, packet.client = tab ∧
    packet.data.id = some id ∧ ∃ bridge ∈ (world.transports packet.leader).bridges.get? tab,
      bridge.channel.channel.object = packet.bridge))

instance (tab : ℕ) : Decidable (world.NoneOnTheWay tab) := by
  unfold NoneOnTheWay
  infer_instance

instance (tab : ℕ) : Decidable (world.NoneFailed tab) := by
  unfold NoneFailed
  infer_instance

instance (tab : ℕ) : Decidable (world.Joined tab) :=
  inferInstanceAs (Decidable (∃ leader ∈ world.booted,
    ∃ bridge ∈ (world.transports leader).bridges.get? tab,
      (world.transports tab).pairChannel.map PairChannel.name = some bridge.channel.channel.name))

instance (tab : ℕ) (message : LeaderMessage) : Decidable (world.HeedsMessage tab message) := by
  apply @LeaderMessage.casesOn (fun message ↦ Decidable (world.HeedsMessage tab message)) message
  all_goals
    intros
    dsimp only [HeedsMessage]
    infer_instance

instance (event : WorldEvent) : Decidable (HeedsFailures world event) := by
  apply @WorldEvent.casesOn (fun event ↦ Decidable (HeedsFailures world event)) event
  all_goals
    intros
    dsimp only [HeedsFailures]
    infer_instance

instance (event : WorldEvent) : Decidable (ExecutesNoFailed world event) :=
  inferInstanceAs (Decidable (∀ next ∈ world.step event,
    ∀ entry ∈ next.forwarded.drop world.forwarded.length, ∀ id ∈ entry.data.id,
      (entry.client, id) ∉ world.rejected))

instance (event : WorldEvent) : Decidable (FromClients world event) := by
  apply @WorldEvent.casesOn (fun event ↦ Decidable (FromClients world event)) event
  all_goals
    intros
    dsimp only [FromClients]
    infer_instance

end Decidability

/-! ### What a client rejects -/

/-- An event for the listeners that rejects promises. -/
def Alarms : TransportEffect → Bool
  | .error => true
  | .message _ synthetic => synthetic
  | _ => false

/-- The promises that are rejected because of a failure when a function runs. -/
def newlyRejected (world : World) (tab : ℕ) (handler : Transport → Transport) : List ℕ :=
  ((handler (world.transports tab)).outbox.foldl
    (dispatch (handler (world.transports tab)).listening) (world.clients tab, [])).2

theorem rejected_act : (world.act tab handler).rejected =
    world.rejected ++ (newlyRejected world tab handler).map fun id ↦ (tab, id) :=
  rfl

/-- An envelope settles at most the promise of its number. -/
theorem onMessage_pending (client : WorkerClient) (envelope : ServerEnvelope) :
    (client.onMessage envelope).pending.keys ⊆ client.pending.keys ∧
      (client.onMessage envelope).nextId = client.nextId := by
  unfold WorkerClient.onMessage
  split_ifs
  · cases client.pending.get? envelope.id with
    | none => exact ⟨fun _ hid ↦ hid, rfl⟩
    | some kind => exact ⟨fun other hother ↦ ((OrderedMap.mem_keys_erase _ _ _).mp hother).2, rfl⟩
  · exact ⟨fun _ hid ↦ hid, rfl⟩

/-- An `error` event leaves no promise pending, or is not heard. -/
theorem onError_pending (client : WorkerClient) :
    client.onError.pending.keys ⊆ client.pending.keys ∧ client.onError.nextId = client.nextId := by
  unfold WorkerClient.onError
  split_ifs
  · exact ⟨fun _ hid ↦ (by cases hid), rfl⟩
  · exact ⟨fun _ hid ↦ hid, rfl⟩

/-- One event rejects only promises that are pending, and adds none. -/
theorem dispatch_pending (listening : Bool) (state : WorkerClient × List ℕ)
    (effect : TransportEffect) :
    (dispatch listening state effect).1.pending.keys ⊆ state.1.pending.keys ∧
      (dispatch listening state effect).1.nextId = state.1.nextId ∧
      ∀ id ∈ (dispatch listening state effect).2, id ∈ state.2 ∨ id ∈ state.1.pending.keys := by
  have hidle : state.1.pending.keys ⊆ state.1.pending.keys ∧ state.1.nextId = state.1.nextId ∧
      ∀ id ∈ state.2, id ∈ state.2 ∨ id ∈ state.1.pending.keys :=
    ⟨fun _ hid ↦ hid, rfl, fun _ hid ↦ Or.inl hid⟩
  cases effect with
  | message envelope synthetic =>
    cases listening with
    | false => exact hidle
    | true =>
      obtain ⟨hpending, hnext⟩ := onMessage_pending state.1 envelope
      refine ⟨hpending, hnext, fun id hid ↦ ?_⟩
      change id ∈ (if synthetic = true ∧ state.1.listening = true ∧
        (state.1.pending.get? envelope.id).isSome = true then state.2 ++ [envelope.id]
          else state.2) at hid
      split_ifs at hid with hfails
      · refine (List.mem_append.mp hid).imp_right fun hnew ↦ ?_
        rw [List.mem_singleton.mp hnew]
        exact (OrderedMap.mem_keys_iff _ _).mpr (Option.isSome_iff_exists.mp hfails.2.2)
      · exact Or.inl hid
  | error =>
    cases listening with
    | false => exact hidle
    | true =>
      obtain ⟨hpending, hnext⟩ := onError_pending state.1
      refine ⟨hpending, hnext, fun id hid ↦ ?_⟩
      change id ∈ (if state.1.listening = true then state.2 ++ state.1.pending.keys
        else state.2) at hid
      split_ifs at hid
      · exact List.mem_append.mp hid
      · exact Or.inl hid
  | _ => exact hidle

/-- Events reject only promises that are pending, and add none. -/
theorem foldl_dispatch_pending (listening : Bool) (effects : List TransportEffect) :
    ∀ state : WorkerClient × List ℕ,
      (effects.foldl (dispatch listening) state).1.pending.keys ⊆ state.1.pending.keys ∧
        (effects.foldl (dispatch listening) state).1.nextId = state.1.nextId ∧
        ∀ id ∈ (effects.foldl (dispatch listening) state).2,
          id ∈ state.2 ∨ id ∈ state.1.pending.keys := by
  induction effects with
  | nil => exact fun state ↦ ⟨fun _ hid ↦ hid, rfl, fun _ hid ↦ Or.inl hid⟩
  | cons effect rest ih =>
    intro state
    obtain ⟨hpending, hnext, hrejected⟩ := dispatch_pending listening state effect
    obtain ⟨hpendingRest, hnextRest, hrejectedRest⟩ := ih (dispatch listening state effect)
    refine ⟨fun id hid ↦ hpending (hpendingRest hid), hnextRest.trans hnext, fun id hid ↦ ?_⟩
    rcases hrejectedRest id hid with hold | hlater
    · exact hrejected id hold
    · exact Or.inr (hpending hlater)

/-- Events that are no alarms reject nothing. -/
theorem foldl_dispatch_calm (listening : Bool) {effects : List TransportEffect}
    (hcalm : ∀ effect ∈ effects, Alarms effect = false) :
    ∀ state : WorkerClient × List ℕ, (effects.foldl (dispatch listening) state).2 = state.2 := by
  induction effects with
  | nil => exact fun _ ↦ rfl
  | cons effect rest ih =>
    intro state
    have hfirst : (dispatch listening state effect).2 = state.2 := by
      have hquiet := hcalm effect List.mem_cons_self
      cases effect with
      | message envelope synthetic =>
        obtain rfl : synthetic = false := hquiet
        cases listening <;> rfl
      | error => cases hquiet
      | _ => rfl
    exact (ih (fun other hother ↦ hcalm other (List.mem_cons_of_mem _ hother)) _).trans hfirst

/-- What is newly rejected was pending. -/
theorem pending_of_newlyRejected (hid : id ∈ newlyRejected world tab handler) :
    id ∈ (world.clients tab).pending.keys :=
  ((foldl_dispatch_pending _ _ _).2.2 id hid).resolve_left List.not_mem_nil

/-- A function without alarms rejects nothing. -/
theorem newlyRejected_calm
    (hcalm : ∀ effect ∈ (handler (world.transports tab)).outbox, Alarms effect = false) :
    newlyRejected world tab handler = [] :=
  foldl_dispatch_calm _ hcalm _

/-- The clients after a function ran: they number on as before, and wait for nothing new. -/
theorem clients_act (other : ℕ) :
    ((world.act tab handler).clients other).pending.keys ⊆ (world.clients other).pending.keys ∧
      ((world.act tab handler).clients other).nextId = (world.clients other).nextId := by
  have hclients : (world.act tab handler).clients other = if other = tab then
      ((handler (world.transports tab)).outbox.foldl
        (dispatch (handler (world.transports tab)).listening) (world.clients tab, [])).1
      else world.clients other := Function.update_apply _ _ _ _
  rw [hclients]
  split_ifs with hother
  · obtain ⟨hpending, hnext, -⟩ := foldl_dispatch_pending
      (handler (world.transports tab)).listening (handler (world.transports tab)).outbox
      (world.clients tab, [])
    rw [hother]
    exact ⟨hpending, hnext⟩
  · exact ⟨fun _ hid ↦ hid, rfl⟩

/-! ### The invariant -/

/-- The numbers of all requests of a tab are below a bound. -/
structure FreshBelow (bound : ℕ → ℕ) (world : World) : Prop where
  uplink : ∀ packet ∈ world.uplink, ∀ id, packet.data.id = some id → id < bound packet.client
  inFlight : ∀ tab, ∀ id ∈ (world.transports tab).inFlight.keys, id < bound tab
  rejected : ∀ entry ∈ world.rejected, entry.2 < bound entry.1
  pending : ∀ tab, ∀ id ∈ (world.clients tab).pending.keys, id < bound tab

/-- The next numbers of the clients. -/
def nextIds (world : World) (tab : ℕ) : ℕ :=
  (world.clients tab).nextId

/-- The invariant: no request whose promise was rejected is on the way to an open bridge, and no
request of a transport that gave up. -/
structure Guarded (bound : ℕ → ℕ) (world : World) : Prop where
  numbered : world.Numbered
  fresh : FreshBelow bound world
  safe : ∀ entry ∈ world.rejected, ¬ world.OnTheWay entry.1 entry.2
  spent : ∀ tab, (world.transports tab).failed = true → ∀ id, ¬ world.OnTheWay tab id

/-- A world in which nothing is added, but for the bookkeeping of the lock and of the writers. -/
structure Frame (world next : World) : Prop extends Trims world next where
  clients : next.clients = world.clients
  rejected : next.rejected = world.rejected

theorem Frame.refl (world : World) : Frame world world :=
  ⟨⟨rfl, fun _ hmem ↦ hmem, fun _ hmem ↦ hmem, fun _ hmem ↦ hmem⟩, rfl, rfl⟩

/-- A request is on the way when its packet is deliverable. -/
theorem onTheWay_iff : world.OnTheWay tab id ↔ ∃ packet ∈ world.uplink, packet.client = tab ∧
    packet.data.id = some id ∧ world.Deliverable packet := by
  unfold OnTheWay Deliverable
  refine exists_congr fun packet ↦ and_congr_right fun _ ↦ and_congr_right fun hclient ↦ ?_
  rw [hclient]

/-- Larger bounds keep the invariant. -/
theorem Guarded.mono (hguarded : Guarded bound world) {more : ℕ → ℕ}
    (hmore : ∀ tab, bound tab ≤ more tab) : Guarded more world where
  numbered := hguarded.numbered
  fresh := {
    uplink := fun packet hpacket id hid ↦
      Nat.lt_of_lt_of_le (hguarded.fresh.uplink packet hpacket id hid) (hmore _)
    inFlight := fun tab id hid ↦ Nat.lt_of_lt_of_le (hguarded.fresh.inFlight tab id hid) (hmore _)
    rejected := fun entry hentry ↦
      Nat.lt_of_lt_of_le (hguarded.fresh.rejected entry hentry) (hmore _)
    pending := fun tab id hid ↦ Nat.lt_of_lt_of_le (hguarded.fresh.pending tab id hid) (hmore _) }
  safe := hguarded.safe
  spent := hguarded.spent

/-- A request that is on the way after packets were lost was on the way before. -/
theorem OnTheWay.of_trims (htrims : Trims world next) (honTheWay : next.OnTheWay tab id) :
    world.OnTheWay tab id := by
  obtain ⟨packet, hpacket, hclient, hid, hbridge⟩ := honTheWay
  rw [htrims.transports] at hbridge
  exact ⟨packet, htrims.uplink hpacket, hclient, hid, hbridge⟩

/-- The invariant is kept where nothing is added. -/
theorem Guarded.frame (hguarded : Guarded bound world) (hframe : Frame world next) :
    Guarded bound next where
  numbered := hguarded.numbered.trim hframe.toTrims
  fresh := {
    uplink := fun packet hpacket ↦ hguarded.fresh.uplink packet (hframe.uplink hpacket)
    inFlight := by
      rw [hframe.transports]
      exact hguarded.fresh.inFlight
    rejected := by
      rw [hframe.rejected]
      exact hguarded.fresh.rejected
    pending := by
      rw [hframe.clients]
      exact hguarded.fresh.pending }
  safe := by
    rw [hframe.rejected]
    exact fun entry hentry honTheWay ↦
      hguarded.safe entry hentry (honTheWay.of_trims hframe.toTrims)
  spent := by
    rw [hframe.transports]
    exact fun tab hfailed id honTheWay ↦
      hguarded.spent tab hfailed id (honTheWay.of_trims hframe.toTrims)

/-! ### A function runs -/

/-- A request that is on the way after a function ran was on the way before, or the function posted
it to a bridge that is open. -/
theorem onTheWay_act (hnumbered : world.Numbered)
    (hports : Ports base.grants (world.transports tab) (handler (world.transports tab))) {other : ℕ}
    (honTheWay : (world.act tab handler).OnTheWay other id) :
    world.OnTheWay other id ∨ other = tab ∧ ∃ channel data,
      .pairPost channel data ∈ (handler (world.transports tab)).traffic ∧ data.id = some id ∧
        ∃ leader ∈ world.booted, ∃ bridge,
          ((world.act tab handler).transports leader).bridges.get? tab = some bridge ∧
            bridge.channel.channel.name = channel.name := by
  obtain ⟨packet, hpacket, hclient, hid, hdeliverable⟩ := onTheWay_iff.mp honTheWay
  rcases mem_uplink_act hports hpacket with
    hold | ⟨channel, hpost, hown, -, -, hbooted, bridge, hbridge, hname, -⟩
  · left
    exact onTheWay_iff.mpr
      ⟨packet, hold, hclient, hid, deliverable_act hnumbered hports hold hdeliverable⟩
  · right
    exact ⟨hclient.symm.trans hown, channel, packet.data, hpost, hid, packet.leader, hbooted,
      bridge, hbridge, hname⟩

/-- When the leader falls, nothing is on the way to an open bridge. -/
theorem not_onTheWay_of_fallen (hsound : base.Sound)
    (htransports : world.transports = base.transports)
    (hafter : (world.act tab handler).Sound)
    (hgone : (handler (world.transports tab)).writer = none)
    {writer : ℕ} (hwriter : (world.transports tab).writer = some writer) (other id : ℕ) :
    ¬ (world.act tab handler).OnTheWay other id := by
  have hnone : ∀ own, ((world.act tab handler).transports own).writer = none := by
    intro own
    rcases @transports_act_cases world tab handler own with ⟨hother, hkept⟩ | ⟨-, hran⟩
    · rw [hkept]
      cases hsome : (world.transports own).writer with
      | none => rfl
      | some one =>
        rw [htransports] at hsome hwriter
        exact absurd (hsound.writer_unique hsome hwriter).1 hother
    · rw [hran]
      exact hgone
  intro honTheWay
  obtain ⟨packet, -, -, -, hdeliverable⟩ := onTheWay_iff.mp honTheWay
  exact hafter.not_deliverable hnone packet hdeliverable

/-- A function keeps the invariant when it posts no rejected request to an open bridge, and rejects
no request that is on the way. -/
theorem Guarded.act (hguarded : Guarded bound base) (hsound : base.Sound)
    (hframe : Frame base world) (hafter : (world.act tab handler).Sound)
    (hports : Ports base.grants (world.transports tab) (handler (world.transports tab)))
    (hflight : ∀ id ∈ (handler (world.transports tab)).inFlight.keys, id < bound tab)
    (hposts : ∀ channel data id, .pairPost channel data ∈ (handler (world.transports tab)).traffic →
      data.id = some id → (∃ leader ∈ world.booted, ∃ bridge,
        ((world.act tab handler).transports leader).bridges.get? tab = some bridge ∧
          bridge.channel.channel.name = channel.name) → (tab, id) ∉ world.rejected)
    (hnew : ∀ id ∈ newlyRejected world tab handler, ¬ (world.act tab handler).OnTheWay tab id) :
    Guarded bound (world.act tab handler) := by
  have hmiddle : Guarded bound world := hguarded.frame hframe
  refine ⟨Numbered.act hsound hafter hports hguarded.numbered hframe.toTrims, ⟨?_, ?_, ?_, ?_⟩,
    ?_, ?_⟩
  · intro packet hpacket id hid
    rcases mem_uplink_act hports hpacket with hold | ⟨channel, hpost, hclient, -⟩
    · exact hmiddle.fresh.uplink packet hold id hid
    · rw [hclient]
      exact hflight id ((hports.posts channel packet.data hpost).2 id hid)
  · intro other id hid
    rcases @transports_act_cases world tab handler other with ⟨-, hkept⟩ | ⟨rfl, hran⟩
    · rw [hkept] at hid
      exact hmiddle.fresh.inFlight other id hid
    · rw [hran] at hid
      exact hflight id hid
  · intro entry hentry
    rw [rejected_act] at hentry
    rcases List.mem_append.mp hentry with hold | hlater
    · exact hmiddle.fresh.rejected entry hold
    · obtain ⟨id, hid, rfl⟩ := List.mem_map.mp hlater
      exact hmiddle.fresh.pending tab id (pending_of_newlyRejected hid)
  · intro other id hid
    exact hmiddle.fresh.pending other id ((clients_act other).1 hid)
  · intro entry hentry honTheWay
    rw [rejected_act] at hentry
    rcases List.mem_append.mp hentry with hold | hlater
    · rcases onTheWay_act hmiddle.numbered hports honTheWay with
        hbefore | ⟨hclient, channel, data, hpost, hid, hopen⟩
      · exact hmiddle.safe entry hold hbefore
      · refine hposts channel data entry.2 hpost hid hopen ?_
        rw [← hclient]
        exact hold
    · obtain ⟨id, hid, rfl⟩ := List.mem_map.mp hlater
      exact hnew id hid honTheWay
  · intro other hfailed id honTheWay
    -- a transport that gave up has nothing in flight, so it posts nothing
    have hunposted : ¬ (other = tab ∧ ∃ channel data,
        .pairPost channel data ∈ (handler (world.transports tab)).traffic ∧ data.id = some id) := by
      rintro ⟨rfl, channel, data, hpost, hid⟩
      have hkeys := (hports.posts channel data hpost).2 id hid
      have hempty := (hafter.transport other).spent hfailed
      rw [transports_act, if_pos rfl] at hempty
      rw [hempty] at hkeys
      cases hkeys
    have hbefore : world.OnTheWay other id := by
      rcases onTheWay_act hmiddle.numbered hports honTheWay with
        hbefore | ⟨hclient, channel, data, hpost, hid, -⟩
      · exact hbefore
      · exact absurd ⟨hclient, channel, data, hpost, hid⟩ hunposted
    rcases @transports_act_cases world tab handler other with ⟨-, hkept⟩ | ⟨rfl, hran⟩
    · rw [hkept] at hfailed
      exact hmiddle.spent other hfailed id hbefore
    · rw [hran] at hfailed
      rcases hports.spends hfailed with hspent | ⟨hgone, writer, hwriter⟩
      · exact hmiddle.spent other hspent id hbefore
      · exact not_onTheWay_of_fallen hsound hframe.transports hafter hgone hwriter other id
          honTheWay

/-- A function that posts no requests keeps the invariant when it rejects no request that is on the
way. -/
theorem Guarded.unposted (hguarded : Guarded bound base) (hsound : base.Sound)
    (hframe : Frame base world) (hafter : (world.act tab handler).Sound)
    (hports : Ports base.grants (world.transports tab) (handler (world.transports tab)))
    (hflight : ∀ id ∈ (handler (world.transports tab)).inFlight.keys,
      id ∈ (world.transports tab).inFlight.keys)
    (hposts : ∀ channel data,
      .pairPost channel data ∉ (handler (world.transports tab)).traffic)
    (hnew : ∀ id ∈ newlyRejected world tab handler, ¬ world.OnTheWay tab id) :
    Guarded bound (world.act tab handler) := by
  have hmiddle : Guarded bound world := hguarded.frame hframe
  refine hguarded.act hsound hframe hafter hports ?_ ?_ ?_
  · exact fun id hid ↦ hmiddle.fresh.inFlight tab id (hflight id hid)
  · exact fun channel data id hpost ↦ absurd hpost (hposts channel data)
  · intro id hid honTheWay
    rcases onTheWay_act hmiddle.numbered hports honTheWay with
      hbefore | ⟨-, channel, data, hpost, -⟩
    · exact hnew id hid hbefore
    · exact hposts channel data hpost

/-- A function that posts no requests and rejects nothing keeps the invariant. -/
theorem Guarded.calm (hguarded : Guarded bound base) (hsound : base.Sound)
    (hframe : Frame base world) (hafter : (world.act tab handler).Sound)
    (hports : Ports base.grants (world.transports tab) (handler (world.transports tab)))
    (hflight : ∀ id ∈ (handler (world.transports tab)).inFlight.keys,
      id ∈ (world.transports tab).inFlight.keys)
    (hposts : ∀ channel data,
      .pairPost channel data ∉ (handler (world.transports tab)).traffic)
    (hcalm : ∀ effect ∈ (handler (world.transports tab)).outbox, Alarms effect = false) :
    Guarded bound (world.act tab handler) := by
  refine hguarded.unposted hsound hframe hafter hports hflight hposts ?_
  rw [newlyRejected_calm hcalm]
  exact List.forall_mem_nil _

/-- A replay keeps the invariant when it finds no rejected request in flight. -/
theorem Guarded.replay (hguarded : Guarded bound base) (hsound : base.Sound)
    (hframe : Frame base world) (hafter : (world.act tab handler).Sound)
    (hports : Ports base.grants (world.transports tab) (handler (world.transports tab)))
    (hflight : (handler (world.transports tab)).inFlight = (world.transports tab).inFlight)
    (hcalm : ∀ effect ∈ (handler (world.transports tab)).outbox, Alarms effect = false)
    (hnone : (∃ leader ∈ world.booted, ∃ bridge,
      ((world.act tab handler).transports leader).bridges.get? tab = some bridge ∧
        (handler (world.transports tab)).pairChannel.map PairChannel.name =
          some bridge.channel.channel.name) → world.NoneFailed tab) :
    Guarded bound (world.act tab handler) := by
  have hmiddle : Guarded bound world := hguarded.frame hframe
  refine hguarded.act hsound hframe hafter hports ?_ ?_ ?_
  · intro id hid
    rw [hflight] at hid
    exact hmiddle.fresh.inFlight tab id hid
  · intro channel data id hpost hid hopen
    obtain ⟨hchannel, hkeys⟩ := hports.posts channel data hpost
    obtain ⟨leader, hbooted, bridge, hbridge, hname⟩ := hopen
    have hfailed := hnone ⟨leader, hbooted, bridge, hbridge, by rw [hchannel, hname]; rfl⟩
    exact hfailed id (hflight ▸ hkeys id hid)
  · rw [newlyRejected_calm hcalm]
    exact List.forall_mem_nil _

/-! ### The steps -/

/-- A message on the discovery channel that meets the condition keeps the invariant. -/
theorem Guarded.discovered (hguarded : Guarded bound world) (hsound : world.Sound)
    (hafter : (world.act tab handler).Sound)
    (hports : Ports world.grants (world.transports tab) (handler (world.transports tab)))
    {message : LeaderMessage}
    (hcases : Discovered (world.transports tab) message (handler (world.transports tab)))
    (hheeds : world.HeedsMessage tab message) : Guarded bound (world.act tab handler) := by
  have hsent := hsound.sent tab
  have hcalm := @Guarded.calm world world tab handler bound hguarded hsound (.refl world) hafter
    hports
  have hunposted := @Guarded.unposted world world tab handler bound hguarded hsound (.refl world)
    hafter hports
  have hreplay := @Guarded.replay world world tab handler bound hguarded hsound (.refl world) hafter
    hports
  have htransports := transports_act world tab handler
  generalize handler (world.transports tab) = after at hcases hcalm hunposted hreplay htransports
  cases hcases with
  | ignored =>
    refine hcalm (fun _ hid ↦ hid) ?_ ?_
    · simp [traffic_idle hsent]
    · simp [hsent]
  | paired id hopen hother hnew =>
    refine hcalm (fun _ hid ↦ hid) ?_ ?_
    · simp [traffic_paired hsent]
    · simp [paired, hsent, Alarms]
  | bridged clientId name writer own hwriter hown =>
    refine hcalm (fun _ hid ↦ hid) ?_ ?_
    · simp [traffic_bridged hsent]
    · simp [bridged, hsent, Alarms]
  | acknowledged pair hpending =>
    refine hreplay rfl ?_ ?_
    · intro effect heffect
      simp only [acknowledged, hsent, List.nil_append, replayed] at heffect
      split at heffect
      · obtain ⟨data, -, rfl⟩ := List.mem_map.mp heffect
        rfl
      · cases heffect
    · rintro ⟨leader, hbooted, bridge, hbridge, hname⟩
      refine hheeds (hsound.transport tab).client (by rw [hpending]; rfl)
        ⟨leader, hbooted, bridge, ?_, hname⟩
      rw [htransports] at hbridge
      split_ifs at hbridge with hleader
      · rw [hleader]
        exact hbridge
      · exact hbridge
  | deposed leaderId reason hcurrent =>
    refine hunposted (fun _ hid ↦ hid) ?_ ?_
    · simp [traffic_deposed hsent]
    · exact fun id hid ↦ hheeds hcurrent id (pending_of_newlyRejected hid)
  | announced writer own hwriter hown =>
    refine hcalm (fun _ hid ↦ hid) ?_ ?_
    · simp [traffic_discoveryPost hsent]
    · simp [emit, hsent, Alarms]

/-- A granted lock keeps the invariant when a new leader has no rejected request in flight. -/
theorem Guarded.granted (hguarded : Guarded bound world) (hsound : world.Sound)
    (hlock : world.lock = none) {own request : ℕ} {queue : List LockRequest}
    {factory : Except String Unit}
    (hheeds : factory.isOk = true → (world.transports own).closed = false → world.NoneFailed own) :
    Guarded bound (world.afterGrant own request queue factory) := by
  have hafter : (world.afterGrant own request queue factory).Sound := hsound.afterGrant hlock
  have hsent := hsound.sent own
  unfold afterGrant at hafter ⊢
  set granted : World := { world with
    lock := some ⟨own, request, world.grants, none⟩
    queue := queue
    grants := world.grants + 1 } with hgranted
  have hframe : Frame world granted :=
    ⟨⟨rfl, fun _ hmem ↦ hmem, fun _ hmem ↦ hmem, fun _ hmem ↦ hmem⟩, rfl, rfl⟩
  have hself : granted.transports own = world.transports own := rfl
  rcases onLockGranted_cases (world.transports own) world.grants factory with
    ⟨-, hdeclined⟩ | ⟨hopen, hfactory, hpromoted⟩ | ⟨message, -, -, hunpromoted⟩
  · refine hguarded.calm hsound hframe hafter ?_ ?_ ?_ ?_
    · rw [hself, hdeclined]
      exact .of_same rfl (Or.inr rfl) (Or.inr rfl) (Or.inr rfl) rfl (traffic_declined hsent _ _)
    · rw [hself, hdeclined]
      exact fun _ hid ↦ hid
    · rw [hself, hdeclined]
      simp [traffic_declined hsent]
    · rw [hself, hdeclined]
      simp [emit, hsent, Alarms]
  · refine hguarded.replay hsound hframe hafter ?_ ?_ ?_ fun _ ↦ ?_
    · rw [hself, hpromoted]
      exact (hsound.transport own).ports_promoted hsent hopen
    · rw [hself, hpromoted]
      rfl
    · rw [hself, hpromoted]
      intro effect heffect
      simp only [promoted, hsent, List.nil_append, List.mem_append, List.mem_singleton,
        List.mem_map] at heffect
      rcases heffect with (rfl | ⟨data, -, rfl⟩) | rfl
      · rfl
      · rfl
      · rfl
    · exact hheeds (by rw [hfactory]; rfl) hopen
  · refine hguarded.calm hsound hframe hafter ?_ ?_ ?_ ?_
    · rw [hself, hunpromoted]
      exact .of_same rfl (Or.inr rfl) (Or.inr rfl) (Or.inr rfl) rfl (traffic_unpromoted hsent _ _)
    · rw [hself, hunpromoted]
      exact fun _ hid ↦ hid
    · rw [hself, hunpromoted]
      simp [traffic_unpromoted hsent]
    · rw [hself, hunpromoted]
      simp [unpromoted, hsent, Alarms]

/-- A bridge that hears its client fires no event. -/
theorem calm_onBridgeMessage {transport : Transport} (hsent : transport.outbox = [])
    (clientId object : ℕ) (data : PageMessage)
    (hlive : ∀ bridge, transport.bridges.get? clientId = some bridge → bridge.disposed = false) :
    ∀ effect ∈ (transport.onBridgeMessage clientId object data).outbox, Alarms effect = false := by
  rcases onBridgeMessage_cases transport clientId object data hlive with
    ⟨-, hsame⟩ | ⟨bridge, -, -, hheard⟩
  · rw [hsame, hsent]
    exact List.forall_mem_nil _
  · generalize transport.onBridgeMessage clientId object data = after at hheard
    cases hheard with
    | passed hid => simp [passed, hsent, Alarms]
    | forwarded id hid hkind => simp [Transport.forwarded, hsent, Alarms]
    | closed id hid hkind => simp [unbridged, hsent, Alarms]

/-- The posts of bridges are no alarms. -/
theorem calm_channelPosts {port : BridgePort} {synthetic : Bool} {effects : List BridgeEffect} :
    ∀ effect ∈ channelPosts port synthetic effects, Alarms effect = false := by
  intro effect heffect
  obtain ⟨bridgeEffect, -, hsome⟩ := List.mem_filterMap.mp heffect
  cases bridgeEffect with
  | channelPost envelope =>
    obtain rfl := Option.some.inj hsome
    rfl
  | writerPost message => cases hsome
  | channelClose => cases hsome
  | clientClosed => cases hsome

/-- A continuation of a lock request fires no event when the request was granted and released, or
the transport is closed. -/
theorem onLockSettled_quiet {transport : Transport} (hsent : transport.outbox = []) {request : ℕ}
    {outcome : Except String Unit} (hquiet : outcome.isOk = true ∨ transport.closed = true) :
    (transport.onLockSettled request outcome).outbox = [] := by
  unfold onLockSettled
  cases outcome with
  | ok _ =>
    dsimp only
    split_ifs
    · exact hsent
    · exact hsent
  | error message =>
    have hclosed : transport.closed = true := hquiet.resolve_left Bool.false_ne_true
    simp only [hclosed, if_true]
    split_ifs
    · exact hsent
    · exact hsent

/-- The error event for a failed lock request keeps the invariant when it rejects no request that is
on the way. -/
theorem Guarded.lockSettled (hguarded : Guarded bound world) (hsound : world.Sound)
    {own request : ℕ} {outcome : Except String Unit}
    (hafter : (world.act own fun transport ↦ transport.onLockSettled request outcome).Sound)
    (hheeds : outcome.isOk = false → (world.transports own).closed = false →
      world.NoneOnTheWay own) :
    Guarded bound (world.act own fun transport ↦ transport.onLockSettled request outcome) := by
  have hsent := hsound.sent own
  have htraffic := traffic_onLockSettled hsent request outcome
  have hran := ran_onLockSettled (fun _ ↦ True) True (world.transports own) request outcome
  have hflight : ((world.transports own).onLockSettled request outcome).inFlight =
      (world.transports own).inFlight := by
    obtain ⟨ready, abort, hquiet | hrejected⟩ :=
      onLockSettled_cases (world.transports own) request outcome
    · rw [hquiet]
    · rw [hrejected]
  refine hguarded.unposted hsound (.refl world) hafter ((hsound.transport own).ports hsent hran)
    ?_ ?_ ?_
  · rw [hflight]
    exact fun _ hid ↦ hid
  · simp [htraffic]
  · intro id hid
    by_cases hquiet : outcome.isOk = true ∨ (world.transports own).closed = true
    · have hnone : ((world.transports own).onLockSettled request outcome).outbox = [] :=
        onLockSettled_quiet hsent hquiet
      rw [newlyRejected_calm (by rw [hnone]; exact List.forall_mem_nil _)] at hid
      cases hid
    · obtain ⟨hfails, hopen⟩ := not_or.mp hquiet
      exact hheeds (by simpa using hfails) (by simpa using hopen) id (pending_of_newlyRejected hid)

/-- After a crash nothing is deliverable, so what it rejects is not on the way. -/
theorem Guarded.crashed (hguarded : Guarded bound world) (hsound : world.Sound) {own now : ℕ}
    (hlives : (world.transports own).writer.isSome)
    (hafter : (world.act own fun transport ↦ transport.onWriterError now).Sound) :
    Guarded bound (world.act own fun transport ↦ transport.onWriterError now) := by
  have hsent := hsound.sent own
  obtain ⟨writer, hwriter⟩ := Option.isSome_iff_exists.mp hlives
  have hleads := (hsound.transport own).leads writer hwriter
  have hran := ran_onWriterError (fun _ ↦ True) True trivial hwriter hleads now
  have hports := (hsound.transport own).ports hsent hran
  rcases onWriterError_cases (world.transports own) now with
    hsame | ⟨leader, times, -, -, hcrashed⟩
  · refine hguarded.calm hsound (.refl world) hafter hports ?_ ?_ ?_
    · rw [hsame]
      exact fun _ hid ↦ hid
    · rw [hsame]
      simp [traffic_idle hsent]
    · rw [hsame, hsent]
      exact List.forall_mem_nil _
  have hflight : ∀ id ∈ ((world.transports own).onWriterError now).inFlight.keys,
      id ∈ (world.transports own).inFlight.keys := by
    rcases hcrashed with hrequested | habandoned
    · rw [hrequested]
      exact fun _ hid ↦ hid
    · rw [habandoned]
      exact List.forall_mem_nil _
  have hposts : ∀ channel data,
      .pairPost channel data ∉ ((world.transports own).onWriterError now).traffic := by
    intro channel data hpost
    have hmem := List.mem_of_mem_filter hpost
    refine @pairPost_not_mem_crashed _ hsent leader "storage writer error" channel data ?_
    rcases hcrashed with hrequested | habandoned
    · rw [hrequested] at hmem
      simpa [requested] using hmem
    · rw [habandoned] at hmem
      simpa [abandoned] using hmem
  have hgone : ((world.transports own).onWriterError now).writer = none := by
    rcases hcrashed with hrequested | habandoned
    · rw [hrequested]
      rfl
    · rw [habandoned]
      rfl
  refine hguarded.act hsound (.refl world) hafter hports ?_ ?_ ?_
  · exact fun id hid ↦ hguarded.fresh.inFlight own id (hflight id hid)
  · exact fun channel data id hpost ↦ absurd hpost (hposts channel data)
  · exact fun id _ ↦ not_onTheWay_of_fallen hsound rfl hafter hgone hwriter own id

/-- An error envelope keeps the invariant: what it rejects is not on the way, because its leader is
gone. -/
theorem Guarded.received (hguarded : Guarded bound world) (hsound : world.Sound)
    {packet : DownlinkPacket} (hpacket : packet ∈ world.downlink) {rest : List DownlinkPacket}
    (hrest : rest ⊆ world.downlink) {channel : PairChannel}
    (hchannel : (world.transports packet.client).pairChannel = some channel)
    (hobject : channel.object = packet.object)
    (hafter : ({ world with downlink := rest }.act packet.client fun transport ↦
      transport.onPairMessage packet.envelope packet.synthetic).Sound) :
    Guarded bound ({ world with downlink := rest }.act packet.client fun transport ↦
      transport.onPairMessage packet.envelope packet.synthetic) := by
  have hsent := hsound.sent packet.client
  have hframe : Frame world { world with downlink := rest } :=
    ⟨⟨rfl, fun _ hmem ↦ hmem, fun _ hmem ↦ hmem, hrest⟩, rfl, rfl⟩
  have hports := (hsound.transport packet.client).ports hsent
    (.received packet.envelope packet.synthetic : Ran (fun _ ↦ True) True _ _)
  have hflight : ∀ id ∈ ((world.transports packet.client).onPairMessage packet.envelope
      packet.synthetic).inFlight.keys, id ∈ (world.transports packet.client).inFlight.keys :=
    fun id hid ↦ ((OrderedMap.mem_keys_erase _ _ _).mp hid).2
  have htraffic := traffic_received hsent packet.envelope packet.synthetic
  refine hguarded.unposted hsound hframe hafter hports hflight ?_ fun id hid honTheWay ↦ ?_
  · show ∀ channel data, .pairPost channel data ∉
      ((world.transports packet.client).onPairMessage packet.envelope packet.synthetic).traffic
    simp [htraffic]
  · by_cases hsynthetic : packet.synthetic = true
    · obtain ⟨request, hrequest, hclient, -, hdeliverable⟩ :=
        onTheWay_iff.mp (honTheWay.of_trims hframe.toTrims)
      exact hguarded.numbered.not_deliverable hpacket hsynthetic hchannel hobject hrequest hclient
        hdeliverable
    · rw [newlyRejected_calm] at hid
      · cases hid
      · show ∀ effect ∈ ((world.transports packet.client).onPairMessage packet.envelope
          packet.synthetic).outbox, Alarms effect = false
        simpa [onPairMessage, emit, hsent, Alarms] using hsynthetic

/-- A refusal on a microtask keeps the invariant: no request of a transport that gave up is on the
way. -/
theorem Guarded.refused (hguarded : Guarded bound world) (hsound : world.Sound) {own : ℕ}
    (hqueued : (world.transports own).microtasks ≠ [])
    (hafter : (world.act own Transport.runMicrotask).Sound) :
    Guarded bound (world.act own Transport.runMicrotask) := by
  have hsent := hsound.sent own
  have hports := (hsound.transport own).ports hsent
    (ran_runMicrotask (fun _ ↦ True) True (world.transports own))
  have hfailed := (hsound.transport own).defers hqueued
  refine hguarded.unposted hsound (.refl world) hafter hports ?_ ?_ ?_
  · rw [(client_runMicrotask (world.transports own)).1]
    exact fun _ hid ↦ hid
  · simp [traffic_runMicrotask hsent]
  · exact fun id _ ↦ hguarded.spent own hfailed id

/-- A post under a number that is new keeps the invariant. -/
theorem Guarded.post (hguarded : Guarded bound world) (hsound : world.Sound) {own number : ℕ}
    {data : PageMessage} (hnumber : data.id = some number) (hbound : number < bound own)
    (hrejected : (own, number) ∉ world.rejected) :
    Guarded bound (world.post own data) := by
  have hafter : (world.post own data).Sound := hsound.post
  have hsent := hsound.sent own
  have hframe : Frame world { world with posted := world.posted ++ [(own, data)] } :=
    ⟨⟨rfl, fun _ hmem ↦ hmem, fun _ hmem ↦ hmem, fun _ hmem ↦ hmem⟩, rfl, rfl⟩
  have hports := (hsound.transport own).ports hsent
    (ran_postMessage (fun _ ↦ True) True (world.transports own) data)
  unfold World.post at hafter ⊢
  set recorded : World := { world with posted := world.posted ++ [(own, data)] }
  have hself : recorded.transports own = world.transports own := rfl
  rcases postMessage_cases (world.transports own) data with
    ⟨-, hsame⟩ | ⟨-, -, hdeferred⟩ | ⟨-, -, hposted⟩
  · refine hguarded.calm hsound hframe hafter hports ?_ ?_ ?_
    · rw [hself, hsame]
      exact fun _ hid ↦ hid
    · rw [hself, hsame]
      simp [traffic_idle hsent]
    · rw [hself, hsame, hsent]
      exact List.forall_mem_nil _
  · refine hguarded.calm hsound hframe hafter hports ?_ ?_ ?_
    · rw [hself, hdeferred]
      exact fun _ hid ↦ hid
    · rw [hself, hdeferred]
      simp [traffic_deferred hsent]
    · rw [hself, hdeferred, deferred, hsent]
      exact List.forall_mem_nil _
  · refine hguarded.act hsound hframe hafter hports ?_ ?_ ?_
    · rw [hself, hposted]
      intro id hid
      rcases mem_keys_tracked.mp hid with hold | hnew
      · exact hguarded.fresh.inFlight own id hold
      · rw [← Option.some.inj (hnumber.symm.trans hnew)]
        exact hbound
    · intro channel value id hpost hid _
      rw [hself, hposted, traffic_posted hsent] at hpost
      obtain ⟨found, -, hsame⟩ := List.mem_map.mp hpost
      rw [← (TransportEffect.pairPost.inj hsame).2] at hid
      rw [← Option.some.inj (hnumber.symm.trans hid)]
      exact hrejected
    · rw [newlyRejected_calm]
      · exact List.forall_mem_nil _
      · rw [hself, hposted]
        simp [Transport.posted, hsent, Alarms]

/-- A transport that closes keeps the invariant. -/
theorem Guarded.close (hguarded : Guarded bound base) (hsound : base.Sound)
    (hframe : Frame base world) {own : ℕ} (hafter : (world.act own Transport.close).Sound) :
    Guarded bound (world.act own Transport.close) := by
  have hself : world.transports own = base.transports own := by rw [hframe.transports]
  have hsent : (world.transports own).outbox = [] := by
    rw [hself]
    exact hsound.sent own
  have htransport : (world.transports own).Sound base.grants own := by
    rw [hself]
    exact hsound.transport own
  have hports := htransport.ports hsent
    (ran_close (fun _ ↦ True) True (Or.inl trivial : True ∨ (world.transports own).writer = none))
  refine hguarded.calm hsound hframe hafter hports ?_ ?_ ?_
  all_goals by_cases hclosed : (world.transports own).closed = true
  · rw [close_closed hclosed]
    exact fun _ hid ↦ hid
  · rw [close_eq (by simpa using hclosed)]
    exact List.forall_mem_nil _
  · rw [close_closed hclosed]
    simp [traffic_idle hsent]
  · rw [close_eq (by simpa using hclosed)]
    simp [traffic_shut hsent]
  · rw [close_closed hclosed, hsent]
    exact List.forall_mem_nil _
  · rw [close_eq (by simpa using hclosed)]
    intro effect heffect
    simp only [shut, releases, hsent, List.nil_append, List.mem_append, List.mem_map] at heffect
    rcases heffect with ⟨_, -, rfl⟩ | ⟨_, -, rfl⟩ | ⟨_, -, rfl⟩
    · rfl
    · rfl
    · rfl

/-- The clients number on as before. -/
theorem nextIds_act : nextIds (world.act tab handler) = nextIds world := by
  ext other
  exact (clients_act other).2

/-- A post gives out no number of its own. -/
theorem nextIds_post {data : PageMessage} : nextIds (world.post tab data) = nextIds world := by
  ext other
  exact (@clients_act { world with posted := world.posted ++ [(tab, data)] } tab
    (fun transport ↦ transport.postMessage data) other).2

/-- A function that runs in a world with the same clients leaves their next numbers as they are. -/
theorem Guarded.renumber {middle : World}
    (hguarded : Guarded (nextIds world) (middle.act tab handler))
    (hsame : middle.clients = world.clients) :
    Guarded (nextIds (middle.act tab handler)) (middle.act tab handler) := by
  have hids : nextIds (middle.act tab handler) = nextIds world := by
    rw [nextIds_act]
    ext other
    rw [nextIds, hsame]
    rfl
  rw [hids]
  exact hguarded

/-- The promise of a number that a client has not given out was not rejected. -/
theorem Guarded.unused (hguarded : Guarded (nextIds world) world) (own : ℕ) :
    (own, (world.clients own).nextId) ∉ world.rejected := fun hrejected ↦
  Nat.lt_irrefl _ (hguarded.fresh.rejected _ hrejected)

/-- A client that waits for one more request keeps the invariant, under its next number. -/
theorem Guarded.sent (hguarded : Guarded (nextIds world) world) (own : ℕ)
    (request : WorkerRequest) :
    Guarded (nextIds { world with
        clients := Function.update world.clients own ((world.clients own).send request).1 })
      { world with
        clients := Function.update world.clients own ((world.clients own).send request).1 } := by
  set clients := Function.update world.clients own
    ((world.clients own).send request).1 with hclients
  have hupdated : ∀ tab, clients tab = if tab = own then ((world.clients own).send request).1
      else world.clients tab := fun tab ↦ Function.update_apply _ _ _ _
  have hmore : ∀ tab, nextIds world tab ≤ (clients tab).nextId := by
    intro tab
    rw [hupdated]
    split_ifs with htab
    · rw [htab]
      exact Nat.le_succ _
    · exact Nat.le_refl _
  have hlater := hguarded.mono hmore
  refine ⟨hguarded.numbered.trim ?_, ⟨hlater.fresh.uplink, hlater.fresh.inFlight,
    hlater.fresh.rejected, fun tab id hid ↦ ?_⟩, hguarded.safe, hguarded.spent⟩
  · exact ⟨rfl, fun _ hmem ↦ hmem, fun _ hmem ↦ hmem, fun _ hmem ↦ hmem⟩
  · change id ∈ (clients tab).pending.keys at hid
    show id < (clients tab).nextId
    by_cases htab : tab = own
    · rw [hupdated, if_pos htab] at hid ⊢
      rcases (OrderedMap.mem_keys_set _ _ _ _).mp hid with hnew | hold
      · rw [hnew]
        exact Nat.lt_succ_self _
      · exact Nat.lt_succ_of_lt (hguarded.fresh.pending own id hold)
    · rw [hupdated, if_neg htab] at hid ⊢
      exact hguarded.fresh.pending tab id hid

/-- A client that says farewell and leaves keeps the invariant. -/
theorem Guarded.terminated (hguarded : Guarded (nextIds world) world) (hsound : world.Sound)
    (own : ℕ) {left : World}
    (hleft : left = (world.post own (world.clients own).farewell.toMessage).act own
      Transport.close) :
    Guarded (nextIds { left with
        clients := Function.update left.clients own (left.clients own).terminate })
      { left with clients := Function.update left.clients own (left.clients own).terminate } := by
  set clients := Function.update left.clients own (left.clients own).terminate with hclients
  have hupdated : ∀ tab, clients tab = if tab = own then (left.clients own).terminate
      else left.clients tab := fun tab ↦ Function.update_apply _ _ _ _
  have hids : nextIds left = nextIds world := by
    rw [hleft, nextIds_act, nextIds_post]
  have hown : (clients own).nextId = (world.clients own).nextId + 1 := by
    rw [hupdated, if_pos rfl]
    exact congrArg Nat.succ (congrFun hids own)
  have hmore : ∀ tab, nextIds world tab ≤ (clients tab).nextId := by
    intro tab
    by_cases htab : tab = own
    · rw [htab, hown]
      exact Nat.le_succ _
    · rw [hupdated, if_neg htab, ← hids]
      exact Nat.le_refl _
  have hrejected := hguarded.unused own
  have hposted : Guarded (fun tab ↦ (clients tab).nextId)
      (world.post own (world.clients own).farewell.toMessage) := by
    refine (hguarded.mono hmore).post hsound rfl ?_ hrejected
    show (world.clients own).nextId < (clients own).nextId
    rw [hown]
    exact Nat.lt_succ_self _
  have hafter : left.Sound := by
    rw [hleft]
    exact hsound.post.act (fun _ hfalse ↦ hfalse.elim)
      (ran_close (fun _ ↦ False) True (Or.inl trivial))
  have hclosed : Guarded (fun tab ↦ (clients tab).nextId) left := by
    rw [hleft] at hafter ⊢
    exact hposted.close hsound.post (.refl _) hafter
  refine ⟨hclosed.numbered.trim ?_, ⟨hclosed.fresh.uplink, hclosed.fresh.inFlight,
    hclosed.fresh.rejected, fun tab id hid ↦ ?_⟩, hclosed.safe, hclosed.spent⟩
  · exact ⟨rfl, fun _ hmem ↦ hmem, fun _ hmem ↦ hmem, fun _ hmem ↦ hmem⟩
  · change id ∈ (clients tab).pending.keys at hid
    show id < (clients tab).nextId
    by_cases htab : tab = own
    · rw [hupdated, if_pos htab] at hid
      cases hid
    · rw [hupdated, if_neg htab] at hid
      exact hclosed.fresh.pending tab id hid

/-- Every step that meets the condition keeps the invariant. -/
theorem Guarded.step (hguarded : Guarded (nextIds world) world) (hsound : world.Sound)
    {event : WorldEvent} (hclients : FromClients world event) (hheeds : HeedsFailures world event)
    (hstep : world.step event = some next) : Guarded (nextIds next) next := by
  have hafter : next.Sound := hsound.step hstep
  cases happens_of_step hstep with
  | @booted own hbooted =>
    have hframe : Frame world { world with booted := world.booted ++ [own] } :=
      ⟨⟨rfl, List.subset_append_left _ _, fun _ hmem ↦ hmem, fun _ hmem ↦ hmem⟩, rfl, rfl⟩
    refine Guarded.renumber (?_ : Guarded (nextIds world) _) rfl
    refine hguarded.calm hsound hframe hafter
      (.create (hguarded.numbered.unbooted own hbooted)) (List.forall_mem_nil _) ?_ ?_
    · simp [traffic_create]
    · simp [Transport.create, requestLock, Transport.initial, emit, Alarms]
  | @heard position packet rest htake hlistens =>
    have hframe : Frame world { world with discovery := rest } :=
      ⟨⟨rfl, fun _ hmem ↦ hmem, fun _ hmem ↦ hmem, fun _ hmem ↦ hmem⟩, rfl, rfl⟩
    have hreceived : ({ world with discovery := rest } : World).Sound :=
      hsound.of_sameCore ⟨rfl, rfl, rfl, rfl, rfl, fun _ hmem ↦ mem_of_mem_rest htake hmem⟩
    refine Guarded.renumber (?_ : Guarded (nextIds world) _) rfl
    have hran : Ran (fun _ ↦ True) True (world.transports packet.target)
        ((world.transports packet.target).onDiscoveryMessage packet.message) :=
      ran_onDiscoveryMessage _ _ _ trivial
    have hports := (hsound.transport packet.target).ports (hsound.sent packet.target) hran
    exact (hguarded.frame hframe).discovered hreceived hafter hports
      (onDiscoveryMessage_cases _ _) (hheeds _ htake hlistens)
  | unheard _ _ =>
    exact hguarded.frame ⟨⟨rfl, fun _ hmem ↦ hmem, fun _ hmem ↦ hmem, fun _ hmem ↦ hmem⟩, rfl, rfl⟩
  | @bridged position packet rest htake =>
    have hframe : Frame world { world with uplink := rest } :=
      ⟨⟨rfl, fun _ hmem ↦ hmem, fun _ hmem ↦ mem_of_mem_rest htake hmem, fun _ hmem ↦ hmem⟩, rfl,
        rfl⟩
    have hsent := hsound.sent packet.leader
    have hlive : ∀ bridge,
        (world.transports packet.leader).bridges.get? packet.client = some bridge →
          bridge.disposed = false := fun bridge hbridge ↦
      ((hsound.transport packet.leader).bridge packet.client bridge hbridge).live
    have hports := (hsound.transport packet.leader).ports hsent
      (ran_onBridgeMessage (fun _ ↦ True) True _ packet.client packet.bridge packet.data hlive)
    obtain ⟨hflight, -⟩ := client_onBridgeMessage (world.transports packet.leader) packet.client
      packet.bridge packet.data hlive
    dsimp only [World.deliverUplink] at hafter ⊢
    refine Guarded.renumber (?_ : Guarded (nextIds world) _) rfl
    refine hguarded.calm hsound hframe hafter hports ?_ ?_ ?_
    · show ∀ id ∈ ((world.transports packet.leader).onBridgeMessage _ _ _).inFlight.keys, _
      rw [hflight]
      exact fun _ hid ↦ hid
    · exact (traffic_onBridgeMessage hsent _ _ _ hlive).1
    · exact calm_onBridgeMessage hsent _ _ _ hlive
  | received htake hchannel hobject =>
    refine Guarded.renumber (?_ : Guarded (nextIds world) _) rfl
    exact hguarded.received hsound (mem_of_takePacket htake)
      (fun _ hmem ↦ mem_of_mem_rest htake hmem) hchannel hobject hafter
  | lost htake _ =>
    exact hguarded.frame
      ⟨⟨rfl, fun _ hmem ↦ hmem, fun _ hmem ↦ hmem, fun _ hmem ↦ mem_of_mem_rest htake hmem⟩,
        rfl, rfl⟩
  | @retried own _ =>
    have hsent := hsound.sent own
    have hports := (hsound.transport own).ports hsent
      (ran_onPairAckTimeout (fun _ ↦ True) True (world.transports own))
    refine Guarded.renumber (?_ : Guarded (nextIds world) _) rfl
    rcases onPairAckTimeout_cases (world.transports own) with hsame | ⟨pair, -, -, hasked⟩
    · refine hguarded.calm hsound (.refl world) hafter hports ?_ ?_ ?_
      · rw [hsame]
        exact fun _ hid ↦ hid
      · rw [hsame]
        simp [traffic_idle hsent]
      · rw [hsame, hsent]
        exact List.forall_mem_nil _
    · refine hguarded.calm hsound (.refl world) hafter hports ?_ ?_ ?_
      · rw [hasked]
        exact fun _ hid ↦ hid
      · rw [hasked]
        simp [traffic_discoveryPost hsent]
      · rw [hasked]
        simp [emit, hsent, Alarms]
  | @granted entry rest factory hlock hqueue =>
    refine Guarded.renumber (?_ : Guarded (nextIds world) _) rfl
    refine hguarded.granted hsound hlock fun hopens hopen ↦ ?_
    exact hheeds hopens (by rw [hlock]; rfl) entry (by rw [hqueue]; rfl) hopen
  | withdrawn _ =>
    exact hguarded.frame ⟨⟨rfl, fun _ hmem ↦ hmem, fun _ hmem ↦ hmem, fun _ hmem ↦ hmem⟩, rfl, rfl⟩
  | released _ _ =>
    exact hguarded.frame ⟨⟨rfl, fun _ hmem ↦ hmem, fun _ hmem ↦ hmem, fun _ hmem ↦ hmem⟩, rfl, rfl⟩
  | @settled position settlement hsettlement =>
    have hframe : Frame world
        { world with settlements := world.settlements.eraseIdx position } :=
      ⟨⟨rfl, fun _ hmem ↦ hmem, fun _ hmem ↦ hmem, fun _ hmem ↦ hmem⟩, rfl, rfl⟩
    refine Guarded.renumber (?_ : Guarded (nextIds world) _) rfl
    exact (hguarded.frame hframe).lockSettled
      (hsound.of_sameCore ⟨rfl, rfl, rfl, rfl, rfl, fun _ hmem ↦ hmem⟩) hafter
      fun hfails hopen ↦ hheeds settlement hsettlement hfails hopen
  | @replied own position body request _ _ =>
    have hframe : Frame world { world with inbox := world.inbox.eraseIdx position } :=
      ⟨⟨rfl, fun _ hmem ↦ hmem, fun _ hmem ↦ hmem, fun _ hmem ↦ hmem⟩, rfl, rfl⟩
    have hsent := hsound.sent own
    have hports := (hsound.transport own).ports hsent
      (.replied ⟨request.data.id, body⟩ : Ran (fun _ ↦ True) True _ _)
    refine Guarded.renumber (?_ : Guarded (nextIds world) _) rfl
    refine hguarded.calm hsound hframe hafter hports (fun _ hid ↦ hid) ?_ ?_
    · intro channel value hpost
      obtain ⟨_, _, hsame⟩ := channelPost_of_replied hsent hpost
      cases hsame
    · intro effect heffect
      change effect ∈ (world.transports own).outbox ++ _ at heffect
      rw [hsent, List.nil_append] at heffect
      obtain ⟨bridge, -, hpost⟩ := List.mem_flatMap.mp heffect
      exact calm_channelPosts effect hpost
  | crashed hlives =>
    refine Guarded.renumber (?_ : Guarded (nextIds world) _) rfl
    exact hguarded.crashed hsound hlives hafter
  | @sent own request _ =>
    have hrejected := hguarded.unused own
    rw [nextIds_post]
    refine (hguarded.sent own request).post
      (hsound.of_sameCore ⟨rfl, rfl, rfl, rfl, rfl, fun _ hmem ↦ hmem⟩) rfl ?_ hrejected
    show (world.clients own).nextId <
      (Function.update world.clients own ((world.clients own).send request).1 own).nextId
    rw [Function.update_self]
    exact Nat.lt_succ_self _
  | posted _ => exact hclients.elim
  | refused hqueued =>
    refine Guarded.renumber (?_ : Guarded (nextIds world) _) rfl
    exact hguarded.refused hsound hqueued hafter
  | closed _ =>
    refine Guarded.renumber (?_ : Guarded (nextIds world) _) rfl
    exact hguarded.close hsound (.refl world) hafter
  | @terminated own _ =>
    exact hguarded.terminated hsound own rfl
  | @died own _ =>
    refine Guarded.renumber (?_ : Guarded (nextIds world) _) rfl
    have hframe : Frame world { world with
        dead := world.dead ++ [own]
        queue := world.queue.filter fun entry ↦ entry.tab ≠ own } :=
      ⟨⟨rfl, fun _ hmem ↦ hmem, fun _ hmem ↦ hmem, fun _ hmem ↦ hmem⟩, rfl, rfl⟩
    exact hguarded.close hsound hframe hafter

/-! ### What is forwarded -/

/-- A function whose traffic has no posts to a writer forwards nothing. -/
theorem forwarded_of_silent
    (hsilent : ∀ effect ∈ (handler (world.transports tab)).traffic, forwards effect = none) :
    (world.act tab handler).forwarded = world.forwarded := by
  rw [forwarded_act, List.filterMap_eq_nil_iff.mpr hsilent, List.append_nil]

/-- Posts on a pair channel forward nothing. -/
theorem forwards_pairPosts {channel : PairChannel} {values : List PageMessage} :
    ∀ effect ∈ values.map (TransportEffect.pairPost channel), forwards effect = none := by
  intro effect heffect
  obtain ⟨data, -, rfl⟩ := List.mem_map.mp heffect
  rfl

/-- What a bridge forwards is the request that was delivered to it. -/
theorem forwarded_deliverUplink (hsound : world.Sound) {packet : UplinkPacket}
    {rest : List UplinkPacket} {entry : Forwarded}
    (hentry : entry ∈ ({ world with uplink := rest }.deliverUplink packet).forwarded.drop
      world.forwarded.length) :
    entry.client = packet.client ∧ entry.data = packet.data ∧ world.Deliverable packet := by
  have hsent := hsound.sent packet.leader
  have hlive : ∀ bridge,
      (world.transports packet.leader).bridges.get? packet.client = some bridge →
        bridge.disposed = false := fun bridge hbridge ↦
    ((hsound.transport packet.leader).bridge packet.client bridge hbridge).live
  have hforwarded : ({ world with uplink := rest }.deliverUplink packet).forwarded =
      world.forwarded ++ ((world.transports packet.leader).onBridgeMessage packet.client
        packet.bridge packet.data).traffic.filterMap forwards := forwarded_act
  rw [hforwarded, List.drop_left] at hentry
  obtain ⟨-, hforwards⟩ :=
    traffic_onBridgeMessage hsent packet.client packet.bridge packet.data hlive
  rcases onBridgeMessage_cases (world.transports packet.leader) packet.client packet.bridge
    packet.data hlive with ⟨-, hsame⟩ | ⟨bridge, hbridge, hobject, -⟩
  · rw [hsame, traffic_idle hsent] at hentry
    cases hentry
  · rcases hforwards with hnone | ⟨-, writer, hone⟩
    · rw [hnone] at hentry
      cases hentry
    · rw [hone] at hentry
      rw [List.mem_singleton.mp hentry]
      exact ⟨rfl, rfl, bridge, hbridge, hobject⟩

/-- A post on a transport forwards nothing. -/
theorem forwarded_post (hsound : world.Sound) {own : ℕ} {data : PageMessage} :
    (world.post own data).forwarded = world.forwarded := by
  have hsent := hsound.sent own
  refine @forwarded_of_silent { world with posted := world.posted ++ [(own, data)] } own
    (fun transport ↦ transport.postMessage data) ?_
  show ∀ effect ∈ ((world.transports own).postMessage data).traffic, forwards effect = none
  rcases postMessage_cases (world.transports own) data with
    ⟨-, hsame⟩ | ⟨-, -, hdeferred⟩ | ⟨-, -, hposted⟩
  · rw [hsame, traffic_idle hsent]
    exact List.forall_mem_nil _
  · rw [hdeferred, traffic_deferred hsent]
    exact List.forall_mem_nil _
  · rw [hposted, traffic_posted hsent]
    intro effect heffect
    obtain ⟨channel, -, rfl⟩ := List.mem_map.mp heffect
    rfl

/-- Closing a transport forwards nothing. -/
theorem forwarded_close {own : ℕ} (hsent : (world.transports own).outbox = []) :
    (world.act own Transport.close).forwarded = world.forwarded := by
  refine (quiet_of_traffic ?_).2
  by_cases hclosed : (world.transports own).closed = true
  · rw [close_closed hclosed]
    exact traffic_idle hsent
  · rw [close_eq (by simpa using hclosed)]
    exact traffic_shut hsent

/-- A message on the discovery channel forwards nothing. -/
theorem forwarded_discovered (hsent : (world.transports tab).outbox = [])
    (message : LeaderMessage) :
    (world.act tab fun transport ↦ transport.onDiscoveryMessage message).forwarded =
      world.forwarded := by
  apply forwarded_of_silent
  have hcases := onDiscoveryMessage_cases (world.transports tab) message
  generalize (world.transports tab).onDiscoveryMessage message = after at hcases ⊢
  cases hcases with
  | ignored => simp [traffic_idle hsent]
  | paired id hopen hother hnew => simp [traffic_paired hsent]
  | bridged clientId name writer own hwriter hown => simp [traffic_bridged hsent]
  | acknowledged pair hpending =>
    rw [traffic_acknowledged hsent]
    unfold replayed
    split
    · exact forwards_pairPosts
    · exact List.forall_mem_nil _
  | deposed leaderId reason hcurrent => simp [traffic_deposed hsent]
  | announced writer own hwriter hown => simp [traffic_discoveryPost hsent]

/-- A granted lock forwards nothing. -/
theorem forwarded_afterGrant (hsent : (world.transports tab).outbox = []) {request : ℕ}
    {queue : List LockRequest} {factory : Except String Unit} :
    (world.afterGrant tab request queue factory).forwarded = world.forwarded := by
  unfold afterGrant
  refine @forwarded_of_silent { world with
    lock := some ⟨tab, request, world.grants, none⟩
    queue := queue
    grants := world.grants + 1 } tab
      (fun transport ↦ transport.onLockGranted world.grants factory) ?_
  show ∀ effect ∈ ((world.transports tab).onLockGranted world.grants factory).traffic,
    forwards effect = none
  rcases onLockGranted_cases (world.transports tab) world.grants factory with
    ⟨-, hdeclined⟩ | ⟨-, -, hpromoted⟩ | ⟨message, -, -, hunpromoted⟩
  · rw [hdeclined, traffic_declined hsent]
    exact List.forall_mem_nil _
  · rw [hpromoted, traffic_promoted hsent]
    exact forwards_pairPosts
  · rw [hunpromoted, traffic_unpromoted hsent]
    exact List.forall_mem_nil _

/-- A failing writer forwards nothing. -/
theorem forwarded_crashed (hsent : (world.transports tab).outbox = []) (now : ℕ) :
    (world.act tab fun transport ↦ transport.onWriterError now).forwarded = world.forwarded := by
  apply forwarded_of_silent
  have hcrashed : ∀ leader message, ∀ effect ∈
      ((world.transports tab).crashed leader message).outbox, forwards effect = none := by
    intro leader message effect heffect
    simp only [crashed, releases, hsent, List.nil_append, List.mem_append, List.mem_cons,
      List.mem_map, List.not_mem_nil, or_false] at heffect
    rcases heffect with (hfailure | rfl | rfl) | ⟨_, -, rfl⟩ | ⟨_, -, rfl⟩
    · obtain ⟨bridge, -, hpost⟩ := List.mem_flatMap.mp hfailure
      obtain ⟨bridgeEffect, -, hsome⟩ := List.mem_filterMap.mp hpost
      cases bridgeEffect with
      | channelPost envelope =>
        obtain rfl := Option.some.inj hsome
        rfl
      | writerPost message => cases hsome
      | channelClose => cases hsome
      | clientClosed => cases hsome
    · rfl
    · rfl
    · rfl
    · rfl
  intro effect heffect
  have hmem := List.mem_of_mem_filter heffect
  rcases onWriterError_cases (world.transports tab) now with
    hsame | ⟨leader, times, -, -, hrequested | habandoned⟩
  · rw [hsame, hsent] at hmem
    cases hmem
  · rw [hrequested] at hmem
    rcases List.mem_append.mp hmem with hbefore | hrequest
    · exact hcrashed leader _ effect hbefore
    · rw [List.mem_singleton.mp hrequest]
      rfl
  · rw [habandoned] at hmem
    rcases List.mem_append.mp hmem with hbefore | hrefusal
    · exact hcrashed leader _ effect hbefore
    · rcases List.mem_append.mp hrefusal with hmessage | herror
      · obtain ⟨id, -, rfl⟩ := List.mem_map.mp hmessage
        rfl
      · rw [List.mem_singleton.mp herror]
        rfl

/-- Only a delivery to a bridge forwards a request. -/
theorem forwarded_of_step (hsound : world.Sound) {event : WorldEvent}
    (hstep : world.step event = some next) :
    next.forwarded = world.forwarded ∨ ∃ position, event = .deliverUplink position := by
  cases happens_of_step hstep with
  | @bridged position => exact Or.inr ⟨position, rfl⟩
  | @booted own _ =>
    left
    exact (@quiet_of_traffic { world with booted := world.booted ++ [own] } own
      (fun _ ↦ Transport.create own) (traffic_create own)).2
  | @heard position packet rest _ _ =>
    left
    exact @forwarded_discovered { world with discovery := rest } packet.target
      (hsound.sent packet.target) packet.message
  | unheard _ _ => exact Or.inl rfl
  | @received position packet rest channel _ _ _ =>
    left
    exact (@quiet_of_traffic { world with downlink := rest } packet.client
      (fun transport ↦ transport.onPairMessage packet.envelope packet.synthetic)
      (traffic_received (hsound.sent packet.client) _ _)).2
  | lost _ _ => exact Or.inl rfl
  | @retried own _ =>
    left
    refine (quiet_of_traffic ?_).2
    rcases onPairAckTimeout_cases (world.transports own) with hsame | ⟨pair, -, -, hasked⟩
    · rw [hsame]
      exact traffic_idle (hsound.sent own)
    · rw [hasked]
      exact traffic_discoveryPost (hsound.sent own) _
  | @granted entry _ _ _ _ => exact Or.inl (forwarded_afterGrant (hsound.sent entry.tab))
  | withdrawn _ => exact Or.inl rfl
  | released _ _ => exact Or.inl rfl
  | @settled position settlement _ =>
    left
    exact (@quiet_of_traffic
      { world with settlements := world.settlements.eraseIdx position } settlement.tab
      (fun transport ↦ transport.onLockSettled settlement.request settlement.outcome)
      (traffic_onLockSettled (hsound.sent settlement.tab) _ _)).2
  | @replied own position _ _ _ _ =>
    left
    exact (@quiet_onWriterMessage { world with inbox := world.inbox.eraseIdx position } own
      (hsound.sent own) _).2
  | @crashed own now _ => exact Or.inl (forwarded_crashed (hsound.sent own) now)
  | @sent own request _ =>
    left
    exact @forwarded_post { world with
      clients := Function.update world.clients own ((world.clients own).send request).1 }
      (hsound.of_sameCore ⟨rfl, rfl, rfl, rfl, rfl, fun _ hmem ↦ hmem⟩) own _
  | posted _ => exact Or.inl (forwarded_post hsound)
  | @refused own _ => exact Or.inl (quiet_of_traffic (traffic_runMicrotask (hsound.sent own))).2
  | @closed own _ => exact Or.inl (forwarded_close (hsound.sent own))
  | @terminated own _ =>
    left
    exact (forwarded_close (hsound.post.sent own)).trans (forwarded_post hsound)
  | @died own _ =>
    left
    exact @forwarded_close { world with
      dead := world.dead ++ [own]
      queue := world.queue.filter fun entry ↦ entry.tab ≠ own } own (hsound.sent own)

/-- Under the invariant no step executes a request whose promise was rejected. -/
theorem Guarded.executesNoFailed (hguarded : Guarded bound world) (hsound : world.Sound)
    (event : WorldEvent) : ExecutesNoFailed world event := by
  intro next hstep entry hentry id hid hrejected
  rcases forwarded_of_step hsound hstep with hsame | ⟨position, rfl⟩
  · rw [hsame, List.drop_length] at hentry
    cases hentry
  · obtain ⟨⟨packet, rest⟩, htake, rfl⟩ := Option.map_eq_some_iff.mp hstep
    obtain ⟨hclient, hdata, hdeliverable⟩ := forwarded_deliverUplink hsound hentry
    refine hguarded.safe _ hrejected (onTheWay_iff.mpr
      ⟨packet, mem_of_takePacket htake, hclient.symm, ?_, hdeliverable⟩)
    rw [← hdata]
    exact hid

/-- The world before the first tab meets the invariant. -/
theorem guarded_initial : Guarded (nextIds initial) initial where
  numbered := {
    unbooted := fun _ _ ↦ rfl
    sender := nofun
    target := nofun
    ordered := nofun
    receiver := nofun
    latest := nofun
    dead := nofun
    late := nofun }
  fresh := ⟨nofun, nofun, nofun, nofun⟩
  safe := nofun
  spent := nofun

/-- In a run in which every post is made by a client, no replay finds a rejected request in flight,
and no `error` event but that of a failing writer comes while a request that it rejects is on the
way to an open bridge, no request is executed after its promise was rejected. -/
theorem failed_not_executed {events : List WorldEvent}
    (hclients : automaton.RunMeets FromClients initial events)
    (hheeds : automaton.RunMeets HeedsFailures initial events) :
    automaton.RunMeets ExecutesNoFailed initial events := by
  have hboth : automaton.RunMeets (fun world event ↦
      FromClients world event ∧ HeedsFailures world event) initial events := hclients.and hheeds
  refine hboth.of_invariant (fun world ↦ world.Sound ∧ Guarded (nextIds world) world) ?_ ?_
    ⟨sound_initial, guarded_initial⟩
  · intro world event next ⟨hsound, hguarded⟩ ⟨hclient, hheed⟩ hstep
    exact ⟨hsound.step hstep, hguarded.step hsound hclient hheed hstep⟩
  · exact fun world event hworld _ ↦ hworld.2.executesNoFailed hworld.1 event

/-- The leader forwards a request of a follower, and its writer fails before the answer. The error
envelope reaches the follower, which becomes the next leader and executes another request of its
own. -/
def drainsFollower : List WorldEvent :=
  [.boot 0, .grant (.ok ()), .boot 1, .deliverDiscovery 0, .deliverDiscovery 0, .deliverDiscovery 0,
    .deliverDiscovery 0, .send 1 (.deleteNote "a"), .deliverUplink 0, .writerError 0 5,
    .releaseLock,
    .deliverDownlink 0, .deliverDiscovery 0, .grant (.ok ()), .deliverDiscovery 0,
    .send 1 (.deleteNote "b"), .deliverUplink 0]

/-- The first request was rejected, the second was forwarded, and no request after it was
rejected. -/
theorem failed_not_executed_drainsFollower :
    (automaton.run initial drainsFollower).map (fun world ↦ (world.rejected,
        world.forwarded.map fun entry ↦ (entry.client, entry.data.id))) =
      some ([(1, 1)], [(1, some 1), (1, some 2)]) ∧
      automaton.RunMeets ExecutesNoFailed initial drainsFollower :=
  ⟨by decide, failed_not_executed (by decide) (by decide)⟩

/-- The writer of a leader fails when a request of the leader itself is on the way to its bridge;
the leader starts a writer again. -/
def replaysFailed : List WorldEvent :=
  [.boot 0, .grant (.ok ()), .send 0 (.deleteNote "a"), .writerError 0 5, .releaseLock,
    .grant (.ok ()), .deliverUplink 0, .deliverUplink 0]

/-- The promise of the request is rejected with the `error` event, and the request is forwarded to
the next writer afterwards. -/
theorem not_executesNoFailed_replaysFailed :
    (automaton.run initial replaysFailed).map (fun world ↦ (world.rejected,
        world.forwarded.map fun entry ↦ (entry.writer, entry.client, entry.data.id))) =
      some ([(0, 1)], [(1, 0, some 1)]) ∧
      automaton.RunMeets FromClients initial replaysFailed ∧
        ¬ automaton.RunMeets ExecutesNoFailed initial replaysFailed := by
  decide

end OpfsWebauthn.Storage.World
