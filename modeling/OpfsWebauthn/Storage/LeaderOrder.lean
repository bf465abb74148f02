import OpfsWebauthn.Storage.SingleWriter

/-!
# The order of the leaders

Leaders are ordered by the grant that elected them, and `joined` lists the leaders that a transport
has paired with, its own elections included. An announcement carries no order: a transport that
receives an announcement pairs with the announced leader, whichever leader it had. So leadership
regresses exactly when an announcement that is older than a leader joined before is acted on.
-/

set_option autoImplicit false
set_option relaxedAutoImplicit false

namespace OpfsWebauthn.Storage

open Foundation Automaton

namespace Transport

/-- The transport is not behind any leader it has joined, and pairs with itself as long as it has a
writer. -/
structure Ordered (tab : ℕ) (transport : Transport) : Prop where
  current : ∀ joined ∈ transport.joined, ∀ leader, transport.currentLeaderId = some leader →
    joined ≤ leader
  pair : ∀ joined ∈ transport.joined, ∀ channel, transport.pairChannel = some channel →
    joined ≤ channel.name.leaderId
  own : ∀ leader, transport.writer = some leader →
    transport.currentLeaderId = some leader ∧ transport.leaderId = some leader ∧
      ∃ channel, transport.pairChannel = some channel ∧ channel.name = ⟨leader, tab⟩

/-- An announcement that the transport acts on is not older than a leader it has joined. -/
def NotOlder (transport : Transport) : LeaderMessage → Prop
  | .leaderElected id => transport.leaderId = some id ∨
      (transport.currentLeaderId = some id ∧ transport.pairChannel.isSome) ∨
        ∀ leader ∈ transport.joined, leader ≤ id
  | _ => True

variable {transport next : Transport} {grants tab : ℕ} {received : LeaderMessage → Prop}
  {falls : Prop}

namespace Ordered

/-- The outbox does not matter. -/
theorem of_outbox (hordered : Ordered tab transport) (outbox : List TransportEffect) :
    Ordered tab { transport with outbox := outbox } :=
  { hordered with }

/-- A transport that has joined nobody. -/
theorem create (tab : ℕ) : Ordered tab (Transport.create tab) := by
  constructor <;> simp [Transport.create, requestLock, Transport.initial, emit]

/-- A new pair channel for a leader that is not older. -/
theorem paired (hordered : Ordered tab transport) (hsound : Sound grants tab transport)
    (hlatest : ∀ leader, transport.writer = some leader → leader + 1 = grants) {id : ℕ}
    (hknown : id < grants) (hother : transport.leaderId ≠ some id)
    (hnotOlder : ∀ leader ∈ transport.joined, leader ≤ id) :
    Ordered tab (transport.paired id) where
  current := by
    intro joined hjoined leader hleader
    obtain rfl : id = leader := Option.some.inj hleader
    rcases List.mem_append.mp hjoined with hold | hnew
    · exact hnotOlder joined hold
    · exact Nat.le_of_eq (List.mem_singleton.mp hnew)
  pair := by
    intro joined hjoined channel hchannel
    obtain rfl : _ = channel := Option.some.inj hchannel
    rcases List.mem_append.mp hjoined with hold | hnew
    · exact hnotOlder joined hold
    · exact Nat.le_of_eq (List.mem_singleton.mp hnew)
  own := by
    intro leader hwriter
    exfalso
    -- a tab with a writer is the latest leader, so the announcement is its own
    obtain ⟨-, hown, channel, hchannel, hname⟩ := hordered.own leader hwriter
    have hjoined : leader ∈ transport.joined := by
      have hmem := (hsound.pair channel hchannel).2.2
      rwa [hname] at hmem
    have hle : leader ≤ id := hnotOlder leader hjoined
    have hgrants : leader + 1 = grants := hlatest leader hwriter
    obtain rfl : leader = id := by omega
    exact hother hown

/-- Every outcome keeps the order, when the announcements acted on are not older, and no failure of
the transport's own writer is announced while it lives. -/
theorem ran (hordered : Ordered tab transport) (hsound : Sound grants tab transport)
    (hlatest : ∀ leader, transport.writer = some leader → leader + 1 = grants)
    (hnames : ∀ message, received message → Names grants message)
    (hnotOlder : ∀ message, received message → NotOlder transport message)
    (hfailed : ∀ leader message, received (.leaderFailed leader message) →
      transport.writer ≠ some leader)
    (hran : Ran received falls transport next) (hopen : next.closed = false) :
    Ordered tab next := by
  cases hran with
  | paired id hreceived hopen hother hnew =>
    refine hordered.paired hsound hlatest (hnames _ hreceived) hother ?_
    rcases hnotOlder _ hreceived with hown | hpaired | hle
    · exact absurd hown hother
    · exact absurd hpaired hnew
    · exact hle
  | deposed leaderId message hreceived hcurrent =>
    refine ⟨fun _ _ ↦ nofun, fun _ _ ↦ nofun, fun leader hwriter ↦ ?_⟩
    obtain ⟨hown, -⟩ := hordered.own leader hwriter
    obtain rfl : leader = leaderId := Option.some.inj (hown.symm.trans hcurrent)
    exact absurd hwriter (hfailed leader message hreceived)
  | requested leader times hfalls hwriter =>
    exact ⟨fun _ _ ↦ nofun, hordered.pair, nofun⟩
  | abandoned leader times hfalls hwriter =>
    exact ⟨fun _ _ ↦ nofun, fun _ _ ↦ nofun, nofun⟩
  | shut hfalls hopened => exact absurd hopen (by simp [shut])
  | heard clientId bridge data next hbridge hheard =>
    cases hheard <;> exact { hordered with }
  | _ => exact { hordered with }

/-- The lock callback keeps the order. -/
theorem onLockGranted (hordered : Ordered tab transport) (hsound : Sound grants tab transport)
    (hwriter : transport.writer = none) (factory : Except String Unit) :
    Ordered tab (transport.onLockGranted grants factory) := by
  have hnone : ∀ leader, transport.writer ≠ some leader := by simp [hwriter]
  have hmine : ∀ joined ∈ transport.joined ++ [grants], joined ≤ grants := by
    intro joined hjoined
    rcases List.mem_append.mp hjoined with hold | hnew
    · exact Nat.le_of_lt (hsound.known joined hold)
    · exact Nat.le_of_eq (List.mem_singleton.mp hnew)
  rcases onLockGranted_cases transport grants factory with
    ⟨-, hdeclined⟩ | ⟨-, -, hpromoted⟩ | ⟨message, -, -, hunpromoted⟩
  · rw [hdeclined]
    exact hordered.of_outbox _
  · rw [hpromoted]
    constructor
    · intro joined hjoined leader hleader
      obtain rfl : grants = leader := Option.some.inj hleader
      exact hmine joined hjoined
    · intro joined hjoined channel hchannel
      obtain rfl : _ = channel := Option.some.inj hchannel
      exact hmine joined hjoined
    · intro leader hleader
      obtain rfl : grants = leader := Option.some.inj hleader
      exact ⟨rfl, rfl, _, rfl, by rw [hsound.client]⟩
  · rw [hunpromoted]
    exact { hordered with own := fun leader hleader ↦ absurd hleader (hnone leader) }

end Ordered

end Transport

namespace World

open Transport

variable {world next : World}

/-- No open transport is behind a leader it has joined, and a tab with a live writer is paired with
itself. -/
def LeadersOrdered (world : World) : Prop :=
  ∀ tab, (world.transports tab).closed = false → (world.transports tab).Ordered tab

/-- A writer whose failure was announced does not live. -/
def FailuresTold (world : World) : Prop :=
  ∀ packet ∈ world.discovery, ∀ leader reason, packet.message = .leaderFailed leader reason →
    ∀ tab, (world.transports tab).writer ≠ some leader

/-- A writer that lives after a move lived before, or belongs to the latest grant. -/
theorem writer_of_move {admits : Transport → LeaderMessage → Prop} {falls : Prop}
    (hsound : world.Sound)
    (hmove : Move admits falls world next) {tab writer : ℕ}
    (hwriter : (next.transports tab).writer = some writer) :
    (world.transports tab).writer = some writer ∨ writer = world.grants := by
  cases hmove with
  | booted own hnew =>
    rw [transports_act] at hwriter
    split_ifs at hwriter
    · cases hwriter
    · exact Or.inl hwriter
  | changed next hsame =>
    rw [hsame.transports] at hwriter
    exact Or.inl hwriter
  | ran middle hsame own handler received hreceived hran =>
    rw [transports_act, hsame.transports] at hwriter
    split_ifs at hwriter with hown
    · left
      subst hown
      rcases keptOrReleased_of_ran (hsound.sent tab) hran with ⟨hkept, -⟩ | ⟨hgone, -⟩
      · exact hkept ▸ hwriter
      · cases hgone.symm.trans hwriter
    · exact Or.inl hwriter
  | granted own request queue factory hlock =>
    right
    rcases hsound.writers_afterGrant hlock with ⟨hnone, -⟩ | ⟨hone, -⟩
    · rw [hnone tab] at hwriter
      cases hwriter
    · rw [hone tab] at hwriter
      split_ifs at hwriter
      exact (Option.some.inj hwriter).symm
  | released held outcome hlock hsettled settlements => exact Or.inl hwriter

/-- Every move keeps that the writers whose failure was announced do not live. -/
theorem FailuresTold.move (htold : world.FailuresTold) (hsound : world.Sound)
    {admits : Transport → LeaderMessage → Prop} {falls : Prop}
    (hmove : Move admits falls world next) :
    next.FailuresTold := by
  -- the failures that were announced before concern earlier grants
  have hold : ∀ packet ∈ world.discovery, ∀ leader reason,
      packet.message = .leaderFailed leader reason → ∀ tab,
        (next.transports tab).writer ≠ some leader := by
    intro packet hpacket leader reason hmessage tab hwriter
    rcases writer_of_move hsound hmove hwriter with hbefore | hlatest
    · exact htold packet hpacket leader reason hmessage tab hbefore
    · have hnames := hsound.names packet hpacket
      rw [hmessage] at hnames
      exact Nat.lt_irrefl _ (hlatest ▸ hnames)
  intro packet hpacket leader reason hmessage
  cases hmove with
  | booted own hnew =>
    rcases mem_discovery_act hpacket with hbefore | ⟨-, hposted⟩
    · exact hold packet hbefore leader reason hmessage
    · rw [hmessage] at hposted
      simp [Transport.create, requestLock, Transport.initial, emit] at hposted
  | changed next hsame => exact hold packet (hsame.discovery packet hpacket) leader reason hmessage
  | ran middle hsame own handler received hreceived hran =>
    rcases mem_discovery_act hpacket with hbefore | ⟨-, hposted⟩
    · exact hold packet (hsame.discovery packet hbefore) leader reason hmessage
    · rw [hsame.transports, hmessage] at hposted
      obtain ⟨hwriter, hgone⟩ :=
        (hsound.transport own).says_of_ran (hsound.sent own) hran hposted
      intro tab hlives
      rw [transports_act, hsame.transports] at hlives
      split_ifs at hlives with hown
      · cases hgone.symm.trans hlives
      · exact hown (hsound.writer_unique hlives hwriter).1
  | granted own request queue factory hlock =>
    rcases mem_discovery_act hpacket with hbefore | ⟨-, hposted⟩
    · exact hold packet hbefore leader reason hmessage
    · cases hmessage.symm.trans (names_of_onLockGranted (hsound.sent own) hposted).1
  | released held outcome hlock hsettled settlements =>
    exact hold packet hpacket leader reason hmessage

/-- Every move keeps the order, when the announcements acted on are not older. -/
theorem LeadersOrdered.move (hordered : world.LeadersOrdered) (htold : world.FailuresTold)
    (hsound : world.Sound) (hmove : Move NotOlder True world next) : next.LeadersOrdered := by
  intro tab hopen
  cases hmove with
  | booted own hnew =>
    rw [transports_act] at hopen ⊢
    split_ifs at hopen ⊢ with hown
    · subst hown
      exact (Ordered.create tab).of_outbox []
    · exact hordered tab hopen
  | changed next hsame =>
    rw [hsame.transports] at hopen ⊢
    exact hordered tab hopen
  | ran middle hsame own handler received hreceived hran =>
    rw [transports_act, hsame.transports] at hopen ⊢
    split_ifs at hopen ⊢ with hown
    · subst hown
      have hbefore : (world.transports tab).closed = false := by
        by_contra hclosed
        have hstays := closed_of_ran hran (by simpa using hclosed)
        exact Bool.false_ne_true (hopen.symm.trans hstays)
      refine ((hordered tab hbefore).ran (hsound.transport tab)
        (fun leader hwriter ↦ hsound.writer_latest hwriter) ?_ ?_ ?_ hran hopen).of_outbox []
      · intro message hmessage
        obtain ⟨⟨packet, hpacket, rfl⟩, -⟩ := hreceived message hmessage
        exact hsound.names packet hpacket
      · exact fun message hmessage ↦ (hreceived message hmessage).2
      · intro leader reason hmessage
        obtain ⟨⟨packet, hpacket, hfailed⟩, -⟩ := hreceived _ hmessage
        exact htold packet hpacket leader reason hfailed tab
    · exact hordered tab hopen
  | granted own request queue factory hlock =>
    rw [transports_afterGrant] at hopen ⊢
    split_ifs at hopen ⊢ with hown
    · subst hown
      have hbefore : (world.transports tab).closed = false :=
        (closed_onLockGranted _ _ _).symm.trans hopen
      exact ((hordered tab hbefore).onLockGranted (hsound.transport tab)
        (hsound.writer_none hlock tab) factory).of_outbox []
    · exact hordered tab hopen
  | released held outcome hlock hsettled settlements => exact hordered tab hopen

/-- A step whose announcement is not older keeps the order. -/
theorem leadersOrdered_step (hsound : world.Sound)
    (hproperty : world.FailuresTold ∧ world.LeadersOrdered) {event : WorldEvent}
    (hadmits : Admits NotOlder world event) (hstep : world.step event = some next) :
    next.Sound ∧ next.FailuresTold ∧ next.LeadersOrdered :=
  invariant_step (fun world ↦ world.FailuresTold ∧ world.LeadersOrdered)
    (fun _ _ hsound hproperty hmove ↦
      ⟨hproperty.1.move hsound hmove, hproperty.2.move hproperty.1 hsound hmove⟩)
    hsound hproperty hadmits (Or.inl trivial) hstep

/-- The property of a step, that the leaders are in order afterwards. -/
def KeepsOrder (world : World) (event : WorldEvent) : Prop :=
  ∀ next, world.step event = some next → next.LeadersOrdered

/-- A step that keeps the order acts on no older announcement. -/
theorem admits_of_keepsOrder (hsound : world.Sound) {event : WorldEvent}
    (hkeeps : KeepsOrder world event) : Admits NotOlder world event := by
  cases event with
  | deliverDiscovery position =>
    rintro ⟨packet, rest⟩ htake hlistens
    dsimp only at hlistens ⊢
    cases hmessage : packet.message with
    | leaderElected id =>
      by_cases hown : (world.transports packet.target).leaderId = some id
      · exact Or.inl hown
      by_cases hpaired : (world.transports packet.target).currentLeaderId = some id ∧
          (world.transports packet.target).pairChannel.isSome
      · exact Or.inr (Or.inl hpaired)
      right
      right
      have hopen := (hsound.transport packet.target).open_of_discovering hlistens
      have hpair : (world.transports packet.target).onDiscoveryMessage packet.message =
          (world.transports packet.target).paired id := by
        rw [hmessage]
        simp only [onDiscoveryMessage, if_neg hown]
        exact pairWithLeader_eq hopen hpaired
      have hnext := hkeeps _ (by
        show world.step (.deliverDiscovery position) = some _
        rw [World.step, htake]
        rfl) packet.target
      simp only [deliverDiscovery, if_pos hlistens, transports_act, if_true, hpair] at hnext
      intro leader hleader
      exact (hnext hopen).current leader (List.mem_append_left _ hleader) id rfl
    | _ => trivial
  | _ => trivial

/-- Leadership never regresses in a run exactly when no transport acts on an announcement that is
older than a leader it has joined. -/
theorem leaders_ordered_iff (events : List WorldEvent) :
    automaton.RunMeets KeepsOrder initial events ↔
      automaton.RunMeets (Admits NotOlder) initial events := by
  have hstart : initial.Sound ∧ initial.FailuresTold ∧ initial.LeadersOrdered :=
    ⟨sound_initial, nofun, fun tab hopen ↦ by cases hopen⟩
  constructor
  · refine RunMeets.of_invariant Sound (fun _ _ _ hsound _ hstep ↦ hsound.step hstep) ?_ hstart.1
    exact fun _ _ hsound hkeeps ↦ admits_of_keepsOrder hsound hkeeps
  · refine RunMeets.of_invariant
      (fun world ↦ world.Sound ∧ world.FailuresTold ∧ world.LeadersOrdered) ?_ ?_ hstart
    · exact fun _ _ _ hproperty hadmits hstep ↦
        leadersOrdered_step hproperty.1 hproperty.2 hadmits hstep
    · exact fun _ _ hproperty hadmits next hstep ↦
        (leadersOrdered_step hproperty.1 hproperty.2 hadmits hstep).2.2

/-- The writer of the first tab crashes while its announcement is on the way to the second tab,
which is elected before the announcement arrives. -/
def staleAnnouncement : List WorldEvent :=
  [.boot 0, .boot 1, .grant (.ok ()), .writerError 0 5, .releaseLock, .grant (.ok ()),
    .deliverDiscovery 1]

/-- The second tab leads with a live writer, and pairs with the leader before it. -/
theorem not_leadersOrdered_staleAnnouncement : ∃ world,
    automaton.Reaches initial world ∧ (world.transports 1).writer = some 1 ∧
      (world.transports 1).currentLeaderId = some 0 ∧
        (world.transports 1).pairChannel.map PairChannel.name = some ⟨0, 1⟩ ∧
          ¬ world.LeadersOrdered := by
  have hrun : automaton.run initial staleAnnouncement = some _ := rfl
  refine ⟨_, reaches_of_run hrun, rfl, rfl, rfl, fun hordered ↦ ?_⟩
  obtain ⟨hown, -⟩ := (hordered 1 rfl).own 1 rfl
  exact absurd hown (by decide)

end World

end OpfsWebauthn.Storage
