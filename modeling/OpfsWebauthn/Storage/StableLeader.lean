import OpfsWebauthn.Storage.SingleWriter

/-!
# Runs in which the leader stays

As long as no leader fails, closes or dies, there is one leader: the first tab whose writer factory
does not throw. Every announcement on the way is its announcement, every pair channel of an open
transport is paired with it, no failure is ever announced, and no transport gives up.
-/

set_option autoImplicit false
set_option relaxedAutoImplicit false

namespace OpfsWebauthn.Storage.World

open Foundation Automaton Transport

variable {world next : World} {admits : Transport → LeaderMessage → Prop}

/-- There is one leader, and everybody who is paired is paired with it. -/
structure Stable (world : World) : Prop where
  announced : ∀ packet ∈ world.discovery, ∀ id, packet.message = .leaderElected id →
    ∃ leader, (world.transports leader).writer = some id
  silent : ∀ packet ∈ world.discovery, ∀ id reason, packet.message ≠ .leaderFailed id reason
  paired : ∀ tab, (world.transports tab).closed = false → ∀ channel,
    (world.transports tab).pairChannel = some channel →
      (world.transports tab).currentLeaderId = some channel.name.leaderId ∧
        ∃ leader, (world.transports leader).writer = some channel.name.leaderId
  works : ∀ tab, (world.transports tab).failed = false

/-- Where no leader falls, every writer lives on. -/
theorem writer_kept (hsound : world.Sound) (hmove : Move admits False world next) {tab writer : ℕ}
    (hwriter : (world.transports tab).writer = some writer) :
    (next.transports tab).writer = some writer := by
  cases hmove with
  | booted own hnew =>
    have hother : tab ≠ own := by
      rintro rfl
      exact hnew (hsound.mem_booted hwriter)
    rw [transports_act, if_neg hother]
    exact hwriter
  | changed next hsame =>
    rw [hsame.transports]
    exact hwriter
  | ran middle hsame own handler received hreceived hran =>
    rw [transports_act, hsame.transports]
    split_ifs with hown
    · subst hown
      exact (writer_of_ran hran).trans hwriter
    · exact hwriter
  | granted own request queue factory hlock =>
    rw [hsound.writer_none hlock tab] at hwriter
    cases hwriter
  | released held outcome hlock hsettled settlements => exact hwriter

/-- Where no leader falls, every transport works on. -/
theorem failed_kept (hworks : ∀ tab, (world.transports tab).failed = false)
    (hmove : Move admits False world next) (tab : ℕ) : (next.transports tab).failed = false := by
  cases hmove with
  | booted own hnew =>
    rw [transports_act]
    split_ifs
    · rfl
    · exact hworks tab
  | changed next hsame =>
    rw [hsame.transports]
    exact hworks tab
  | ran middle hsame own handler received hreceived hran =>
    rw [transports_act, hsame.transports]
    split_ifs
    · exact (failed_of_ran hran).trans (hworks own)
    · exact hworks tab
  | granted own request queue factory hlock =>
    rw [transports_afterGrant]
    split_ifs
    · rcases onLockGranted_cases (world.transports own) world.grants factory with
        ⟨-, hdeclined⟩ | ⟨-, -, hpromoted⟩ | ⟨message, -, -, hunpromoted⟩
      · rw [hdeclined]
        exact hworks own
      · rw [hpromoted]
        exact hworks own
      · rw [hunpromoted]
        exact hworks own
    · exact hworks tab
  | released held outcome hlock hsettled settlements => exact hworks tab

/-- What a function posts on the discovery channel, where no leader falls: announcements of the own
writer, and no failures. -/
theorem Stable.posts (hsound : world.Sound) {received : LeaderMessage → Prop} {own : ℕ}
    {after : Transport} (hran : Ran received False (world.transports own) after)
    {message : LeaderMessage} (hposted : .discoveryPost message ∈ after.outbox) :
    (∀ id, message = .leaderElected id → (world.transports own).writer = some id) ∧
      ∀ id reason, message ≠ .leaderFailed id reason := by
  have htold := (hsound.transport own).says_of_ran (hsound.sent own) hran hposted
  constructor
  · rintro id rfl
    exact htold.1
  · rintro id reason rfl
    cases htold.2.symm.trans ((writer_of_ran hran).trans htold.1)

/-- The pair channel of an open transport after a function ran, where no leader falls and no failure
is announced: it is the channel from before with the current leader from before, or a new one for
the leader that was announced. -/
theorem paired_of_ran {received : LeaderMessage → Prop} {transport after : Transport}
    (hran : Ran received False transport after)
    (hsilent : ∀ id reason, ¬ received (.leaderFailed id reason)) :
    (after.pairChannel = transport.pairChannel ∧
        after.currentLeaderId = transport.currentLeaderId) ∨
      (∃ id, received (.leaderElected id) ∧ after = transport.paired id) ∨ after.closed = true := by
  cases hran with
  | paired id hreceived hopen hother hnew => exact Or.inr (Or.inl ⟨id, hreceived, rfl⟩)
  | deposed leaderId message hreceived hcurrent => exact absurd hreceived (hsilent _ _)
  | requested leader times hfalls hwriter => exact hfalls.elim
  | abandoned leader times hfalls hwriter => exact hfalls.elim
  | heard clientId bridge data next hbridge hheard => cases hheard <;> exact Or.inl ⟨rfl, rfl⟩
  | shut hfalls hopen => exact Or.inr (Or.inr rfl)
  | _ => exact Or.inl ⟨rfl, rfl⟩

/-- Without a writer no open transport is paired. -/
theorem Stable.pairChannel_none (hstable : world.Stable)
    (hnone : ∀ tab, (world.transports tab).writer = none) {tab : ℕ}
    (hopen : (world.transports tab).closed = false) :
    (world.transports tab).pairChannel = none := by
  cases hchannel : (world.transports tab).pairChannel with
  | none => rfl
  | some channel =>
    obtain ⟨-, leader, hleader⟩ := hstable.paired tab hopen channel hchannel
    rw [hnone leader] at hleader
    cases hleader

/-- Every move keeps the one leader, where no leader falls. -/
theorem Stable.move (hstable : world.Stable) (hsound : world.Sound)
    (hmove : Move admits False world next) : next.Stable := by
  have hkept : ∀ {id}, (∃ leader, (world.transports leader).writer = some id) →
      ∃ leader, (next.transports leader).writer = some id :=
    fun ⟨leader, hleader⟩ ↦ ⟨leader, writer_kept hsound hmove hleader⟩
  have hworks := failed_kept hstable.works hmove
  cases hmove with
  | booted own hnew =>
    refine ⟨fun packet hpacket id hmessage ↦ ?_, fun packet hpacket id reason hmessage ↦ ?_,
      fun tab hopen channel hchannel ↦ ?_, hworks⟩
    · rcases mem_discovery_act hpacket with hold | ⟨-, hposted⟩
      · exact hkept (hstable.announced packet hold id hmessage)
      · rw [hmessage] at hposted
        simp [Transport.create, requestLock, Transport.initial, emit] at hposted
    · rcases mem_discovery_act hpacket with hold | ⟨-, hposted⟩
      · exact hstable.silent packet hold id reason hmessage
      · rw [hmessage] at hposted
        simp [Transport.create, requestLock, Transport.initial, emit] at hposted
    · rw [transports_act] at hopen hchannel ⊢
      split_ifs at hopen hchannel ⊢
      · cases hchannel
      · obtain ⟨hcurrent, hleader⟩ := hstable.paired tab hopen channel hchannel
        exact ⟨hcurrent, hkept hleader⟩
  | changed next hsame =>
    refine ⟨fun packet hpacket id hmessage ↦ ?_, fun packet hpacket id reason hmessage ↦ ?_, ?_,
      hworks⟩
    · exact hkept (hstable.announced packet (hsame.discovery packet hpacket) id hmessage)
    · exact hstable.silent packet (hsame.discovery packet hpacket) id reason hmessage
    · rw [hsame.transports]
      exact hstable.paired
  | ran middle hsame own handler received hreceived hran =>
    have hsilent : ∀ id reason, ¬ received (.leaderFailed id reason) := by
      intro id reason hfailed
      obtain ⟨⟨packet, hpacket, hmessage⟩, -⟩ := hreceived _ hfailed
      exact hstable.silent packet hpacket id reason hmessage
    refine ⟨fun packet hpacket id hmessage ↦ ?_, fun packet hpacket id reason hmessage ↦ ?_,
      fun tab hopen channel hchannel ↦ ?_, hworks⟩
    · rcases mem_discovery_act hpacket with hold | ⟨-, hposted⟩
      · exact hkept (hstable.announced packet (hsame.discovery packet hold) id hmessage)
      · rw [hsame.transports] at hposted
        exact hkept ⟨own, (Stable.posts hsound hran hposted).1 id hmessage⟩
    · rcases mem_discovery_act hpacket with hold | ⟨-, hposted⟩
      · exact hstable.silent packet (hsame.discovery packet hold) id reason hmessage
      · rw [hsame.transports] at hposted
        exact (Stable.posts hsound hran hposted).2 id reason hmessage
    · have hselect : (middle.act own handler).transports tab =
          if tab = own then { handler (world.transports own) with outbox := [] }
          else world.transports tab := by
        rw [transports_act, hsame.transports]
      by_cases hown : tab = own
      · subst hown
        rw [if_pos rfl] at hselect
        rw [hselect] at hopen hchannel
        have hbefore : (world.transports tab).closed = false := by
          by_contra hclosed
          have hstays := closed_of_ran hran (by simpa using hclosed)
          exact Bool.false_ne_true (hopen.symm.trans hstays)
        rcases paired_of_ran hran hsilent with
          ⟨hsameChannel, hsameLeader⟩ | ⟨id, hid, hnew⟩ | hclosed
        · obtain ⟨hcurrent, hleader⟩ :=
            hstable.paired tab hbefore channel (hsameChannel.symm.trans hchannel)
          refine ⟨?_, hkept hleader⟩
          rw [hselect]
          exact hsameLeader.trans hcurrent
        · rw [hnew] at hchannel
          obtain rfl := Option.some.inj hchannel
          obtain ⟨⟨packet, hpacket, hmessage⟩, -⟩ := hreceived _ hid
          refine ⟨?_, hkept (hstable.announced packet hpacket id hmessage)⟩
          rw [hselect, hnew]
          rfl
        · exact absurd (hopen.symm.trans hclosed) Bool.false_ne_true
      · rw [if_neg hown] at hselect
        rw [hselect] at hopen hchannel ⊢
        obtain ⟨hcurrent, hleader⟩ := hstable.paired tab hopen channel hchannel
        exact ⟨hcurrent, hkept hleader⟩
  | granted own request queue factory hlock =>
    have hnone := hsound.writer_none hlock
    refine ⟨fun packet hpacket id hmessage ↦ ?_, fun packet hpacket id reason hmessage ↦ ?_,
      fun tab hopen channel hchannel ↦ ?_, hworks⟩
    · rcases mem_discovery_act hpacket with hold | ⟨-, hposted⟩
      · exact hkept (hstable.announced packet hold id hmessage)
      · obtain ⟨helected, hpromoted⟩ := names_of_onLockGranted (hsound.sent own) hposted
        obtain rfl : id = world.grants :=
          LeaderMessage.leaderElected.inj (hmessage.symm.trans helected)
        refine ⟨own, ?_⟩
        rw [transports_afterGrant, if_pos rfl, hpromoted]
        rfl
    · rcases mem_discovery_act hpacket with hold | ⟨-, hposted⟩
      · exact hstable.silent packet hold id reason hmessage
      · cases hmessage.symm.trans (names_of_onLockGranted (hsound.sent own) hposted).1
    · rw [transports_afterGrant] at hopen hchannel ⊢
      by_cases hown : tab = own
      · subst hown
        rw [if_pos rfl] at hopen hchannel ⊢
        have hbefore : (world.transports tab).closed = false :=
          (closed_onLockGranted _ _ _).symm.trans hopen
        have hunpaired := hstable.pairChannel_none hnone hbefore
        rcases onLockGranted_cases (world.transports tab) world.grants factory with
          ⟨hclosed, -⟩ | ⟨-, -, hpromoted⟩ | ⟨message, -, -, hunpromoted⟩
        · exact absurd (hbefore.symm.trans hclosed) Bool.false_ne_true
        · rw [hpromoted] at hchannel ⊢
          obtain rfl := Option.some.inj hchannel
          refine ⟨rfl, tab, ?_⟩
          rw [transports_afterGrant, if_pos rfl, hpromoted]
          rfl
        · rw [hunpromoted] at hchannel
          cases hunpaired.symm.trans hchannel
      · rw [if_neg hown] at hopen hchannel
        cases (hstable.pairChannel_none hnone hopen).symm.trans hchannel
  | released held outcome hlock hsettled settlements =>
    exact ⟨hstable.announced, hstable.silent, hstable.paired, hstable.works⟩

/-- The world before the first tab has no leader. -/
theorem stable_initial : initial.Stable :=
  ⟨nofun, nofun, fun _ hopen ↦ (by cases hopen), fun _ ↦ rfl⟩

/-- Every step in which the leader stays keeps the one leader. -/
theorem Stable.step (hstable : world.Stable) (hsound : world.Sound) {event : WorldEvent}
    (hstays : LeaderStays world event) (hstep : world.step event = some next) : next.Stable := by
  have hadmits : Admits (fun _ _ ↦ True) world event := by
    cases event <;> simp [Admits]
  exact (invariant_step Stable (fun _ _ hsound hstable hmove ↦ hstable.move hsound hmove) hsound
    hstable hadmits (Or.inr hstays) hstep).2

end OpfsWebauthn.Storage.World
