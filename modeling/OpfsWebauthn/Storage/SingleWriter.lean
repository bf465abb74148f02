import OpfsWebauthn.Storage.LeaderWorld
import OpfsWebauthn.Storage.TransportSound

/-!
# At most one writer

In every reachable world at most one writer is open, and a tab with a live writer holds the lock,
whose promise is not settled. The invariant `World.Sound` ties the writer of a tab to the grant that
made it leader and to the promise that releases the lock.
-/

set_option autoImplicit false
set_option relaxedAutoImplicit false

namespace OpfsWebauthn.Storage

open Foundation Automaton

namespace Transport

/-- The effects that settle the lock, and open or close a writer. -/
def OfLeadership : TransportEffect → Bool
  | .settleLock .. => true
  | .openWriter _ => true
  | .closeWriter _ => true
  | _ => false

variable {transport next : Transport}

/-- A replay is not an effect of leadership. -/
theorem ofLeadership_replayed (transport : Transport) :
    transport.replayed.filter OfLeadership = [] := by
  rw [List.filter_eq_nil_iff]
  unfold replayed
  split <;> simp [OfLeadership]

/-- The posts of bridges are not effects of leadership. -/
theorem ofLeadership_channelPosts (port : BridgePort) (synthetic : Bool)
    (effects : List BridgeEffect) :
    (channelPosts port synthetic effects).filter OfLeadership = [] := by
  rw [List.filter_eq_nil_iff]
  intro effect heffect
  obtain ⟨bridgeEffect, -, hsome⟩ := List.mem_filterMap.mp heffect
  cases bridgeEffect <;> cases hsome
  simp [OfLeadership]

/-- A failure of the writer posts nothing of leadership. -/
theorem ofLeadership_failures (transport : Transport) (message : String) :
    (transport.failures message).filter OfLeadership = [] := by
  simp [failures, List.filter_flatMap, ofLeadership_channelPosts]

/-- What gives up leadership is of leadership. -/
theorem ofLeadership_releases (transport : Transport) :
    transport.releases.filter OfLeadership = transport.releases := by
  rw [List.filter_eq_self]
  intro effect heffect
  simp only [releases, List.mem_append, List.mem_map, Option.mem_toList] at heffect
  rcases heffect with ⟨writer, -, rfl⟩ | ⟨grant, -, rfl⟩ <;> rfl

/-- The transport kept its leadership, or gave it up with all effects that belong to it. -/
def KeptOrReleased (transport next : Transport) : Prop :=
  (next.writer = transport.writer ∧ next.resolveLock = transport.resolveLock ∧
    next.outbox.filter OfLeadership = []) ∨
  (next.writer = none ∧ next.resolveLock = none ∧
    next.outbox.filter OfLeadership = transport.releases)

/-- An outcome keeps the leadership of the transport, or gives it up. -/
theorem keptOrReleased_of_ran {received : LeaderMessage → Prop} {falls : Prop}
    (hsent : transport.outbox = []) (hran : Ran received falls transport next) :
    KeptOrReleased transport next := by
  cases hran with
  | requested leader times hfalls hwriter =>
    right
    refine ⟨rfl, rfl, ?_⟩
    simp [requested, crashed, hsent, ofLeadership_failures, ofLeadership_releases, OfLeadership]
  | abandoned leader times hfalls hwriter =>
    right
    refine ⟨rfl, rfl, ?_⟩
    simp [abandoned, crashed, hsent, ofLeadership_failures, ofLeadership_releases, OfLeadership,
      List.filter_map, Function.comp_def]
  | shut hfalls hopen =>
    right
    refine ⟨rfl, rfl, ?_⟩
    simp [shut, hsent, ofLeadership_releases, OfLeadership, List.filter_map, Function.comp_def]
  | heard clientId bridge data next hbridge hheard =>
    left
    cases hheard with
    | passed hid => simp [passed, hsent, OfLeadership]
    | forwarded id hid hkind => simp [forwarded, hsent, OfLeadership]
    | closed id hid hkind => simp [unbridged, hsent, OfLeadership]
  | replied data =>
    left
    simp [onWriterMessage, emit, hsent, List.filter_flatMap, ofLeadership_channelPosts]
  | acknowledged pair hreceived hpending =>
    left
    simp [acknowledged, hsent, ofLeadership_replayed]
  | posted data hopen hworks =>
    left
    simp [posted, hsent, OfLeadership, List.filter_map, Function.comp_def]
  | idle => exact Or.inl ⟨rfl, rfl, by simp [hsent]⟩
  | paired id hreceived hopen hother hnew =>
    exact Or.inl ⟨rfl, rfl, by simp [paired, hsent, OfLeadership]⟩
  | bridged clientId name writer own hreceived hwriter hown =>
    exact Or.inl ⟨rfl, rfl, by simp [bridged, hsent, OfLeadership]⟩
  | deposed leaderId message hreceived hcurrent =>
    exact Or.inl ⟨rfl, rfl, by simp [deposed, hsent, OfLeadership]⟩
  | announced writer own hwriter hown =>
    exact Or.inl ⟨rfl, rfl, by simp [emit, hsent, OfLeadership]⟩
  | asked pair hpending => exact Or.inl ⟨rfl, rfl, by simp [emit, hsent, OfLeadership]⟩
  | lockSettled ready abort => exact Or.inl ⟨rfl, rfl, by simp [hsent]⟩
  | lockRejected ready abort => exact Or.inl ⟨rfl, rfl, by simp [hsent, OfLeadership]⟩
  | received envelope synthetic =>
    exact Or.inl ⟨rfl, rfl, by simp [onPairMessage, emit, hsent, OfLeadership]⟩
  | deferred data hfailed => exact Or.inl ⟨rfl, rfl, by simp [deferred, hsent]⟩
  | refused id rest hqueued =>
    exact Or.inl ⟨rfl, rfl, by simp [refused, hsent, OfLeadership]⟩

end Transport

namespace World

open Transport

variable {world next : World}

/-! ### Leadership and the lock -/

/-- A fold ignores the elements that leave every accumulator as it is. -/
theorem foldl_eq_foldl_filter {α β : Type*} {combine : α → β → α} {keeps : β → Bool}
    (hignored : ∀ accumulator element, keeps element = false →
      combine accumulator element = accumulator) (elements : List β) (start : α) :
    elements.foldl combine start = (elements.filter keeps).foldl combine start := by
  rw [List.foldl_filter]
  congr
  funext accumulator element
  cases hkeeps : keeps element with
  | true => rfl
  | false => simp [hignored accumulator element hkeeps]

/-- Only effects of leadership settle the lock. -/
theorem foldl_settle (lock : Option HeldLock) (effects : List TransportEffect) :
    effects.foldl settle lock = (effects.filter OfLeadership).foldl settle lock :=
  foldl_eq_foldl_filter (fun lock effect heffect ↦ by
    cases effect <;> first | rfl | cases heffect) effects lock

/-- Only effects of leadership open or close writers. -/
theorem foldl_trackWriters (writers : List ℕ) (effects : List TransportEffect) :
    effects.foldl trackWriters writers =
      (effects.filter OfLeadership).foldl trackWriters writers :=
  foldl_eq_foldl_filter (fun writers effect heffect ↦ by
    cases effect <;> first | rfl | cases heffect) effects writers

/-- Settling the promise of one grant leaves the lock of another grant as it is. -/
theorem settle_of_ne {held : HeldLock} {grant : ℕ} (hother : held.grant ≠ grant)
    (outcome : Except String Unit) :
    settle (some held) (.settleLock grant outcome) = some held := by
  simp [settle, hother]

/-- Effects change nothing of the lock but how its promise settled. -/
theorem held_of_foldl_settle {effects : List TransportEffect} : ∀ {lock : Option HeldLock}
    {held : HeldLock}, effects.foldl settle lock = some held →
    ∃ before, lock = some before ∧ before.tab = held.tab ∧ before.grant = held.grant := by
  induction effects with
  | nil => exact fun hheld ↦ ⟨_, hheld, rfl, rfl⟩
  | cons effect rest ih =>
    intro lock held hheld
    obtain ⟨middle, hmiddle, htab, hgrant⟩ := ih hheld
    cases effect with
    | settleLock grant outcome =>
      obtain ⟨before, hbefore, hsettled⟩ := Option.map_eq_some_iff.mp hmiddle
      refine ⟨before, hbefore, ?_⟩
      rw [← htab, ← hgrant, ← hsettled]
      split_ifs <;> exact ⟨rfl, rfl⟩
    | _ => exact ⟨middle, hmiddle, htab, hgrant⟩

/-! ### The invariant -/

/-- What always holds of the tabs, the discovery channel, the lock and the writers. -/
structure Sound (world : World) : Prop where
  transport : ∀ tab, (world.transports tab).Sound world.grants tab
  sent : ∀ tab, (world.transports tab).outbox = []
  names : ∀ packet ∈ world.discovery, Names world.grants packet.message
  unbooted : ∀ tab, tab ∉ world.booted → (world.transports tab).closed = true
  booted : world.booted.Nodup
  holds : ∀ tab writer, (world.transports tab).writer = some writer →
    ∃ request, world.lock = some ⟨tab, request, writer, none⟩
  latest : ∀ held, world.lock = some held → held.grant + 1 = world.grants
  owner : ∀ held, world.lock = some held → ∀ tab,
    (world.transports tab).resolveLock = some held.grant → tab = held.tab
  writers : ∀ writer, writer ∈ world.openWriters ↔
    ∃ tab, (world.transports tab).writer = some writer
  nodup : world.openWriters.Nodup

/-- The parts of a world that the invariant speaks about. -/
structure SameCore (world next : World) : Prop where
  transports : next.transports = world.transports
  booted : next.booted = world.booted
  lock : next.lock = world.lock
  grants : next.grants = world.grants
  openWriters : next.openWriters = world.openWriters
  discovery : ∀ packet ∈ next.discovery, packet ∈ world.discovery

section Act

variable (world) (tab : ℕ) (handler : Transport → Transport)

/-- The transports after a function of one of them ran. -/
theorem transports_act (other : ℕ) : (world.act tab handler).transports other =
    if other = tab then { handler (world.transports tab) with outbox := [] }
    else world.transports other :=
  Function.update_apply _ _ _ _

@[simp] theorem booted_act : (world.act tab handler).booted = world.booted := rfl

@[simp] theorem dead_act : (world.act tab handler).dead = world.dead := rfl

@[simp] theorem grants_act : (world.act tab handler).grants = world.grants := rfl

@[simp] theorem posted_act : (world.act tab handler).posted = world.posted := rfl

@[simp] theorem settlements_act : (world.act tab handler).settlements = world.settlements := rfl

theorem lock_act : (world.act tab handler).lock =
    ((handler (world.transports tab)).outbox.filter OfLeadership).foldl settle world.lock :=
  foldl_settle _ _

theorem openWriters_act : (world.act tab handler).openWriters =
    ((handler (world.transports tab)).outbox.filter OfLeadership).foldl trackWriters
      world.openWriters :=
  foldl_trackWriters _ _

variable {world tab handler}

/-- A packet on the discovery channel after a function ran is an old one, or a post of the
function. -/
theorem mem_discovery_act {packet : DiscoveryPacket}
    (hpacket : packet ∈ (world.act tab handler).discovery) : packet ∈ world.discovery ∨
      packet.source = tab ∧
        .discoveryPost packet.message ∈ (handler (world.transports tab)).outbox := by
  rcases List.mem_append.mp hpacket with hold | hnew
  · exact Or.inl hold
  · right
    obtain ⟨effect, heffect, hsent⟩ := List.mem_flatMap.mp hnew
    cases effect with
    | discoveryPost message =>
      obtain ⟨target, -, rfl⟩ := List.mem_map.mp hsent
      exact ⟨rfl, heffect⟩
    | _ => cases hsent

end Act

/-- Changes of the other parts keep the invariant. -/
theorem Sound.of_sameCore (hsound : world.Sound) (hsame : SameCore world next) : next.Sound where
  transport := by rw [hsame.transports, hsame.grants]; exact hsound.transport
  sent := by rw [hsame.transports]; exact hsound.sent
  names := fun packet hpacket ↦ hsame.grants ▸ hsound.names packet (hsame.discovery packet hpacket)
  unbooted := by rw [hsame.transports, hsame.booted]; exact hsound.unbooted
  booted := hsame.booted ▸ hsound.booted
  holds := by rw [hsame.transports, hsame.lock]; exact hsound.holds
  latest := by rw [hsame.lock, hsame.grants]; exact hsound.latest
  owner := by rw [hsame.transports, hsame.lock]; exact hsound.owner
  writers := by rw [hsame.transports, hsame.openWriters]; exact hsound.writers
  nodup := hsame.openWriters ▸ hsound.nodup

/-- Two tabs do not have writers at once. -/
theorem Sound.writer_unique (hsound : world.Sound) {first second one two : ℕ}
    (hfirst : (world.transports first).writer = some one)
    (hsecond : (world.transports second).writer = some two) : first = second ∧ one = two := by
  obtain ⟨_, hone⟩ := hsound.holds first one hfirst
  obtain ⟨_, htwo⟩ := hsound.holds second two hsecond
  have hsame := Option.some.inj (hone.symm.trans htwo)
  exact ⟨congrArg HeldLock.tab hsame, congrArg HeldLock.grant hsame⟩

/-- The writer of a tab belongs to the latest grant. -/
theorem Sound.writer_latest (hsound : world.Sound) {tab writer : ℕ}
    (hwriter : (world.transports tab).writer = some writer) : writer + 1 = world.grants := by
  obtain ⟨_, hlock⟩ := hsound.holds tab writer hwriter
  exact hsound.latest _ hlock

/-- Without a lock there is no writer. -/
theorem Sound.writer_none (hsound : world.Sound) (hlock : world.lock = none) (tab : ℕ) :
    (world.transports tab).writer = none := by
  cases hwriter : (world.transports tab).writer with
  | none => rfl
  | some writer =>
    obtain ⟨_, hheld⟩ := hsound.holds tab writer hwriter
    rw [hlock] at hheld
    cases hheld

/-- Only a tab that was created runs its transport. -/
theorem Sound.mem_booted (hsound : world.Sound) {tab writer : ℕ}
    (hwriter : (world.transports tab).writer = some writer) : tab ∈ world.booted := by
  by_contra habsent
  have hopen := (hsound.transport tab).opened writer hwriter
  exact Bool.false_ne_true (hopen.symm.trans (hsound.unbooted tab habsent))

/-! ### Preservation -/

/-- Giving up leadership settles the promise of the transport. -/
theorem foldl_settle_releases (transport : Transport) (lock : Option HeldLock) :
    transport.releases.foldl settle lock =
      (transport.resolveLock.toList.map fun grant ↦
        TransportEffect.settleLock grant (.ok ())).foldl settle lock := by
  unfold releases
  cases transport.writer <;> rfl

/-- Giving up leadership closes the writer of the transport. -/
theorem foldl_trackWriters_releases (transport : Transport) (writers : List ℕ) :
    transport.releases.foldl trackWriters writers =
      (transport.writer.toList.map TransportEffect.closeWriter).foldl trackWriters writers := by
  unfold releases
  cases transport.resolveLock <;> cases transport.writer <;> rfl

section Preservation

variable {tab : ℕ} {handler : Transport → Transport}

/-- A writer that lives after a function ran lived before, and its lock was not settled. -/
theorem Sound.holds_act (hsound : world.Sound)
    (hleads : KeptOrReleased (world.transports tab) (handler (world.transports tab)))
    {other writer : ℕ} (hwriter : ((world.act tab handler).transports other).writer = some writer) :
    (world.transports other).writer = some writer ∧
      ∃ request, (world.act tab handler).lock = some ⟨other, request, writer, none⟩ := by
  rw [lock_act]
  rw [transports_act] at hwriter
  rcases hleads with ⟨hkept, -, heffects⟩ | ⟨hgone, -, heffects⟩
  · rw [heffects]
    by_cases hother : other = tab
    · subst hother
      rw [if_pos rfl] at hwriter
      have hbefore : (world.transports other).writer = some writer := hkept ▸ hwriter
      exact ⟨hbefore, hsound.holds other writer hbefore⟩
    · rw [if_neg hother] at hwriter
      exact ⟨hwriter, hsound.holds other writer hwriter⟩
  · by_cases hother : other = tab
    · rw [if_pos hother] at hwriter
      cases hgone.symm.trans hwriter
    · rw [if_neg hother] at hwriter
      obtain ⟨request, hlock⟩ := hsound.holds other writer hwriter
      refine ⟨hwriter, request, ?_⟩
      rw [heffects, foldl_settle_releases, hlock]
      cases hresolves : (world.transports tab).resolveLock with
      | none => rfl
      | some grant =>
        -- the promise of this grant is another one, because the lock has one owner
        have hne : writer ≠ grant := by
          rintro rfl
          exact hother (hsound.owner _ hlock tab hresolves).symm
        exact settle_of_ne hne _

/-- The open writers after a function ran are those of the tabs. -/
theorem Sound.writers_act (hsound : world.Sound)
    (hleads : KeptOrReleased (world.transports tab) (handler (world.transports tab))) :
    (∀ writer, writer ∈ (world.act tab handler).openWriters ↔
      ∃ other, ((world.act tab handler).transports other).writer = some writer) ∧
    (world.act tab handler).openWriters.Nodup := by
  have hothers : ∀ other, other ≠ tab → ((world.act tab handler).transports other).writer =
      (world.transports other).writer := by
    intro other hother
    rw [transports_act, if_neg hother]
  have hself : ((world.act tab handler).transports tab).writer =
      (handler (world.transports tab)).writer := by
    rw [transports_act, if_pos rfl]
  rw [openWriters_act]
  rcases hleads with ⟨hkept, -, heffects⟩ | ⟨hgone, -, heffects⟩
  · rw [heffects]
    refine ⟨fun writer ↦ (hsound.writers writer).trans (exists_congr fun other ↦ ?_), hsound.nodup⟩
    by_cases hother : other = tab
    · rw [hother, hself, hkept]
    · rw [hothers other hother]
  · rw [heffects, foldl_trackWriters_releases]
    cases hwriter : (world.transports tab).writer with
    | none =>
      refine ⟨fun writer ↦ (hsound.writers writer).trans (exists_congr fun other ↦ ?_),
        hsound.nodup⟩
      by_cases hother : other = tab
      · rw [hother, hself, hgone, hwriter]
      · rw [hothers other hother]
    | some own =>
      refine ⟨fun writer ↦ ?_, hsound.nodup.erase own⟩
      change writer ∈ world.openWriters.erase own ↔ _
      rw [hsound.nodup.mem_erase_iff, hsound.writers]
      constructor
      · rintro ⟨hne, other, hother⟩
        have htab : other ≠ tab := by
          rintro rfl
          exact hne (Option.some.inj (hother.symm.trans hwriter))
        exact ⟨other, by rw [hothers other htab, hother]⟩
      · rintro ⟨other, hother⟩
        have htab : other ≠ tab := by
          rintro rfl
          rw [hself, hgone] at hother
          cases hother
        rw [hothers other htab] at hother
        refine ⟨?_, other, hother⟩
        rintro rfl
        exact htab (hsound.writer_unique hother hwriter).1

/-- A function of a transport that keeps its leadership or gives it up keeps the invariant. -/
theorem Sound.act_of_keptOrReleased (hsound : world.Sound)
    (hlocal : (handler (world.transports tab)).Sound world.grants tab)
    (hnames : ∀ message, .discoveryPost message ∈ (handler (world.transports tab)).outbox →
      Names world.grants message)
    (hclosed : tab ∉ world.booted → (handler (world.transports tab)).closed = true)
    (hleads : KeptOrReleased (world.transports tab) (handler (world.transports tab))) :
    (world.act tab handler).Sound where
  transport := by
    intro other
    rw [transports_act]
    by_cases hother : other = tab
    · subst hother
      rw [if_pos rfl]
      exact hlocal.of_outbox []
    · rw [if_neg hother]
      exact hsound.transport other
  sent := by
    intro other
    rw [transports_act]
    by_cases hother : other = tab
    · rw [if_pos hother]
    · rw [if_neg hother]
      exact hsound.sent other
  names := by
    intro packet hpacket
    rcases mem_discovery_act hpacket with hold | ⟨-, hposted⟩
    · exact hsound.names packet hold
    · exact hnames packet.message hposted
  unbooted := by
    intro other hother
    rw [transports_act]
    by_cases hself : other = tab
    · subst hself
      rw [if_pos rfl]
      show (handler (world.transports other)).closed = true
      exact hclosed hother
    · rw [if_neg hself]
      exact hsound.unbooted other hother
  booted := hsound.booted
  holds := fun other writer hwriter ↦ (hsound.holds_act hleads hwriter).2
  latest := by
    intro held hheld
    obtain ⟨before, hbefore, -, hgrant⟩ := held_of_foldl_settle hheld
    rw [← hgrant]
    exact hsound.latest before hbefore
  owner := by
    intro held hheld other hresolves
    obtain ⟨before, hbefore, htab, hgrant⟩ := held_of_foldl_settle hheld
    rw [transports_act] at hresolves
    rw [← hgrant] at hresolves
    rw [← htab]
    refine hsound.owner before hbefore other ?_
    by_cases hother : other = tab
    · subst hother
      rw [if_pos rfl] at hresolves
      rcases hleads with ⟨-, hkept, -⟩ | ⟨-, hgone, -⟩
      · exact hkept ▸ hresolves
      · cases hgone.symm.trans hresolves
    · rwa [if_neg hother] at hresolves
  writers := (hsound.writers_act hleads).1
  nodup := (hsound.writers_act hleads).2

/-- Every outcome of a function of a transport keeps the invariant. -/
theorem Sound.act (hsound : world.Sound) {received : LeaderMessage → Prop} {falls : Prop}
    (hnames : ∀ message, received message → Names world.grants message)
    (hran : Ran received falls (world.transports tab) (handler (world.transports tab))) :
    (world.act tab handler).Sound := by
  have hlocal := hsound.transport tab
  have hsent := hsound.sent tab
  exact hsound.act_of_keptOrReleased (hlocal.ran hnames hran)
    (fun message hposted ↦ hlocal.names_of_ran hsent hnames hran hposted)
    (fun habsent ↦ closed_of_ran hran (hsound.unbooted tab habsent))
    (keptOrReleased_of_ran hsent hran)

end Preservation

/-- A tab that creates its transport keeps the invariant. -/
theorem Sound.boot (hsound : world.Sound) {tab : ℕ} (hnew : tab ∉ world.booted) :
    ({ world with booted := world.booted ++ [tab] }.act tab fun _ ↦ .create tab).Sound := by
  have hclosed := hsound.unbooted tab hnew
  have hwriter : (world.transports tab).writer = none := by
    cases hwriter : (world.transports tab).writer with
    | none => rfl
    | some writer => exact absurd (hsound.mem_booted hwriter) hnew
  have hlock : (world.transports tab).resolveLock = none := (hsound.transport tab).released hclosed
  have hbooted : ({ world with booted := world.booted ++ [tab] } : World).Sound :=
    { hsound with
      unbooted := fun other hother ↦ hsound.unbooted other fun hold ↦
        hother (List.mem_append_left _ hold)
      booted := List.nodup_append.mpr ⟨hsound.booted, List.nodup_singleton tab,
        fun other hother same hsame heq ↦
          hnew (List.mem_singleton.mp hsame ▸ heq ▸ hother)⟩ }
  refine hbooted.act_of_keptOrReleased (Transport.Sound.create _ tab) ?_ ?_ ?_
  · intro message hposted
    have hquery : message = .leaderQuery := by
      simpa [Transport.create, requestLock, Transport.initial, emit] using hposted
    rw [hquery]
    trivial
  · exact fun habsent ↦ absurd (List.mem_append_right _ (List.mem_singleton_self tab)) habsent
  · left
    refine ⟨hwriter.symm, hlock.symm, ?_⟩
    simp [Transport.create, requestLock, Transport.initial, emit, OfLeadership]

/-- The lock callback posts only the announcement of its own grant. -/
theorem names_of_onLockGranted {transport : Transport} (hsent : transport.outbox = [])
    {grant : ℕ} {factory : Except String Unit} {message : LeaderMessage}
    (hposted : .discoveryPost message ∈ (transport.onLockGranted grant factory).outbox) :
    message = .leaderElected grant ∧ transport.onLockGranted grant factory =
      transport.promoted grant := by
  rcases onLockGranted_cases transport grant factory with
    ⟨-, hdeclined⟩ | ⟨-, -, hpromoted⟩ | ⟨reason, -, -, hunpromoted⟩
  · rw [hdeclined] at hposted
    simp [emit, hsent] at hposted
  · rw [hpromoted] at hposted ⊢
    refine ⟨?_, rfl⟩
    simpa [promoted, hsent] using hposted
  · rw [hunpromoted] at hposted
    simp [unpromoted, hsent] at hposted

/-- The lock callback promotes the transport, or settles its promise. -/
theorem leadership_of_onLockGranted {transport : Transport} (hsent : transport.outbox = [])
    (grant : ℕ) (factory : Except String Unit) :
    ((transport.onLockGranted grant factory).writer = some grant ∧
      (transport.onLockGranted grant factory).outbox.filter OfLeadership = [.openWriter grant]) ∨
    ((transport.onLockGranted grant factory).writer = transport.writer ∧
      ∃ outcome, (transport.onLockGranted grant factory).outbox.filter OfLeadership =
        [.settleLock grant outcome]) := by
  rcases onLockGranted_cases transport grant factory with
    ⟨-, hdeclined⟩ | ⟨-, -, hpromoted⟩ | ⟨reason, -, -, hunpromoted⟩
  · right
    rw [hdeclined]
    exact ⟨rfl, .ok (), by simp [emit, hsent, OfLeadership]⟩
  · left
    rw [hpromoted]
    refine ⟨rfl, ?_⟩
    have hreplayed : (transport.inFlight.values.map fun data ↦ TransportEffect.pairPost
        ⟨transport.nextObject + 1, ⟨grant, transport.clientId⟩⟩ data).filter OfLeadership = [] := by
      rw [List.filter_eq_nil_iff]
      simp [OfLeadership]
    simp only [promoted, hsent, List.nil_append, List.filter_append, hreplayed]
    rfl
  · right
    rw [hunpromoted]
    exact ⟨rfl, .error reason, by simp [unpromoted, hsent, OfLeadership]⟩

/-- The lock callback does not close the transport. -/
theorem closed_onLockGranted (transport : Transport) (grant : ℕ) (factory : Except String Unit) :
    (transport.onLockGranted grant factory).closed = transport.closed := by
  rcases onLockGranted_cases transport grant factory with
    ⟨-, hdeclined⟩ | ⟨-, -, hpromoted⟩ | ⟨reason, -, -, hunpromoted⟩
  · rw [hdeclined]
    rfl
  · rw [hpromoted]
    rfl
  · rw [hunpromoted]
    rfl

section Grant

variable (world) (tab request : ℕ) (queue : List LockRequest) (factory : Except String Unit)

/-- The world after the lock was granted to a tab. -/
def afterGrant : World :=
  { world with
    lock := some ⟨tab, request, world.grants, none⟩
    queue := queue
    grants := world.grants + 1 }.act tab fun transport ↦
      transport.onLockGranted world.grants factory

/-- The transports after a grant. -/
theorem transports_afterGrant (other : ℕ) :
    (world.afterGrant tab request queue factory).transports other =
      if other = tab then
        { (world.transports tab).onLockGranted world.grants factory with outbox := [] }
      else world.transports other :=
  transports_act _ _ _ _

variable {world tab request queue factory}

/-- After a grant to a world without a lock there is no writer, or only that of the grant, whose
lock is held. -/
theorem Sound.writers_afterGrant (hsound : world.Sound) (hlock : world.lock = none) :
    ((∀ other, ((world.afterGrant tab request queue factory).transports other).writer = none) ∧
      (world.afterGrant tab request queue factory).openWriters = []) ∨
    ((∀ other, ((world.afterGrant tab request queue factory).transports other).writer =
        if other = tab then some world.grants else none) ∧
      (world.afterGrant tab request queue factory).openWriters = [world.grants] ∧
      (world.afterGrant tab request queue factory).lock =
        some ⟨tab, request, world.grants, none⟩) := by
  have hnone := hsound.writer_none hlock
  have hopenWriters : world.openWriters = [] := by
    refine List.eq_nil_iff_forall_not_mem.mpr fun writer hwriter ↦ ?_
    obtain ⟨other, hother⟩ := (hsound.writers writer).mp hwriter
    rw [hnone other] at hother
    cases hother
  unfold afterGrant
  rw [openWriters_act, lock_act]
  rcases leadership_of_onLockGranted (hsound.sent tab) world.grants factory with
    ⟨hwriter, heffects⟩ | ⟨hkept, outcome, heffects⟩
  · right
    refine ⟨fun other ↦ ?_, by rw [heffects, hopenWriters]; rfl, by rw [heffects]; rfl⟩
    rw [transports_act]
    by_cases hother : other = tab
    · rw [if_pos hother, if_pos hother]
      exact hwriter
    · rw [if_neg hother, if_neg hother]
      exact hnone other
  · left
    refine ⟨fun other ↦ ?_, by rw [heffects, hopenWriters]; rfl⟩
    rw [transports_act]
    by_cases hother : other = tab
    · rw [if_pos hother]
      exact hkept.trans (hnone tab)
    · rw [if_neg hother]
      exact hnone other

/-- A grant of the lock keeps the invariant. -/
theorem Sound.afterGrant (hsound : world.Sound) (hlock : world.lock = none) :
    (world.afterGrant tab request queue factory).Sound where
  transport := by
    intro other
    rw [transports_afterGrant]
    by_cases hother : other = tab
    · subst hother
      rw [if_pos rfl]
      exact ((hsound.transport other).onLockGranted
        (hsound.writer_none hlock other) factory).of_outbox []
    · rw [if_neg hother]
      exact (hsound.transport other).mono (Nat.le_succ _)
  sent := by
    intro other
    rw [transports_afterGrant]
    by_cases hother : other = tab
    · rw [if_pos hother]
    · rw [if_neg hother]
      exact hsound.sent other
  names := by
    intro packet hpacket
    rcases mem_discovery_act hpacket with hold | ⟨-, hposted⟩
    · exact (hsound.names packet hold).mono (Nat.le_succ _)
    · rw [(names_of_onLockGranted (hsound.sent tab) hposted).1]
      exact Nat.lt_succ_self _
  unbooted := by
    intro other hother
    have hclosed := hsound.unbooted other hother
    rw [transports_afterGrant]
    by_cases hself : other = tab
    · subst hself
      rw [if_pos rfl]
      exact (closed_onLockGranted _ _ _).trans hclosed
    · rw [if_neg hself]
      exact hclosed
  booted := hsound.booted
  holds := by
    intro other writer hwriter
    rcases hsound.writers_afterGrant hlock with ⟨hnone, -⟩ | ⟨hone, -, hheld⟩
    · rw [hnone other] at hwriter
      cases hwriter
    · rw [hone other] at hwriter
      split_ifs at hwriter with hother
      obtain rfl := Option.some.inj hwriter
      exact ⟨request, by rw [hheld, hother]⟩
  latest := by
    intro held hheld
    obtain ⟨before, hbefore, -, hgrant⟩ := held_of_foldl_settle hheld
    obtain rfl := Option.some.inj hbefore
    rw [← hgrant]
    rfl
  owner := by
    intro held hheld other hresolves
    obtain ⟨before, hbefore, htab, hgrant⟩ := held_of_foldl_settle hheld
    obtain rfl := Option.some.inj hbefore
    rw [← htab]
    by_contra hother
    rw [transports_afterGrant, if_neg hother, ← hgrant] at hresolves
    -- no promise of this number existed before
    exact absurd ((hsound.transport other).held _ hresolves) (Nat.lt_irrefl _)
  writers := by
    intro writer
    rcases hsound.writers_afterGrant hlock with ⟨hnone, hopened⟩ | ⟨hone, hopened, -⟩
    · rw [hopened]
      simp [hnone]
    · rw [hopened, List.mem_singleton]
      constructor
      · rintro rfl
        exact ⟨tab, by rw [hone tab, if_pos rfl]⟩
      · rintro ⟨other, hother⟩
        rw [hone other] at hother
        split_ifs at hother
        exact (Option.some.inj hother).symm
  nodup := by
    rcases hsound.writers_afterGrant hlock with ⟨-, hopened⟩ | ⟨-, hopened, -⟩
    · rw [hopened]
      exact List.nodup_nil
    · rw [hopened]
      exact List.nodup_singleton _

end Grant

/-! ### What a step can do -/

/-- One change of the world, when every discovery message that is delivered meets a condition on the
transport that receives it, and when a leader may fall or may not. -/
inductive Move (admits : Transport → LeaderMessage → Prop) (falls : Prop) (world : World) :
    World → Prop
  | booted (tab : ℕ) (hnew : tab ∉ world.booted) :
      Move admits falls world
        ({ world with booted := world.booted ++ [tab] }.act tab fun _ ↦ .create tab)
  | changed (next : World) (hsame : SameCore world next) : Move admits falls world next
  | ran (middle : World) (hsame : SameCore world middle) (tab : ℕ)
      (handler : Transport → Transport) (received : LeaderMessage → Prop)
      (hreceived : ∀ message, received message →
        (∃ packet ∈ world.discovery, packet.message = message) ∧
          admits (world.transports tab) message)
      (hran : Ran received falls (world.transports tab) (handler (world.transports tab))) :
      Move admits falls world (middle.act tab handler)
  | granted (tab request : ℕ) (queue : List LockRequest) (factory : Except String Unit)
      (hlock : world.lock = none) :
      Move admits falls world (world.afterGrant tab request queue factory)
  | released (held : HeldLock) (outcome : Except String Unit) (hlock : world.lock = some held)
      (hsettled : held.settled = some outcome) (settlements : List LockSettlement) :
      Move admits falls world { world with lock := none, settlements := settlements }

/-- Releasing a lock whose promise settled keeps the invariant. -/
theorem Sound.released (hsound : world.Sound) {held : HeldLock} {outcome : Except String Unit}
    (hlock : world.lock = some held) (hsettled : held.settled = some outcome)
    (settlements : List LockSettlement) :
    ({ world with lock := none, settlements := settlements } : World).Sound :=
  { hsound with
    holds := by
      intro tab writer hwriter
      obtain ⟨request, hheld⟩ := hsound.holds tab writer hwriter
      obtain rfl := Option.some.inj (hlock.symm.trans hheld)
      cases hsettled
    latest := nofun
    owner := nofun }

/-- Every move keeps the invariant. -/
theorem Sound.move (hsound : world.Sound) {admits : Transport → LeaderMessage → Prop} {falls : Prop}
    (hmove : Move admits falls world next) : next.Sound := by
  cases hmove with
  | booted tab hnew => exact hsound.boot hnew
  | changed next hsame => exact hsound.of_sameCore hsame
  | ran middle hsame tab handler received hreceived hran =>
    rw [← hsame.transports] at hran
    refine (hsound.of_sameCore hsame).act (fun message hmessage ↦ ?_) hran
    obtain ⟨⟨packet, hpacket, rfl⟩, -⟩ := hreceived message hmessage
    rw [hsame.grants]
    exact hsound.names packet hpacket
  | granted tab request queue factory hlock => exact hsound.afterGrant hlock
  | released held outcome hlock hsettled settlements => exact hsound.released hlock hsettled _

/-- The condition on a step that its delivery of a discovery message meets a condition. -/
def Admits (admits : Transport → LeaderMessage → Prop) (world : World) : WorldEvent → Prop
  | .deliverDiscovery position => ∀ found,
      takePacket (fun packet ↦ (packet.source, packet.target)) world.discovery position =
        some found → (world.transports found.1.target).discovering = true →
      admits (world.transports found.1.target) found.1.message
  | _ => True

/-- The condition on a step that no leader fails, closes or dies in it. -/
def LeaderStays (world : World) : WorldEvent → Prop
  | .writerError tab _ => (world.transports tab).writer = none
  | .close tab => (world.transports tab).writer = none
  | .terminate tab => (world.transports tab).writer = none
  | .die tab => (world.transports tab).writer = none
  | _ => True

instance (world : World) (event : WorldEvent) : Decidable (LeaderStays world event) := by
  unfold LeaderStays
  split <;> infer_instance

/-- A function that is not the discovery listener is a move. -/
theorem Move.of_ran {admits : Transport → LeaderMessage → Prop} {falls : Prop} {middle : World}
    (hsame : SameCore world middle) {tab : ℕ} {handler : Transport → Transport}
    (hran : Ran (fun _ ↦ False) falls (world.transports tab) (handler (world.transports tab))) :
    Move admits falls world (middle.act tab handler) :=
  .ran middle hsame tab handler _ (fun _ hfalse ↦ hfalse.elim) hran

/-- A post on a transport keeps the invariant. -/
theorem Sound.post (hsound : world.Sound) {tab : ℕ} {data : PageMessage} :
    (world.post tab data).Sound := by
  have hmove : Move (fun _ _ ↦ True) True world (world.post tab data) := by
    refine .of_ran ?_ ?_
    · exact ⟨rfl, rfl, rfl, rfl, rfl, fun _ hpacket ↦ hpacket⟩
    · exact ran_postMessage _ _ _ _
  exact hsound.move hmove

/-- Every step is a sequence of moves. -/
theorem moves_of_step (hsound : world.Sound) {admits : Transport → LeaderMessage → Prop}
    {falls : Prop} {event : WorldEvent} (hadmits : Admits admits world event)
    (hfalls : falls ∨ LeaderStays world event) (hstep : world.step event = some next) :
    Relation.ReflTransGen (Move admits falls) world next := by
  have hrefl : ∀ state : World, SameCore state state := fun _ ↦
    ⟨rfl, rfl, rfl, rfl, rfl, fun _ hpacket ↦ hpacket⟩
  have hone : ∀ {final}, Move admits falls world final →
      Relation.ReflTransGen (Move admits falls) world final := Relation.ReflTransGen.single
  cases happens_of_step hstep with
  | @booted tab hnew => exact hone (.booted tab hnew)
  | @heard position packet rest htake hlistens =>
    have hsame : SameCore world { world with discovery := rest } :=
      ⟨rfl, rfl, rfl, rfl, rfl, fun _ hpacket ↦ mem_of_mem_rest htake hpacket⟩
    refine hone (.ran _ hsame packet.target _ (fun message ↦ message = packet.message) ?_
      (ran_onDiscoveryMessage _ _ _ rfl))
    rintro message rfl
    exact ⟨⟨packet, mem_of_takePacket htake, rfl⟩, hadmits _ htake hlistens⟩
  | unheard htake _ =>
    exact hone (.changed _
      ⟨rfl, rfl, rfl, rfl, rfl, fun _ hpacket ↦ mem_of_mem_rest htake hpacket⟩)
  | @bridged position packet rest htake =>
    refine hone (.of_ran ?_ ?_)
    · exact ⟨rfl, rfl, rfl, rfl, rfl, fun _ hpacket ↦ hpacket⟩
    · exact ran_onBridgeMessage _ _ _ _ _ _ fun bridge hbridge ↦
        ((hsound.transport packet.leader).bridge _ bridge hbridge).live
  | received _ _ _ =>
    refine hone (.of_ran ?_ (.received _ _))
    exact ⟨rfl, rfl, rfl, rfl, rfl, fun _ hpacket ↦ hpacket⟩
  | lost _ _ => exact hone (.changed _ ⟨rfl, rfl, rfl, rfl, rfl, fun _ hpacket ↦ hpacket⟩)
  | retried _ => exact hone (.of_ran (hrefl world) (ran_onPairAckTimeout _ _ _))
  | @granted entry rest factory hlock hqueue =>
    exact hone (.granted entry.tab entry.number rest factory hlock)
  | withdrawn _ => exact hone (.changed _ ⟨rfl, rfl, rfl, rfl, rfl, fun _ hpacket ↦ hpacket⟩)
  | @released _ outcome hlock hsettled => exact hone (.released _ outcome hlock hsettled _)
  | settled _ =>
    refine hone (.of_ran ?_ ?_)
    · exact ⟨rfl, rfl, rfl, rfl, rfl, fun _ hpacket ↦ hpacket⟩
    · exact ran_onLockSettled _ _ _ _ _
  | replied _ _ =>
    refine hone (.of_ran ?_ ?_)
    · exact ⟨rfl, rfl, rfl, rfl, rfl, fun _ hpacket ↦ hpacket⟩
    · exact .replied _
  | @crashed tab now hlives =>
    obtain ⟨writer, hwriter⟩ := Option.isSome_iff_exists.mp hlives
    have hfalls : falls := hfalls.resolve_right fun hstays ↦ by
      cases hwriter.symm.trans hstays
    exact hone (.of_ran (hrefl world)
      (ran_onWriterError _ _ hfalls hwriter ((hsound.transport tab).leads writer hwriter) now))
  | sent _ =>
    refine hone (.of_ran ?_ ?_)
    · exact ⟨rfl, rfl, rfl, rfl, rfl, fun _ hpacket ↦ hpacket⟩
    · exact ran_postMessage _ _ _ _
  | posted _ =>
    refine hone (.of_ran ?_ ?_)
    · exact ⟨rfl, rfl, rfl, rfl, rfl, fun _ hpacket ↦ hpacket⟩
    · exact ran_postMessage _ _ _ _
  | refused _ => exact hone (.of_ran (hrefl world) (ran_runMicrotask _ _ _))
  | closed _ => exact hone (.of_ran (hrefl world) (ran_close _ _ hfalls))
  | @terminated tab _ =>
    set data := (world.clients tab).farewell.toMessage
    have hposted : Move admits falls world (world.post tab data) := by
      refine .of_ran ?_ ?_
      · exact ⟨rfl, rfl, rfl, rfl, rfl, fun _ hpacket ↦ hpacket⟩
      · exact ran_postMessage _ _ _ _
    have hwriter : ((world.post tab data).transports tab).writer =
        (world.transports tab).writer := by
      unfold post
      rw [transports_act, if_pos rfl]
      show ((world.transports tab).postMessage data).writer = _
      exact writer_of_ran (ran_postMessage (fun _ ↦ False) False _ data)
    have hleft : falls ∨ ((world.post tab data).transports tab).writer = none :=
      hfalls.imp id hwriter.trans
    exact ((hone hposted).tail (.of_ran (hrefl _) (ran_close _ _ hleft))).tail
      (.changed _ ⟨rfl, rfl, rfl, rfl, rfl, fun _ hpacket ↦ hpacket⟩)
  | died _ =>
    refine hone (.of_ran ?_ ?_)
    · exact ⟨rfl, rfl, rfl, rfl, rfl, fun _ hpacket ↦ hpacket⟩
    · exact ran_close _ _ hfalls

/-- A property that every move keeps, from a sound world, is kept by every step. -/
theorem invariant_step {admits : Transport → LeaderMessage → Prop} {falls : Prop}
    (property : World → Prop)
    (hmove : ∀ world next : World, world.Sound → property world → Move admits falls world next →
      property next)
    (hsound : world.Sound) (hproperty : property world) {event : WorldEvent}
    (hadmits : Admits admits world event) (hfalls : falls ∨ LeaderStays world event)
    (hstep : world.step event = some next) : next.Sound ∧ property next := by
  have hmoves := moves_of_step hsound hadmits hfalls hstep
  clear hadmits hfalls hstep
  induction hmoves with
  | refl => exact ⟨hsound, hproperty⟩
  | tail _ hlast ih => exact ⟨ih.1.move hlast, hmove _ _ ih.1 ih.2 hlast⟩

/-- The world before the first tab is sound. -/
theorem sound_initial : initial.Sound where
  transport := by
    intro tab
    constructor <;> simp [initial, absent, Transport.initial]
  sent := fun _ ↦ rfl
  names := nofun
  unbooted := fun _ _ ↦ rfl
  booted := List.nodup_nil
  holds := nofun
  latest := nofun
  owner := nofun
  writers := by
    intro writer
    simp [initial, absent, Transport.initial]
  nodup := List.nodup_nil

/-- Every step keeps the invariant. -/
theorem Sound.step (hsound : world.Sound) {event : WorldEvent}
    (hstep : world.step event = some next) : next.Sound := by
  have hadmits : Admits (fun _ _ ↦ True) world event := by
    cases event <;> simp [Admits]
  exact (invariant_step (fun _ ↦ True) (fun _ _ _ _ _ ↦ trivial) hsound trivial hadmits
    (Or.inl trivial) hstep).1

/-- Every reachable world is sound. -/
theorem sound_of_reaches (hreaches : automaton.Reaches initial world) : world.Sound :=
  hreaches.invariant Sound sound_initial fun _ _ _ hsound _ hstep ↦ hsound.step hstep

/-! ### Single writer -/

/-- In every reachable world at most one writer is open, and a tab with a live writer holds the
lock, whose promise is not settled. -/
theorem single_writer (hreaches : automaton.Reaches initial world) :
    world.openWriters.length ≤ 1 ∧
      ∀ tab writer, (world.transports tab).writer = some writer →
        ∃ request, world.lock = some ⟨tab, request, writer, none⟩ := by
  have hsound := sound_of_reaches hreaches
  refine ⟨?_, hsound.holds⟩
  by_contra hmany
  obtain ⟨first, second, rest, hwriters⟩ : ∃ first second rest,
      world.openWriters = first :: second :: rest := by
    match hopen : world.openWriters with
    | [] => simp [hopen] at hmany
    | [_] => simp [hopen] at hmany
    | first :: second :: rest => exact ⟨first, second, rest, rfl⟩
  have hmem : ∀ writer ∈ [first, second], ∃ tab, (world.transports tab).writer = some writer := by
    intro writer hwriter
    refine (hsound.writers writer).mp ?_
    rw [hwriters]
    exact List.mem_append_left rest hwriter
  obtain ⟨one, hone⟩ := hmem first List.mem_cons_self
  obtain ⟨two, htwo⟩ := hmem second (List.mem_cons_of_mem _ (List.mem_singleton_self second))
  have hnodup := hsound.nodup
  rw [hwriters] at hnodup
  exact (List.nodup_cons.mp hnodup).1
    ((hsound.writer_unique hone htwo).2 ▸ List.mem_cons_self)

/-- Two tabs; the writer of the first one crashes, and the lock passes to the second. -/
def handOver : List WorldEvent :=
  [.boot 0, .boot 1, .grant (.ok ()), .writerError 0 5, .releaseLock, .grant (.ok ())]

/-- After a hand-over there is the writer of the second tab only. -/
theorem single_writer_handOver : ∃ world, automaton.run initial handOver = some world ∧
    (world.transports 1).writer = some 1 ∧ world.openWriters.length ≤ 1 ∧
      ∃ request, world.lock = some ⟨1, request, 1, none⟩ := by
  have hrun : automaton.run initial handOver = some _ := rfl
  have hsafe := single_writer (reaches_of_run hrun)
  exact ⟨_, hrun, rfl, hsafe.1, hsafe.2 1 1 rfl⟩

end World

end OpfsWebauthn.Storage
