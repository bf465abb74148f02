import OpfsWebauthn.Auth.IdleLock
import OpfsWebauthn.Foundation.Packets

/-!
# Agreement of the tabs on the idle lock

The coordinators of `idle-lock-coordinator.ts` in tabs that stay mounted, with their messages on the
way. A `BroadcastChannel` carries a message to every other tab, keeps the messages of one tab in
order, and loses none; nothing else is known of when a message arrives. So two tabs can time out at
the same time, and a heartbeat can arrive after a lock.

A tab that locks has told all others or was told itself. `LockKnown` is the invariant about the
messages on the way: as long as a tab is locked, one that is not has a lock message coming.
`idle_agreement` puts together what follows for every run.
-/

set_option autoImplicit false
set_option relaxedAutoImplicit false

namespace OpfsWebauthn.Auth

open Foundation

/-! ### What a method does -/

namespace IdleLockCoordinator

/-- What a call of a method can do: nothing when the coordinator is locked; publish heartbeats and
stay open; lock by itself and publish it; or mirror the lock of another tab. -/
inductive Move (before : IdleLockCoordinator) :
    IdleLockCoordinator × List CoordinatorEffect → Prop
  | asleep (hlocked : before.locked = true) : Move before (before, [])
  | awake (after : IdleLockCoordinator) (effects : List CoordinatorEffect)
      (hbefore : before.locked = false) (hafter : after.locked = false)
      (heffects : ∀ effect ∈ effects, effect = .publish .vaultHeartbeat) :
      Move before (after, effects)
  | fires (hbefore : before.locked = false) :
      Move before ({ before with locked := true }, [.publish .vaultLocked, .onLock])
  | mirrors (hbefore : before.locked = false) :
      Move before ({ before with locked := true }, [.onLock])

theorem move_noteActivity (heartbeatIntervalMs now : ℕ) (coordinator : IdleLockCoordinator) :
    Move coordinator (coordinator.noteActivity heartbeatIntervalMs now) := by
  rcases coordinator.noteActivity_cases heartbeatIntervalMs now with
    ⟨hlocked, heq⟩ | ⟨hunlocked, heq⟩ | ⟨hunlocked, -, heq⟩
  · rw [heq]
    exact .asleep hlocked
  · rw [heq]
    exact .awake _ _ hunlocked hunlocked fun effect heffect ↦ List.mem_singleton.mp heffect
  · rw [heq]
    exact .awake _ _ hunlocked hunlocked fun effect heffect ↦ by cases heffect

theorem move_tick (idleMs now : ℕ) (coordinator : IdleLockCoordinator) :
    Move coordinator (coordinator.tick idleMs now) := by
  rcases coordinator.tick_cases idleMs now with heq | ⟨hunlocked, -, heq⟩
  · rw [heq]
    cases hlocked : coordinator.locked with
    | true => exact .asleep hlocked
    | false => exact .awake _ _ hlocked hlocked fun effect heffect ↦ by cases heffect
  · rw [heq]
    exact .fires hunlocked

theorem move_receive (now : ℕ) (coordinator : IdleLockCoordinator)
    (message : VaultChannelMessage) : Move coordinator (coordinator.receive now message) := by
  unfold receive
  cases hlocked : coordinator.locked with
  | true => exact .asleep hlocked
  | false =>
    cases message with
    | vaultHeartbeat => exact .awake _ _ hlocked rfl fun effect heffect ↦ by cases heffect
    | vaultLocked => exact .mirrors hlocked

/-- Activity does not lock. -/
theorem noteActivity_ne_onLock (heartbeatIntervalMs now : ℕ) (coordinator : IdleLockCoordinator) :
    (coordinator.noteActivity heartbeatIntervalMs now).2 ≠ [.onLock] := by
  rcases coordinator.noteActivity_cases heartbeatIntervalMs now with
    ⟨-, heq⟩ | ⟨-, heq⟩ | ⟨-, -, heq⟩
  · simp [heq]
  · simp [heq]
  · simp [heq]

/-- A tick that locks publishes it. -/
theorem tick_ne_onLock (idleMs now : ℕ) (coordinator : IdleLockCoordinator) :
    (coordinator.tick idleMs now).2 ≠ [.onLock] := by
  rcases coordinator.tick_cases idleMs now with heq | ⟨-, -, heq⟩
  · simp [heq]
  · simp [heq]

/-- A coordinator that is told of a lock is locked then, and publishes nothing. -/
theorem receive_vaultLocked (now : ℕ) (coordinator : IdleLockCoordinator) :
    (coordinator.receive now .vaultLocked).1.locked = true ∧
      published (coordinator.receive now .vaultLocked).2 = [] := by
  unfold receive
  cases hlocked : coordinator.locked with
  | true => exact ⟨hlocked, rfl⟩
  | false => exact ⟨rfl, rfl⟩

end IdleLockCoordinator

/-! ### The tabs and their messages -/

/-- A message on its way to one of the other tabs. -/
structure IdlePacket where
  sender : ℕ
  receiver : ℕ
  message : VaultChannelMessage
deriving DecidableEq, Repr

/-- The tabs, with the messages on the way, oldest first. The history lists what the methods of each
tab called. -/
structure IdleNetwork where
  clock : ℕ
  tabs : List IdleLockCoordinator
  flying : List IdlePacket
  calls : List (ℕ × CoordinatorEffect)
deriving DecidableEq, Repr

/-- What happens: a method is called, time passes, or a message arrives. -/
inductive IdleNetworkEvent
  | noteActivity (tab : ℕ)
  | tick (tab : ℕ)
  | advance (duration : ℕ)
  | deliver (position : ℕ)
deriving DecidableEq, Repr

namespace IdleNetwork

/-- What the methods of a tab called. -/
def callsOf (world : IdleNetwork) (tab : ℕ) : List CoordinatorEffect :=
  (world.calls.filter fun call ↦ call.1 = tab).map Prod.snd

/-- The packets by which a tab publishes a message. -/
def packets (world : IdleNetwork) (tab : ℕ) (message : VaultChannelMessage) : List IdlePacket :=
  ((List.range world.tabs.length).filter fun other ↦ other ≠ tab).map fun other ↦
    ⟨tab, other, message⟩

/-- One tab moves to a new state, and what it published is on its way to the others. -/
def settle (world : IdleNetwork) (tab : ℕ)
    (outcome : IdleLockCoordinator × List CoordinatorEffect) : IdleNetwork :=
  { world with
    tabs := world.tabs.set tab outcome.1
    flying := world.flying ++ (published outcome.2).flatMap (world.packets tab)
    calls := world.calls ++ outcome.2.map fun effect ↦ (tab, effect) }

variable (idleMs heartbeatIntervalMs : ℕ)

/-- One event. -/
def step (world : IdleNetwork) : IdleNetworkEvent → Option IdleNetwork
  | .noteActivity tab => world.tabs[tab]?.map fun coordinator ↦
    world.settle tab (coordinator.noteActivity heartbeatIntervalMs world.clock)
  | .tick tab => world.tabs[tab]?.map fun coordinator ↦
    world.settle tab (coordinator.tick idleMs world.clock)
  | .advance duration => some { world with clock := world.clock + duration }
  | .deliver position =>
    (takePacket (fun packet ↦ (packet.sender, packet.receiver)) world.flying position).bind
      fun taken ↦ world.tabs[taken.1.receiver]?.map fun coordinator ↦
        { world with flying := taken.2 }.settle taken.1.receiver
          (coordinator.receive world.clock taken.1.message)

/-- The tabs as a system. -/
def automaton : Automaton IdleNetwork IdleNetworkEvent :=
  ⟨step idleMs heartbeatIntervalMs⟩

/-- Tabs that were mounted at some times, and have not published anything. -/
def mounted (clock : ℕ) (times : List ℕ) : IdleNetwork :=
  ⟨clock, times.map .create, [], []⟩

variable {idleMs heartbeatIntervalMs : ℕ}

/-- What an event does to the tabs: nothing, or one tab makes a move, at the arrival of a message or
by itself. -/
inductive Moves (world : IdleNetwork) : IdleNetwork → Prop
  | advance (duration : ℕ) : Moves world { world with clock := world.clock + duration }
  | own (tab : ℕ) (before : IdleLockCoordinator)
      (outcome : IdleLockCoordinator × List CoordinatorEffect)
      (hbefore : world.tabs[tab]? = some before) (hmove : before.Move outcome)
      (hown : outcome.2 ≠ [.onLock]) : Moves world (world.settle tab outcome)
  | arrival (packet : IdlePacket) (rest : List IdlePacket) (before : IdleLockCoordinator)
      (hbefore : world.tabs[packet.receiver]? = some before)
      (hperm : world.flying.Perm (packet :: rest)) :
      Moves world ({ world with flying := rest }.settle packet.receiver
        (before.receive world.clock packet.message))

/-- Every step is one of these. -/
theorem moves_of_step {world next : IdleNetwork} {event : IdleNetworkEvent}
    (hstep : (automaton idleMs heartbeatIntervalMs).step world event = some next) :
    Moves world next := by
  cases event with
  | noteActivity tab =>
    obtain ⟨coordinator, hcoordinator, rfl⟩ := Option.map_eq_some_iff.mp hstep
    exact .own tab coordinator _ hcoordinator (coordinator.move_noteActivity _ _)
      (coordinator.noteActivity_ne_onLock _ _)
  | tick tab =>
    obtain ⟨coordinator, hcoordinator, rfl⟩ := Option.map_eq_some_iff.mp hstep
    exact .own tab coordinator _ hcoordinator (coordinator.move_tick _ _)
      (coordinator.tick_ne_onLock _ _)
  | advance duration =>
    obtain rfl := Option.some.inj hstep
    exact .advance duration
  | deliver position =>
    obtain ⟨⟨packet, rest⟩, htake, hnext⟩ := Option.bind_eq_some_iff.mp hstep
    obtain ⟨coordinator, hcoordinator, rfl⟩ := Option.map_eq_some_iff.mp hnext
    exact .arrival packet rest coordinator hcoordinator (perm_of_takePacket htake)

/-! ### One tab moves -/

section Settle

variable {world : IdleNetwork} {tab : ℕ} {before : IdleLockCoordinator}
  {outcome : IdleLockCoordinator × List CoordinatorEffect}

/-- The tab that moved. -/
theorem tabs_settle_self (hbefore : world.tabs[tab]? = some before) :
    (world.settle tab outcome).tabs[tab]? = some outcome.1 :=
  List.getElem?_set_self (List.getElem?_eq_some_iff.mp hbefore).1

/-- The other tabs stay as they are. -/
theorem tabs_settle_other {other : ℕ} (hother : tab ≠ other) :
    (world.settle tab outcome).tabs[other]? = world.tabs[other]? :=
  List.getElem?_set_ne hother

/-- The calls of the tab that moved are recorded. -/
theorem callsOf_settle_self :
    (world.settle tab outcome).callsOf tab = world.callsOf tab ++ outcome.2 := by
  simp only [callsOf, settle, List.filter_append, List.map_append]
  congr 1
  induction outcome.2 with
  | nil => rfl
  | cons effect rest ih => simpa using ih

/-- The other tabs call nothing. -/
theorem callsOf_settle_other {other : ℕ} (hother : tab ≠ other) :
    (world.settle tab outcome).callsOf other = world.callsOf other := by
  simp only [callsOf, settle, List.filter_append, List.map_append]
  have hnothing : (outcome.2.map fun effect ↦ (tab, effect)).filter
      (fun call ↦ call.1 = other) = [] := by
    rw [List.filter_eq_nil_iff]
    intro call hcall
    obtain ⟨effect, -, rfl⟩ := List.mem_map.mp hcall
    simpa using hother
  rw [hnothing, List.map_nil, List.append_nil]

/-- A published message is on its way to every other tab. -/
theorem mem_packets {message : VaultChannelMessage} {packet : IdlePacket} :
    packet ∈ world.packets tab message ↔ packet.sender = tab ∧ packet.message = message ∧
      packet.receiver ≠ tab ∧ packet.receiver < world.tabs.length := by
  unfold packets
  rw [List.mem_map]
  constructor
  · rintro ⟨other, hother, rfl⟩
    obtain ⟨hrange, hdiffers⟩ := List.mem_filter.mp hother
    exact ⟨rfl, rfl, of_decide_eq_true hdiffers, List.mem_range.mp hrange⟩
  · rintro ⟨hsender, hmessage, hdiffers, hlt⟩
    refine ⟨packet.receiver, List.mem_filter.mpr ⟨List.mem_range.mpr hlt, by simpa using hdiffers⟩,
      ?_⟩
    rw [← hsender, ← hmessage]

end Settle

/-! ### What is recorded of a tab -/

/-- A tab has called `onLock` once when it is locked and never before, and it has not published a
lock before it is locked. -/
structure Recorded (world : IdleNetwork) : Prop where
  locks : ∀ tab coordinator, world.tabs[tab]? = some coordinator →
    (world.callsOf tab).count .onLock = if coordinator.locked then 1 else 0
  silent : ∀ tab coordinator, world.tabs[tab]? = some coordinator → coordinator.locked = false →
    .publish .vaultLocked ∉ world.callsOf tab

theorem Recorded.settle {world : IdleNetwork} (hrecorded : world.Recorded) {tab : ℕ}
    {before : IdleLockCoordinator} (hbefore : world.tabs[tab]? = some before)
    {outcome : IdleLockCoordinator × List CoordinatorEffect} (hmove : before.Move outcome) :
    (world.settle tab outcome).Recorded := by
  have hlocks := hrecorded.locks tab before hbefore
  constructor
  · intro other coordinator hcoordinator
    by_cases hother : tab = other
    · subst hother
      rw [tabs_settle_self hbefore, Option.some.injEq] at hcoordinator
      subst hcoordinator
      rw [callsOf_settle_self, List.count_append, hlocks]
      cases hmove with
      | asleep hlocked => simp
      | awake after effects hbeforeOpen hafter heffects =>
        have hnone : effects.count .onLock = 0 := by
          rw [List.count_eq_zero]
          intro honLock
          cases heffects _ honLock
        simp [hbeforeOpen, hafter, hnone]
      | fires hbeforeOpen => simp [hbeforeOpen]
      | mirrors hbeforeOpen => simp [hbeforeOpen]
    · rw [tabs_settle_other hother] at hcoordinator
      rw [callsOf_settle_other hother]
      exact hrecorded.locks other coordinator hcoordinator
  · intro other coordinator hcoordinator hunlocked
    by_cases hother : tab = other
    · subst hother
      rw [tabs_settle_self hbefore, Option.some.injEq] at hcoordinator
      subst hcoordinator
      rw [callsOf_settle_self, List.mem_append, not_or]
      cases hmove with
      | asleep hlocked =>
        rw [hlocked] at hunlocked
        cases hunlocked
      | awake after effects hbeforeOpen hafter heffects =>
        refine ⟨hrecorded.silent tab before hbefore hbeforeOpen, fun hpublished ↦ ?_⟩
        cases heffects _ hpublished
      | fires hbeforeOpen => cases hunlocked
      | mirrors hbeforeOpen => cases hunlocked
    · rw [tabs_settle_other hother] at hcoordinator
      rw [callsOf_settle_other hother]
      exact hrecorded.silent other coordinator hcoordinator hunlocked

/-! ### The locks on their way -/

/-- A lock message comes from a locked tab, and as long as a tab is locked, one that is not has a
lock message coming. The tabs in `arriving` have it taken out already. -/
structure LockKnown (world : IdleNetwork) (arriving : ℕ → Prop) : Prop where
  sent : ∀ packet ∈ world.flying, packet.message = .vaultLocked →
    ∃ sender, world.tabs[packet.sender]? = some sender ∧ sender.locked = true
  coming : ∀ locked ∈ world.tabs, locked.locked = true → ∀ tab coordinator,
    world.tabs[tab]? = some coordinator → coordinator.locked = false → ¬ arriving tab →
      ∃ packet ∈ world.flying, packet.receiver = tab ∧ packet.message = .vaultLocked

/-- A locked coordinator makes no move. -/
theorem eq_of_locked {before : IdleLockCoordinator}
    {outcome : IdleLockCoordinator × List CoordinatorEffect} (hlocked : before.locked = true)
    (hmove : before.Move outcome) : outcome = (before, []) := by
  cases hmove with
  | asleep _ => rfl
  | awake _ _ hbefore _ _ => cases hbefore.symm.trans hlocked
  | fires hbefore => cases hbefore.symm.trans hlocked
  | mirrors hbefore => cases hbefore.symm.trans hlocked

/-- A tab that publishes a lock is locked then, and tells every other tab. -/
theorem fires_of_published {before : IdleLockCoordinator}
    {outcome : IdleLockCoordinator × List CoordinatorEffect} (hmove : before.Move outcome)
    (hpublished : .vaultLocked ∈ published outcome.2) : outcome.1.locked = true := by
  cases hmove with
  | asleep _ => cases hpublished
  | awake after effects _ _ heffects =>
    obtain ⟨effect, heffect, hmessage⟩ := List.mem_filterMap.mp hpublished
    rw [heffects effect heffect] at hmessage
    cases hmessage
  | fires _ => rfl
  | mirrors _ => cases hpublished

theorem LockKnown.settle {world : IdleNetwork} {arriving : ℕ → Prop}
    (hknown : world.LockKnown arriving) {tab : ℕ} {before : IdleLockCoordinator}
    (hbefore : world.tabs[tab]? = some before)
    {outcome : IdleLockCoordinator × List CoordinatorEffect} (hmove : before.Move outcome)
    (hmirrors : outcome.2 = [.onLock] → ∃ locked ∈ world.tabs, locked.locked = true)
    (harriving : ∀ other, arriving other → other = tab ∧ outcome.1.locked = true) :
    (world.settle tab outcome).LockKnown fun _ ↦ False := by
  constructor
  · intro packet hpacket hmessage
    rcases List.mem_append.mp hpacket with hold | hnew
    · obtain ⟨sender, hsender, hlocked⟩ := hknown.sent packet hold hmessage
      by_cases hself : tab = packet.sender
      · rw [← hself, hbefore, Option.some.injEq] at hsender
        subst hsender
        rw [← hself, eq_of_locked hlocked hmove]
        exact ⟨before, tabs_settle_self hbefore, hlocked⟩
      · exact ⟨sender, (tabs_settle_other hself).trans hsender, hlocked⟩
    · obtain ⟨message, hpublished, hsent⟩ := List.mem_flatMap.mp hnew
      obtain ⟨hsender, hsame, -, -⟩ := mem_packets.mp hsent
      rw [← hsame, hmessage] at hpublished
      rw [hsender]
      exact ⟨outcome.1, tabs_settle_self hbefore, fires_of_published hmove hpublished⟩
  · intro locked hmem hlocked other coordinator hcoordinator hunlocked _
    have hopen : ¬ arriving other := by
      intro harrives
      obtain ⟨rfl, houtcome⟩ := harriving other harrives
      rw [tabs_settle_self hbefore, Option.some.injEq] at hcoordinator
      rw [← hcoordinator, houtcome] at hunlocked
      cases hunlocked
    -- it is enough that some tab was locked before, and that this one was open
    have hstays : (∃ old ∈ world.tabs, old.locked = true) →
        (∃ old, world.tabs[other]? = some old ∧ old.locked = false) →
        ∃ packet ∈ (world.settle tab outcome).flying,
          packet.receiver = other ∧ packet.message = .vaultLocked := by
      rintro ⟨old, hold, holdLocked⟩ ⟨this, hthis, hthisOpen⟩
      obtain ⟨packet, hpacket, hrest⟩ :=
        hknown.coming old hold holdLocked other this hthis hthisOpen hopen
      exact ⟨packet, List.mem_append_left _ hpacket, hrest⟩
    have holdMem : locked ∈ world.tabs ∨ locked = outcome.1 := List.mem_or_eq_of_mem_set hmem
    by_cases hself : tab = other
    · subst hself
      rw [tabs_settle_self hbefore, Option.some.injEq] at hcoordinator
      subst hcoordinator
      have hbeforeOpen : before.locked = false := by
        cases hmove with
        | asleep hbeforeLocked => exact hunlocked
        | awake _ _ hopen _ _ => exact hopen
        | fires hopen => exact hopen
        | mirrors hopen => exact hopen
      rcases holdMem with hold | hnew
      · exact hstays ⟨locked, hold, hlocked⟩ ⟨before, hbefore, hbeforeOpen⟩
      · rw [← hnew, hlocked] at hunlocked
        cases hunlocked
    · rw [tabs_settle_other hself] at hcoordinator
      have hthis : ∃ old, world.tabs[other]? = some old ∧ old.locked = false :=
        ⟨coordinator, hcoordinator, hunlocked⟩
      rcases holdMem with hold | rfl
      · exact hstays ⟨locked, hold, hlocked⟩ hthis
      · cases hmove with
        | asleep hbeforeLocked =>
          exact hstays ⟨before, List.mem_of_getElem? hbefore, hbeforeLocked⟩ hthis
        | awake _ _ _ hafter _ => cases hafter.symm.trans hlocked
        | mirrors _ => exact hstays (hmirrors rfl) hthis
        | fires _ =>
          have hlt := (List.getElem?_eq_some_iff.mp hcoordinator).1
          refine ⟨⟨tab, other, .vaultLocked⟩, List.mem_append_right _ ?_, rfl, rfl⟩
          exact List.mem_flatMap.mpr ⟨.vaultLocked, List.mem_singleton_self _,
            mem_packets.mpr ⟨rfl, rfl, fun hsame ↦ hself hsame.symm, hlt⟩⟩

/-! ### Every step -/

/-- What holds of the tabs and the messages in every state of a run. -/
structure Consistent (world : IdleNetwork) : Prop where
  recorded : world.Recorded
  known : world.LockKnown fun _ ↦ False

/-- Tabs that were just mounted are all open. -/
theorem consistent_mounted (clock : ℕ) (times : List ℕ) : (mounted clock times).Consistent := by
  have hopen : ∀ (tab : ℕ) (coordinator : IdleLockCoordinator),
      (mounted clock times).tabs[tab]? = some coordinator → coordinator.locked = false := by
    intro tab coordinator hcoordinator
    obtain ⟨time, -, rfl⟩ := List.mem_map.mp (List.mem_of_getElem? hcoordinator)
    rfl
  refine ⟨⟨?_, ?_⟩, ⟨?_, ?_⟩⟩
  · intro tab coordinator hcoordinator
    rw [hopen tab coordinator hcoordinator]
    rfl
  · intro tab coordinator _ _ hcall
    cases hcall
  · intro packet hpacket
    cases hpacket
  · intro locked hlocked hisLocked
    obtain ⟨tab, htab⟩ := List.mem_iff_getElem?.mp hlocked
    rw [hopen tab locked htab] at hisLocked
    cases hisLocked

/-- What is left when a message is taken out: the tab that it goes to has it. -/
theorem LockKnown.take {world : IdleNetwork} (hknown : world.LockKnown fun _ ↦ False)
    {packet : IdlePacket} {rest : List IdlePacket} (hperm : world.flying.Perm (packet :: rest)) :
    LockKnown { world with flying := rest } fun tab ↦
      tab = packet.receiver ∧ packet.message = .vaultLocked := by
  constructor
  · intro other hother
    exact hknown.sent other (hperm.mem_iff.mpr (List.mem_cons_of_mem _ hother))
  · intro locked hlocked hisLocked tab coordinator hcoordinator hunlocked hopen
    obtain ⟨other, hother, hreceiver, hmessage⟩ :=
      hknown.coming locked hlocked hisLocked tab coordinator hcoordinator hunlocked not_false
    rcases List.mem_cons.mp (hperm.mem_iff.mp hother) with rfl | hrest
    · exact absurd ⟨hreceiver.symm, hmessage⟩ hopen
    · exact ⟨other, hrest, hreceiver, hmessage⟩

theorem Consistent.moves {world next : IdleNetwork} (hconsistent : world.Consistent)
    (hmoves : Moves world next) : next.Consistent := by
  cases hmoves with
  | advance duration =>
    exact ⟨⟨hconsistent.recorded.locks, hconsistent.recorded.silent⟩,
      ⟨hconsistent.known.sent, hconsistent.known.coming⟩⟩
  | own tab before outcome hbefore hmove hown =>
    exact ⟨hconsistent.recorded.settle hbefore hmove,
      hconsistent.known.settle hbefore hmove (fun hmirrors ↦ absurd hmirrors hown)
        fun _ hfalse ↦ hfalse.elim⟩
  | arrival packet rest before hbefore hperm =>
    have hrecorded : { world with flying := rest }.Recorded :=
      ⟨hconsistent.recorded.locks, hconsistent.recorded.silent⟩
    have hmove := before.move_receive world.clock packet.message
    refine ⟨hrecorded.settle hbefore hmove,
      (hconsistent.known.take hperm).settle hbefore hmove ?_ ?_⟩
    · intro hmirrors
      have hmessage : packet.message = .vaultLocked := by
        cases hsent : packet.message with
        | vaultLocked => rfl
        | vaultHeartbeat =>
          rw [hsent] at hmirrors
          unfold IdleLockCoordinator.receive at hmirrors
          split at hmirrors <;> cases hmirrors
      obtain ⟨sender, hsender, hlocked⟩ :=
        hconsistent.known.sent packet (hperm.mem_iff.mpr List.mem_cons_self) hmessage
      exact ⟨sender, List.mem_of_getElem? hsender, hlocked⟩
    · rintro other ⟨rfl, hmessage⟩
      rw [hmessage]
      exact ⟨rfl, (before.receive_vaultLocked world.clock).1⟩

/-- The invariant of every run. -/
theorem consistent_of_reaches {clock : ℕ} {times : List ℕ} {world : IdleNetwork}
    (hreaches : (automaton idleMs heartbeatIntervalMs).Reaches (mounted clock times) world) :
    world.Consistent :=
  hreaches.invariant Consistent (consistent_mounted clock times)
    fun _ _ _ hconsistent _ hstep ↦ hconsistent.moves (moves_of_step hstep)

/-! ### Locked for good -/

/-- A tab is locked, and this is all that its methods have called. -/
def LockedWith (tab : ℕ) (calls : List CoordinatorEffect) (world : IdleNetwork) : Prop :=
  (∃ coordinator, world.tabs[tab]? = some coordinator ∧ coordinator.locked = true) ∧
    world.callsOf tab = calls

theorem LockedWith.settle {world : IdleNetwork} {tab : ℕ} {calls : List CoordinatorEffect}
    (hlocked : LockedWith tab calls world) {other : ℕ} {before : IdleLockCoordinator}
    (hbefore : world.tabs[other]? = some before)
    {outcome : IdleLockCoordinator × List CoordinatorEffect} (hmove : before.Move outcome) :
    LockedWith tab calls (world.settle other outcome) := by
  obtain ⟨⟨coordinator, hcoordinator, hisLocked⟩, hcalls⟩ := hlocked
  by_cases hself : other = tab
  · subst hself
    rw [hbefore, Option.some.injEq] at hcoordinator
    subst hcoordinator
    rw [eq_of_locked hisLocked hmove]
    refine ⟨⟨before, tabs_settle_self hbefore, hisLocked⟩, ?_⟩
    rw [callsOf_settle_self, List.append_nil]
    exact hcalls
  · refine ⟨⟨coordinator, (tabs_settle_other hself).trans hcoordinator, hisLocked⟩, ?_⟩
    rw [callsOf_settle_other hself]
    exact hcalls

/-- A locked tab stays locked, and its methods call nothing any more. -/
theorem LockedWith.of_reaches {world later : IdleNetwork} {tab : ℕ}
    {calls : List CoordinatorEffect} (hlocked : LockedWith tab calls world)
    (hreaches : (automaton idleMs heartbeatIntervalMs).Reaches world later) :
    LockedWith tab calls later := by
  refine hreaches.invariant (LockedWith tab calls) hlocked ?_
  intro state event next hstate _ hstep
  cases moves_of_step hstep with
  | advance duration => exact hstate
  | own other before outcome hbefore hmove _ => exact hstate.settle hbefore hmove
  | arrival packet rest before hbefore hperm =>
    have htaken : LockedWith tab calls { state with flying := rest } := hstate
    exact htaken.settle hbefore (before.move_receive state.clock packet.message)

/-- A tab that was open is locked after a step. -/
def BecomesLocked (world next : IdleNetwork) (tab : ℕ) : Prop :=
  ∃ before after, world.tabs[tab]? = some before ∧ before.locked = false ∧
    next.tabs[tab]? = some after ∧ after.locked = true

/-- A tab that an arriving message locks has not published a lock. -/
theorem Consistent.mirrored {world next : IdleNetwork} (hconsistent : world.Consistent)
    {position tab : ℕ}
    (hstep : (automaton idleMs heartbeatIntervalMs).step world (.deliver position) = some next)
    (hlocks : BecomesLocked world next tab) :
    .publish .vaultLocked ∉ next.callsOf tab ∧ LockedWith tab (next.callsOf tab) next := by
  obtain ⟨before, after, hbefore, hopen, hafter, hlocked⟩ := hlocks
  refine ⟨?_, ⟨after, hafter, hlocked⟩, rfl⟩
  obtain ⟨⟨packet, rest⟩, -, hnext⟩ := Option.bind_eq_some_iff.mp hstep
  obtain ⟨coordinator, hcoordinator, rfl⟩ := Option.map_eq_some_iff.mp hnext
  have hsilent : .publish .vaultLocked ∉ callsOf { world with flying := rest } tab :=
    hconsistent.recorded.silent tab before hbefore hopen
  by_cases hself : packet.receiver = tab
  · subst hself
    rw [callsOf_settle_self, List.mem_append, not_or]
    refine ⟨hsilent, ?_⟩
    unfold IdleLockCoordinator.receive
    split
    · exact List.not_mem_nil
    · split
      · exact List.not_mem_nil
      · simp
  · rw [callsOf_settle_other hself]
    exact hsilent

/-- In every run of any number of tabs: `onLock` runs at most once in a tab; when no message is on
its way, no tab is locked or every tab is; a locked tab stays locked, and its methods call nothing
any more; and a tab that an arriving message locks never publishes a lock. -/
theorem idle_agreement {clock : ℕ} {times : List ℕ} {world : IdleNetwork}
    (hreaches : (automaton idleMs heartbeatIntervalMs).Reaches (mounted clock times) world) :
    (∀ tab < world.tabs.length, (world.callsOf tab).count .onLock ≤ 1) ∧
    (world.flying = [] → (∀ coordinator ∈ world.tabs, coordinator.locked = false) ∨
      ∀ coordinator ∈ world.tabs, coordinator.locked = true) ∧
    (∀ tab coordinator, world.tabs[tab]? = some coordinator → coordinator.locked = true →
      ∀ later, (automaton idleMs heartbeatIntervalMs).Reaches world later →
        LockedWith tab (world.callsOf tab) later) ∧
    (∀ position next tab, (automaton idleMs heartbeatIntervalMs).step world (.deliver position) =
        some next → BecomesLocked world next tab →
      ∀ later, (automaton idleMs heartbeatIntervalMs).Reaches next later →
        .publish .vaultLocked ∉ later.callsOf tab) := by
  have hconsistent := consistent_of_reaches hreaches
  refine ⟨?_, ?_, ?_, ?_⟩
  · intro tab htab
    have hcount := hconsistent.recorded.locks tab _ (List.getElem?_eq_getElem htab)
    rw [hcount]
    split_ifs
    · exact Nat.le_refl 1
    · exact Nat.zero_le 1
  · intro hquiet
    by_cases hsome : ∃ locked ∈ world.tabs, locked.locked = true
    · obtain ⟨locked, hlocked, hisLocked⟩ := hsome
      right
      intro coordinator hcoordinator
      by_contra hunlocked
      obtain ⟨tab, htab⟩ := List.mem_iff_getElem?.mp hcoordinator
      obtain ⟨packet, hpacket, -⟩ := hconsistent.known.coming locked hlocked hisLocked tab
        coordinator htab (by simpa using hunlocked) not_false
      rw [hquiet] at hpacket
      cases hpacket
    · left
      intro coordinator hcoordinator
      by_contra hlocked
      exact hsome ⟨coordinator, hcoordinator, by simpa using hlocked⟩
  · intro tab coordinator hcoordinator hlocked later hlater
    have hnow : LockedWith tab (world.callsOf tab) world :=
      ⟨⟨coordinator, hcoordinator, hlocked⟩, rfl⟩
    exact hnow.of_reaches hlater
  · intro position next tab hstep hlocks later hlater
    obtain ⟨hsilent, hlocked⟩ := hconsistent.mirrored hstep hlocks
    rw [(hlocked.of_reaches hlater).2]
    exact hsilent

/-- Two of three tabs time out at the same time, while the third is active; its heartbeat arrives
after the locks. -/
def crossingLocks : List IdleNetworkEvent :=
  [.advance 300000, .tick 0, .noteActivity 1, .tick 2, .deliver 5, .deliver 1, .deliver 0,
    .deliver 1, .deliver 1, .deliver 0]

/-- In the end all three are locked. -/
theorem idle_agreement_crossingLocks : ∃ world,
    (automaton idleMsDefault heartbeatIntervalMsDefault).run
      (mounted 1700000000000 [1700000000000, 1700000000000, 1700000000000]) crossingLocks =
        some world ∧
    ∀ coordinator ∈ world.tabs, coordinator.locked = true := by
  obtain ⟨world, hworld, hview⟩ := Option.map_eq_some_iff.mp
    (show ((automaton idleMsDefault heartbeatIntervalMsDefault).run
        (mounted 1700000000000 [1700000000000, 1700000000000, 1700000000000])
          crossingLocks).map (fun world ↦ (world.flying, world.tabs.map (·.locked))) =
      some ([], [true, true, true]) by decide +kernel)
  obtain ⟨hquiet, hlocks⟩ := Prod.mk.inj hview
  have hagree := (idle_agreement (Automaton.reaches_of_run hworld)).2.1 hquiet
  refine ⟨world, hworld, hagree.resolve_left fun hopen ↦ ?_⟩
  have hlocked : true ∈ world.tabs.map (·.locked) := by
    rw [hlocks]
    decide
  obtain ⟨coordinator, hcoordinator, hisLocked⟩ := List.mem_map.mp hlocked
  cases (hopen coordinator hcoordinator).symm.trans hisLocked

end IdleNetwork

end OpfsWebauthn.Auth
