import Mathlib.Data.Int.Notation
import Mathlib.Data.List.Basic
import OpfsWebauthn.Foundation.Automaton

/-!
# The idle lock

`idle-lock-coordinator.ts`, and any number of tabs that run it. A tab tells the others that it is
active by a heartbeat, at most one in each interval, and locks when it has neither noted activity
nor heard a heartbeat for the whole idle window. The tabs share one clock, and a published message
reaches every other tab at once and in order.

A heartbeat is heard by all, so no tab locks within an idle window of a published heartbeat. An
activity inside the interval of an earlier heartbeat is not announced, so the other tabs date it
back by up to an interval: `no_early_lock` says how much of the window is kept, and
`not_keepsIdleWindow_unannouncedActivity` that it can be cut short by as much.
-/

set_option autoImplicit false
set_option relaxedAutoImplicit false

namespace OpfsWebauthn.Auth

open Foundation

/-! ### The coordinator -/

/-- `VaultChannelMessage`. -/
inductive VaultChannelMessage
  | vaultHeartbeat
  | vaultLocked
deriving DecidableEq, Repr

/-- `HEARTBEAT_INTERVAL_MS`. -/
def heartbeatIntervalMsDefault : ℕ := 30000

/-- `IDLE_MS_DEFAULT`. -/
def idleMsDefault : ℕ := 5 * 60 * 1000

/-- What a method of the coordinator calls: `publish(msg)` or `onLock()`. -/
inductive CoordinatorEffect
  | publish (message : VaultChannelMessage)
  | onLock
deriving DecidableEq, Repr

/-- `IdleLockCoordinator`. The clock and the two durations are arguments of the methods. -/
structure IdleLockCoordinator where
  lastActivity : ℕ
  lastHeartbeatSent : ℕ
  locked : Bool
deriving DecidableEq, Repr

namespace IdleLockCoordinator

/-- `constructor(opts)`. -/
def create (now : ℕ) : IdleLockCoordinator :=
  ⟨now, 0, false⟩

/-- `noteActivity()`. -/
def noteActivity (heartbeatIntervalMs now : ℕ) (coordinator : IdleLockCoordinator) :
    IdleLockCoordinator × List CoordinatorEffect :=
  if coordinator.locked then (coordinator, [])
  else if (now : ℤ) - coordinator.lastHeartbeatSent ≥ heartbeatIntervalMs then
    ({ coordinator with lastActivity := now, lastHeartbeatSent := now },
      [.publish .vaultHeartbeat])
  else ({ coordinator with lastActivity := now }, [])

/-- `receive(msg)`. -/
def receive (now : ℕ) (coordinator : IdleLockCoordinator) (message : VaultChannelMessage) :
    IdleLockCoordinator × List CoordinatorEffect :=
  if coordinator.locked then (coordinator, [])
  else
    match message with
    | .vaultHeartbeat => ({ coordinator with lastActivity := now }, [])
    | .vaultLocked => ({ coordinator with locked := true }, [.onLock])

/-- `tick()`. -/
def tick (idleMs now : ℕ) (coordinator : IdleLockCoordinator) :
    IdleLockCoordinator × List CoordinatorEffect :=
  if coordinator.locked then (coordinator, [])
  else if (now : ℤ) - coordinator.lastActivity < idleMs then (coordinator, [])
  else ({ coordinator with locked := true }, [.publish .vaultLocked, .onLock])

/-- A coordinator that is not locked dates its activity to now, and announces it when an interval
has passed since its last heartbeat. -/
theorem noteActivity_cases (heartbeatIntervalMs now : ℕ) (coordinator : IdleLockCoordinator) :
    (coordinator.locked = true ∧
      coordinator.noteActivity heartbeatIntervalMs now = (coordinator, [])) ∨
    (coordinator.locked = false ∧ coordinator.noteActivity heartbeatIntervalMs now =
      ({ coordinator with lastActivity := now, lastHeartbeatSent := now },
        [.publish .vaultHeartbeat])) ∨
    (coordinator.locked = false ∧ now < coordinator.lastHeartbeatSent + heartbeatIntervalMs ∧
      coordinator.noteActivity heartbeatIntervalMs now =
        ({ coordinator with lastActivity := now }, [])) := by
  unfold noteActivity
  cases hlocked : coordinator.locked with
  | true => exact .inl ⟨rfl, rfl⟩
  | false =>
    by_cases hdue : (now : ℤ) - coordinator.lastHeartbeatSent ≥ heartbeatIntervalMs
    · exact .inr (.inl ⟨rfl, by simp [hdue]⟩)
    · exact .inr (.inr ⟨rfl, by omega, by simp [hdue]⟩)

/-- A tick does nothing, or the coordinator was idle for the whole window and locks. -/
theorem tick_cases (idleMs now : ℕ) (coordinator : IdleLockCoordinator) :
    coordinator.tick idleMs now = (coordinator, []) ∨
    (coordinator.locked = false ∧ coordinator.lastActivity + idleMs ≤ now ∧
      coordinator.tick idleMs now =
        ({ coordinator with locked := true }, [.publish .vaultLocked, .onLock])) := by
  unfold tick
  cases hlocked : coordinator.locked with
  | true => exact .inl rfl
  | false =>
    by_cases hfresh : (now : ℤ) - coordinator.lastActivity < idleMs
    · exact .inl (by simp [hfresh])
    · exact .inr ⟨rfl, by omega, by simp [hfresh]⟩

end IdleLockCoordinator

/-! ### The tabs -/

/-- Any number of tabs, oldest first, with their common clock. The history lists the times at which
tabs that were not locked noted activity, and the times of the published heartbeats. -/
structure IdleTabs where
  clock : ℕ
  tabs : List IdleLockCoordinator
  activities : List ℕ
  heartbeats : List ℕ
deriving DecidableEq, Repr

/-- What happens: a tab opens the vault, one of its methods is called, or time passes. -/
inductive IdleEvent
  | mount
  | noteActivity (tab : ℕ)
  | tick (tab : ℕ)
  | advance (duration : ℕ)
deriving DecidableEq, Repr

/-- The messages that a method published. -/
def published (effects : List CoordinatorEffect) : List VaultChannelMessage :=
  effects.filterMap fun effect ↦
    match effect with
    | .publish message => some message
    | .onLock => none

namespace IdleTabs

/-- One tab moves to a new state, and the others receive what it published. -/
def settle (world : IdleTabs) (tab : ℕ)
    (outcome : IdleLockCoordinator × List CoordinatorEffect) : List IdleLockCoordinator :=
  world.tabs.mapIdx fun other coordinator ↦
    if other = tab then outcome.1
    else (published outcome.2).foldl
      (fun coordinator message ↦ (coordinator.receive world.clock message).1) coordinator

variable (idleMs heartbeatIntervalMs : ℕ)

/-- One event. -/
def step (world : IdleTabs) : IdleEvent → Option IdleTabs
  | .mount => some { world with tabs := world.tabs ++ [.create world.clock] }
  | .noteActivity tab => world.tabs[tab]?.map fun coordinator ↦
    let outcome := coordinator.noteActivity heartbeatIntervalMs world.clock
    { world with
      tabs := world.settle tab outcome
      activities := if coordinator.locked then world.activities
        else world.clock :: world.activities
      heartbeats := if .vaultHeartbeat ∈ published outcome.2 then world.clock :: world.heartbeats
        else world.heartbeats }
  | .tick tab => world.tabs[tab]?.map fun coordinator ↦
    { world with tabs := world.settle tab (coordinator.tick idleMs world.clock) }
  | .advance duration => some { world with clock := world.clock + duration }

/-- The tabs as a system. -/
def automaton : Automaton IdleTabs IdleEvent :=
  ⟨step idleMs heartbeatIntervalMs⟩

/-- No tab is open. -/
def start (clock : ℕ) : IdleTabs :=
  ⟨clock, [], [], []⟩

/-- A tab that was not locked is locked after a step. -/
def BecomesLocked (world next : IdleTabs) (tab : ℕ) : Prop :=
  ∃ before after, world.tabs[tab]? = some before ∧ before.locked = false ∧
    next.tabs[tab]? = some after ∧ after.locked = true

variable {idleMs heartbeatIntervalMs : ℕ}

/-! ### What the tabs know of each other -/

/-- What every tab that is not locked knows: its last activity is no older than any heartbeat that
was sent, and no older than any activity less one interval. -/
structure Heard (heartbeatIntervalMs : ℕ) (world : IdleTabs) : Prop where
  heartbeat : ∀ sent ∈ world.heartbeats, sent ≤ world.clock ∧
    ∀ tab ∈ world.tabs, tab.locked = false → sent ≤ tab.lastActivity
  sender : ∀ sender ∈ world.tabs, sender.locked = false → sender.lastHeartbeatSent ≤ world.clock ∧
    ∀ tab ∈ world.tabs, tab.locked = false → sender.lastHeartbeatSent ≤ tab.lastActivity
  activity : ∀ noted ∈ world.activities, noted ≤ world.clock ∧
    ∀ tab ∈ world.tabs, tab.locked = false → noted ≤ tab.lastActivity + (heartbeatIntervalMs - 1)
  past : ∀ tab ∈ world.tabs, tab.locked = false → tab.lastActivity ≤ world.clock

/-- The state of a tab after the step of one. -/
theorem getElem?_settle (world : IdleTabs) (tab other : ℕ)
    (outcome : IdleLockCoordinator × List CoordinatorEffect) :
    (world.settle tab outcome)[other]? = world.tabs[other]?.map fun coordinator ↦
      if other = tab then outcome.1
      else (published outcome.2).foldl
        (fun coordinator message ↦ (coordinator.receive world.clock message).1) coordinator := by
  unfold settle
  rw [List.getElem?_mapIdx]

/-- A tab after the step of one is that one, or it has received what was published. -/
theorem mem_settle {world : IdleTabs} {tab : ℕ}
    {outcome : IdleLockCoordinator × List CoordinatorEffect} {after : IdleLockCoordinator}
    (hafter : after ∈ world.settle tab outcome) : after = outcome.1 ∨
      ∃ before ∈ world.tabs, after = (published outcome.2).foldl
        (fun coordinator message ↦ (coordinator.receive world.clock message).1) before := by
  obtain ⟨other, hother⟩ := List.mem_iff_getElem?.mp hafter
  rw [getElem?_settle, Option.map_eq_some_iff] at hother
  obtain ⟨before, hbefore, rfl⟩ := hother
  by_cases heq : other = tab
  · exact .inl (if_pos heq)
  · exact .inr ⟨before, List.mem_of_getElem? hbefore, if_neg heq⟩

/-- A tab that is not locked hears a heartbeat now. -/
theorem lastActivity_of_heartbeat {world : IdleTabs} {tab : ℕ} {moved : IdleLockCoordinator}
    (hmoved : moved.lastActivity = world.clock) {after : IdleLockCoordinator}
    (hafter : after ∈ world.settle tab (moved, [.publish .vaultHeartbeat]))
    (hunlocked : after.locked = false) : after.lastActivity = world.clock ∧
      (after = moved ∨ ∃ before ∈ world.tabs, before.locked = false ∧
        after.lastHeartbeatSent = before.lastHeartbeatSent) := by
  rcases mem_settle hafter with rfl | ⟨before, hbefore, rfl⟩
  · exact ⟨hmoved, .inl rfl⟩
  · change ((before.receive world.clock .vaultHeartbeat).1).locked = false at hunlocked
    change ((before.receive world.clock .vaultHeartbeat).1).lastActivity = _ ∧
      ((before.receive world.clock .vaultHeartbeat).1 = _ ∨ ∃ other ∈ world.tabs, _ ∧
        ((before.receive world.clock .vaultHeartbeat).1).lastHeartbeatSent = _)
    unfold IdleLockCoordinator.receive at hunlocked ⊢
    cases hlocked : before.locked with
    | true =>
      rw [hlocked, if_pos rfl, hlocked] at hunlocked
      cases hunlocked
    | false => exact ⟨rfl, .inr ⟨before, hbefore, hlocked, rfl⟩⟩

/-- A tab that is not locked after a step without a message is the one that moved or an old one. -/
theorem mem_of_silent {world : IdleTabs} {tab : ℕ} {moved after : IdleLockCoordinator}
    (hafter : after ∈ world.settle tab (moved, [])) : after = moved ∨ after ∈ world.tabs := by
  rcases mem_settle hafter with rfl | ⟨before, hbefore, rfl⟩
  · exact .inl rfl
  · exact .inr hbefore

/-- Every tab is locked after one has published its lock. -/
theorem locked_of_vaultLocked {world : IdleTabs} {tab : ℕ} {moved after : IdleLockCoordinator}
    (hmoved : moved.locked = true)
    (hafter : after ∈ world.settle tab (moved, [.publish .vaultLocked, .onLock])) :
    after.locked = true := by
  rcases mem_settle hafter with rfl | ⟨before, hbefore, rfl⟩
  · exact hmoved
  · change ((before.receive world.clock .vaultLocked).1).locked = true
    unfold IdleLockCoordinator.receive
    cases hlocked : before.locked with
    | true => exact hlocked
    | false => rfl

theorem heard_start (clock : ℕ) : Heard heartbeatIntervalMs (start clock) := by
  refine ⟨?_, ?_, ?_, ?_⟩
  · intro sent hsent
    cases hsent
  · intro sender hsender
    cases hsender
  · intro noted hnoted
    cases hnoted
  · intro tab htab
    cases htab

/-- What the tabs know is kept when every tab is an old one. -/
theorem Heard.of_subset {world next : IdleTabs} (hheard : Heard heartbeatIntervalMs world)
    (hclock : next.clock = world.clock) (htabs : ∀ tab ∈ next.tabs, tab ∈ world.tabs)
    (hactivities : next.activities = world.activities)
    (hheartbeats : next.heartbeats = world.heartbeats) : Heard heartbeatIntervalMs next := by
  refine ⟨?_, ?_, ?_, ?_⟩
  · intro sent hsent
    rw [hheartbeats] at hsent
    rw [hclock]
    exact ⟨(hheard.heartbeat sent hsent).1, fun tab htab ↦
      (hheard.heartbeat sent hsent).2 tab (htabs tab htab)⟩
  · intro sender hsender hunlocked
    rw [hclock]
    have hsent := hheard.sender sender (htabs sender hsender) hunlocked
    exact ⟨hsent.1, fun tab htab ↦ hsent.2 tab (htabs tab htab)⟩
  · intro noted hnoted
    rw [hactivities] at hnoted
    rw [hclock]
    exact ⟨(hheard.activity noted hnoted).1, fun tab htab ↦
      (hheard.activity noted hnoted).2 tab (htabs tab htab)⟩
  · intro tab htab hunlocked
    rw [hclock]
    exact hheard.past tab (htabs tab htab) hunlocked

/-- An activity that is announced brings every tab up to date. -/
theorem Heard.announced {world : IdleTabs} (hheard : Heard heartbeatIntervalMs world) {tab : ℕ}
    (coordinator : IdleLockCoordinator) : Heard heartbeatIntervalMs { world with
      tabs := world.settle tab
        ({ coordinator with lastActivity := world.clock, lastHeartbeatSent := world.clock },
          [.publish .vaultHeartbeat])
      activities := world.clock :: world.activities
      heartbeats := world.clock :: world.heartbeats } := by
  have hnow : ∀ after ∈ world.settle tab
      ({ coordinator with lastActivity := world.clock, lastHeartbeatSent := world.clock },
        [.publish .vaultHeartbeat]), after.locked = false →
      after.lastActivity = world.clock ∧ after.lastHeartbeatSent ≤ world.clock := by
    intro after hafter hunlocked
    obtain ⟨hactivity, rfl | ⟨before, hbefore, hbeforeUnlocked, hsent⟩⟩ :=
      lastActivity_of_heartbeat (rfl : (IdleLockCoordinator.mk world.clock world.clock
        coordinator.locked).lastActivity = world.clock) hafter hunlocked
    · exact ⟨rfl, Nat.le_refl _⟩
    · exact ⟨hactivity, hsent ▸ (hheard.sender before hbefore hbeforeUnlocked).1⟩
  refine ⟨?_, ?_, ?_, ?_⟩
  · intro sent hsent
    have hle : sent ≤ world.clock := by
      rcases List.mem_cons.mp hsent with rfl | hold
      · exact Nat.le_refl _
      · exact (hheard.heartbeat sent hold).1
    exact ⟨hle, fun after hafter hunlocked ↦ by rw [(hnow after hafter hunlocked).1]; exact hle⟩
  · intro sender hsender hunlocked
    have hle := (hnow sender hsender hunlocked).2
    exact ⟨hle, fun after hafter hafterUnlocked ↦ by
      rw [(hnow after hafter hafterUnlocked).1]; exact hle⟩
  · intro noted hnoted
    have hle : noted ≤ world.clock := by
      rcases List.mem_cons.mp hnoted with rfl | hold
      · exact Nat.le_refl _
      · exact (hheard.activity noted hold).1
    refine ⟨hle, fun after hafter hunlocked ↦ ?_⟩
    rw [(hnow after hafter hunlocked).1]
    exact Nat.le_trans hle (Nat.le_add_right _ _)
  · intro after hafter hunlocked
    exact Nat.le_of_eq (hnow after hafter hunlocked).1

/-- An activity inside the interval of the last heartbeat is known only to its own tab; the others
have heard that heartbeat. -/
theorem Heard.unannounced {world : IdleTabs} (hheard : Heard heartbeatIntervalMs world) {tab : ℕ}
    {coordinator : IdleLockCoordinator} (hcoordinator : coordinator ∈ world.tabs)
    (hunlocked : coordinator.locked = false)
    (hdue : world.clock < coordinator.lastHeartbeatSent + heartbeatIntervalMs) :
    Heard heartbeatIntervalMs { world with
      tabs := world.settle tab ({ coordinator with lastActivity := world.clock }, [])
      activities := world.clock :: world.activities } := by
  obtain ⟨hsentPast, hsent⟩ := hheard.sender coordinator hcoordinator hunlocked
  refine ⟨?_, ?_, ?_, ?_⟩
  · intro sent hmem
    obtain ⟨hle, hheardBy⟩ := hheard.heartbeat sent hmem
    refine ⟨hle, fun after hafter hafterUnlocked ↦ ?_⟩
    rcases mem_of_silent hafter with rfl | hold
    · exact hle
    · exact hheardBy after hold hafterUnlocked
  · intro sender hsender hsenderUnlocked
    have hbounds : sender.lastHeartbeatSent ≤ world.clock ∧ ∀ other ∈ world.tabs,
        other.locked = false → sender.lastHeartbeatSent ≤ other.lastActivity := by
      rcases mem_of_silent hsender with rfl | hold
      · exact ⟨hsentPast, hsent⟩
      · exact hheard.sender sender hold hsenderUnlocked
    refine ⟨hbounds.1, fun after hafter hafterUnlocked ↦ ?_⟩
    rcases mem_of_silent hafter with rfl | hold
    · exact hbounds.1
    · exact hbounds.2 after hold hafterUnlocked
  · intro noted hnoted
    rcases List.mem_cons.mp hnoted with rfl | hold
    · refine ⟨Nat.le_refl _, fun after hafter hafterUnlocked ↦ ?_⟩
      rcases mem_of_silent hafter with rfl | hold
      · exact Nat.le_add_right _ _
      · have hheardBy := hsent after hold hafterUnlocked
        change world.clock ≤ after.lastActivity + (heartbeatIntervalMs - 1)
        omega
    · obtain ⟨hle, hknown⟩ := hheard.activity noted hold
      refine ⟨hle, fun after hafter hafterUnlocked ↦ ?_⟩
      rcases mem_of_silent hafter with rfl | hold
      · exact Nat.le_trans hle (Nat.le_add_right _ _)
      · exact hknown after hold hafterUnlocked
  · intro after hafter hafterUnlocked
    rcases mem_of_silent hafter with rfl | hold
    · exact Nat.le_refl _
    · exact hheard.past after hold hafterUnlocked

theorem Heard.step {world next : IdleTabs} {event : IdleEvent}
    (hheard : Heard heartbeatIntervalMs world)
    (hstep : (automaton idleMs heartbeatIntervalMs).step world event = some next) :
    Heard heartbeatIntervalMs next := by
  cases event with
  | mount =>
    obtain rfl := Option.some.inj hstep
    have hmem : ∀ tab ∈ world.tabs ++ [IdleLockCoordinator.create world.clock],
        tab ∈ world.tabs ∨ tab = .create world.clock := by
      intro tab htab
      rcases List.mem_append.mp htab with hold | hnew
      · exact .inl hold
      · exact .inr (List.mem_singleton.mp hnew)
    refine ⟨?_, ?_, ?_, ?_⟩
    · intro sent hsent
      obtain ⟨hle, hheardBy⟩ := hheard.heartbeat sent hsent
      refine ⟨hle, fun tab htab hunlocked ↦ ?_⟩
      rcases hmem tab htab with hold | rfl
      · exact hheardBy tab hold hunlocked
      · exact hle
    · intro sender hsender hsenderUnlocked
      have hbounds : sender.lastHeartbeatSent ≤ world.clock ∧ ∀ other ∈ world.tabs,
          other.locked = false → sender.lastHeartbeatSent ≤ other.lastActivity := by
        rcases hmem sender hsender with hold | rfl
        · exact hheard.sender sender hold hsenderUnlocked
        · exact ⟨Nat.zero_le _, fun _ _ _ ↦ Nat.zero_le _⟩
      refine ⟨hbounds.1, fun tab htab hunlocked ↦ ?_⟩
      rcases hmem tab htab with hold | rfl
      · exact hbounds.2 tab hold hunlocked
      · exact hbounds.1
    · intro noted hnoted
      obtain ⟨hle, hknown⟩ := hheard.activity noted hnoted
      refine ⟨hle, fun tab htab hunlocked ↦ ?_⟩
      rcases hmem tab htab with hold | rfl
      · exact hknown tab hold hunlocked
      · exact Nat.le_trans hle (Nat.le_add_right _ _)
    · intro tab htab hunlocked
      rcases hmem tab htab with hold | rfl
      · exact hheard.past tab hold hunlocked
      · exact Nat.le_refl _
  | noteActivity tab =>
    obtain ⟨coordinator, hcoordinator, rfl⟩ := Option.map_eq_some_iff.mp hstep
    have hmem := List.mem_of_getElem? hcoordinator
    rcases coordinator.noteActivity_cases heartbeatIntervalMs world.clock with
      ⟨hlocked, heq⟩ | ⟨hunlocked, heq⟩ | ⟨hunlocked, hdue, heq⟩
    · rw [heq]
      refine hheard.of_subset rfl ?_ (if_pos hlocked) rfl
      intro after hafter
      rcases mem_of_silent hafter with rfl | hold
      · exact hmem
      · exact hold
    · have hannounced := @Heard.announced _ world hheard tab coordinator
      simpa [heq, hunlocked, published] using hannounced
    · have hunannounced := @Heard.unannounced _ world hheard tab coordinator hmem hunlocked hdue
      simpa [heq, hunlocked, published] using hunannounced
  | tick tab =>
    obtain ⟨coordinator, hcoordinator, rfl⟩ := Option.map_eq_some_iff.mp hstep
    rcases coordinator.tick_cases idleMs world.clock with heq | ⟨-, -, heq⟩
    · rw [heq]
      refine hheard.of_subset rfl ?_ rfl rfl
      intro after hafter
      rcases mem_of_silent hafter with rfl | hold
      · exact List.mem_of_getElem? hcoordinator
      · exact hold
    · -- Every tab is locked now.
      rw [heq]
      have hall : ∀ after ∈ world.settle tab
          ({ coordinator with locked := true }, [.publish .vaultLocked, .onLock]),
          after.locked = false → False := by
        intro after hafter hunlocked
        rw [locked_of_vaultLocked rfl hafter] at hunlocked
        cases hunlocked
      refine ⟨?_, ?_, ?_, ?_⟩
      · exact fun sent hsent ↦ ⟨(hheard.heartbeat sent hsent).1, fun after hafter hunlocked ↦
          (hall after hafter hunlocked).elim⟩
      · exact fun sender hsender hunlocked ↦ (hall sender hsender hunlocked).elim
      · exact fun noted hnoted ↦ ⟨(hheard.activity noted hnoted).1, fun after hafter hunlocked ↦
          (hall after hafter hunlocked).elim⟩
      · exact fun after hafter hunlocked ↦ (hall after hafter hunlocked).elim
  | advance duration =>
    obtain rfl := Option.some.inj hstep
    have hlater : world.clock ≤ world.clock + duration := Nat.le_add_right _ _
    refine ⟨?_, ?_, ?_, ?_⟩
    · exact fun sent hsent ↦ ⟨Nat.le_trans (hheard.heartbeat sent hsent).1 hlater,
        (hheard.heartbeat sent hsent).2⟩
    · exact fun sender hsender hunlocked ↦
        ⟨Nat.le_trans (hheard.sender sender hsender hunlocked).1 hlater,
          (hheard.sender sender hsender hunlocked).2⟩
    · exact fun noted hnoted ↦ ⟨Nat.le_trans (hheard.activity noted hnoted).1 hlater,
        (hheard.activity noted hnoted).2⟩
    · exact fun tab htab hunlocked ↦ Nat.le_trans (hheard.past tab htab hunlocked) hlater

/-! ### When a tab locks -/

/-- A tab becomes locked only in the tick of some tab that was idle for the whole window. -/
theorem idle_of_becomesLocked {world next : IdleTabs} {event : IdleEvent} {tab : ℕ}
    (hstep : (automaton idleMs heartbeatIntervalMs).step world event = some next)
    (hlocks : BecomesLocked world next tab) : ∃ idle ∈ world.tabs, idle.locked = false ∧
      idle.lastActivity + idleMs ≤ world.clock := by
  obtain ⟨before, after, hbefore, hunlocked, hafter, hlocked⟩ := hlocks
  cases event with
  | mount =>
    obtain rfl := Option.some.inj hstep
    have hlt := (List.getElem?_eq_some_iff.mp hbefore).1
    change (world.tabs ++ [_])[tab]? = _ at hafter
    rw [List.getElem?_append_left hlt, hbefore, Option.some.injEq] at hafter
    rw [← hafter, hunlocked] at hlocked
    cases hlocked
  | advance duration =>
    obtain rfl := Option.some.inj hstep
    change world.tabs[tab]? = _ at hafter
    rw [hbefore, Option.some.injEq] at hafter
    rw [← hafter, hunlocked] at hlocked
    cases hlocked
  | noteActivity actor =>
    obtain ⟨coordinator, hcoordinator, rfl⟩ := Option.map_eq_some_iff.mp hstep
    change (world.settle actor _)[tab]? = _ at hafter
    rw [getElem?_settle, hbefore, Option.map_some, Option.some.injEq] at hafter
    subst hafter
    by_cases hsame : tab = actor
    · subst hsame
      rw [hcoordinator, Option.some.injEq] at hbefore
      subst hbefore
      rw [if_pos rfl] at hlocked
      rcases coordinator.noteActivity_cases heartbeatIntervalMs world.clock with
        ⟨-, heq⟩ | ⟨-, heq⟩ | ⟨-, -, heq⟩
      · rw [heq] at hlocked
        cases hunlocked.symm.trans hlocked
      · rw [heq] at hlocked
        cases hunlocked.symm.trans hlocked
      · rw [heq] at hlocked
        cases hunlocked.symm.trans hlocked
    · rw [if_neg hsame] at hlocked
      rcases coordinator.noteActivity_cases heartbeatIntervalMs world.clock with
        ⟨-, heq⟩ | ⟨-, heq⟩ | ⟨-, -, heq⟩
      · rw [heq] at hlocked
        cases hunlocked.symm.trans hlocked
      · rw [heq] at hlocked
        change (before.receive world.clock .vaultHeartbeat).1.locked = true at hlocked
        unfold IdleLockCoordinator.receive at hlocked
        rw [hunlocked] at hlocked
        cases hlocked
      · rw [heq] at hlocked
        cases hunlocked.symm.trans hlocked
  | tick actor =>
    obtain ⟨coordinator, hcoordinator, rfl⟩ := Option.map_eq_some_iff.mp hstep
    rcases coordinator.tick_cases idleMs world.clock with heq | ⟨hidleUnlocked, hidle, -⟩
    · change (world.settle actor _)[tab]? = _ at hafter
      rw [heq, getElem?_settle, hbefore, Option.map_some, Option.some.injEq] at hafter
      subst hafter
      by_cases hsame : tab = actor
      · subst hsame
        rw [hcoordinator, Option.some.injEq] at hbefore
        subst hbefore
        rw [if_pos rfl] at hlocked
        cases hunlocked.symm.trans hlocked
      · rw [if_neg hsame] at hlocked
        cases hunlocked.symm.trans hlocked
    · exact ⟨coordinator, List.mem_of_getElem? hcoordinator, hidleUnlocked, hidle⟩

/-- In every run of any number of tabs: when a tab becomes locked, every activity of a tab that was
not locked then is further back than the idle window less one heartbeat interval (to the
millisecond), and every published heartbeat is a whole idle window back. -/
theorem no_early_lock {clock : ℕ} {world next : IdleTabs} {event : IdleEvent} {tab : ℕ}
    (hreaches : (automaton idleMs heartbeatIntervalMs).Reaches (start clock) world)
    (hstep : (automaton idleMs heartbeatIntervalMs).step world event = some next)
    (hlocks : BecomesLocked world next tab) :
    (∀ noted ∈ world.activities, noted + idleMs ≤ world.clock + (heartbeatIntervalMs - 1)) ∧
    ∀ sent ∈ world.heartbeats, sent + idleMs ≤ world.clock := by
  have hheard : Heard heartbeatIntervalMs world := by
    refine hreaches.invariant (Heard heartbeatIntervalMs) (heard_start clock) ?_
    intro state event next hstate _ hnext
    exact hstate.step hnext
  obtain ⟨idle, hidle, hunlocked, hwindow⟩ := idle_of_becomesLocked hstep hlocks
  refine ⟨?_, ?_⟩
  · intro noted hnoted
    have hknown := (hheard.activity noted hnoted).2 idle hidle hunlocked
    omega
  · intro sent hsent
    have hheardBy := (hheard.heartbeat sent hsent).2 idle hidle hunlocked
    omega

/-- Two tabs open the vault and are active once; later both are quiet for the whole window, and the
second tab's tick locks both. -/
def quietWindow : List IdleEvent :=
  [.mount, .noteActivity 0, .mount, .noteActivity 1, .advance 300000]

/-- The tabs after the quiet window, and after the tick that follows it. -/
def afterQuietWindow (locked : Bool) : IdleTabs :=
  ⟨1700000300000, [⟨1700000000000, 1700000000000, locked⟩, ⟨1700000000000, 1700000000000, locked⟩],
    [1700000000000, 1700000000000], [1700000000000, 1700000000000]⟩

theorem no_early_lock_quietWindow : ∃ world next,
    (automaton idleMsDefault heartbeatIntervalMsDefault).run (start 1700000000000) quietWindow =
      some world ∧
    (automaton idleMsDefault heartbeatIntervalMsDefault).step world (.tick 1) = some next ∧
    BecomesLocked world next 0 ∧
    ∀ sent ∈ world.heartbeats, sent + idleMsDefault ≤ world.clock := by
  have hrun : (automaton idleMsDefault heartbeatIntervalMsDefault).run (start 1700000000000)
      quietWindow = some (afterQuietWindow false) := by decide
  have hstep : (automaton idleMsDefault heartbeatIntervalMsDefault).step (afterQuietWindow false)
      (.tick 1) = some (afterQuietWindow true) := by decide
  have hlocks : BecomesLocked (afterQuietWindow false) (afterQuietWindow true) 0 :=
    ⟨_, _, rfl, rfl, rfl, rfl⟩
  exact ⟨_, _, hrun, hstep, hlocks,
    (no_early_lock (Automaton.reaches_of_run hrun) hstep hlocks).2⟩

/-- No tab becomes locked at a time when some tab, not locked then, noted activity less than the
idle window earlier. -/
def KeepsIdleWindow (idleMs : ℕ) (world next : IdleTabs) : Prop :=
  ∀ tab, BecomesLocked world next tab → ∀ noted ∈ world.activities, noted + idleMs ≤ world.clock

/-- The first tab is active again just before its next heartbeat would be due. -/
def unannouncedActivity : List IdleEvent :=
  [.mount, .mount, .noteActivity 0, .advance 29999, .noteActivity 0, .advance 270001]

/-- The second tab locks both, 270001 ms after the activity of the first. -/
theorem not_keepsIdleWindow_unannouncedActivity : ∃ world next,
    (automaton idleMsDefault heartbeatIntervalMsDefault).run (start 1700000000000)
      unannouncedActivity = some world ∧
    (automaton idleMsDefault heartbeatIntervalMsDefault).step world (.tick 1) = some next ∧
    ¬ KeepsIdleWindow idleMsDefault world next := by
  have hrun : (automaton idleMsDefault heartbeatIntervalMsDefault).run (start 1700000000000)
      unannouncedActivity = some ⟨1700000300000, [⟨1700000029999, 1700000000000, false⟩,
        ⟨1700000000000, 0, false⟩], [1700000029999, 1700000000000], [1700000000000]⟩ := by decide
  have hstep : (automaton idleMsDefault heartbeatIntervalMsDefault).step
      ⟨1700000300000, [⟨1700000029999, 1700000000000, false⟩, ⟨1700000000000, 0, false⟩],
        [1700000029999, 1700000000000], [1700000000000]⟩ (.tick 1) =
      some ⟨1700000300000, [⟨1700000029999, 1700000000000, true⟩, ⟨1700000000000, 0, true⟩],
        [1700000029999, 1700000000000], [1700000000000]⟩ := by decide
  refine ⟨_, _, hrun, hstep, fun hkeeps ↦ ?_⟩
  have hwindow := hkeeps 0 ⟨_, _, rfl, rfl, rfl, rfl⟩ 1700000029999 List.mem_cons_self
  revert hwindow
  decide

end IdleTabs

end OpfsWebauthn.Auth
