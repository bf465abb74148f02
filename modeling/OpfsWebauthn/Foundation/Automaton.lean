import Mathlib.Logic.Relation

/-!
# Automata driven by events

An automaton has a partial transition function: an event that cannot happen in a state has no
successor. `run` executes a list of events, and `ReachesWhere` is reachability along steps that
all meet a condition on the event and the state before it; `Reaches` is the case without a
condition.

`ReachesWhere.invariant` is the induction rule: a property of the start that every admitted step
preserves holds in every state reached. `ReachesWhere.monotone` is its relational form, for a
quantity that only grows along a run. `reachesWhere_of_run` and `reaches_of_run` turn an executed
list of events into reachability. `RunMeets.of_invariant` turns a condition on the steps of a run
into what follows from it under an invariant.
-/

set_option autoImplicit false
set_option relaxedAutoImplicit false

namespace OpfsWebauthn.Foundation

/-- A transition function on states `σ` driven by events `ε`; `none` when the event cannot happen
in the state. -/
structure Automaton (σ ε : Type*) where
  step : σ → ε → Option σ

namespace Automaton

variable {σ ε : Type*} (automaton : Automaton σ ε)

/-- Executes a list of events, oldest first. -/
def run : σ → List ε → Option σ
  | state, [] => some state
  | state, event :: rest => (automaton.step state event).bind fun next ↦ run next rest

variable {automaton} in
/-- A run splits where its events do. -/
theorem run_append {first second : List ε} : ∀ {state : σ},
    automaton.run state (first ++ second) =
      (automaton.run state first).bind fun next ↦ automaton.run next second := by
  induction first with
  | nil => exact fun {state} ↦ rfl
  | cons event rest ih =>
    intro state
    rw [List.cons_append, run, run, Option.bind_assoc]
    congr 1
    funext next
    exact ih

/-- Every event of a run meets a condition on itself and the state it happens in. -/
def RunMeets (admits : σ → ε → Prop) : σ → List ε → Prop
  | _, [] => True
  | state, event :: rest => admits state event ∧
      ∀ next, automaton.step state event = some next → RunMeets admits next rest

/-- Whether a run meets a decidable condition can be decided by executing it. -/
instance decidableRunMeets (admits : σ → ε → Prop) [∀ state event, Decidable (admits state event)] :
    ∀ state events, Decidable (automaton.RunMeets admits state events)
  | _, [] => .isTrue trivial
  | state, event :: rest =>
    match hstep : automaton.step state event with
    | none => decidable_of_iff (admits state event)
        ⟨fun hadmits ↦ ⟨hadmits, fun next hnext ↦ by simp [hstep] at hnext⟩, And.left⟩
    | some next =>
      have := decidableRunMeets admits next rest
      decidable_of_iff (admits state event ∧ automaton.RunMeets admits next rest)
        ⟨fun hmeets ↦ ⟨hmeets.1, fun other hother ↦ by
            rw [hstep, Option.some.injEq] at hother
            exact hother ▸ hmeets.2⟩,
          fun hmeets ↦ ⟨hmeets.1, hmeets.2 next hstep⟩⟩

/-- Every state of a run has a property: the last one, and those it passes through. -/
def Always (property : σ → Prop) (start : σ) (events : List ε) : Prop :=
  ∀ before, before <+: events → ∀ state, automaton.run start before = some state → property state

/-- One step by an event that meets the condition. -/
def StepWhere (admits : σ → ε → Prop) (state next : σ) : Prop :=
  ∃ event, admits state event ∧ automaton.step state event = some next

/-- Reachability along steps that all meet the condition. -/
def ReachesWhere (admits : σ → ε → Prop) : σ → σ → Prop :=
  Relation.ReflTransGen (automaton.StepWhere admits)

/-- Reachability along any steps. -/
def Reaches : σ → σ → Prop :=
  automaton.ReachesWhere fun _ _ ↦ True

variable {automaton}

/-- The induction rule: a property of the start that every admitted step preserves holds in every
state reached. -/
theorem ReachesWhere.invariant {admits : σ → ε → Prop} {start final : σ}
    (hreaches : automaton.ReachesWhere admits start final) (property : σ → Prop)
    (hstart : property start)
    (hstep : ∀ state event next, property state → admits state event →
      automaton.step state event = some next → property next) :
    property final := by
  induction hreaches with
  | refl => exact hstart
  | tail _ hlast ih =>
    obtain ⟨event, hadmits, hnext⟩ := hlast
    exact hstep _ event _ ih hadmits hnext

/-- A preorder that every admitted step respects relates the two ends of a run, under an
invariant of the states passed. -/
theorem ReachesWhere.monotone {admits : σ → ε → Prop} {start final : σ}
    (hreaches : automaton.ReachesWhere admits start final) (property : σ → Prop)
    (relation : σ → σ → Prop) (hrefl : ∀ state, relation state state)
    (htrans : ∀ first second third, relation first second → relation second third →
      relation first third)
    (hstart : property start)
    (hstep : ∀ state event next, property state → admits state event →
      automaton.step state event = some next → property next ∧ relation state next) :
    relation start final := by
  have hboth : property final ∧ relation start final := by
    induction hreaches with
    | refl => exact ⟨hstart, hrefl start⟩
    | tail _ hlast ih =>
      obtain ⟨event, hadmits, hnext⟩ := hlast
      obtain ⟨hproperty, hrelation⟩ := hstep _ event _ ih.1 hadmits hnext
      exact ⟨hproperty, htrans _ _ _ ih.2 hrelation⟩
  exact hboth.2

/-- A run whose steps all meet a condition meets every consequence that the condition has under an
invariant of the run. -/
theorem RunMeets.of_invariant {admits guarantees : σ → ε → Prop} (property : σ → Prop)
    (hstep : ∀ state event next, property state → admits state event →
      automaton.step state event = some next → property next)
    (hguarantees : ∀ state event, property state → admits state event → guarantees state event)
    {events : List ε} : ∀ {start : σ}, property start → automaton.RunMeets admits start events →
      automaton.RunMeets guarantees start events := by
  induction events with
  | nil => exact fun _ _ ↦ trivial
  | cons event rest ih =>
    intro start hproperty hmeets
    exact ⟨hguarantees start event hproperty hmeets.1, fun next hnext ↦
      ih (hstep start event next hproperty hmeets.1 hnext) (hmeets.2 next hnext)⟩

/-- A run meets every consequence of a condition that its steps meet. -/
theorem RunMeets.mono {admits weaker : σ → ε → Prop}
    (hweaker : ∀ state event, admits state event → weaker state event) {events : List ε}
    {start : σ} (hmeets : automaton.RunMeets admits start events) :
    automaton.RunMeets weaker start events :=
  hmeets.of_invariant (fun _ ↦ True) (fun _ _ _ _ _ _ ↦ trivial)
    (fun state event _ hadmits ↦ hweaker state event hadmits) trivial

/-- A run whose steps meet two conditions meets them together. -/
theorem RunMeets.and {first second : σ → ε → Prop} {events : List ε} :
    ∀ {start : σ}, automaton.RunMeets first start events →
      automaton.RunMeets second start events →
        automaton.RunMeets (fun state event ↦ first state event ∧ second state event) start
          events := by
  induction events with
  | nil => exact fun _ _ ↦ trivial
  | cons event rest ih =>
    intro start hfirst hsecond
    exact ⟨⟨hfirst.1, hsecond.1⟩, fun next hnext ↦ ih (hfirst.2 next hnext) (hsecond.2 next hnext)⟩

/-- Two conditions that are equivalent under an invariant of a run are met together. -/
theorem RunMeets.congr {admits first second : σ → ε → Prop} (property : σ → Prop)
    (hstep : ∀ state event, property state → admits state event →
      (first state event ↔ second state event) ∧
        ∀ next, automaton.step state event = some next → property next) {events : List ε} :
    ∀ {start : σ}, property start → automaton.RunMeets admits start events →
      (automaton.RunMeets first start events ↔ automaton.RunMeets second start events) := by
  induction events with
  | nil => exact fun _ _ ↦ Iff.rfl
  | cons event rest ih =>
    intro start hproperty hmeets
    obtain ⟨hiff, hnext⟩ := hstep start event hproperty hmeets.1
    have hrest : ∀ next, automaton.step start event = some next →
        (automaton.RunMeets first next rest ↔ automaton.RunMeets second next rest) :=
      fun next hstart ↦ ih (hnext next hstart) (hmeets.2 next hstart)
    unfold RunMeets
    rw [hiff, forall₂_congr hrest]

theorem always_nil_iff {property : σ → Prop} {start : σ} :
    automaton.Always property start [] ↔ property start := by
  constructor
  · exact fun halways ↦ halways [] (List.prefix_refl _) start rfl
  · intro hstart before hbefore state hrun
    obtain rfl := List.prefix_nil.mp hbefore
    obtain rfl := Option.some.inj hrun
    exact hstart

theorem always_cons_iff {property : σ → Prop} {start : σ} {event : ε} {rest : List ε} :
    automaton.Always property start (event :: rest) ↔ property start ∧
      ∀ next, automaton.step start event = some next → automaton.Always property next rest := by
  constructor
  · intro halways
    refine ⟨halways [] List.nil_prefix start rfl, fun next hnext before hbefore state hrun ↦ ?_⟩
    refine halways (event :: before) (List.cons_prefix_cons.mpr ⟨rfl, hbefore⟩) state ?_
    rw [run, hnext]
    exact hrun
  · rintro ⟨hstart, hnext⟩ before hbefore state hrun
    cases before with
    | nil => exact Option.some.inj hrun ▸ hstart
    | cons first others =>
      obtain ⟨rfl, hothers⟩ := List.cons_prefix_cons.mp hbefore
      obtain ⟨next, hstep, hrun⟩ := Option.bind_eq_some_iff.mp hrun
      exact hnext next hstep others hothers state hrun

/-- Under an invariant that the steps that meet a condition keep, and that the property follows
from: when each other step breaks the property, every state of a run has it exactly when all steps
meet the condition. -/
theorem always_iff_runMeets {admits : σ → ε → Prop} {property : σ → Prop} (invariant : σ → Prop)
    (hproperty : ∀ state, invariant state → property state)
    (hstep : ∀ state event next, invariant state → admits state event →
      automaton.step state event = some next → invariant next)
    (hbreaks : ∀ state event, invariant state → ¬ admits state event →
      ∃ next, automaton.step state event = some next ∧ ¬ property next) {events : List ε} :
    ∀ {start : σ}, invariant start →
      (automaton.Always property start events ↔ automaton.RunMeets admits start events) := by
  induction events with
  | nil => exact fun hstart ↦ ⟨fun _ ↦ trivial, fun _ ↦ always_nil_iff.mpr (hproperty _ hstart)⟩
  | cons event rest ih =>
    intro start hstart
    rw [always_cons_iff]
    constructor
    · rintro ⟨-, hnext⟩
      have hadmits : admits start event := by
        refine Classical.byContradiction fun hnot ↦ ?_
        obtain ⟨next, hstepped, hbroken⟩ := hbreaks start event hstart hnot
        exact hbroken (hnext next hstepped [] List.nil_prefix next rfl)
      exact ⟨hadmits, fun next hstepped ↦
        (ih (hstep start event next hstart hadmits hstepped)).mp (hnext next hstepped)⟩
    · rintro ⟨hadmits, hnext⟩
      exact ⟨hproperty start hstart, fun next hstepped ↦
        (ih (hstep start event next hstart hadmits hstepped)).mpr (hnext next hstepped)⟩

/-- An executed list of events whose steps all meet the condition reaches its last state. -/
theorem reachesWhere_of_run {admits : σ → ε → Prop} {events : List ε} :
    ∀ {start final : σ}, automaton.run start events = some final →
      automaton.RunMeets admits start events → automaton.ReachesWhere admits start final := by
  induction events with
  | nil =>
    intro start final hrun _
    rw [run, Option.some.injEq] at hrun
    exact hrun ▸ Relation.ReflTransGen.refl
  | cons event rest ih =>
    intro start final hrun hmeets
    obtain ⟨next, hnext, hrest⟩ := Option.bind_eq_some_iff.mp hrun
    exact Relation.ReflTransGen.head ⟨event, hmeets.1, hnext⟩ (ih hrest (hmeets.2 next hnext))

/-- An executed list of events reaches its last state. -/
theorem reaches_of_run {events : List ε} {start final : σ}
    (hrun : automaton.run start events = some final) : automaton.Reaches start final := by
  refine reachesWhere_of_run hrun ?_
  induction events generalizing start with
  | nil => trivial
  | cons event rest ih =>
    refine ⟨trivial, fun next hnext ↦ ih ?_⟩
    rwa [run, hnext, Option.bind_some] at hrun

end Automaton

end OpfsWebauthn.Foundation
