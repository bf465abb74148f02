import Mathlib.Data.List.GetD
import Mathlib.Data.List.Nodup
import OpfsWebauthn.Foundation.Threads

/-!
# Handlers behind a router

A service may pass a request on to a handler and change its answer, or answer the request itself
without a call. `exists_of_routed` is the refinement: the handlers behind the service run as they
would by themselves. The shared state is the same, the calls are the same, and each thread of the
service that was passed on answers what its handler answers, changed.

The handlers number only the requests that reach them. `passed` lists the threads of the service
that were passed on, in the numbering of the handlers.
-/

set_option autoImplicit false
set_option relaxedAutoImplicit false

namespace OpfsWebauthn.Foundation

variable {σ ρ ω Env Call : Type} {Result : Call → Type} {α β : Type}

namespace Program

/-- A changed program is at a call exactly when the program is at this call. -/
theorem map_eq_call_iff {change : α → β} {program : Program Call Result α} {call : Call}
    {next : Result call → Program Call Result β} :
    program.map change = .call call next ↔ ∃ continuation,
      program = .call call continuation ∧
        next = fun result ↦ (continuation result).map change := by
  cases program with
  | done answer =>
    constructor
    · intro hcall
      cases hcall
    · rintro ⟨continuation, hcall, -⟩
      cases hcall
  | call first continuation =>
    constructor
    · intro hcall
      cases hcall
      exact ⟨continuation, rfl, rfl⟩
    · rintro ⟨other, hcall, rfl⟩
      cases hcall
      rfl

/-- A changed program has answered exactly when the program has. -/
theorem map_eq_done_iff {change : α → β} {program : Program Call Result α} {answer : β} :
    program.map change = .done answer ↔ ∃ given, program = .done given ∧ answer = change given := by
  cases program with
  | done given =>
    constructor
    · intro hdone
      cases hdone
      exact ⟨given, rfl, rfl⟩
    · rintro ⟨other, hdone, rfl⟩
      cases hdone
      rfl
  | call first continuation =>
    constructor
    · intro hdone
      cases hdone
    · rintro ⟨other, hdone, -⟩
      cases hdone

/-- Two changes of the answer, one after the other. -/
theorem map_map {γ : Type} (first : α → β) (second : β → γ) (program : Program Call Result α) :
    (program.map first).map second = program.map (second ∘ first) := by
  induction program with
  | done answer => rfl
  | call call next ih =>
    change Program.call call (fun result ↦ ((next result).map first).map second) = _
    simp only [ih]
    rfl

end Program

/-- A service passes these requests on to handlers, and answers the others itself. -/
def Routes (serve : ω → Program Call Result β) (handle : ρ → Program Call Result α)
    (forwards : ω → Option ρ) (change : ω → α → β) : Prop :=
  ∀ request, (∀ routed, forwards request = some routed →
      serve request = (handle routed).map (change request)) ∧
    (forwards request = none → ∃ answer, serve request = .done answer)

namespace Threads

/-- The state of the handlers behind a service. -/
structure Behind (forwards : ω → Option ρ) (change : ω → α → β) (passed : List ℕ)
    (outer : Threads σ ω Call Result β) (inner : Threads σ ρ Call Result α) : Prop where
  shared : inner.shared = outer.shared
  log : outer.log = inner.log.map fun entry ↦ { entry with thread := passed.getD entry.thread 0 }
  nodup : passed.Nodup
  length : inner.threads.length = passed.length
  /-- Each handler works for the thread of the service that it was started for. -/
  threads : ∀ {place thread : ℕ}, passed[place]? = some thread → ∃ request routed rest,
    outer.threads[thread]? = some ⟨request, rest.map (change request)⟩ ∧
    forwards request = some routed ∧ inner.threads[place]? = some ⟨routed, rest⟩
  /-- A request that is passed on has a handler, and the others have been answered. -/
  others : ∀ {thread : ℕ} {request : ω} {rest : Program Call Result β},
    outer.threads[thread]? = some ⟨request, rest⟩ →
      (∃ place : ℕ, passed[place]? = some thread) ∨
        (forwards request = none ∧ ∃ answer, rest = .done answer)

variable {machine : Machine σ Call Result Env} {serve : ω → Program Call Result β}
  {handle : ρ → Program Call Result α} {forwards : ω → Option ρ} {change : ω → α → β}
  {passed : List ℕ} {outer next : Threads σ ω Call Result β} {inner : Threads σ ρ Call Result α}

/-- The thread of a request that is passed on has a handler that was started for this request. -/
theorem Behind.inner_thread (hbehind : Behind forwards change passed outer inner) {thread : ℕ}
    {request : ω} {routed : ρ} {rest : Program Call Result β}
    (hthread : outer.threads[thread]? = some ⟨request, rest⟩)
    (hforwards : forwards request = some routed) :
    ∃ (place : ℕ) (innerRest : Program Call Result α),
      passed[place]? = some thread ∧ inner.threads[place]? = some ⟨routed, innerRest⟩ ∧
      rest = innerRest.map (change request) := by
  rcases hbehind.others hthread with ⟨place, hplace⟩ | ⟨hnone, -⟩
  · obtain ⟨found, other, innerRest, houter, hother, hinner⟩ := hbehind.threads hplace
    rw [hthread, Option.some.injEq, Thread.mk.injEq] at houter
    obtain ⟨rfl, rfl⟩ := houter
    rw [hforwards, Option.some.injEq] at hother
    subst hother
    exact ⟨place, innerRest, hplace, hinner, rfl⟩
  · rw [hforwards] at hnone
    cases hnone

/-- A handler was started for a request of a thread of the service. -/
theorem Behind.outer_thread (hbehind : Behind forwards change passed outer inner) {place : ℕ}
    {routed : ρ} {innerRest : Program Call Result α}
    (hinner : inner.threads[place]? = some ⟨routed, innerRest⟩) : ∃ (thread : ℕ) (request : ω),
      passed[place]? = some thread ∧ forwards request = some routed ∧
      outer.threads[thread]? = some ⟨request, innerRest.map (change request)⟩ := by
  have hlt : place < passed.length := by
    rw [← hbehind.length]
    exact (List.getElem?_eq_some_iff.mp hinner).1
  have hplace := List.getElem?_eq_getElem hlt
  obtain ⟨request, other, rest, houter, hforwards, hother⟩ := hbehind.threads hplace
  rw [hinner, Option.some.injEq, Thread.mk.injEq] at hother
  obtain ⟨rfl, rfl⟩ := hother
  exact ⟨_, request, hplace, hforwards, houter⟩

/-- A thread of the service has made the calls of its handler. -/
theorem Behind.trace_eq (hbehind : Behind forwards change passed outer inner)
    (hstarted : ∀ entry ∈ inner.log, entry.thread < inner.threads.length) {place thread : ℕ}
    (hplace : passed[place]? = some thread) :
    trace outer.log thread = trace inner.log place := by
  unfold trace
  rw [hbehind.log, List.filter_map, List.map_map]
  have hsame : inner.log.filter
      ((fun entry : Entry σ Call Result ↦ decide (entry.thread = thread)) ∘
      fun entry ↦ { entry with thread := passed.getD entry.thread 0 }) =
        inner.log.filter fun entry ↦ decide (entry.thread = place) := by
    refine List.filter_congr fun entry hentry ↦ decide_eq_decide.mpr ?_
    have hlt := hstarted entry hentry
    rw [hbehind.length] at hlt
    change passed.getD entry.thread 0 = thread ↔ entry.thread = place
    have hget := List.getElem?_eq_getElem hlt
    rw [List.getD_eq_getElem?_getD, hget, Option.getD_some]
    constructor
    · intro hthread
      rw [hthread] at hget
      exact (List.getElem?_inj hlt hbehind.nodup).mp (hget.trans hplace.symm)
    · rintro rfl
      rw [hplace] at hget
      exact (Option.some.inj hget).symm
  rw [hsame]
  rfl

/-- A handler that a request arrives for begins behind its thread. -/
theorem Behind.arrive (hbehind : Behind forwards change passed outer inner) {request : ω}
    {routed : ρ} {rest : Program Call Result α} (hforwards : forwards request = some routed)
    (hstarted : ∀ entry ∈ inner.log, entry.thread < inner.threads.length) :
    Behind forwards change (passed ++ [outer.threads.length])
      { outer with threads := outer.threads ++ [⟨request, rest.map (change request)⟩] }
      { inner with threads := inner.threads ++ [⟨routed, rest⟩] } := by
  have hold : ∀ {place thread : ℕ}, passed[place]? = some thread →
      thread < outer.threads.length := by
    intro place thread hplace
    obtain ⟨_, _, _, houter, -, -⟩ := hbehind.threads hplace
    exact (List.getElem?_eq_some_iff.mp houter).1
  refine ⟨hbehind.shared, ?_, ?_, ?_, ?_, ?_⟩
  · change outer.log = inner.log.map _
    rw [hbehind.log]
    refine List.map_congr_left fun entry hentry ↦ ?_
    have hlt := hstarted entry hentry
    rw [hbehind.length] at hlt
    rw [List.getD_append _ _ _ _ hlt]
  · refine List.nodup_append.mpr ⟨hbehind.nodup, List.nodup_singleton _, ?_⟩
    intro thread hthread last hlast heq
    obtain rfl := List.mem_singleton.mp hlast
    obtain ⟨place, hplace⟩ := List.getElem?_of_mem hthread
    exact absurd (hold hplace) (by omega)
  · change (inner.threads ++ [_]).length = (passed ++ [_]).length
    rw [List.length_append, List.length_append, hbehind.length]
    rfl
  · intro place thread hplace
    rcases getElem?_concat_iff.mp hplace with hbefore | ⟨rfl, rfl⟩
    · obtain ⟨found, other, innerRest, houter, hother, hinner⟩ := hbehind.threads hbefore
      exact ⟨found, other, innerRest, getElem?_concat_iff.mpr (.inl houter), hother,
        getElem?_concat_iff.mpr (.inl hinner)⟩
    · exact ⟨request, routed, rest, getElem?_concat_iff.mpr (.inr ⟨rfl, rfl⟩), hforwards,
        getElem?_concat_iff.mpr (.inr ⟨hbehind.length.symm, rfl⟩)⟩
  · intro thread found left hthread
    rcases getElem?_concat_iff.mp hthread with hbefore | ⟨rfl, -⟩
    · rcases hbehind.others hbefore with ⟨place, hplace⟩ | hanswered
      · exact .inl ⟨place, getElem?_concat_iff.mpr (.inl hplace)⟩
      · exact .inr hanswered
    · exact .inl ⟨passed.length, getElem?_concat_iff.mpr (.inr ⟨rfl, rfl⟩)⟩

/-- A request that the service answers itself leaves the handlers as they are. -/
theorem Behind.arrive_answered (hbehind : Behind forwards change passed outer inner) {request : ω}
    {answer : β} (hforwards : forwards request = none) :
    Behind forwards change passed
      { outer with threads := outer.threads ++ [⟨request, .done answer⟩] } inner := by
  refine ⟨hbehind.shared, hbehind.log, hbehind.nodup, hbehind.length, ?_, ?_⟩
  · intro place thread hplace
    obtain ⟨found, other, innerRest, houter, hother, hinner⟩ := hbehind.threads hplace
    exact ⟨found, other, innerRest, getElem?_concat_iff.mpr (.inl houter), hother, hinner⟩
  · intro thread found left hthread
    rcases getElem?_concat_iff.mp hthread with hbefore | ⟨-, hnew⟩
    · exact hbehind.others hbefore
    · obtain ⟨rfl, rfl⟩ := Thread.mk.inj hnew
      exact .inr ⟨hforwards, answer, rfl⟩

/-- The handler of a thread makes the call of the thread. -/
theorem Behind.resume (hbehind : Behind forwards change passed outer inner) {thread : ℕ}
    {env : Env} (hresume : outer.resume machine thread env = some next) :
    ∃ place innerNext, inner.resume machine place env = some innerNext ∧
      Behind forwards change passed next innerNext := by
  obtain ⟨request, call, continuation, shared, result, hthread, hperform, rfl⟩ :=
    resume_eq_some_iff.mp hresume
  rcases hbehind.others hthread with ⟨place, hplace⟩ | ⟨-, answer, hdone⟩
  swap
  · cases hdone
  obtain ⟨found, routed, rest, houter, hforwards, hinner⟩ := hbehind.threads hplace
  rw [hthread, Option.some.injEq, Thread.mk.injEq] at houter
  obtain ⟨rfl, hrest⟩ := houter
  obtain ⟨innerNext, rfl, rfl⟩ := Program.map_eq_call_iff.mp hrest.symm
  rw [← hbehind.shared] at hperform
  refine ⟨place, _, resume_eq_some_iff.mpr
    ⟨routed, call, innerNext, shared, result, hinner, hperform, rfl⟩, ?_⟩
  have hplaceLt : place < inner.threads.length := (List.getElem?_eq_some_iff.mp hinner).1
  have hthreadLt : thread < outer.threads.length := (List.getElem?_eq_some_iff.mp hthread).1
  refine ⟨rfl, ?_, hbehind.nodup, ?_, ?_, ?_⟩
  · change outer.log ++ [_] = (inner.log ++ [_]).map _
    have hgetD : passed.getD place 0 = thread := by
      rw [List.getD_eq_getElem?_getD, hplace]
      rfl
    rw [List.map_append, ← hbehind.log, List.map_singleton, hgetD, hbehind.shared]
  · change (inner.threads.set place _).length = passed.length
    rw [List.length_set, hbehind.length]
  · intro other otherThread hother
    change ∃ _ _ _, (outer.threads.set thread _)[otherThread]? = _ ∧ _ ∧
      (inner.threads.set place _)[other]? = _
    by_cases hsame : place = other
    · subst hsame
      obtain rfl : thread = otherThread := by
        rw [hplace, Option.some.injEq] at hother
        exact hother
      rw [List.getElem?_set_self hthreadLt, List.getElem?_set_self hplaceLt]
      exact ⟨request, routed, innerNext result, rfl, hforwards, rfl⟩
    · -- Two handlers work for different threads.
      have hne : thread ≠ otherThread := by
        rintro rfl
        have hlt := (List.getElem?_eq_some_iff.mp hplace).1
        exact hsame ((List.getElem?_inj hlt hbehind.nodup).mp (hplace.trans hother.symm))
      rw [List.getElem?_set_ne hne, List.getElem?_set_ne hsame]
      exact hbehind.threads hother
  · intro other otherRequest left hother
    change (outer.threads.set thread _)[other]? = _ at hother
    by_cases hsame : thread = other
    · subst hsame
      exact .inl ⟨place, hplace⟩
    · rw [List.getElem?_set_ne hsame] at hother
      exact hbehind.others hother

/-- The refinement: behind every run of a service there is a run of its handlers, in which the
shared state and the calls are the same. -/
theorem exists_of_routed (hroutes : Routes serve handle forwards change) {shared : σ}
    (hreaches : (automaton machine serve).Reaches (start shared) outer) :
    ∃ passed inner, (automaton machine handle).Reaches (start shared) inner ∧
      Behind forwards change passed outer inner := by
  refine hreaches.invariant (fun outer ↦ ∃ passed inner,
    (automaton machine handle).Reaches (start shared) inner ∧
      Behind forwards change passed outer inner) ?_ ?_
  · refine ⟨[], start shared, .refl, rfl, rfl, List.nodup_nil, rfl, ?_, ?_⟩
    · intro place thread hplace
      cases hplace
    · intro thread request rest hthread
      cases hthread
  · rintro outer event next ⟨passed, inner, hinner, hbehind⟩ - hstep
    cases event with
    | elapse env =>
      obtain ⟨after, hafter, rfl⟩ := Option.map_eq_some_iff.mp hstep
      rw [← hbehind.shared] at hafter
      have hinnerStep : (automaton machine handle).step inner (.elapse env) =
          some { inner with shared := after } := by
        change (machine.elapse inner.shared env).map _ = _
        rw [hafter]
        rfl
      exact ⟨passed, _, hinner.tail ⟨.elapse env, trivial, hinnerStep⟩, rfl, hbehind.log,
        hbehind.nodup, hbehind.length, hbehind.threads, hbehind.others⟩
    | resume thread env =>
      obtain ⟨place, innerNext, hresume, hnext⟩ := hbehind.resume hstep
      exact ⟨passed, innerNext, hinner.tail ⟨.resume place env, trivial, hresume⟩, hnext⟩
    | arrive request =>
      obtain rfl := Option.some.inj hstep
      cases hforwards : forwards request with
      | none =>
        obtain ⟨answer, hserve⟩ := (hroutes request).2 hforwards
        rw [hserve]
        exact ⟨passed, inner, hinner, hbehind.arrive_answered hforwards⟩
      | some routed =>
        have hstarted := (consistent_of_reaches hinner).started
        rw [(hroutes request).1 routed hforwards]
        exact ⟨_, _, hinner.tail ⟨.arrive routed, trivial, rfl⟩,
          hbehind.arrive hforwards hstarted⟩

end Threads

end OpfsWebauthn.Foundation
