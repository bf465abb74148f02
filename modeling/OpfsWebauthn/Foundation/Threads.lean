import Mathlib.Data.List.Basic
import OpfsWebauthn.Foundation.Automaton

/-!
# Handlers that run concurrently on shared state

A handler is a `Program`: it has answered, or it is about to make a call and goes on with the
result. Each call is atomic, and between two calls of one handler any number of calls of others may
happen. A `Machine` says what a call does to the shared state, and how the state may change by
itself (a clock that moves on); both depend on an environment that the handlers do not control.

`Threads` is the state of a run: the shared state, the handlers started so far, and the log of all
calls with the shared states before and after them. Two rules split the work in proofs.
`consistent_of_reaches` says that the calls of one thread in the log are a run of its program, so
what a handler has done follows by inversion of `Program.Runs`. `shared_invariant` is the induction
over the log, for facts about the sequence of calls whoever makes them.
-/

set_option autoImplicit false
set_option relaxedAutoImplicit false

namespace OpfsWebauthn.Foundation

/-! ### Programs -/

/-- A program over atomic calls: it has answered, or it makes a call and goes on with the result. -/
inductive Program (Call : Type) (Result : Call → Type) (α : Type)
  | done (answer : α)
  | call (call : Call) (next : Result call → Program Call Result α)

variable {Call : Type} {Result : Call → Type} {α : Type}

namespace Program

/-- A program made some calls with their results, oldest first, and goes on as another program. -/
inductive Runs : Program Call Result α → List (Σ call, Result call) → Program Call Result α → Prop
  | refl (program : Program Call Result α) : Runs program [] program
  | call {call : Call} {next : Result call → Program Call Result α} {result : Result call}
      {trace : List (Σ call, Result call)} {final : Program Call Result α}
      (hruns : Runs (next result) trace final) :
      Runs (.call call next) (⟨call, result⟩ :: trace) final

/-- A program that has answered makes no more calls. -/
theorem runs_done_iff {answer : α} {trace : List (Σ call, Result call)}
    {final : Program Call Result α} :
    Runs (.done answer) trace final ↔ trace = [] ∧ final = .done answer := by
  constructor
  · intro hruns
    cases hruns
    exact ⟨rfl, rfl⟩
  · rintro ⟨rfl, rfl⟩
    exact .refl _

/-- A program at a call has not moved, or it has made this call first. -/
theorem runs_call_iff {call : Call} {next : Result call → Program Call Result α}
    {trace : List (Σ call, Result call)} {final : Program Call Result α} :
    Runs (.call call next) trace final ↔ (trace = [] ∧ final = .call call next) ∨
      ∃ result rest, trace = ⟨call, result⟩ :: rest ∧ Runs (next result) rest final := by
  constructor
  · intro hruns
    cases hruns with
    | refl => exact .inl ⟨rfl, rfl⟩
    | call hruns => exact .inr ⟨_, _, rfl, hruns⟩
  · rintro (⟨rfl, rfl⟩ | ⟨result, rest, rfl, hruns⟩)
    · exact .refl _
    · exact .call hruns

/-- A program that has answered has made none of the calls of a longer trace. -/
theorem Runs.not_mem_done {answer : α} {trace : List (Σ call, Result call)}
    {final : Program Call Result α} (hruns : Runs (.done answer) trace final)
    (performed : Σ call, Result call) : performed ∉ trace := by
  obtain ⟨rfl, -⟩ := runs_done_iff.mp hruns
  exact List.not_mem_nil

/-- A program that is about to make some call is at its first call, or it has made this one. -/
theorem Runs.atCall {call last : Call} {next : Result call → Program Call Result α}
    {later : Result last → Program Call Result α} {trace : List (Σ call, Result call)}
    (hruns : Runs (.call call next) trace (.call last later)) :
    (trace = [] ∧ last = call) ∨ ∃ result rest, trace = ⟨call, result⟩ :: rest ∧
      Runs (next result) rest (.call last later) := by
  rcases runs_call_iff.mp hruns with ⟨htrace, hfinal⟩ | hlater
  · cases hfinal
    exact .inl ⟨htrace, rfl⟩
  · exact .inr hlater

/-- A call in the trace of a program at a call is this call or a later one. -/
theorem Runs.of_mem {call : Call} {next : Result call → Program Call Result α}
    {trace : List (Σ call, Result call)} {final : Program Call Result α}
    {performed : Σ call, Result call} (hruns : Runs (.call call next) trace final)
    (hperformed : performed ∈ trace) : ∃ result rest, trace = ⟨call, result⟩ :: rest ∧
      Runs (next result) rest final ∧ (performed = ⟨call, result⟩ ∨ performed ∈ rest) := by
  rcases runs_call_iff.mp hruns with ⟨rfl, -⟩ | ⟨result, rest, rfl, hnext⟩
  · cases hperformed
  · exact ⟨result, rest, rfl, hnext, List.mem_cons.mp hperformed⟩

/-- A program at a call that has answered in the end has made this call. -/
theorem Runs.of_done {call : Call} {next : Result call → Program Call Result α}
    {trace : List (Σ call, Result call)} {answer : α}
    (hruns : Runs (.call call next) trace (.done answer)) : ∃ result rest,
      trace = ⟨call, result⟩ :: rest ∧ Runs (next result) rest (.done answer) := by
  rcases runs_call_iff.mp hruns with ⟨-, hfinal⟩ | ⟨result, rest, rfl, hnext⟩
  · cases hfinal
  · exact ⟨result, rest, rfl, hnext⟩

/-- Every call that a program can make, whatever the results, is allowed. -/
def Allows (allowed : Call → Prop) : Program Call Result α → Prop
  | .done _ => True
  | .call first next => allowed first ∧ ∀ result, Allows allowed (next result)

/-- A weaker condition on the calls. -/
theorem Allows.mono {allowed weaker : Call → Prop} {program : Program Call Result α}
    (hallows : program.Allows allowed) (hweaker : ∀ call, allowed call → weaker call) :
    program.Allows weaker := by
  induction program with
  | done answer => trivial
  | call first next ih => exact ⟨hweaker first hallows.1, fun result ↦ ih result (hallows.2 result)⟩

/-- The calls of a run are among those that the program can make. -/
theorem Runs.allowed {allowed : Call → Prop} {program final : Program Call Result α}
    {trace : List (Σ call, Result call)} (hruns : Runs program trace final)
    (hallows : program.Allows allowed) : ∀ performed ∈ trace, allowed performed.1 := by
  induction hruns with
  | refl _ => exact fun performed hperformed ↦ absurd hperformed List.not_mem_nil
  | call _ ih =>
    intro performed hperformed
    rcases List.mem_cons.mp hperformed with rfl | hrest
    · exact hallows.1
    · exact ih (hallows.2 _) performed hrest

/-- A program can make only allowed calls when no run of it is about to make another. -/
theorem allows_of_runs {allowed : Call → Prop} {program : Program Call Result α}
    (hruns : ∀ trace call next, Runs program trace (.call call next) → allowed call) :
    program.Allows allowed := by
  induction program with
  | done answer => trivial
  | call first next ih =>
    refine ⟨hruns [] first next (.refl _), fun result ↦ ih result ?_⟩
    intro trace call later hlater
    exact hruns _ call later (.call hlater)

/-- What is left of a program makes only calls that the program can make. -/
theorem Runs.allows {allowed : Call → Prop} {program final : Program Call Result α}
    {trace : List (Σ call, Result call)} (hruns : Runs program trace final)
    (hallows : program.Allows allowed) : final.Allows allowed := by
  induction hruns with
  | refl _ => exact hallows
  | call _ ih => exact ih (hallows.2 _)

/-- The program whose answer is changed by a function. -/
def map {β : Type} (change : α → β) : Program Call Result α → Program Call Result β
  | .done answer => .done (change answer)
  | .call first next => .call first fun result ↦ (next result).map change

/-- Every answer that a program can give, whatever the results, meets a condition. -/
def Answers (condition : α → Prop) : Program Call Result α → Prop
  | .done answer => condition answer
  | .call _ next => ∀ result, Answers condition (next result)

/-- The answers of a changed program are changed. -/
theorem Answers.map {β : Type} {condition : α → Prop} {changed : β → Prop} {change : α → β}
    {program : Program Call Result α} (hanswers : program.Answers condition)
    (hchange : ∀ answer, condition answer → changed (change answer)) :
    (program.map change).Answers changed := by
  induction program with
  | done answer => exact hchange answer hanswers
  | call first next ih => exact fun result ↦ ih result (hanswers result)

/-- A weaker condition on the answers. -/
theorem Answers.mono {condition weaker : α → Prop} {program : Program Call Result α}
    (hanswers : program.Answers condition) (hweaker : ∀ answer, condition answer → weaker answer) :
    program.Answers weaker := by
  induction program with
  | done answer => exact hweaker answer hanswers
  | call first next ih => exact fun result ↦ ih result (hanswers result)

/-- Any program gives some answers. -/
theorem answers_true (program : Program Call Result α) : program.Answers fun _ ↦ True := by
  induction program with
  | done answer => trivial
  | call first next ih => exact ih

/-- The answer of a run is among those that the program can give. -/
theorem Runs.answer {condition : α → Prop} {program : Program Call Result α}
    {trace : List (Σ call, Result call)} {answer : α}
    (hruns : Runs program trace (.done answer)) (hanswers : program.Answers condition) :
    condition answer := by
  induction program generalizing trace with
  | done other =>
    obtain ⟨-, hsame⟩ := runs_done_iff.mp hruns
    cases hsame
    exact hanswers
  | call first next ih =>
    obtain ⟨result, rest, -, hnext⟩ := Runs.of_done hruns
    exact ih result hnext (hanswers result)

/-- A program answers after at most so many calls, whatever the results. -/
def AtMost : ℕ → Program Call Result α → Prop
  | _, .done _ => True
  | 0, .call _ _ => False
  | bound + 1, .call _ next => ∀ result, AtMost bound (next result)

/-- A run makes no more calls than its program can make. -/
theorem Runs.length_le {program final : Program Call Result α}
    {trace : List (Σ call, Result call)} (hruns : Runs program trace final) {bound : ℕ}
    (hatMost : program.AtMost bound) : trace.length ≤ bound := by
  induction hruns generalizing bound with
  | refl _ => exact Nat.zero_le _
  | call _ ih =>
    cases bound with
    | zero => exact hatMost.elim
    | succ bound => exact Nat.succ_le_succ (ih (hatMost _))

/-- On every path a program makes such a call before it answers. -/
def Makes (wanted : Call → Prop) : Program Call Result α → Prop
  | .done _ => False
  | .call first next => wanted first ∨ ∀ result, Makes wanted (next result)

/-- So a program that has answered has made one. -/
theorem Runs.made {wanted : Call → Prop} {program : Program Call Result α} {answer : α}
    {trace : List (Σ call, Result call)} (hruns : Runs program trace (.done answer))
    (hmakes : program.Makes wanted) : ∃ performed ∈ trace, wanted performed.1 := by
  induction program generalizing trace with
  | done _ => exact hmakes.elim
  | call first next ih =>
    obtain ⟨result, rest, rfl, hrest⟩ := hruns.of_done
    rcases hmakes with hwanted | hmakes
    · exact ⟨_, List.mem_cons_self, hwanted⟩
    · obtain ⟨performed, hmem, hwanted⟩ := ih result hrest (hmakes result)
      exact ⟨performed, List.mem_cons_of_mem _ hmem, hwanted⟩

/-- The answer of a program, if it has answered. -/
def answer? : Program Call Result α → Option α
  | .done answer => some answer
  | .call _ _ => none

/-- The call that a program is about to make. -/
def nextCall? : Program Call Result α → Option Call
  | .done _ => none
  | .call first _ => some first

/-- Before each call of its trace a program was about to make it. -/
theorem Runs.before {program final : Program Call Result α} {performed : Σ call, Result call}
    {later : List (Σ call, Result call)} : ∀ {earlier : List (Σ call, Result call)},
      Runs program (earlier ++ performed :: later) final →
        ∃ next, Runs program earlier (.call performed.1 next) := by
  intro earlier
  induction earlier generalizing program with
  | nil =>
    intro hruns
    cases hruns with
    | call hruns => exact ⟨_, .refl _⟩
  | cons first rest ih =>
    intro hruns
    cases hruns with
    | call hruns =>
      obtain ⟨next, hbefore⟩ := ih hruns
      exact ⟨next, .call hbefore⟩

/-- When every call has some result, a program can be run until it answers. -/
theorem exists_runs_done (hresults : ∀ call, Nonempty (Result call))
    (program : Program Call Result α) : ∃ trace answer, Runs program trace (.done answer) := by
  induction program with
  | done answer => exact ⟨[], answer, .refl _⟩
  | call first next ih =>
    obtain ⟨result⟩ := hresults first
    obtain ⟨trace, answer, hruns⟩ := ih result
    exact ⟨⟨first, result⟩ :: trace, answer, .call hruns⟩

/-- A run goes on where another one ended. -/
theorem Runs.trans {first second third : Program Call Result α}
    {earlier later : List (Σ call, Result call)} (hearlier : Runs first earlier second)
    (hlater : Runs second later third) : Runs first (earlier ++ later) third := by
  induction hearlier with
  | refl _ => exact hlater
  | call _ ih => exact .call (ih hlater)

/-- One more call. -/
theorem Runs.concat {program : Program Call Result α} {trace : List (Σ call, Result call)}
    {call : Call} {next : Result call → Program Call Result α}
    (hruns : Runs program trace (.call call next)) (result : Result call) :
    Runs program (trace ++ [⟨call, result⟩]) (next result) := by
  generalize hfinal : Program.call call next = final at hruns
  induction hruns with
  | refl _ => exact hfinal ▸ .call (.refl _)
  | call _ ih => exact .call (ih hfinal)

end Program

/-! ### Machines -/

/-- What a call does to the shared state and what it returns, and how the shared state changes by
itself; `none` when the environment cannot be like that. -/
structure Machine (σ Call : Type) (Result : Call → Type) (Env : Type) where
  perform : σ → (call : Call) → Env → Option (σ × Result call)
  elapse : σ → Env → Option σ

/-- A handler that was started, and what it has still to do. -/
structure Thread (ρ : Type) (Call : Type) (Result : Call → Type) (α : Type) where
  request : ρ
  rest : Program Call Result α

/-- A call that was made. -/
structure Entry (σ Call : Type) (Result : Call → Type) where
  thread : ℕ
  before : σ
  call : Call
  result : Result call
  after : σ

variable {σ ρ Env : Type}

/-- The call and its result, without the thread and the states. -/
def Entry.performed (entry : Entry σ Call Result) : Σ call, Result call :=
  ⟨entry.call, entry.result⟩

/-- The state of a run: the log is oldest first. -/
structure Threads (σ ρ Call : Type) (Result : Call → Type) (α : Type) where
  shared : σ
  threads : List (Thread ρ Call Result α)
  log : List (Entry σ Call Result)

/-- A request arrives, a thread makes its next call, or only time passes. -/
inductive ThreadsEvent (ρ Env : Type)
  | arrive (request : ρ)
  | resume (thread : ℕ) (env : Env)
  | elapse (env : Env)
deriving DecidableEq, Repr

namespace Threads

variable (machine : Machine σ Call Result Env) (handle : ρ → Program Call Result α)

/-- No handler has been started. -/
def start (shared : σ) : Threads σ ρ Call Result α :=
  ⟨shared, [], []⟩

/-- The next call of a thread. -/
def resume (world : Threads σ ρ Call Result α) (thread : ℕ) (env : Env) :
    Option (Threads σ ρ Call Result α) :=
  match world.threads[thread]? with
  | some ⟨request, .call call next⟩ =>
    (machine.perform world.shared call env).map fun (shared, result) ↦
      ⟨shared, world.threads.set thread ⟨request, next result⟩,
        world.log ++ [⟨thread, world.shared, call, result, shared⟩]⟩
  | _ => none

/-- One event. -/
def step (world : Threads σ ρ Call Result α) :
    ThreadsEvent ρ Env → Option (Threads σ ρ Call Result α)
  | .arrive request => some { world with threads := world.threads ++ [⟨request, handle request⟩] }
  | .resume thread env => world.resume machine thread env
  | .elapse env =>
    (machine.elapse world.shared env).map fun shared ↦ { world with shared := shared }

/-- The system. -/
def automaton : Automaton (Threads σ ρ Call Result α) (ThreadsEvent ρ Env) :=
  ⟨step machine handle⟩

/-- The request of a thread and its answer, if it has answered. -/
def answer? (world : Threads σ ρ Call Result α) (thread : ℕ) : Option (ρ × α) :=
  world.threads[thread]?.bind fun thread ↦ thread.rest.answer?.map fun answer ↦
    (thread.request, answer)

/-- The call that a thread is about to make. -/
def nextCall? (world : Threads σ ρ Call Result α) (thread : ℕ) : Option Call :=
  world.threads[thread]?.bind fun thread ↦ thread.rest.nextCall?

/-- The calls of one thread. -/
def trace (log : List (Entry σ Call Result)) (thread : ℕ) : List (Σ call, Result call) :=
  (log.filter fun entry ↦ entry.thread = thread).map Entry.performed

variable {machine} {handle}

theorem trace_concat (log : List (Entry σ Call Result)) (entry : Entry σ Call Result)
    (thread : ℕ) : trace (log ++ [entry]) thread =
      if entry.thread = thread then trace log thread ++ [entry.performed]
      else trace log thread := by
  unfold trace
  by_cases hthread : entry.thread = thread
  · simp [hthread]
  · simp [hthread]

/-- A call of a thread is in its trace. -/
theorem mem_trace_iff {log : List (Entry σ Call Result)} {thread : ℕ}
    {performed : Σ call, Result call} : performed ∈ trace log thread ↔
      ∃ entry ∈ log, entry.thread = thread ∧ entry.performed = performed := by
  unfold trace
  simp only [List.mem_map, List.mem_filter, decide_eq_true_eq, and_assoc]

/-- A thread has answered when its program is done. -/
theorem answer?_eq_some_iff {world : Threads σ ρ Call Result α} {thread : ℕ} {request : ρ}
    {answer : α} : world.answer? thread = some (request, answer) ↔
      world.threads[thread]? = some ⟨request, .done answer⟩ := by
  unfold answer?
  rw [Option.bind_eq_some_iff]
  constructor
  · rintro ⟨⟨found, rest⟩, hthread, hanswer⟩
    cases rest with
    | call call next => cases hanswer
    | done given =>
      cases hanswer
      exact hthread
  · intro hthread
    exact ⟨_, hthread, rfl⟩

/-- The call of a thread that is at a call. -/
theorem nextCall?_of_thread {world : Threads σ ρ Call Result α} {thread : ℕ} {request : ρ}
    {call : Call} {next : Result call → Program Call Result α}
    (hthread : world.threads[thread]? = some ⟨request, .call call next⟩) :
    world.nextCall? thread = some call := by
  unfold nextCall?
  rw [hthread]
  rfl

/-- What a resumed thread does. -/
theorem resume_eq_some_iff {world next : Threads σ ρ Call Result α} {thread : ℕ} {env : Env} :
    world.resume machine thread env = some next ↔ ∃ request call continuation shared result,
      world.threads[thread]? = some ⟨request, .call call continuation⟩ ∧
      machine.perform world.shared call env = some (shared, result) ∧
      next = ⟨shared, world.threads.set thread ⟨request, continuation result⟩,
        world.log ++ [⟨thread, world.shared, call, result, shared⟩]⟩ := by
  unfold resume
  constructor
  · intro hnext
    split at hnext
    · next request call continuation hthread =>
      obtain ⟨⟨shared, result⟩, hperform, hworld⟩ := Option.map_eq_some_iff.mp hnext
      exact ⟨request, call, continuation, shared, result, hthread, hperform, hworld.symm⟩
    · cases hnext
  · rintro ⟨request, call, continuation, shared, result, hthread, hperform, rfl⟩
    simp only [hthread, hperform, Option.map_some]

/-- The calls of a thread are a run of the program of its request, and every call is a thread's. -/
structure Consistent (handle : ρ → Program Call Result α) (world : Threads σ ρ Call Result α) :
    Prop where
  runs : ∀ {thread : ℕ} {request : ρ} {rest : Program Call Result α},
    world.threads[thread]? = some ⟨request, rest⟩ →
      (handle request).Runs (trace world.log thread) rest
  started : ∀ entry ∈ world.log, entry.thread < world.threads.length

theorem Consistent.step {world next : Threads σ ρ Call Result α} {event : ThreadsEvent ρ Env}
    (hconsistent : Consistent handle world)
    (hstep : (automaton machine handle).step world event = some next) :
    Consistent handle next := by
  cases event with
  | elapse env =>
    obtain ⟨after, hafter, rfl⟩ := Option.map_eq_some_iff.mp hstep
    exact ⟨hconsistent.runs, hconsistent.started⟩
  | arrive request =>
    obtain rfl := Option.some.inj hstep
    refine ⟨?_, ?_⟩
    · intro thread other rest hthread
      by_cases hlt : thread < world.threads.length
      · change (world.threads ++ [_])[thread]? = _ at hthread
        rw [List.getElem?_append_left hlt] at hthread
        exact hconsistent.runs hthread
      · -- The new thread has made no call yet.
        have heq : thread = world.threads.length := by
          have hsome := (List.getElem?_eq_some_iff.mp hthread).1
          change thread < (world.threads ++ [_]).length at hsome
          rw [List.length_append, List.length_singleton] at hsome
          omega
        subst heq
        change (world.threads ++ [_])[world.threads.length]? = _ at hthread
        rw [List.getElem?_append_right (Nat.le_refl _), Nat.sub_self] at hthread
        obtain ⟨rfl, rfl⟩ := Thread.mk.inj (Option.some.inj hthread)
        have hnone : trace world.log world.threads.length = [] := by
          unfold trace
          rw [List.map_eq_nil_iff, List.filter_eq_nil_iff]
          intro entry hentry
          have hlt := hconsistent.started entry hentry
          simp only [decide_eq_true_eq]
          omega
        change (handle request).Runs (trace world.log world.threads.length) (handle request)
        rw [hnone]
        exact .refl _
    · intro entry hentry
      have hlt := hconsistent.started entry hentry
      change entry.thread < (world.threads ++ [_]).length
      rw [List.length_append]
      omega
  | resume thread env =>
    obtain ⟨request, call, continuation, after, result, hthread, -, rfl⟩ :=
      resume_eq_some_iff.mp hstep
    have hlt : thread < world.threads.length := (List.getElem?_eq_some_iff.mp hthread).1
    refine ⟨?_, ?_⟩
    · intro other otherRequest rest hother
      change (handle otherRequest).Runs (trace (world.log ++ [_]) other) rest
      rw [trace_concat]
      change (world.threads.set thread _)[other]? = _ at hother
      by_cases heq : thread = other
      · subst heq
        rw [List.getElem?_set_self hlt] at hother
        obtain ⟨rfl, rfl⟩ := Thread.mk.inj (Option.some.inj hother)
        rw [if_pos rfl]
        exact (hconsistent.runs hthread).concat result
      · rw [List.getElem?_set_ne heq] at hother
        rw [if_neg heq]
        exact hconsistent.runs hother
    · intro entry hentry
      change entry.thread < (world.threads.set thread _).length
      rw [List.length_set]
      rcases List.mem_append.mp hentry with hold | hnew
      · exact hconsistent.started entry hold
      · obtain rfl := List.mem_singleton.mp hnew
        exact hlt

theorem consistent_start (shared : σ) :
    Consistent handle (start shared : Threads σ ρ Call Result α) := by
  refine ⟨?_, ?_⟩
  · intro thread request rest hthread
    simp [start] at hthread
  · intro entry hentry
    simp [start] at hentry

/-- In every state reached the calls of each thread are a run of the program of its request. -/
theorem consistent_of_reaches {shared : σ} {world : Threads σ ρ Call Result α}
    (hreaches : (automaton machine handle).Reaches (start shared) world) :
    Consistent handle world := by
  refine hreaches.invariant (Consistent handle) (consistent_start shared) ?_
  intro state event next hconsistent _ hstep
  exact hconsistent.step hstep

/-- The induction over the log: a property of the shared state and the log that holds at the start,
that the passing of time keeps and that every call keeps which some handler can make, holds in
every state reached. -/
theorem shared_invariant_of_allows {shared : σ} {world : Threads σ ρ Call Result α}
    (hreaches : (automaton machine handle).Reaches (start shared) world) {allowed : Call → Prop}
    (hallows : ∀ request, (handle request).Allows allowed)
    (property : σ → List (Entry σ Call Result) → Prop) (hstart : property shared [])
    (helapse : ∀ shared log env next, property shared log →
      machine.elapse shared env = some next → property next log)
    (hperform : ∀ shared log thread call env next result, property shared log → allowed call →
      machine.perform shared call env = some (next, result) →
      property next (log ++ [⟨thread, shared, call, result, next⟩])) :
    property world.shared world.log := by
  have hboth : Consistent handle world ∧ property world.shared world.log := by
    refine hreaches.invariant (fun world ↦ Consistent handle world ∧
      property world.shared world.log) ⟨consistent_start shared, hstart⟩ ?_
    rintro world event next ⟨hconsistent, hproperty⟩ - hstep
    refine ⟨hconsistent.step hstep, ?_⟩
    cases event with
    | arrive request =>
      obtain rfl := Option.some.inj hstep
      exact hproperty
    | resume thread env =>
      obtain ⟨request, call, continuation, after, result, hthread, hresult, rfl⟩ :=
        resume_eq_some_iff.mp hstep
      have hcall : (Program.call call continuation : Program Call Result α).Allows allowed :=
        (hconsistent.runs hthread).allows (hallows request)
      exact hperform _ _ _ _ _ _ _ hproperty hcall.1 hresult
    | elapse env =>
      obtain ⟨after, hafter, rfl⟩ := Option.map_eq_some_iff.mp hstep
      exact helapse _ _ _ _ hproperty hafter
  exact hboth.2

/-- The induction over the log when any call can be made. -/
theorem shared_invariant {shared : σ} {world : Threads σ ρ Call Result α}
    (hreaches : (automaton machine handle).Reaches (start shared) world)
    (property : σ → List (Entry σ Call Result) → Prop) (hstart : property shared [])
    (helapse : ∀ shared log env next, property shared log →
      machine.elapse shared env = some next → property next log)
    (hperform : ∀ shared log thread call env next result, property shared log →
      machine.perform shared call env = some (next, result) →
      property next (log ++ [⟨thread, shared, call, result, next⟩])) :
    property world.shared world.log := by
  have hany : ∀ program : Program Call Result α, program.Allows fun _ ↦ True := by
    intro program
    induction program with
    | done answer => trivial
    | call first next ih => exact ⟨trivial, ih⟩
  exact shared_invariant_of_allows hreaches (fun request ↦ hany (handle request)) property hstart
    helapse fun shared log thread call env next result hproperty _ ↦
      hperform shared log thread call env next result hproperty

/-- A call in the log is a call of a thread that was started. -/
theorem Consistent.exists_thread {world : Threads σ ρ Call Result α}
    (hconsistent : Consistent handle world) {entry : Entry σ Call Result}
    (hentry : entry ∈ world.log) : ∃ request rest,
      world.threads[entry.thread]? = some ⟨request, rest⟩ ∧
      (handle request).Runs (trace world.log entry.thread) rest ∧
      entry.performed ∈ trace world.log entry.thread := by
  have hlt := hconsistent.started entry hentry
  have hthread := List.getElem?_eq_getElem hlt
  exact ⟨_, _, hthread, hconsistent.runs hthread, mem_trace_iff.mpr ⟨entry, hentry, rfl, rfl⟩⟩

/-! ### Positions in the log -/

/-- Looking up a position after one more entry. -/
theorem getElem?_concat_iff {β : Type} {list : List β} {last value : β} {position : ℕ} :
    (list ++ [last])[position]? = some value ↔
      list[position]? = some value ∨ (position = list.length ∧ value = last) := by
  by_cases hlt : position < list.length
  · rw [List.getElem?_append_left hlt]
    constructor
    · exact .inl
    · rintro (hvalue | ⟨rfl, -⟩)
      · exact hvalue
      · exact absurd hlt (Nat.lt_irrefl _)
  · have hnone : list[position]? = none := List.getElem?_eq_none (Nat.le_of_not_lt hlt)
    rw [List.getElem?_append_right (Nat.le_of_not_lt hlt), hnone, List.getElem?_singleton]
    by_cases heq : position = list.length
    · simp [heq, eq_comm]
    · have hpos : position - list.length ≠ 0 := by omega
      simp [heq, hpos]

/-- The calls of a thread up to one of its calls, this call, and those after it. -/
theorem trace_split {log : List (Entry σ Call Result)} {position : ℕ}
    {entry : Entry σ Call Result} (hentry : log[position]? = some entry) :
    trace log entry.thread = trace (log.take position) entry.thread ++
      entry.performed :: trace (log.drop (position + 1)) entry.thread := by
  have hsplit : log = log.take position ++ entry :: log.drop (position + 1) := by
    obtain ⟨hlt, hget⟩ := List.getElem?_eq_some_iff.mp hentry
    rw [← hget, List.getElem_cons_drop, List.take_append_drop]
  have hkept : trace [entry] entry.thread = [entry.performed] := by
    simp [trace]
  have happend : ∀ first second : List (Entry σ Call Result),
      trace (first ++ second) entry.thread = trace first entry.thread ++
        trace second entry.thread := by
    intro first second
    unfold trace
    rw [List.filter_append, List.map_append]
  conv_lhs => rw [hsplit, ← List.singleton_append, happend, happend, hkept]
  rfl

/-- A call that a thread made before a position has a position before it. -/
theorem exists_lt_of_mem_trace_take {log : List (Entry σ Call Result)} {position thread : ℕ}
    {performed : Σ call, Result call} (hmem : performed ∈ trace (log.take position) thread) :
    ∃ earlier entry, earlier < position ∧ log[earlier]? = some entry ∧ entry.thread = thread ∧
      entry.performed = performed := by
  obtain ⟨entry, hentry, hthread, hperformed⟩ := mem_trace_iff.mp hmem
  obtain ⟨earlier, hearlier⟩ := List.getElem?_of_mem hentry
  have hlt : earlier < position := by
    have hlength := (List.getElem?_eq_some_iff.mp hearlier).1
    rw [List.length_take] at hlength
    omega
  rw [List.getElem?_take_of_lt hlt] at hearlier
  exact ⟨earlier, entry, hlt, hearlier, hthread, hperformed⟩

/-- When a call was made, the program of its thread had run through the calls before it and was
about to make it. -/
theorem Consistent.runs_before {world : Threads σ ρ Call Result α}
    (hconsistent : Consistent handle world) {position : ℕ} {entry : Entry σ Call Result}
    (hentry : world.log[position]? = some entry) : ∃ request rest next,
      world.threads[entry.thread]? = some ⟨request, rest⟩ ∧
      (handle request).Runs (trace (world.log.take position) entry.thread)
        (.call entry.call next) := by
  have hlt := hconsistent.started entry (List.mem_of_getElem? hentry)
  have hthread := List.getElem?_eq_getElem hlt
  have hruns := hconsistent.runs hthread
  rw [trace_split hentry] at hruns
  obtain ⟨next, hbefore⟩ := hruns.before
  exact ⟨_, _, next, hthread, hbefore⟩

/-- The induction over the log gives the property at each call, for the state before the call and
the calls made until then; and each call was performed in the state before it. -/
theorem shared_invariant_before {shared : σ} {world : Threads σ ρ Call Result α}
    (hreaches : (automaton machine handle).Reaches (start shared) world)
    (property : σ → List (Entry σ Call Result) → Prop) (hstart : property shared [])
    (helapse : ∀ shared log env next, property shared log →
      machine.elapse shared env = some next → property next log)
    (hperform : ∀ shared log thread call env next result, property shared log →
      machine.perform shared call env = some (next, result) →
      property next (log ++ [⟨thread, shared, call, result, next⟩])) :
    ∀ position entry, world.log[position]? = some entry →
      property entry.before (world.log.take position) ∧
        ∃ env, machine.perform entry.before entry.call env = some (entry.after, entry.result) := by
  have hboth : property world.shared world.log ∧ ∀ position entry,
      world.log[position]? = some entry → property entry.before (world.log.take position) ∧
        ∃ env, machine.perform entry.before entry.call env =
          some (entry.after, entry.result) := by
    refine shared_invariant hreaches (fun shared log ↦ property shared log ∧ ∀ position entry,
      log[position]? = some entry → property entry.before (log.take position) ∧
        ∃ env, machine.perform entry.before entry.call env =
          some (entry.after, entry.result)) ⟨hstart, fun _ _ hentry ↦ by simp at hentry⟩ ?_ ?_
    · intro shared log env next hproperty hnext
      exact ⟨helapse _ _ _ _ hproperty.1 hnext, hproperty.2⟩
    · intro shared log thread call env next result hproperty hnext
      refine ⟨hperform _ _ _ _ _ _ _ hproperty.1 hnext, ?_⟩
      intro position entry hentry
      rcases getElem?_concat_iff.mp hentry with hold | ⟨rfl, rfl⟩
      · have hlt : position < log.length := (List.getElem?_eq_some_iff.mp hold).1
        rw [List.take_append_of_le_length (Nat.le_of_lt hlt)]
        exact hproperty.2 position entry hold
      · rw [List.take_left]
        exact ⟨hproperty.1, env, hnext⟩
  exact hboth.2

/-- No two calls give the same number when each takes the next number of a counter of the shared
state. -/
theorem nodup_of_fresh {shared : σ} {world : Threads σ ρ Call Result α}
    (hreaches : (automaton machine handle).Reaches (start shared) world) (counter : σ → ℕ)
    (number : (Σ call, Result call) → Option ℕ)
    (helapse : ∀ shared env next, machine.elapse shared env = some next →
      counter shared ≤ counter next)
    (hperform : ∀ shared call env next result,
      machine.perform shared call env = some (next, result) → counter shared ≤ counter next ∧
        ∀ given, number ⟨call, result⟩ = some given →
          given = counter shared ∧ given < counter next) :
    (world.log.filterMap fun entry ↦ number entry.performed).Nodup := by
  have hboth := shared_invariant hreaches (fun shared log ↦
    (log.filterMap fun entry ↦ number entry.performed).Nodup ∧
      ∀ given ∈ log.filterMap fun entry ↦ number entry.performed, given < counter shared)
    ⟨List.nodup_nil, List.forall_mem_nil _⟩ (by
      intro shared log env next hold hnext
      exact ⟨hold.1, fun given hgiven ↦
        Nat.lt_of_lt_of_le (hold.2 given hgiven) (helapse _ _ _ hnext)⟩) (by
      intro shared log thread call env next result hold hnext
      obtain ⟨hmono, hfresh⟩ := hperform _ _ _ _ _ hnext
      rw [List.filterMap_append]
      cases hnumber : number ⟨call, result⟩ with
      | none =>
        have hnone : List.filterMap (fun entry : Entry σ Call Result ↦ number entry.performed)
            [⟨thread, shared, call, result, next⟩] = [] := by
          simp [Entry.performed, hnumber]
        rw [hnone, List.append_nil]
        exact ⟨hold.1, fun given hgiven ↦ Nat.lt_of_lt_of_le (hold.2 given hgiven) hmono⟩
      | some given =>
        have hsome : List.filterMap (fun entry : Entry σ Call Result ↦ number entry.performed)
            [⟨thread, shared, call, result, next⟩] = [given] := by
          simp [Entry.performed, hnumber]
        rw [hsome]
        obtain ⟨hsame, hlt⟩ := hfresh given hnumber
        refine ⟨List.nodup_append.mpr ⟨hold.1, by simp, ?_⟩, ?_⟩
        · intro other hother last hlast heq
          obtain rfl := List.mem_singleton.mp hlast
          have hsmall := hold.2 other hother
          omega
        · intro other hother
          rcases List.mem_append.mp hother with hlog | hnew
          · exact Nat.lt_of_lt_of_le (hold.2 other hlog) hmono
          · obtain rfl := List.mem_singleton.mp hnew
            exact hlt)
  exact hboth.1

/-- Entries of a list with the same number are equal when no number is given twice. -/
theorem eq_of_nodup_filterMap {β : Type} {number : β → Option ℕ} {list : List β}
    (hnodup : (list.filterMap number).Nodup) {first second : β} {given : ℕ}
    (hfirst : first ∈ list) (hsecond : second ∈ list) (hgivenFirst : number first = some given)
    (hgivenSecond : number second = some given) : first = second := by
  induction list with
  | nil => cases hfirst
  | cons head rest ih =>
    have hout : number head = some given → given ∉ rest.filterMap number := by
      intro hhead
      rw [List.filterMap_cons_some hhead] at hnodup
      exact (List.nodup_cons.mp hnodup).1
    have hrest : (rest.filterMap number).Nodup := by
      cases hhead : number head with
      | none =>
        rw [List.filterMap_cons_none hhead] at hnodup
        exact hnodup
      | some other =>
        rw [List.filterMap_cons_some hhead] at hnodup
        exact (List.nodup_cons.mp hnodup).2
    rcases List.mem_cons.mp hfirst with rfl | hlaterFirst
    · rcases List.mem_cons.mp hsecond with rfl | hlaterSecond
      · rfl
      · exact absurd (List.mem_filterMap.mpr ⟨second, hlaterSecond, hgivenSecond⟩)
          (hout hgivenFirst)
    · rcases List.mem_cons.mp hsecond with rfl | hlaterSecond
      · exact absurd (List.mem_filterMap.mpr ⟨first, hlaterFirst, hgivenFirst⟩)
          (hout hgivenSecond)
      · exact ih hrest hlaterFirst hlaterSecond

/-- Nor does one thread give a number twice. -/
theorem nodup_trace_of_nodup {log : List (Entry σ Call Result)}
    {number : (Σ call, Result call) → Option ℕ}
    (hnodup : (log.filterMap fun entry ↦ number entry.performed).Nodup) (thread : ℕ) :
    ((trace log thread).filterMap number).Nodup := by
  unfold trace
  rw [List.filterMap_map]
  exact hnodup.sublist (List.filter_sublist.filterMap _)

/-- Two calls of one thread are in its trace in their order. -/
theorem pair_sublist_trace {log : List (Entry σ Call Result)} {i j thread : ℕ}
    {first second : Entry σ Call Result} (hlt : i < j) (hfirst : log[i]? = some first)
    (hsecond : log[j]? = some second) (hfirstThread : first.thread = thread)
    (hsecondThread : second.thread = thread) :
    List.Sublist [first.performed, second.performed] (trace log thread) := by
  have hbefore : first ∈ log.take j := by
    have htake : (log.take j)[i]? = some first := by
      rw [List.getElem?_take_of_lt hlt]
      exact hfirst
    exact List.mem_of_getElem? htake
  have hafter : second ∈ log.drop j := by
    have hdrop : (log.drop j)[0]? = some second := by
      rw [List.getElem?_drop, Nat.add_zero]
      exact hsecond
    exact List.mem_of_getElem? hdrop
  have hpair : List.Sublist ([first] ++ [second]) (log.take j ++ log.drop j) :=
    (List.singleton_sublist.mpr hbefore).append (List.singleton_sublist.mpr hafter)
  rw [List.take_append_drop] at hpair
  have hfiltered := (hpair.filter fun entry ↦ decide (entry.thread = thread)).map Entry.performed
  simpa [trace, hfirstThread, hsecondThread] using hfiltered

/-- A relation that calls and the passing of time respect holds between the state after a call and
the state before each later one, and up to the present. -/
theorem ordered_of_reaches {shared : σ} {world : Threads σ ρ Call Result α}
    (hreaches : (automaton machine handle).Reaches (start shared) world)
    (relation : σ → σ → Prop) (hrefl : ∀ state, relation state state)
    (htrans : ∀ {first second third}, relation first second → relation second third →
      relation first third)
    (helapse : ∀ shared env next, machine.elapse shared env = some next → relation shared next)
    (hperform : ∀ shared call env next result,
      machine.perform shared call env = some (next, result) → relation shared next) :
    (∀ entry ∈ world.log, relation entry.before entry.after ∧
      relation entry.after world.shared) ∧
    ∀ (i j : ℕ) (first second : Entry σ Call Result), i < j → world.log[i]? = some first →
      world.log[j]? = some second → relation first.after second.before := by
  refine shared_invariant hreaches (fun shared log ↦
    (∀ entry ∈ log, relation entry.before entry.after ∧ relation entry.after shared) ∧
    ∀ (i j : ℕ) (first second : Entry σ Call Result), i < j → log[i]? = some first →
      log[j]? = some second → relation first.after second.before) ?_ ?_ ?_
  · exact ⟨fun entry hentry ↦ by simp at hentry, fun i j first second _ hfirst ↦ by
      simp at hfirst⟩
  · rintro shared log env next ⟨hlast, hpairs⟩ hnext
    exact ⟨fun entry hentry ↦ ⟨(hlast entry hentry).1,
      htrans (hlast entry hentry).2 (helapse _ _ _ hnext)⟩, hpairs⟩
  · rintro shared log thread call env next result ⟨hlast, hpairs⟩ hnext
    have hmoved := hperform _ _ _ _ _ hnext
    refine ⟨?_, ?_⟩
    · intro entry hentry
      rcases List.mem_append.mp hentry with hold | hnew
      · exact ⟨(hlast entry hold).1, htrans (hlast entry hold).2 hmoved⟩
      · obtain rfl := List.mem_singleton.mp hnew
        exact ⟨hmoved, hrefl _⟩
    · intro i j first second hlt hfirst hsecond
      rcases getElem?_concat_iff.mp hsecond with hold | ⟨hj, rfl⟩
      · have hj : j < log.length := (List.getElem?_eq_some_iff.mp hold).1
        rw [List.getElem?_append_left (Nat.lt_trans hlt hj)] at hfirst
        exact hpairs i j first second hlt hfirst hold
      · rw [List.getElem?_append_left (by omega)] at hfirst
        exact (hlast first (List.mem_of_getElem? hfirst)).2

end Threads

end OpfsWebauthn.Foundation
