import Mathlib.Algebra.Order.Group.Nat
import OpfsWebauthn.Foundation.Histories
import OpfsWebauthn.Storage.TransportRun

/-!
# The restart budget

When a transport gives up. Each failure of its writer is a restart, unless it is the third within
the window: then the transport is `failed`, for good. `Budgeted` is the invariant of every run: the
log of failures that the transport keeps has all failures that are recent, a leader has no lock
request open, and what the page waits for is what is in flight. `Dormant` is what is left of a
transport that gave up: nothing by which a message, a timer or a grant could reach it. It refuses
what is posted, each request on a microtask of its own, as long as it is not closed.

`restart_budget` puts together when the transport gives up, what the page hears at that moment, and
what happens from then on.
-/

set_option autoImplicit false
set_option relaxedAutoImplicit false

namespace OpfsWebauthn.Storage

open Foundation

/-- An effect that reaches nobody but the page of the transport and the lock manager, and that
starts nothing: no post on a channel or to a writer, no lock request, no new writer. -/
def TransportEffect.Silent : TransportEffect → Prop
  | .discoveryPost _ => False
  | .pairPost .. => False
  | .channelPost .. => False
  | .writerPost .. => False
  | .requestLock _ => False
  | .openWriter _ => False
  | _ => True

/-- The number of the request that an event refuses because the transport gave up. -/
def TransportEffect.refusedId : TransportEffect → Option ℕ
  | .message ⟨id, .error reason⟩ _ => if reason = Transport.failMessage then some id else none
  | _ => none

/-- The request that an event posts. -/
def TransportEvent.postedId : TransportEvent → Option ℕ
  | .post data => data.id
  | _ => none

namespace TransportRun

/-- The requests that were refused. -/
def refusals (effects : List TransportEffect) : List ℕ :=
  effects.filterMap TransportEffect.refusedId

/-- Two of the failures before a time are at most 30 seconds back. -/
def TwoRecent (failures : List ℕ) (now : ℕ) : Prop :=
  2 ≤ (failures.filter fun time ↦ now ≤ time + 30000 ∧ time ≤ now).length

/-- Some failure was the third within 30 seconds. -/
def Exhausted (failures : List ℕ) : Prop :=
  ∃ before now after, failures = before ++ now :: after ∧ TwoRecent before now

/-! ### Failures -/

/-- One more failure exhausts the budget when it did not before exactly when it is the third. -/
theorem exhausted_concat_iff {failures : List ℕ} {now : ℕ} :
    Exhausted (failures ++ [now]) ↔ Exhausted failures ∨ TwoRecent failures now := by
  constructor
  · rintro ⟨before, time, after, hsplit, hrecent⟩
    rcases split_concat hsplit with ⟨rfl, rfl, -⟩ | ⟨inner, hfailures, -⟩
    · exact Or.inr hrecent
    · exact Or.inl ⟨before, time, inner, hfailures, hrecent⟩
  · rintro (⟨before, time, after, hsplit, hrecent⟩ | hrecent)
    · exact ⟨before, time, after ++ [now], by simp [hsplit], hrecent⟩
    · exact ⟨failures, now, [], rfl, hrecent⟩

/-- A run without failures has budget. -/
theorem not_exhausted_nil : ¬ Exhausted [] := by
  rintro ⟨before, now, after, hsplit, -⟩
  simp at hsplit

/-- With a clock that does not go back, the budget is counted by the recent failures. -/
theorem twoRecent_iff {failures : List ℕ} {now : ℕ} (hpast : ∀ time ∈ failures, time ≤ now) :
    TwoRecent failures now ↔
      Transport.maxFailures ≤ (recent Transport.restartWindowMs now failures).length + 1 := by
  have hsame : failures.filter (fun time ↦ now ≤ time + 30000 ∧ time ≤ now) =
      recent Transport.restartWindowMs now failures := by
    unfold recent
    refine List.filter_congr fun time htime ↦ ?_
    rw [Bool.eq_iff_iff, decide_eq_true_eq, decide_eq_true_eq]
    exact ⟨fun hrecent ↦ hrecent.1, fun hrecent ↦ ⟨hrecent, hpast time htime⟩⟩
  unfold TwoRecent
  rw [hsame, Transport.maxFailures]
  omega

/-! ### The invariant -/

/-- What is left of a transport that gave up. -/
structure Dormant (transport : Transport) : Prop where
  inFlight : transport.inFlight = .empty
  pairChannel : transport.pairChannel = none
  pendingPair : transport.pendingPair = none
  discovering : transport.discovering = false
  bridges : transport.bridges = .empty
  writer : transport.writer = none

/-- A dormant transport stays dormant when what it did is passed on. -/
theorem Dormant.emptied {transport : Transport} (hdormant : Dormant transport) :
    Dormant { transport with outbox := [] } :=
  ⟨hdormant.inFlight, hdormant.pairChannel, hdormant.pendingPair, hdormant.discovering,
    hdormant.bridges, hdormant.writer⟩

/-- The invariant of every run. -/
structure Budgeted (run : TransportRun) : Prop where
  sent : run.transport.outbox = []
  hears : run.transport.listening = !run.transport.closed
  /-- A leader listens to its writer, and has no lock request open. -/
  leads : ∀ writer, run.transport.writer = some writer →
    run.transport.closed = false ∧ run.transport.failed = false ∧
      run.transport.leaderId = some writer ∧ run.transport.writerErrorListener = some writer ∧
      run.requests = []
  single : run.requests.length ≤ 1
  /-- The failures are in the order of time, and the transport remembers those that are recent. -/
  sorted : run.failures.Pairwise (· ≤ ·)
  past : ∀ time ∈ run.failures, time ≤ run.clock
  purged : Purged Transport.restartWindowMs run.clock run.failures run.transport.failureTimestamps
  /-- The page waits for what is in flight. -/
  awaits : run.transport.failed = false → run.transport.closed = false →
    ∀ id, id ∈ run.awaited ↔ id ∈ run.transport.inFlight.keys
  unrefused : run.transport.failed = false → run.transport.microtasks = []
  works : run.transport.failed = false → ¬ Exhausted run.failures
  dormant : run.transport.failed = true → Dormant run.transport ∧ run.requests = [] ∧
    ∃ before now, run.failures = before ++ [now] ∧ TwoRecent before now ∧ ¬ Exhausted before

/-- An open transport has its listeners. -/
theorem Budgeted.listens {run : TransportRun} (hbudgeted : run.Budgeted)
    (hopen : run.transport.closed = false) : run.transport.listening = true := by
  rw [hbudgeted.hears, hopen]
  rfl

/-- The state after a function with no effect that the history records. -/
theorem act_of_quiet {run : TransportRun} (hsent : run.transport.outbox = [])
    {handler : Transport → Transport}
    (hquiet : ∀ effect ∈ (handler run.transport).outbox,
      effect ∈ run.transport.outbox ∨ Transport.Quiet effect) :
    (run.act handler).requests = run.requests ∧ (run.act handler).awaited = run.awaited := by
  have hall : ∀ effect ∈ arrivals handler run.transport, Transport.Quiet effect := by
    intro effect heffect
    refine (hquiet effect (List.mem_of_mem_filter heffect)).resolve_left ?_
    rw [hsent]
    exact List.not_mem_nil
  constructor
  · rw [requests_act, List.filterMap_eq_nil_iff.mpr fun effect heffect ↦ (hall effect heffect).1,
      List.append_nil]
  · rw [awaited_act, List.filterMap_eq_nil_iff.mpr fun effect heffect ↦ (hall effect heffect).2]
    exact List.filter_eq_self.mpr fun _ _ ↦ by simp

/-- A steady function keeps the invariant, while the transport has not given up, when it makes a
leader only of a transport without a lock request. -/
theorem Budgeted.steady {run : TransportRun} (hbudgeted : run.Budgeted)
    (hworks : run.transport.failed = false) {handler : Transport → Transport}
    (hsteady : Transport.Steady run.transport (handler run.transport))
    (hleads : ∀ writer, (handler run.transport).writer = some writer →
      run.transport.closed = false ∧ (handler run.transport).leaderId = some writer ∧
        (handler run.transport).writerErrorListener = some writer ∧ run.requests = []) :
    (run.act handler).Budgeted := by
  obtain ⟨hrequests, hawaited⟩ := act_of_quiet hbudgeted.sent hsteady.quiet
  have hfailed : (run.act handler).transport.failed = false := hsteady.failed.trans hworks
  refine ⟨rfl, ?_, ?_, ?_, hbudgeted.sorted, hbudgeted.past, ?_, ?_, ?_,
    fun _ ↦ hbudgeted.works hworks,
    fun hgaveUp ↦ absurd (hfailed.symm.trans hgaveUp) Bool.false_ne_true⟩
  · show (handler run.transport).listening = !(handler run.transport).closed
    rw [hsteady.listening, hsteady.closed]
    exact hbudgeted.hears
  · intro writer hwriter
    obtain ⟨hopen, hleader, hlistener, hnone⟩ := hleads writer hwriter
    exact ⟨hsteady.closed.trans hopen, hfailed, hleader, hlistener, hrequests.trans hnone⟩
  · rw [hrequests]
    exact hbudgeted.single
  · show Purged _ run.clock run.failures (handler run.transport).failureTimestamps
    rw [hsteady.failureTimestamps]
    exact hbudgeted.purged
  · intro _ hclosed id
    rw [hawaited]
    show id ∈ run.awaited ↔ id ∈ (handler run.transport).inFlight.keys
    rw [hsteady.inFlight]
    exact hbudgeted.awaits hworks (hsteady.closed.symm.trans hclosed) id
  · intro _
    exact hsteady.microtasks.trans (hbudgeted.unrefused hworks)

/-- A plain function keeps the invariant, while the transport has not given up. -/
theorem Budgeted.plain {run : TransportRun} (hbudgeted : run.Budgeted)
    (hworks : run.transport.failed = false) {handler : Transport → Transport}
    (hplain : Transport.Plain run.transport (handler run.transport)) :
    (run.act handler).Budgeted := by
  refine hbudgeted.steady hworks hplain.toSteady fun writer hwriter ↦ ?_
  obtain ⟨hopen, -, hleader, hlistener, hnone⟩ :=
    hbudgeted.leads writer (hplain.writer.symm.trans hwriter)
  exact ⟨hopen, hplain.leaderId.trans hleader, hplain.writerErrorListener.trans hlistener, hnone⟩

/-- The only lock request is taken. -/
theorem Budgeted.take {run : TransportRun} (hbudgeted : run.Budgeted) {request : ℕ}
    (hrequest : request ∈ run.requests) (grants factoryCalls : ℕ) :
    Budgeted { run with
        requests := run.requests.erase request
        grants := grants
        factoryCalls := factoryCalls } ∧
      run.requests.erase request = [] ∧ run.transport.writer = none ∧
      run.transport.failed = false := by
  have hnone : run.requests.erase request = [] := by
    apply List.eq_nil_of_length_eq_zero
    rw [List.length_erase_of_mem hrequest]
    have hsingle := hbudgeted.single
    omega
  have hworks : run.transport.failed = false := by
    by_contra hgaveUp
    obtain ⟨-, hempty, -⟩ := hbudgeted.dormant (by simpa using hgaveUp)
    rw [hempty] at hrequest
    cases hrequest
  have hwriter : run.transport.writer = none := by
    cases hsome : run.transport.writer with
    | none => rfl
    | some writer =>
      rw [(hbudgeted.leads writer hsome).2.2.2.2] at hrequest
      cases hrequest
  refine ⟨⟨hbudgeted.sent, hbudgeted.hears, ?_, ?_, hbudgeted.sorted, hbudgeted.past,
    hbudgeted.purged, hbudgeted.awaits, hbudgeted.unrefused, hbudgeted.works, ?_⟩, hnone, hwriter,
    hworks⟩
  · intro writer hsome
    have hold := hbudgeted.leads writer hsome
    exact ⟨hold.1, hold.2.1, hold.2.2.1, hold.2.2.2.1, hnone⟩
  · show (run.requests.erase request).length ≤ 1
    rw [hnone]
    exact Nat.zero_le 1
  · intro hgaveUp
    exact absurd (hworks.symm.trans hgaveUp) Bool.false_ne_true

/-! ### A transport that gave up -/

/-- A quiet effect refuses nothing. -/
theorem refusedId_of_quiet {effect : TransportEffect} (hquiet : Transport.Quiet effect) :
    effect.refusedId = none := by
  cases effect with
  | message envelope synthetic => cases hquiet.2
  | _ => rfl

/-- A silent effect requests no lock. -/
theorem lockRequest_of_silent {effect : TransportEffect} (hsilent : effect.Silent) :
    effect.lockRequest = none := by
  cases effect with
  | requestLock request => exact hsilent.elim
  | _ => rfl

/-- While the listeners hear everything, all that a function does arrives. -/
theorem arrivals_eq {handler : Transport → Transport} {transport : Transport}
    (hlistening : (handler transport).listening = true) :
    arrivals handler transport = (handler transport).outbox := by
  refine List.filter_eq_self.mpr fun effect _ ↦ ?_
  rw [hlistening]
  cases effect <;> rfl

/-- Listeners that were removed hear no refusal. -/
theorem refusals_arrivals {handler : Transport → Transport} {transport : Transport}
    (hdeaf : (handler transport).listening = false) :
    refusals (arrivals handler transport) = [] := by
  refine List.filterMap_eq_nil_iff.mpr fun effect heffect ↦ ?_
  have harrives := List.of_mem_filter heffect
  rw [hdeaf] at harrives
  cases effect with
  | message envelope synthetic => cases harrives
  | _ => rfl

/-- A function that leaves a transport dormant keeps the invariant. -/
theorem Budgeted.dormantAct {run : TransportRun} (hbudgeted : run.Budgeted)
    (hgaveUp : run.transport.failed = true) {handler : Transport → Transport} (awaited : List ℕ)
    (hfailed : (handler run.transport).failed = true) (hdormant : Dormant (handler run.transport))
    (htimes : (handler run.transport).failureTimestamps = run.transport.failureTimestamps)
    (hhears : (handler run.transport).listening = !(handler run.transport).closed)
    (hsilent : ∀ effect ∈ (handler run.transport).outbox, effect.Silent) :
    ({ run with awaited := awaited }.act handler).Budgeted := by
  obtain ⟨-, hnone, hexhausted⟩ := hbudgeted.dormant hgaveUp
  have hrequests : ({ run with awaited := awaited }.act handler).requests = [] := by
    have hlocked : (arrivals handler run.transport).filterMap TransportEffect.lockRequest = [] :=
      List.filterMap_eq_nil_iff.mpr fun effect heffect ↦
        lockRequest_of_silent (hsilent effect (List.mem_of_mem_filter heffect))
    refine (requests_act { run with awaited := awaited } handler).trans ?_
    show run.requests ++ (arrivals handler run.transport).filterMap _ = []
    rw [hnone, hlocked]
    rfl
  have hspent : ({ run with awaited := awaited }.act handler).transport.failed ≠ false := by
    show (handler run.transport).failed ≠ false
    rw [hfailed]
    exact Bool.true_eq_false_eq_False
  refine ⟨rfl, hhears, ?_, ?_, hbudgeted.sorted, hbudgeted.past, ?_,
    fun hworks ↦ absurd hworks hspent,
    fun hworks ↦ absurd hworks hspent, fun hworks ↦ absurd hworks hspent, fun _ ↦ ?_⟩
  · intro writer hsome
    have habsurd : (handler run.transport).writer = some writer := hsome
    rw [hdormant.writer] at habsurd
    cases habsurd
  · rw [hrequests]
    exact Nat.zero_le 1
  · show Purged _ run.clock run.failures (handler run.transport).failureTimestamps
    rw [htimes]
    exact hbudgeted.purged
  · exact ⟨hdormant.emptied, hrequests, hexhausted⟩

/-- What a step does when the transport has given up: it calls no factory and posts nothing. As long
as the transport is open, what is posted waits at the end of the queue, and what is refused is taken
from its front. A transport that is closed stays closed, and refuses nothing. -/
structure Rests (run : TransportRun) (event : TransportEvent) (next : TransportRun) : Prop where
  budgeted : next.Budgeted
  failed : next.transport.failed = true
  factoryCalls : next.factoryCalls = run.factoryCalls
  silent : ∀ effect ∈ since run next, effect.Silent
  queued : next.transport.closed = false → refusals (since run next) ++ next.transport.microtasks =
    run.transport.microtasks ++ event.postedId.toList
  closed : run.transport.closed = true →
    next.transport.closed = true ∧ refusals (since run next) = []

/-- A step that changes nothing but the readiness, the controller and the queue of the
microtasks. -/
theorem Budgeted.restsQueue {run : TransportRun} (hbudgeted : run.Budgeted)
    (hgaveUp : run.transport.failed = true) {event : TransportEvent} (awaited : List ℕ)
    {handler : Transport → Transport} {ready : Readiness} {abort : Option ℕ} {queue : List ℕ}
    {effects : List TransportEffect}
    (hhandler : handler run.transport = { run.transport with
      whenReady := ready
      lockAbort := abort
      microtasks := queue
      outbox := effects })
    (hsilent : ∀ effect ∈ effects, effect.Silent)
    (hqueued : run.transport.closed = false →
      refusals effects ++ queue = run.transport.microtasks ++ event.postedId.toList) :
    Rests run event ({ run with awaited := awaited }.act handler) := by
  obtain ⟨hdormant, -, -⟩ := hbudgeted.dormant hgaveUp
  have hsince : since run ({ run with awaited := awaited }.act handler) =
      arrivals handler run.transport := since_act { run with awaited := awaited } handler
  have houtbox : (handler run.transport).outbox = effects := by rw [hhandler]
  have hclosed : (handler run.transport).closed = run.transport.closed := by rw [hhandler]
  have hlistening : (handler run.transport).listening = run.transport.listening := by rw [hhandler]
  have hfailed : (handler run.transport).failed = true := by
    rw [hhandler]
    exact hgaveUp
  refine ⟨?_, hfailed, rfl, ?_, ?_, ?_⟩
  · refine hbudgeted.dormantAct hgaveUp awaited hfailed ?_ ?_ ?_ ?_
    · rw [hhandler]
      exact ⟨hdormant.inFlight, hdormant.pairChannel, hdormant.pendingPair, hdormant.discovering,
        hdormant.bridges, hdormant.writer⟩
    · rw [hhandler]
    · rw [hlistening, hclosed]
      exact hbudgeted.hears
    · rw [houtbox]
      exact hsilent
  · intro effect heffect
    rw [hsince] at heffect
    exact hsilent effect (houtbox ▸ List.mem_of_mem_filter heffect)
  · intro hstillOpen
    have hopen : run.transport.closed = false := hclosed.symm.trans hstillOpen
    rw [hsince, arrivals_eq (hlistening.trans (hbudgeted.listens hopen)), houtbox]
    show refusals effects ++ (handler run.transport).microtasks = _
    rw [hhandler]
    exact hqueued hopen
  · intro hshut
    refine ⟨hclosed.trans hshut, ?_⟩
    rw [hsince]
    refine refusals_arrivals (hlistening.trans ?_)
    rw [hbudgeted.hears, hshut]
    rfl

/-- A step that changes nothing. -/
theorem Budgeted.restsUnchanged {run : TransportRun} (hbudgeted : run.Budgeted)
    (hgaveUp : run.transport.failed = true) {event : TransportEvent} (awaited : List ℕ)
    (hposted : run.transport.closed = false → event.postedId = none)
    {handler : Transport → Transport} (hhandler : handler run.transport = run.transport) :
    Rests run event ({ run with awaited := awaited }.act handler) := by
  have hsame : handler run.transport = { run.transport with
      whenReady := run.transport.whenReady
      lockAbort := run.transport.lockAbort
      microtasks := run.transport.microtasks
      outbox := [] } := by
    rw [hhandler, ← hbudgeted.sent]
  refine hbudgeted.restsQueue hgaveUp awaited hsame (List.forall_mem_nil _) fun hopen ↦ ?_
  rw [hposted hopen]
  exact (List.append_nil _).symm

/-- What is posted on an open transport that gave up waits for its microtask. -/
theorem Budgeted.restsDeferred {run : TransportRun} (hbudgeted : run.Budgeted)
    (hgaveUp : run.transport.failed = true) (hopen : run.transport.closed = false)
    (data : PageMessage) :
    Rests run (.post data) ({ run with awaited := run.awaited ++ data.id.toList }.act
      fun transport ↦ transport.postMessage data) := by
  have hhandler : run.transport.postMessage data = { run.transport with
      whenReady := run.transport.whenReady
      lockAbort := run.transport.lockAbort
      microtasks := run.transport.microtasks ++ data.id.toList
      outbox := [] } := by
    rcases Transport.postMessage_cases run.transport data with
      ⟨hclosed, -⟩ | ⟨-, -, hdeferred⟩ | ⟨-, hworks, -⟩
    · exact absurd (hopen.symm.trans hclosed) Bool.false_ne_true
    · rw [hdeferred, Transport.deferred, ← hbudgeted.sent]
    · exact absurd (hworks.symm.trans hgaveUp) Bool.false_ne_true
  exact hbudgeted.restsQueue hgaveUp _ hhandler (List.forall_mem_nil _) fun _ ↦ rfl

/-- A microtask refuses the request that has waited longest. -/
theorem Budgeted.restsRefused {run : TransportRun} (hbudgeted : run.Budgeted)
    (hgaveUp : run.transport.failed = true) {id : ℕ} {rest : List ℕ}
    (hqueued : run.transport.microtasks = id :: rest) :
    Rests run .microtask (run.act Transport.runMicrotask) := by
  have hhandler : run.transport.runMicrotask = { run.transport with
      whenReady := run.transport.whenReady
      lockAbort := run.transport.lockAbort
      microtasks := rest
      outbox := [.message ⟨id, .error Transport.failMessage⟩ true] } := by
    rw [Transport.runMicrotask, hqueued]
    show ({ run.transport with microtasks := rest } : Transport).emit _ = _
    rw [Transport.emit, hbudgeted.sent]
    rfl
  refine hbudgeted.restsQueue hgaveUp run.awaited hhandler ?_ fun _ ↦ ?_
  · intro effect heffect
    rw [List.mem_singleton.mp heffect]
    trivial
  · rw [hqueued]
    simp [refusals, TransportEffect.refusedId, TransportEvent.postedId]

/-- Closing an open transport that gave up. -/
theorem Budgeted.restsShut {run : TransportRun} (hbudgeted : run.Budgeted)
    (hgaveUp : run.transport.failed = true) (hopen : run.transport.closed = false) :
    Rests run .close (run.act Transport.close) := by
  obtain ⟨hdormant, -, -⟩ := hbudgeted.dormant hgaveUp
  have hhandler : run.transport.close = run.transport.shut := Transport.close_eq hopen
  have hsilent : ∀ effect ∈ run.transport.close.outbox, effect.Silent := by
    intro effect heffect
    simp only [hhandler, Transport.shut, hbudgeted.sent, Transport.releases, hdormant.writer,
      Option.toList_none, List.map_nil, List.nil_append] at heffect
    rcases List.mem_append.mp heffect with habort | hsettle
    · obtain ⟨request, -, rfl⟩ := List.mem_map.mp habort
      trivial
    · obtain ⟨grant, -, rfl⟩ := List.mem_map.mp hsettle
      trivial
  have hfailed : run.transport.close.failed = true := by
    rw [hhandler]
    exact hgaveUp
  refine ⟨?_, hfailed, rfl, ?_, ?_, ?_⟩
  · refine hbudgeted.dormantAct hgaveUp run.awaited hfailed ?_ ?_ ?_ hsilent
    · rw [hhandler]
      exact ⟨rfl, rfl, rfl, rfl, rfl, rfl⟩
    · rw [hhandler]
      rfl
    · rw [hhandler]
      rfl
  · intro effect heffect
    rw [since_act] at heffect
    exact hsilent effect (List.mem_of_mem_filter heffect)
  · intro hstillOpen
    exact absurd (hstillOpen.symm.trans run.transport.closed_close) Bool.false_ne_true
  · intro hclosed
    exact absurd (hopen.symm.trans hclosed) Bool.false_ne_true

/-- Every step of a transport that gave up. -/
theorem Budgeted.rests {run next : TransportRun} {event : TransportEvent}
    (hbudgeted : run.Budgeted) (hgaveUp : run.transport.failed = true)
    (hstep : automaton.step run event = some next) : Rests run event next := by
  obtain ⟨hdormant, hnone, -⟩ := hbudgeted.dormant hgaveUp
  change step run event = some next at hstep
  cases event with
  | discovery message => simp [step, hdormant.discovering] at hstep
  | pairMessage envelope synthetic => simp [step, hdormant.pairChannel] at hstep
  | retry => simp [step, hdormant.pendingPair] at hstep
  | grant request factory => simp [step, hnone] at hstep
  | rejectRequest request message => simp [step, hnone] at hstep
  | writerReply data => simp [step, hdormant.writer] at hstep
  | writerError elapsed => simp [step, hdormant.writer] at hstep
  | bridgeMessage clientId object data =>
    obtain rfl := Option.some.inj hstep
    refine hbudgeted.restsUnchanged hgaveUp run.awaited (fun _ ↦ rfl) ?_
    unfold Transport.onBridgeMessage
    rw [hdormant.bridges, OrderedMap.get?_empty]
  | lockSettled request outcome =>
    obtain rfl := Option.some.inj hstep
    obtain ⟨ready, abort, hquiet | hrejected⟩ :=
      Transport.onLockSettled_cases run.transport request outcome
    · have hidle : run.transport.onLockSettled request outcome = { run.transport with
          whenReady := ready
          lockAbort := abort
          microtasks := run.transport.microtasks
          outbox := [] } := by
        rw [hquiet, ← hbudgeted.sent]
      exact hbudgeted.restsQueue hgaveUp run.awaited hidle (List.forall_mem_nil _)
        fun _ ↦ (List.append_nil _).symm
    · rw [hbudgeted.sent, List.nil_append] at hrejected
      have herror : run.transport.onLockSettled request outcome = { run.transport with
          whenReady := ready
          lockAbort := abort
          microtasks := run.transport.microtasks
          outbox := [.error] } := hrejected
      refine hbudgeted.restsQueue hgaveUp run.awaited herror (fun effect heffect ↦ ?_)
        fun _ ↦ (List.append_nil _).symm
      rw [List.mem_singleton.mp heffect]
      trivial
  | post data =>
    obtain rfl := Option.some.inj hstep
    by_cases hclosed : run.transport.closed = true
    · refine hbudgeted.restsUnchanged hgaveUp _ ?_ ?_
      · intro hopen
        exact absurd (hopen.symm.trans hclosed) Bool.false_ne_true
      · show run.transport.postMessage data = run.transport
        rw [Transport.postMessage, if_pos hclosed]
    · rw [if_neg hclosed]
      exact hbudgeted.restsDeferred hgaveUp (by simpa using hclosed) data
  | microtask =>
    obtain ⟨hqueued, ⟨⟩⟩ := Option.ite_none_left_eq_some.mp hstep
    obtain ⟨id, rest, hqueue⟩ := List.exists_cons_of_ne_nil hqueued
    exact hbudgeted.restsRefused hgaveUp hqueue
  | close =>
    obtain rfl := Option.some.inj hstep
    by_cases hclosed : run.transport.closed = true
    · exact hbudgeted.restsUnchanged hgaveUp run.awaited (fun _ ↦ rfl)
        (Transport.close_closed hclosed)
    · exact hbudgeted.restsShut hgaveUp (by simpa using hclosed)

/-! ### A transport that works -/

/-- A granted lock makes a leader, or not. -/
theorem Budgeted.granted {run : TransportRun} (hbudgeted : run.Budgeted) {request : ℕ}
    (hrequest : request ∈ run.requests) (factoryCalls : ℕ) (factory : Except String Unit) :
    ({ run with
      requests := run.requests.erase request
      grants := run.grants + 1
      factoryCalls := factoryCalls }.act fun transport ↦
        transport.onLockGranted run.grants factory).Budgeted := by
  obtain ⟨htaken, hnone, hwriter, hworks⟩ := hbudgeted.take hrequest (run.grants + 1) factoryCalls
  rcases Transport.onLockGranted_cases run.transport run.grants factory with
    ⟨-, hdeclined⟩ | ⟨hopen, -, hpromoted⟩ | ⟨message, hopen, -, hunpromoted⟩
  · refine htaken.plain hworks ?_
    show Transport.Plain run.transport (run.transport.onLockGranted run.grants factory)
    rw [hdeclined]
    exact run.transport.plain_emit (Transport.quiet_singleton ⟨rfl, rfl⟩)
  · refine htaken.steady hworks ?_ ?_
    · show Transport.Steady run.transport (run.transport.onLockGranted run.grants factory)
      rw [hpromoted]
      exact run.transport.steady_promoted run.grants
    · intro writer hsome
      change (run.transport.onLockGranted run.grants factory).writer = some writer at hsome
      show run.transport.closed = false ∧
        (run.transport.onLockGranted run.grants factory).leaderId = some writer ∧
        (run.transport.onLockGranted run.grants factory).writerErrorListener = some writer ∧
        run.requests.erase request = []
      rw [hpromoted] at hsome ⊢
      exact ⟨hopen, hsome, hsome, hnone⟩
  · refine htaken.steady hworks ?_ ?_
    · show Transport.Steady run.transport (run.transport.onLockGranted run.grants factory)
      rw [hunpromoted]
      exact run.transport.steady_unpromoted run.grants message
    · intro writer hsome
      change (run.transport.onLockGranted run.grants factory).writer = some writer at hsome
      rw [hunpromoted] at hsome
      cases hwriter.symm.trans hsome

/-- An answer that arrives is not awaited any more. -/
theorem Budgeted.received {run : TransportRun} (hbudgeted : run.Budgeted)
    (hworks : run.transport.failed = false) (envelope : ServerEnvelope) (synthetic : Bool) :
    (run.act fun transport ↦ transport.onPairMessage envelope synthetic).Budgeted := by
  have houtbox : (run.transport.onPairMessage envelope synthetic).outbox =
      [.message envelope synthetic] := by
    rw [Transport.onPairMessage, Transport.emit, hbudgeted.sent]
    rfl
  have hrequests : (run.act fun transport ↦
      transport.onPairMessage envelope synthetic).requests = run.requests := by
    rw [requests_act, List.filterMap_eq_nil_iff.mpr, List.append_nil]
    intro effect heffect
    have hmem := List.mem_of_mem_filter heffect
    rw [houtbox] at hmem
    rw [List.mem_singleton.mp hmem]
    rfl
  refine ⟨rfl, hbudgeted.hears, ?_, ?_, hbudgeted.sorted, hbudgeted.past, hbudgeted.purged, ?_,
    hbudgeted.unrefused, hbudgeted.works,
    fun hgaveUp ↦ absurd (hworks.symm.trans hgaveUp) Bool.false_ne_true⟩
  · intro writer hwriter
    obtain ⟨hopen, -, hleader, hlistener, hnone⟩ := hbudgeted.leads writer hwriter
    exact ⟨hopen, hworks, hleader, hlistener, hrequests.trans hnone⟩
  · rw [hrequests]
    exact hbudgeted.single
  · intro _ hopen id
    have hlistening : run.transport.listening = true := hbudgeted.listens hopen
    have harrivals : arrivals (fun transport ↦ transport.onPairMessage envelope synthetic)
        run.transport = [.message envelope synthetic] := by
      rw [arrivals, houtbox]
      exact List.filter_cons_of_pos hlistening
    rw [awaited_act, harrivals]
    show _ ↔ id ∈ (run.transport.inFlight.erase envelope.id).keys
    rw [List.mem_filter, OrderedMap.mem_keys_erase, hbudgeted.awaits hworks hopen id, and_comm]
    simp [TransportEffect.answeredId]

/-- A post on a transport that works is awaited and in flight. -/
theorem Budgeted.posted {run : TransportRun} (hbudgeted : run.Budgeted)
    (hworks : run.transport.failed = false) (hopen : run.transport.closed = false)
    (data : PageMessage) :
    ({ run with awaited := run.awaited ++ data.id.toList }.act fun transport ↦
      transport.postMessage data).Budgeted := by
  have hposted := Transport.postMessage_eq hopen hworks data
  have hquiet : ∀ effect ∈ (run.transport.postMessage data).outbox,
      effect ∈ run.transport.outbox ∨ Transport.Quiet effect := by
    rw [hposted]
    intro effect heffect
    refine (List.mem_append.mp heffect).imp_right fun hpost ↦ ?_
    obtain ⟨channel, -, rfl⟩ := List.mem_map.mp hpost
    exact ⟨rfl, rfl⟩
  obtain ⟨hrequests, hawaited⟩ :=
    @act_of_quiet { run with awaited := run.awaited ++ data.id.toList } hbudgeted.sent
      (fun transport ↦ transport.postMessage data) hquiet
  have hfailed : (run.transport.postMessage data).failed = false := by
    rw [hposted]
    exact hworks
  refine ⟨rfl, ?_, ?_, ?_, hbudgeted.sorted, hbudgeted.past, ?_, ?_, ?_,
    fun _ ↦ hbudgeted.works hworks,
    fun hgaveUp ↦ absurd (hfailed.symm.trans hgaveUp) Bool.false_ne_true⟩
  · show (run.transport.postMessage data).listening = !(run.transport.postMessage data).closed
    rw [hposted]
    exact hbudgeted.hears
  · intro writer hwriter
    change (run.transport.postMessage data).writer = some writer at hwriter
    rw [hposted] at hwriter
    obtain ⟨-, -, hleader, hlistener, hnone⟩ := hbudgeted.leads writer hwriter
    refine ⟨?_, hfailed, ?_, ?_, hrequests.trans hnone⟩
    · show (run.transport.postMessage data).closed = false
      rw [hposted]
      exact hopen
    · show (run.transport.postMessage data).leaderId = some writer
      rw [hposted]
      exact hleader
    · show (run.transport.postMessage data).writerErrorListener = some writer
      rw [hposted]
      exact hlistener
  · rw [hrequests]
    exact hbudgeted.single
  · show Purged _ run.clock run.failures (run.transport.postMessage data).failureTimestamps
    rw [hposted]
    exact hbudgeted.purged
  · intro _ _ id
    rw [hawaited]
    show id ∈ run.awaited ++ data.id.toList ↔ id ∈ (run.transport.postMessage data).inFlight.keys
    rw [hposted]
    show _ ↔ id ∈ (run.transport.tracked data).keys
    rw [List.mem_append, Transport.mem_keys_tracked, hbudgeted.awaits hworks hopen id,
      Option.mem_toList]
  · intro _
    show (run.transport.postMessage data).microtasks = []
    rw [hposted]
    exact hbudgeted.unrefused hworks

/-- Closing a transport that works. -/
theorem Budgeted.shut {run : TransportRun} (hbudgeted : run.Budgeted)
    (hworks : run.transport.failed = false) (hopen : run.transport.closed = false) :
    (run.act Transport.close).Budgeted := by
  have hshut : run.transport.close = run.transport.shut := Transport.close_eq hopen
  have hquiet : ∀ effect ∈ run.transport.close.outbox,
      effect ∈ run.transport.outbox ∨ Transport.Quiet effect := by
    rw [hshut]
    exact run.transport.quiet_shut
  obtain ⟨hrequests, -⟩ := act_of_quiet hbudgeted.sent hquiet
  have hclosed : (run.act Transport.close).transport.closed = true := run.transport.closed_close
  have hfailed : run.transport.close.failed = false := by
    rw [hshut]
    exact hworks
  refine ⟨rfl, ?_, ?_, ?_, hbudgeted.sorted, hbudgeted.past, ?_, ?_, ?_,
    fun _ ↦ hbudgeted.works hworks,
    fun hgaveUp ↦ absurd (hfailed.symm.trans hgaveUp) Bool.false_ne_true⟩
  · show run.transport.close.listening = !run.transport.close.closed
    rw [hshut]
    rfl
  · intro writer hwriter
    change run.transport.close.writer = some writer at hwriter
    rw [hshut] at hwriter
    cases hwriter
  · rw [hrequests]
    exact hbudgeted.single
  · show Purged _ run.clock run.failures run.transport.close.failureTimestamps
    rw [hshut]
    exact hbudgeted.purged
  · exact fun _ hstillOpen ↦ absurd (hstillOpen.symm.trans hclosed) Bool.false_ne_true
  · intro _
    show run.transport.close.microtasks = []
    rw [hshut]
    exact hbudgeted.unrefused hworks

/-! ### A writer that fails -/

/-- Two restarts that are too close exhaust the budget: a failing writer makes the transport give up
when it is the third within the window, and request the lock again otherwise. -/
theorem Budgeted.failing {run : TransportRun} (hbudgeted : run.Budgeted) {writer : ℕ}
    (hwriter : run.transport.writer = some writer) {now : ℕ} (hnow : run.clock ≤ now) :
    ∃ times, Purged Transport.restartWindowMs now (run.failures ++ [now]) times ∧
      (TwoRecent run.failures now ∧ run.transport.onWriterError now =
          (run.transport.crashed writer "storage writer error").abandoned times ∨
        ¬ TwoRecent run.failures now ∧ run.transport.onWriterError now =
          (run.transport.crashed writer "storage writer error").requested times) := by
  obtain ⟨hopen, -, hleader, hlistener, -⟩ := hbudgeted.leads writer hwriter
  have hpurged := hbudgeted.purged.mono hnow
  have hpast : ∀ time ∈ run.failures, time ≤ now :=
    fun time htime ↦ (hbudgeted.past time htime).trans hnow
  have hcount := hpurged.length_purge hbudgeted.sorted
  have herror : run.transport.onWriterError now =
      (run.transport.crashed writer "storage writer error").restartLockRequest now := by
    rw [Transport.onWriterError, hlistener]
    exact Transport.handleWriterFailure_eq hopen hleader _ now
  rw [Transport.restartLockRequest_eq
    (show (run.transport.crashed writer _).closed = false from hopen)] at herror
  change run.transport.onWriterError now =
    if Transport.maxFailures ≤
        (purge Transport.restartWindowMs now run.transport.failureTimestamps).length + 1
      then _ else _ at herror
  rw [hcount] at herror
  refine ⟨_, hpurged.push, ?_⟩
  by_cases hrecent : TwoRecent run.failures now
  · left
    rw [if_pos ((twoRecent_iff hpast).mp hrecent)] at herror
    exact ⟨hrecent, herror⟩
  · right
    rw [if_neg fun hmany ↦ hrecent ((twoRecent_iff hpast).mpr hmany)] at herror
    exact ⟨hrecent, herror⟩

/-- A history of failures stays sorted when the last failure is added. -/
theorem Budgeted.sorted_concat {run : TransportRun} (hbudgeted : run.Budgeted) {now : ℕ}
    (hnow : run.clock ≤ now) : (run.failures ++ [now]).Pairwise (· ≤ ·) := by
  refine List.pairwise_append.mpr ⟨hbudgeted.sorted, List.pairwise_singleton _ _, ?_⟩
  intro time htime last hlast
  rw [List.mem_singleton.mp hlast]
  exact (hbudgeted.past time htime).trans hnow

/-- No failure lies after the last one. -/
theorem Budgeted.past_concat {run : TransportRun} (hbudgeted : run.Budgeted) {now : ℕ}
    (hnow : run.clock ≤ now) : ∀ time ∈ run.failures ++ [now], time ≤ now := by
  intro time htime
  rcases List.mem_append.mp htime with hearlier | hlast
  · exact (hbudgeted.past time hearlier).trans hnow
  · exact (List.mem_singleton.mp hlast).le

/-- A restart within the budget keeps the invariant. -/
theorem Budgeted.restarted {run : TransportRun} (hbudgeted : run.Budgeted) {writer now : ℕ}
    (hwriter : run.transport.writer = some writer) (hnow : run.clock ≤ now) {times : List ℕ}
    (hpurged : Purged Transport.restartWindowMs now (run.failures ++ [now]) times)
    (hbudget : ¬ TwoRecent run.failures now)
    (herror : run.transport.onWriterError now =
      (run.transport.crashed writer "storage writer error").requested times) :
    ({ run with
      clock := now
      failures := run.failures ++ [now] }.act
        fun transport ↦ transport.onWriterError now).Budgeted := by
  obtain ⟨hopen, hworks, -, -, hnone⟩ := hbudgeted.leads writer hwriter
  have hlistening : (run.transport.onWriterError now).listening = true := by
    rw [herror]
    exact hbudgeted.listens hopen
  have hquiet : ∀ effect ∈ (run.transport.crashed writer "storage writer error").outbox,
      Transport.Quiet effect := by
    intro effect heffect
    refine (run.transport.quiet_crashed writer _ effect heffect).resolve_left ?_
    rw [hbudgeted.sent]
    exact List.not_mem_nil
  have harrivals : arrivals (fun transport ↦ transport.onWriterError now) run.transport =
      (run.transport.crashed writer "storage writer error").outbox ++
        [.requestLock run.transport.nextRequest] := by
    rw [arrivals_eq hlistening]
    show (run.transport.onWriterError now).outbox = _
    rw [herror]
    rfl
  have hrequests : run.requests ++ (arrivals (fun transport ↦ transport.onWriterError now)
      run.transport).filterMap TransportEffect.lockRequest = [run.transport.nextRequest] := by
    rw [harrivals, List.filterMap_append,
      List.filterMap_eq_nil_iff.mpr fun effect heffect ↦ (hquiet effect heffect).1, hnone]
    rfl
  have hanswers : (arrivals (fun transport ↦ transport.onWriterError now)
      run.transport).filterMap TransportEffect.answeredId = [] := by
    rw [harrivals, List.filterMap_append,
      List.filterMap_eq_nil_iff.mpr fun effect heffect ↦ (hquiet effect heffect).2]
    rfl
  have hfailed : (run.transport.onWriterError now).failed = false := by
    rw [herror]
    exact hworks
  refine ⟨rfl, ?_, ?_, ?_, hbudgeted.sorted_concat hnow, hbudgeted.past_concat hnow, ?_, ?_, ?_,
    ?_, ?_⟩
  · show (run.transport.onWriterError now).listening = !(run.transport.onWriterError now).closed
    rw [herror]
    exact hbudgeted.hears
  · intro successor hsuccessor
    change (run.transport.onWriterError now).writer = some successor at hsuccessor
    rw [herror] at hsuccessor
    cases hsuccessor
  · show (run.requests ++ (arrivals (fun transport ↦ transport.onWriterError now)
      run.transport).filterMap TransportEffect.lockRequest).length ≤ 1
    rw [hrequests]
    exact Nat.le_refl 1
  · show Purged _ now _ (run.transport.onWriterError now).failureTimestamps
    rw [herror]
    exact hpurged
  · intro _ _ id
    rw [awaited_act]
    show id ∈ run.awaited.filter (fun id ↦ id ∉ (arrivals (fun transport ↦
        transport.onWriterError now) run.transport).filterMap TransportEffect.answeredId) ↔
      id ∈ (run.transport.onWriterError now).inFlight.keys
    rw [hanswers, herror]
    show _ ↔ id ∈ run.transport.inFlight.keys
    rw [← hbudgeted.awaits hworks hopen id, List.mem_filter]
    simp
  · intro _
    show (run.transport.onWriterError now).microtasks = []
    rw [herror]
    exact hbudgeted.unrefused hworks
  · intro _
    show ¬ Exhausted (run.failures ++ [now])
    rw [exhausted_concat_iff]
    exact not_or.mpr ⟨hbudgeted.works hworks, hbudget⟩
  · exact fun hgaveUp ↦ absurd (hfailed.symm.trans hgaveUp) Bool.false_ne_true

/-- What the transport that gives up refuses: exactly what is in flight, each request once. -/
theorem Budgeted.refused {run : TransportRun} (hbudgeted : run.Budgeted) {writer now : ℕ}
    (hwriter : run.transport.writer = some writer) {times : List ℕ}
    (herror : run.transport.onWriterError now =
      (run.transport.crashed writer "storage writer error").abandoned times) :
    (arrivals (fun transport ↦ transport.onWriterError now) run.transport).filterMap
        TransportEffect.lockRequest = [] ∧
      refusals (arrivals (fun transport ↦ transport.onWriterError now) run.transport) =
        run.transport.inFlight.keys := by
  obtain ⟨hopen, -, -, -, -⟩ := hbudgeted.leads writer hwriter
  have hquiet : ∀ effect ∈ (run.transport.crashed writer "storage writer error").outbox,
      Transport.Quiet effect := by
    intro effect heffect
    refine (run.transport.quiet_crashed writer _ effect heffect).resolve_left ?_
    rw [hbudgeted.sent]
    exact List.not_mem_nil
  have hlistening : (run.transport.onWriterError now).listening = true := by
    rw [herror]
    exact hbudgeted.listens hopen
  have harrivals : arrivals (fun transport ↦ transport.onWriterError now) run.transport =
      (run.transport.crashed writer "storage writer error").outbox ++
        ((run.transport.inFlight.keys.map fun id ↦
          .message ⟨id, .error Transport.failMessage⟩ true) ++ [.error]) := by
    rw [arrivals_eq hlistening]
    show (run.transport.onWriterError now).outbox = _
    rw [herror]
    rfl
  have hall : ∀ (observe : TransportEffect → Option ℕ), observe .error = none →
      (∀ effect, Transport.Quiet effect → observe effect = none) →
      (arrivals (fun transport ↦ transport.onWriterError now) run.transport).filterMap observe =
        run.transport.inFlight.keys.filterMap fun id ↦
          observe (.message ⟨id, .error Transport.failMessage⟩ true) := by
    intro observe herror hsilent
    rw [harrivals, List.filterMap_append, List.filterMap_append, List.filterMap_map,
      List.filterMap_eq_nil_iff.mpr fun effect heffect ↦ hsilent effect (hquiet effect heffect),
      List.nil_append, List.filterMap_cons_none herror, List.filterMap_nil, List.append_nil]
    rfl
  constructor
  · rw [hall _ rfl fun effect hsilent ↦ hsilent.1]
    exact List.filterMap_eq_nil_iff.mpr fun _ _ ↦ rfl
  · rw [refusals, hall _ rfl fun effect ↦ refusedId_of_quiet]
    simp [TransportEffect.refusedId]

/-- Giving up leaves the transport dormant. -/
theorem Budgeted.gaveUp {run : TransportRun} (hbudgeted : run.Budgeted) {writer now : ℕ}
    (hwriter : run.transport.writer = some writer) (hnow : run.clock ≤ now) {times : List ℕ}
    (hpurged : Purged Transport.restartWindowMs now (run.failures ++ [now]) times)
    (hexhausted : TwoRecent run.failures now)
    (herror : run.transport.onWriterError now =
      (run.transport.crashed writer "storage writer error").abandoned times) :
    ({ run with
      clock := now
      failures := run.failures ++ [now] }.act
        fun transport ↦ transport.onWriterError now).Budgeted := by
  obtain ⟨-, hworks, -, -, hnone⟩ := hbudgeted.leads writer hwriter
  obtain ⟨hlocks, -⟩ := hbudgeted.refused hwriter herror
  have hrequests : run.requests ++ (arrivals (fun transport ↦ transport.onWriterError now)
      run.transport).filterMap TransportEffect.lockRequest = [] := by
    rw [hlocks, hnone]
    rfl
  have hspent : (run.transport.onWriterError now).failed ≠ false := by
    rw [herror]
    exact Bool.true_eq_false_eq_False
  refine ⟨rfl, ?_, ?_, ?_, hbudgeted.sorted_concat hnow, hbudgeted.past_concat hnow, ?_,
    fun hstillWorks ↦ absurd hstillWorks hspent, fun hstillWorks ↦ absurd hstillWorks hspent,
    fun hstillWorks ↦ absurd hstillWorks hspent, fun _ ↦ ?_⟩
  · show (run.transport.onWriterError now).listening = !(run.transport.onWriterError now).closed
    rw [herror]
    exact hbudgeted.hears
  · intro successor hsuccessor
    change (run.transport.onWriterError now).writer = some successor at hsuccessor
    rw [herror] at hsuccessor
    cases hsuccessor
  · show (run.requests ++ (arrivals (fun transport ↦ transport.onWriterError now)
      run.transport).filterMap TransportEffect.lockRequest).length ≤ 1
    rw [hrequests]
    exact Nat.zero_le 1
  · show Purged _ now _ (run.transport.onWriterError now).failureTimestamps
    rw [herror]
    exact hpurged
  · have hdormant : Dormant (run.transport.onWriterError now) := by
      rw [herror]
      exact ⟨rfl, rfl, rfl, rfl, rfl, rfl⟩
    exact ⟨hdormant.emptied, hrequests, run.failures, now, rfl, hexhausted,
      hbudgeted.works hworks⟩

/-! ### Runs -/

/-- Every step keeps the invariant. -/
theorem Budgeted.step {run next : TransportRun} {event : TransportEvent}
    (hbudgeted : run.Budgeted) (hstep : automaton.step run event = some next) : next.Budgeted := by
  by_cases hgaveUp : run.transport.failed = true
  · exact (hbudgeted.rests hgaveUp hstep).budgeted
  have hworks : run.transport.failed = false := by simpa using hgaveUp
  change TransportRun.step run event = some next at hstep
  cases event with
  | discovery message =>
    obtain ⟨-, ⟨⟩⟩ := Option.ite_none_right_eq_some.mp hstep
    exact hbudgeted.plain hworks (run.transport.plain_onDiscoveryMessage message)
  | pairMessage envelope synthetic =>
    obtain ⟨-, ⟨⟩⟩ := Option.ite_none_right_eq_some.mp hstep
    exact hbudgeted.received hworks envelope synthetic
  | bridgeMessage clientId object data =>
    obtain rfl := Option.some.inj hstep
    exact hbudgeted.plain hworks (run.transport.plain_onBridgeMessage clientId object data)
  | retry =>
    obtain ⟨-, ⟨⟩⟩ := Option.ite_none_right_eq_some.mp hstep
    exact hbudgeted.plain hworks run.transport.plain_onPairAckTimeout
  | grant request factory =>
    obtain ⟨hrequest, ⟨⟩⟩ := Option.ite_none_right_eq_some.mp hstep
    exact hbudgeted.granted hrequest _ factory
  | rejectRequest request message =>
    obtain ⟨hrequest, ⟨⟩⟩ := Option.ite_none_right_eq_some.mp hstep
    obtain ⟨htaken, -⟩ := hbudgeted.take hrequest run.grants run.factoryCalls
    exact htaken.plain hworks (run.transport.plain_onLockSettled request _)
  | lockSettled request outcome =>
    obtain rfl := Option.some.inj hstep
    exact hbudgeted.plain hworks (run.transport.plain_onLockSettled request outcome)
  | writerReply data =>
    obtain ⟨-, ⟨⟩⟩ := Option.ite_none_right_eq_some.mp hstep
    exact hbudgeted.plain hworks (run.transport.plain_onWriterMessage data)
  | writerError elapsed =>
    obtain ⟨hsome, ⟨⟩⟩ := Option.ite_none_right_eq_some.mp hstep
    obtain ⟨writer, hwriter⟩ := Option.isSome_iff_exists.mp hsome
    have hnow : run.clock ≤ run.clock + elapsed := Nat.le_add_right _ _
    obtain ⟨times, hpurged, ⟨hexhausted, herror⟩ | ⟨hbudget, herror⟩⟩ :=
      hbudgeted.failing hwriter hnow
    · exact hbudgeted.gaveUp hwriter hnow hpurged hexhausted herror
    · exact hbudgeted.restarted hwriter hnow hpurged hbudget herror
  | post data =>
    obtain rfl := Option.some.inj hstep
    by_cases hclosed : run.transport.closed = true
    · rw [if_pos hclosed]
      refine hbudgeted.plain hworks ?_
      show Transport.Plain run.transport (run.transport.postMessage data)
      rw [Transport.postMessage, if_pos hclosed]
      exact .refl _
    · rw [if_neg hclosed]
      exact hbudgeted.posted hworks (by simpa using hclosed) data
  | microtask =>
    obtain ⟨hqueued, -⟩ := Option.ite_none_left_eq_some.mp hstep
    exact absurd (hbudgeted.unrefused hworks) hqueued
  | close =>
    obtain rfl := Option.some.inj hstep
    by_cases hclosed : run.transport.closed = true
    · refine hbudgeted.plain hworks ?_
      rw [Transport.close_closed hclosed]
      exact .refl _
    · exact hbudgeted.shut hworks (by simpa using hclosed)

/-- The invariant holds of a new transport. -/
theorem budgeted_start (clientId clock : ℕ) : (start clientId clock).Budgeted where
  sent := rfl
  hears := rfl
  leads := nofun
  single := Nat.le_refl 1
  sorted := List.Pairwise.nil
  past := nofun
  purged := purged_nil
  awaits := fun _ _ _ ↦ Iff.rfl
  unrefused := fun _ ↦ rfl
  works := fun _ ↦ not_exhausted_nil
  dormant := nofun

/-- The invariant of every run. -/
theorem budgeted_of_reaches {clientId clock : ℕ} {run : TransportRun}
    (hreaches : automaton.Reaches (start clientId clock) run) : run.Budgeted :=
  hreaches.invariant Budgeted (budgeted_start clientId clock)
    fun _ _ _ hbudgeted _ hstep ↦ hbudgeted.step hstep

/-- Only a failing writer makes a transport give up. -/
theorem failed_of_step {run next : TransportRun} {event : TransportEvent}
    (hstep : automaton.step run event = some next) :
    next.transport.failed = run.transport.failed ∨ ∃ elapsed, event = .writerError elapsed := by
  change TransportRun.step run event = some next at hstep
  cases event with
  | discovery message =>
    obtain ⟨-, ⟨⟩⟩ := Option.ite_none_right_eq_some.mp hstep
    exact Or.inl (run.transport.plain_onDiscoveryMessage message).failed
  | pairMessage envelope synthetic =>
    obtain ⟨-, ⟨⟩⟩ := Option.ite_none_right_eq_some.mp hstep
    exact Or.inl rfl
  | bridgeMessage clientId object data =>
    obtain rfl := Option.some.inj hstep
    exact Or.inl (run.transport.plain_onBridgeMessage clientId object data).failed
  | retry =>
    obtain ⟨-, ⟨⟩⟩ := Option.ite_none_right_eq_some.mp hstep
    exact Or.inl run.transport.plain_onPairAckTimeout.failed
  | grant request factory =>
    obtain ⟨-, ⟨⟩⟩ := Option.ite_none_right_eq_some.mp hstep
    left
    show (run.transport.onLockGranted run.grants factory).failed = run.transport.failed
    rcases Transport.onLockGranted_cases run.transport run.grants factory with
      ⟨-, hdeclined⟩ | ⟨-, -, hpromoted⟩ | ⟨message, -, -, hunpromoted⟩
    · rw [hdeclined]
      rfl
    · rw [hpromoted]
      rfl
    · rw [hunpromoted]
      rfl
  | rejectRequest request message =>
    obtain ⟨-, ⟨⟩⟩ := Option.ite_none_right_eq_some.mp hstep
    exact Or.inl (run.transport.plain_onLockSettled request (.error message)).failed
  | lockSettled request outcome =>
    obtain rfl := Option.some.inj hstep
    exact Or.inl (run.transport.plain_onLockSettled request outcome).failed
  | writerReply data =>
    obtain ⟨-, ⟨⟩⟩ := Option.ite_none_right_eq_some.mp hstep
    exact Or.inl (run.transport.plain_onWriterMessage data).failed
  | writerError elapsed => exact Or.inr ⟨elapsed, rfl⟩
  | post data =>
    obtain rfl := Option.some.inj hstep
    left
    show (run.transport.postMessage data).failed = run.transport.failed
    rcases Transport.postMessage_cases run.transport data with
      ⟨-, hsame⟩ | ⟨-, -, hdeferred⟩ | ⟨-, -, hposted⟩
    · rw [hsame]
    · rw [hdeferred]
      rfl
    · rw [hposted]
      rfl
  | microtask =>
    obtain ⟨-, ⟨⟩⟩ := Option.ite_none_left_eq_some.mp hstep
    left
    show run.transport.runMicrotask.failed = run.transport.failed
    rcases Transport.runMicrotask_cases run.transport with ⟨-, hsame⟩ | ⟨id, rest, -, hrefused⟩
    · rw [hsame]
    · rw [hrefused]
      rfl
  | close =>
    obtain rfl := Option.some.inj hstep
    left
    show run.transport.close.failed = run.transport.failed
    by_cases hclosed : run.transport.closed = true
    · rw [Transport.close_closed hclosed]
    · rw [Transport.close_eq (by simpa using hclosed)]
      rfl

/-- The step by which a transport gives up refuses each request that the page waits for once, and
leaves no refusal for later. -/
theorem Budgeted.refuses {run next : TransportRun} {event : TransportEvent}
    (hbudgeted : run.Budgeted) (hstep : automaton.step run event = some next)
    (hworks : run.transport.failed = false) (hgaveUp : next.transport.failed = true) :
    (∀ id ∈ run.awaited, (refusals (since run next)).count id = 1) ∧
      next.transport.microtasks = [] := by
  rcases failed_of_step hstep with hsame | ⟨elapsed, rfl⟩
  · cases hgaveUp.symm.trans (hsame.trans hworks)
  obtain ⟨hsome, ⟨⟩⟩ := Option.ite_none_right_eq_some.mp hstep
  obtain ⟨writer, hwriter⟩ := Option.isSome_iff_exists.mp hsome
  have hopen := (hbudgeted.leads writer hwriter).1
  obtain ⟨times, -, ⟨-, herror⟩ | ⟨-, herror⟩⟩ :=
    hbudgeted.failing hwriter (Nat.le_add_right run.clock elapsed)
  · obtain ⟨-, hrefused⟩ := hbudgeted.refused hwriter herror
    constructor
    · intro id hid
      have hflight : id ∈ run.transport.inFlight.keys := (hbudgeted.awaits hworks hopen id).mp hid
      rw [since, act, List.drop_left]
      show (refusals (arrivals (fun transport ↦ transport.onWriterError (run.clock + elapsed))
        run.transport)).count id = 1
      rw [hrefused]
      exact List.count_eq_one_of_mem run.transport.inFlight.keys_nodup hflight
    · show (run.transport.onWriterError (run.clock + elapsed)).microtasks = []
      rw [herror]
      exact hbudgeted.unrefused hworks
  · change (run.transport.onWriterError (run.clock + elapsed)).failed = true at hgaveUp
    rw [herror] at hgaveUp
    cases hworks.symm.trans hgaveUp

/-- Every step adds to the history. -/
theorem log_of_step {run next : TransportRun} {event : TransportEvent}
    (hstep : automaton.step run event = some next) : next.log = run.log ++ since run next := by
  have happended : ∃ effects, next.log = run.log ++ effects := by
    change TransportRun.step run event = some next at hstep
    unfold TransportRun.step at hstep
    split at hstep
    all_goals first
      | obtain ⟨-, ⟨⟩⟩ := Option.ite_none_right_eq_some.mp hstep
        exact ⟨_, rfl⟩
      | obtain ⟨-, ⟨⟩⟩ := Option.ite_none_left_eq_some.mp hstep
        exact ⟨_, rfl⟩
      | obtain rfl := Option.some.inj hstep
        exact ⟨_, rfl⟩
  obtain ⟨effects, heffects⟩ := happended
  rw [since, heffects, List.drop_left]

/-- The history of a run grows at its end. -/
theorem since_trans {first second third : TransportRun}
    (hearly : second.log = first.log ++ since first second)
    (hlate : third.log = second.log ++ since second third) :
    since first third = since first second ++ since second third := by
  rw [since, hlate, hearly, List.append_assoc, List.drop_left]

/-- What holds between a transport that gave up and its later states. -/
structure Resting (run later : TransportRun) : Prop where
  factoryCalls : later.factoryCalls = run.factoryCalls
  grows : later.log = run.log ++ since run later
  silent : ∀ effect ∈ since run later, effect.Silent
  closed : run.transport.closed = true →
    later.transport.closed = true ∧ refusals (since run later) = []

/-- Resting is a preorder. -/
theorem Resting.trans {first second third : TransportRun} (hearly : Resting first second)
    (hlate : Resting second third) : Resting first third := by
  have hsince := since_trans hearly.grows hlate.grows
  refine ⟨hlate.factoryCalls.trans hearly.factoryCalls, ?_, ?_, fun hclosed ↦ ?_⟩
  · rw [hsince, ← List.append_assoc, ← hearly.grows]
    exact hlate.grows
  · intro effect heffect
    rw [hsince] at heffect
    exact (List.mem_append.mp heffect).elim (hearly.silent effect) (hlate.silent effect)
  · obtain ⟨hshut, hnone⟩ := hearly.closed hclosed
    obtain ⟨hstill, hnothing⟩ := hlate.closed hshut
    refine ⟨hstill, ?_⟩
    rw [hsince, refusals, List.filterMap_append]
    exact List.append_eq_nil_iff.mpr ⟨hnone, hnothing⟩

/-- A transport that gave up calls no factory and posts nothing, whatever happens; closed, it
refuses nothing. -/
theorem Budgeted.resting {run later : TransportRun} (hbudgeted : run.Budgeted)
    (hgaveUp : run.transport.failed = true) (hreaches : automaton.Reaches run later) :
    Resting run later := by
  refine hreaches.monotone (fun state ↦ state.Budgeted ∧ state.transport.failed = true) Resting
    ?_ ?_ ⟨hbudgeted, hgaveUp⟩ ?_
  · intro state
    have hnone : since state state = [] := List.drop_length
    refine ⟨rfl, ?_, ?_, fun hclosed ↦ ⟨hclosed, ?_⟩⟩
    · rw [hnone, List.append_nil]
    · rw [hnone]
      exact List.forall_mem_nil _
    · rw [hnone]
      rfl
  · exact fun first second third ↦ Resting.trans
  · intro state event next hstate _ hstep
    have hrests := hstate.1.rests hstate.2 hstep
    exact ⟨⟨hrests.budgeted, hrests.failed⟩, hrests.factoryCalls, log_of_step hstep, hrests.silent,
      hrests.closed⟩

/-- A transport that gave up has given up for good. -/
theorem Budgeted.stays_failed {run later : TransportRun} (hbudgeted : run.Budgeted)
    (hgaveUp : run.transport.failed = true) (hreaches : automaton.Reaches run later) :
    later.transport.failed = true := by
  have hboth : later.Budgeted ∧ later.transport.failed = true :=
    hreaches.invariant (fun state ↦ state.Budgeted ∧ state.transport.failed = true)
      ⟨hbudgeted, hgaveUp⟩ fun state event next hstate _ hstep ↦
        ⟨(hstate.1.rests hstate.2 hstep).budgeted, (hstate.1.rests hstate.2 hstep).failed⟩
  exact hboth.2

/-- As long as a transport that gave up is open, its refusals and what still waits for one are what
waited before and what was posted, in order. -/
theorem Budgeted.refusals_run {events : List TransportEvent} : ∀ {run later : TransportRun},
    run.Budgeted → run.transport.failed = true → automaton.run run events = some later →
      later.transport.closed = false → refusals (since run later) ++ later.transport.microtasks =
        run.transport.microtasks ++ events.filterMap TransportEvent.postedId := by
  induction events with
  | nil =>
    intro run later _ _ hrun _
    obtain rfl := Option.some.inj hrun
    rw [since, List.drop_length]
    exact (List.append_nil _).symm
  | cons event rest ih =>
    intro run later hbudgeted hgaveUp hrun hopen
    obtain ⟨next, hstep, hrest⟩ := Option.bind_eq_some_iff.mp hrun
    have hrests := hbudgeted.rests hgaveUp hstep
    have hlater := hrests.budgeted.resting hrests.failed (Automaton.reaches_of_run hrest)
    have hstillOpen : next.transport.closed = false := by
      by_contra hclosed
      obtain ⟨hshut, -⟩ := hlater.closed (by simpa using hclosed)
      exact Bool.false_ne_true (hopen.symm.trans hshut)
    have hsplit : (event :: rest).filterMap TransportEvent.postedId =
        event.postedId.toList ++ rest.filterMap TransportEvent.postedId := by
      rw [List.filterMap_cons]
      cases event.postedId <;> rfl
    calc refusals (since run later) ++ later.transport.microtasks
        = refusals (since run next) ++
            (refusals (since next later) ++ later.transport.microtasks) := by
          rw [since_trans (log_of_step hstep) hlater.grows, refusals, List.filterMap_append,
            List.append_assoc]
          rfl
      _ = (refusals (since run next) ++ next.transport.microtasks) ++
            rest.filterMap TransportEvent.postedId := by
          rw [ih hrests.budgeted hrests.failed hrest hopen, List.append_assoc]
      _ = run.transport.microtasks ++ (event :: rest).filterMap TransportEvent.postedId := by
          rw [hrests.queued hstillOpen, List.append_assoc, hsplit]

/-- The microtasks of an open transport that gave up deliver every refusal that waits. -/
theorem Budgeted.refusals_delivered {ids : List ℕ} : ∀ {run : TransportRun}, run.Budgeted →
    run.transport.failed = true → run.transport.closed = false → run.transport.microtasks = ids →
      ∃ later, automaton.run run (List.replicate ids.length .microtask) = some later ∧
        later.transport.closed = false ∧ later.transport.microtasks = [] := by
  induction ids with
  | nil => exact fun {run} _ _ hopen hnone ↦ ⟨run, rfl, hopen, hnone⟩
  | cons id rest ih =>
    intro run hbudgeted hgaveUp hopen hqueued
    have hstep : automaton.step run .microtask = some (run.act Transport.runMicrotask) :=
      if_neg (by simp [hqueued])
    have hrests := hbudgeted.rests hgaveUp hstep
    have hnext : run.transport.runMicrotask = run.transport.refused id rest := by
      rw [Transport.runMicrotask, hqueued]
      rfl
    have hstillOpen : (run.act Transport.runMicrotask).transport.closed = false := by
      show run.transport.runMicrotask.closed = false
      rw [hnext]
      exact hopen
    have hrest : (run.act Transport.runMicrotask).transport.microtasks = rest := by
      show run.transport.runMicrotask.microtasks = rest
      rw [hnext]
      rfl
    obtain ⟨later, hrun, hdrained⟩ := ih hrests.budgeted hrests.failed hstillOpen hrest
    refine ⟨later, ?_, hdrained⟩
    rw [List.length_cons, List.replicate_succ, Automaton.run, hstep]
    exact hrun

/-- A transport is failed exactly when some failure of its writer was the third within 30 seconds,
and the first such failure is the last one. At that moment each request that the page waits for is
refused once. From then on no request is in flight, no writer factory is called, no lock is
requested and nothing is posted on a channel; as long as the transport is open, what is posted is
refused once, in order, each on a microtask; closed, it refuses nothing. -/
theorem restart_budget {clientId clock : ℕ} {run : TransportRun}
    (hreaches : automaton.Reaches (start clientId clock) run) :
    (run.transport.failed = true ↔ Exhausted run.failures) ∧
      (run.transport.failed = true → ∃ before now,
        run.failures = before ++ [now] ∧ TwoRecent before now ∧ ¬ Exhausted before) ∧
      (∀ event next, automaton.step run event = some next → run.transport.failed = false →
        next.transport.failed = true → (∀ id ∈ run.awaited,
          (refusals (since run next)).count id = 1) ∧ next.transport.microtasks = []) ∧
      (run.transport.failed = true →
        run.transport.inFlight = .empty ∧
        (∀ later, automaton.Reaches run later → later.transport.failed = true ∧
          later.factoryCalls = run.factoryCalls ∧ ∀ effect ∈ since run later, effect.Silent) ∧
        (∀ events later, automaton.run run events = some later →
          later.transport.closed = false →
            refusals (since run later) ++ later.transport.microtasks =
              run.transport.microtasks ++ events.filterMap TransportEvent.postedId) ∧
        (run.transport.closed = false → ∃ later,
          automaton.run run (List.replicate run.transport.microtasks.length .microtask) =
            some later ∧ refusals (since run later) = run.transport.microtasks) ∧
        (run.transport.closed = true → ∀ later, automaton.Reaches run later →
          refusals (since run later) = [])) := by
  have hbudgeted := budgeted_of_reaches hreaches
  refine ⟨⟨?_, ?_⟩, ?_, ?_, ?_⟩
  · intro hgaveUp
    obtain ⟨-, -, before, now, hsplit, hrecent, -⟩ := hbudgeted.dormant hgaveUp
    exact ⟨before, now, [], hsplit, hrecent⟩
  · intro hexhausted
    by_contra hworks
    exact hbudgeted.works (by simpa using hworks) hexhausted
  · exact fun hgaveUp ↦ (hbudgeted.dormant hgaveUp).2.2
  · exact fun event next hstep hworks hgaveUp ↦ hbudgeted.refuses hstep hworks hgaveUp
  · intro hgaveUp
    refine ⟨(hbudgeted.dormant hgaveUp).1.inFlight, ?_, ?_, ?_, ?_⟩
    · intro later hlater
      have hresting := hbudgeted.resting hgaveUp hlater
      exact ⟨hbudgeted.stays_failed hgaveUp hlater, hresting.factoryCalls, hresting.silent⟩
    · exact fun events later hrun hopen ↦ hbudgeted.refusals_run hgaveUp hrun hopen
    · intro hopen
      obtain ⟨later, hrun, hstillOpen, hdrained⟩ :=
        hbudgeted.refusals_delivered hgaveUp hopen rfl
      refine ⟨later, hrun, ?_⟩
      have hrefused := hbudgeted.refusals_run hgaveUp hrun hstillOpen
      have hnothing : (List.replicate run.transport.microtasks.length
          TransportEvent.microtask).filterMap TransportEvent.postedId = [] :=
        List.filterMap_eq_nil_iff.mpr fun event hevent ↦ by
          rw [List.eq_of_mem_replicate hevent]
          rfl
      rwa [hdrained, hnothing, List.append_nil, List.append_nil] at hrefused
    · exact fun hclosed later hlater ↦ ((hbudgeted.resting hgaveUp hlater).closed hclosed).2

/-- Three crashes, of which the first is exactly 30 seconds before the last. A request is posted
before the last one, and another after it. -/
def crashLoop : List TransportEvent :=
  [.grant 0 (.ok ()), .writerError 0, .grant 1 (.ok ()), .writerError 10000, .grant 2 (.ok ()),
    .post ⟨some 42, .ping⟩, .writerError 20000, .post ⟨some 43, .ping⟩]

/-- This transport has given up and has refused the first request. The second one is refused when
its microtask runs. -/
theorem restart_budget_crashLoop : ∃ run, automaton.Reaches (start 0 0) run ∧
    run.failures = [0, 10000, 30000] ∧ refusals run.log = [42] ∧ run.factoryCalls = 3 ∧
    run.transport.failed = true ∧
    (∀ later, automaton.Reaches run later →
      later.transport.failed = true ∧ later.factoryCalls = 3) ∧
    ∃ later, automaton.run run [.microtask] = some later ∧ refusals (since run later) = [43] := by
  obtain ⟨run, hrun, hview⟩ := Option.map_eq_some_iff.mp
    (show (automaton.run (start 0 0) crashLoop).map (fun run ↦
        (run.failures, refusals run.log, run.factoryCalls, run.transport.closed,
          run.transport.microtasks)) =
      some ([0, 10000, 30000], [42], 3, false, [43]) by decide +kernel)
  obtain ⟨hfailures, hview⟩ := Prod.mk.inj hview
  obtain ⟨hrefusals, hview⟩ := Prod.mk.inj hview
  obtain ⟨hcalls, hview⟩ := Prod.mk.inj hview
  obtain ⟨hopen, hqueued⟩ := Prod.mk.inj hview
  have hreaches : automaton.Reaches (start 0 0) run := Automaton.reaches_of_run hrun
  obtain ⟨hiff, -, -, hafter⟩ := restart_budget hreaches
  have hgaveUp : run.transport.failed = true := by
    rw [hiff, hfailures]
    refine ⟨[0, 10000], 30000, [], rfl, ?_⟩
    show 2 ≤ _
    decide
  obtain ⟨-, hrests, -, hdelivers, -⟩ := hafter hgaveUp
  refine ⟨run, hreaches, hfailures, hrefusals, hcalls, hgaveUp, fun later hlater ↦ ?_, ?_⟩
  · obtain ⟨hstill, hsame, -⟩ := hrests later hlater
    exact ⟨hstill, hsame.trans hcalls⟩
  · obtain ⟨later, hdrained, hrefused⟩ := hdelivers hopen
    rw [hqueued] at hdrained hrefused
    exact ⟨later, hdrained, hrefused⟩

/-- The same crashes; the transport is closed before the microtask of the second request runs. -/
def closesBeforeMicrotask : List TransportEvent :=
  [.post ⟨some 43, .ping⟩, .close, .microtask]

/-- The second request was posted on an open transport that had given up. The transport was closed
and the microtask ran, and the listeners heard no refusal. -/
theorem not_refused_closesBeforeMicrotask : ∃ run later,
    automaton.Reaches (start 0 0) run ∧ run.transport.failed = true ∧
      run.transport.closed = false ∧ automaton.run run closesBeforeMicrotask = some later ∧
      closesBeforeMicrotask.filterMap TransportEvent.postedId = [43] ∧
      later.transport.microtasks = [] ∧ refusals (since run later) = [] := by
  obtain ⟨run, hrun, hview⟩ := Option.map_eq_some_iff.mp
    (show (automaton.run (start 0 0) (crashLoop.take 7)).map (fun run ↦
        (run.transport.failed, run.transport.closed,
          (automaton.run run closesBeforeMicrotask).map fun later ↦
            (later.transport.microtasks, refusals (since run later)))) =
      some (true, false, some ([], [])) by decide +kernel)
  obtain ⟨hgaveUp, hview⟩ := Prod.mk.inj hview
  obtain ⟨hopen, hview⟩ := Prod.mk.inj hview
  obtain ⟨later, hlater, hview⟩ := Option.map_eq_some_iff.mp hview
  obtain ⟨hdrained, hrefusals⟩ := Prod.mk.inj hview
  exact ⟨run, later, Automaton.reaches_of_run hrun, hgaveUp, hopen, hlater, rfl, hdrained,
    hrefusals⟩

end TransportRun

end OpfsWebauthn.Storage
