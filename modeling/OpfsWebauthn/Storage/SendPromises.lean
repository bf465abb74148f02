import OpfsWebauthn.Foundation.Automaton
import OpfsWebauthn.Storage.Rpc

/-!
# The promises of a worker client

`WorkerClient` of `rpc.ts` with the calls of its page and the events of its transport in any order.
What a worker answers is not restricted: a message can come in any order, more than once, with a
number that nobody waits for, or with a response of another kind. A transport that was closed drops
what is posted on it, so nothing answers a request that is sent after `terminate()`.

`Settled` is what the page relies on. `Accounted` is the invariant of every run: a promise waits or
is settled, and not both. After `terminate()` no promise waits, unless it was sent later: `send`
puts its promise into the map whether or not the client listens. `settled_iff_runMeets` says that
this is the only way in which a promise is stranded.
-/

set_option autoImplicit false
set_option relaxedAutoImplicit false

namespace OpfsWebauthn.Storage

open Foundation

/-- A client with the history of its page: the requests sent, the messages that its listener heard,
and whether `terminate()` was called. -/
structure ClientRun where
  client : WorkerClient
  sent : List (ℕ × RequestKind)
  heard : List ServerEnvelope
  terminated : Bool

/-- What happens to a client: a call of its page, or an event of its transport. -/
inductive ClientEvent
  | send (request : WorkerRequest)
  | message (envelope : ServerEnvelope)
  | error
  | terminate
deriving DecidableEq, Repr

namespace ClientRun

/-- A client that was just made. -/
def create : ClientRun :=
  ⟨.create, [], [], false⟩

/-- One event. -/
def step (run : ClientRun) : ClientEvent → Option ClientRun
  | .send request => some { run with
      client := (run.client.send request).1
      sent := run.sent ++ [((run.client.send request).2.id, request.kind)] }
  | .message envelope => some { run with
      client := run.client.onMessage envelope
      heard := if run.client.listening then run.heard ++ [envelope] else run.heard }
  | .error => some { run with client := run.client.onError }
  | .terminate => some { run with client := run.client.terminate, terminated := true }

/-- The client as an automaton. -/
def automaton : Automaton ClientRun ClientEvent :=
  ⟨step⟩

/-- What the page relies on. -/
structure Settled (run : ClientRun) : Prop where
  /-- A promise settles at most once. -/
  once : (run.client.settled.map Prod.fst).Nodup
  /-- Only promises of requests that were sent settle. -/
  sent : ∀ entry ∈ run.client.settled, ∃ kind, (entry.1, kind) ∈ run.sent
  /-- A promise resolves with a response to its number and of the kind of its request. -/
  answered : ∀ id response, (id, .resolved response) ∈ run.client.settled →
    ∃ kind, (id, kind) ∈ run.sent ∧ response.kind = kind ∧ ⟨id, .response response⟩ ∈ run.heard
  /-- After `terminate()` every promise is settled. -/
  complete : run.terminated = true → ∀ entry ∈ run.sent, entry.1 ∈ run.client.settled.map Prod.fst

/-- Every state of a run gives the page what it relies on. -/
def AlwaysSettled (start : ClientRun) (events : List ClientEvent) : Prop :=
  ∀ before, before <+: events → ∀ run, automaton.run start before = some run → run.Settled

/-- The condition on an event: no request is sent after `terminate()`. -/
def SendsInTime (run : ClientRun) : ClientEvent → Prop
  | .send _ => run.terminated = false
  | .message _ => True
  | .error => True
  | .terminate => True

instance (run : ClientRun) (event : ClientEvent) : Decidable (run.SendsInTime event) := by
  cases event <;> unfold SendsInTime <;> infer_instance

/-! ### Waiting or settled -/

/-- The invariant of every run. -/
structure Accounted (run : ClientRun) : Prop where
  /-- The numbers given are below the next one, and differ. -/
  fresh : ∀ entry ∈ run.sent, entry.1 < run.client.nextId
  distinct : (run.sent.map Prod.fst).Nodup
  /-- What waits and what is settled was sent, and no promise does both. -/
  waits : ∀ id kind, run.client.pending.get? id = some kind → (id, kind) ∈ run.sent
  done : ∀ entry ∈ run.client.settled, ∃ kind, (entry.1, kind) ∈ run.sent
  apart : ∀ id ∈ run.client.pending.keys, id ∉ run.client.settled.map Prod.fst
  once : (run.client.settled.map Prod.fst).Nodup
  /-- A promise waits or is settled. -/
  either : ∀ entry ∈ run.sent,
    entry.1 ∈ run.client.pending.keys ∨ entry.1 ∈ run.client.settled.map Prod.fst
  /-- A promise resolves with a response to its number and of the kind of its request. -/
  answered : ∀ id response, (id, .resolved response) ∈ run.client.settled →
    ∃ kind, (id, kind) ∈ run.sent ∧ response.kind = kind ∧ ⟨id, .response response⟩ ∈ run.heard

theorem accounted_create : create.Accounted where
  fresh := fun entry hentry ↦ by cases hentry
  distinct := List.nodup_nil
  waits := fun id kind hwaits ↦ by cases hwaits
  done := fun entry hentry ↦ by cases hentry
  apart := fun id hid ↦ by cases hid
  once := List.nodup_nil
  either := fun entry hentry ↦ by cases hentry
  answered := fun id response hresolved ↦ by cases hresolved

/-- A request that is sent waits under a number of its own. -/
theorem Accounted.send {run : ClientRun} (haccounted : run.Accounted) (request : WorkerRequest) :
    Accounted { run with
      client := (run.client.send request).1
      sent := run.sent ++ [((run.client.send request).2.id, request.kind)] } := by
  have hnew : run.client.nextId ∉ run.sent.map Prod.fst := by
    intro hmem
    obtain ⟨entry, hentry, hid⟩ := List.mem_map.mp hmem
    have hlt := haccounted.fresh entry hentry
    omega
  have hnotDone : run.client.nextId ∉ run.client.settled.map Prod.fst := by
    intro hmem
    obtain ⟨entry, hentry, hid⟩ := List.mem_map.mp hmem
    obtain ⟨kind, hsent⟩ := haccounted.done entry hentry
    exact hnew (List.mem_map.mpr ⟨_, hsent, hid⟩)
  refine ⟨?_, ?_, ?_, ?_, ?_, haccounted.once, ?_, ?_⟩
  · intro entry hentry
    rcases List.mem_append.mp hentry with hold | hlast
    · exact Nat.lt_succ_of_lt (haccounted.fresh entry hold)
    · rw [List.mem_singleton.mp hlast]
      exact Nat.lt_succ_self _
  · rw [List.map_append, List.nodup_append]
    refine ⟨haccounted.distinct, List.nodup_singleton _, ?_⟩
    intro first hfirst second hsecond hsame
    rw [hsame, List.mem_singleton.mp hsecond] at hfirst
    exact hnew hfirst
  · intro id kind hwaits
    change (run.client.pending.set run.client.nextId request.kind).get? id = some kind at hwaits
    rw [OrderedMap.get?_set] at hwaits
    split_ifs at hwaits with hsame
    · rw [hsame, ← Option.some.inj hwaits]
      exact List.mem_append_right _ (List.mem_singleton_self _)
    · exact List.mem_append_left _ (haccounted.waits id kind hwaits)
  · intro entry hentry
    obtain ⟨kind, hsent⟩ := haccounted.done entry hentry
    exact ⟨kind, List.mem_append_left _ hsent⟩
  · intro id hid
    rcases (OrderedMap.mem_keys_set _ _ _ _).mp hid with hsame | hold
    · rw [hsame]
      exact hnotDone
    · exact haccounted.apart id hold
  · intro entry hentry
    rcases List.mem_append.mp hentry with hold | hlast
    · rcases haccounted.either entry hold with hwaiting | hsettled
      · exact Or.inl ((OrderedMap.mem_keys_set _ _ _ _).mpr (Or.inr hwaiting))
      · exact Or.inr hsettled
    · rw [List.mem_singleton.mp hlast]
      exact Or.inl ((OrderedMap.mem_keys_set _ _ _ _).mpr (Or.inl rfl))
  · intro id response hresolved
    obtain ⟨kind, hsent, hrest⟩ := haccounted.answered id response hresolved
    exact ⟨kind, List.mem_append_left _ hsent, hrest⟩

/-- Settling one promise that waits. -/
theorem Accounted.settle {run : ClientRun} (haccounted : run.Accounted) {id : ℕ}
    {kind : RequestKind} (hwaits : run.client.pending.get? id = some kind)
    (settlement : Settlement) (heard : List ServerEnvelope)
    (hheard : ∀ envelope ∈ run.heard, envelope ∈ heard)
    (hresolved : ∀ response, settlement = .resolved response →
      response.kind = kind ∧ ⟨id, .response response⟩ ∈ heard) :
    Accounted { run with
      client := { run.client with
        pending := run.client.pending.erase id
        settled := run.client.settled ++ [(id, settlement)] }
      heard := heard } := by
  have hkey : id ∈ run.client.pending.keys := (OrderedMap.mem_keys_iff _ _).mpr ⟨kind, hwaits⟩
  have hnotDone := haccounted.apart id hkey
  refine ⟨haccounted.fresh, haccounted.distinct, ?_, ?_, ?_, ?_, ?_, ?_⟩
  · intro other otherKind hother
    change (run.client.pending.erase id).get? other = some otherKind at hother
    rw [OrderedMap.get?_erase] at hother
    split_ifs at hother with hsame
    exact haccounted.waits other otherKind hother
  · intro entry hentry
    rcases List.mem_append.mp hentry with hold | hlast
    · exact haccounted.done entry hold
    · rw [List.mem_singleton.mp hlast]
      exact ⟨kind, haccounted.waits id kind hwaits⟩
  · intro other hother
    obtain ⟨hdiffers, hold⟩ := (OrderedMap.mem_keys_erase _ _ _).mp hother
    rw [List.map_append, List.mem_append, not_or]
    exact ⟨haccounted.apart other hold, fun hsame ↦ hdiffers (List.mem_singleton.mp hsame)⟩
  · rw [List.map_append, List.nodup_append]
    refine ⟨haccounted.once, List.nodup_singleton _, ?_⟩
    intro first hfirst second hsecond hsame
    rw [hsame, List.mem_singleton.mp hsecond] at hfirst
    exact hnotDone hfirst
  · intro entry hentry
    rw [List.map_append, List.mem_append]
    by_cases hsame : entry.1 = id
    · exact Or.inr (Or.inr (List.mem_singleton.mpr hsame))
    · rcases haccounted.either entry hentry with hwaiting | hsettled
      · exact Or.inl ((OrderedMap.mem_keys_erase _ _ _).mpr ⟨hsame, hwaiting⟩)
      · exact Or.inr (Or.inl hsettled)
  · intro other response hentry
    rcases List.mem_append.mp hentry with hold | hlast
    · obtain ⟨otherKind, hsent, hkind, hmessage⟩ := haccounted.answered other response hold
      exact ⟨otherKind, hsent, hkind, hheard _ hmessage⟩
    · obtain ⟨rfl, hsettlement⟩ := Prod.mk.inj (List.mem_singleton.mp hlast)
      obtain ⟨hkind, hmessage⟩ := hresolved response hsettlement.symm
      exact ⟨kind, haccounted.waits other kind hwaits, hkind, hmessage⟩

/-- A message settles at most the promise of its number. -/
theorem Accounted.message {run : ClientRun} (haccounted : run.Accounted)
    (envelope : ServerEnvelope) : Accounted { run with
      client := run.client.onMessage envelope
      heard := if run.client.listening then run.heard ++ [envelope] else run.heard } := by
  unfold WorkerClient.onMessage
  by_cases hlistening : run.client.listening = true
  · rw [if_pos hlistening, if_pos hlistening]
    have hheard : ∀ other ∈ run.heard, other ∈ run.heard ++ [envelope] :=
      fun other hother ↦ List.mem_append_left _ hother
    cases hwaits : run.client.pending.get? envelope.id with
    | none =>
      refine ⟨haccounted.fresh, haccounted.distinct, haccounted.waits, haccounted.done,
        haccounted.apart, haccounted.once, haccounted.either, ?_⟩
      intro id response hresolved
      obtain ⟨kind, hsent, hkind, hmessage⟩ := haccounted.answered id response hresolved
      exact ⟨kind, hsent, hkind, hheard _ hmessage⟩
    | some kind =>
      refine haccounted.settle hwaits _ _ hheard ?_
      intro response hresolved
      obtain ⟨id, body⟩ := envelope
      cases body with
      | error message => cases hresolved
      | response given =>
        simp only [WorkerClient.settlementFor] at hresolved
        split_ifs at hresolved with hkind
        obtain rfl := Settlement.resolved.inj hresolved
        exact ⟨hkind, List.mem_append_right _ (List.mem_singleton_self _)⟩
  · rw [if_neg hlistening, if_neg hlistening]
    exact haccounted

/-- Rejecting every promise that waits. -/
theorem Accounted.rejectAll {run : ClientRun} (haccounted : run.Accounted) (reason : String) :
    Accounted { run with client := run.client.rejectAll reason } := by
  have hkeys : (run.client.pending.keys.map fun id ↦ (id, Settlement.rejected reason)).map
      Prod.fst = run.client.pending.keys := by
    rw [List.map_map]
    exact List.map_id _
  refine ⟨haccounted.fresh, haccounted.distinct, ?_, ?_, ?_, ?_, ?_, ?_⟩
  · intro id kind hwaits
    cases hwaits
  · intro entry hentry
    rcases List.mem_append.mp hentry with hold | hnew
    · exact haccounted.done entry hold
    · obtain ⟨id, hid, rfl⟩ := List.mem_map.mp hnew
      obtain ⟨kind, hkind⟩ := (OrderedMap.mem_keys_iff _ _).mp hid
      exact ⟨kind, haccounted.waits id kind hkind⟩
  · intro id hid
    cases hid
  · change ((run.client.settled ++ _).map Prod.fst).Nodup
    rw [List.map_append, hkeys, List.nodup_append]
    refine ⟨haccounted.once, run.client.pending.keys_nodup, ?_⟩
    intro first hfirst second hsecond hsame
    exact haccounted.apart second hsecond (hsame ▸ hfirst)
  · intro entry hentry
    right
    change entry.1 ∈ (run.client.settled ++ _).map Prod.fst
    rw [List.map_append, hkeys]
    rcases haccounted.either entry hentry with hwaiting | hsettled
    · exact List.mem_append_right _ hwaiting
    · exact List.mem_append_left _ hsettled
  · intro id response hresolved
    rcases List.mem_append.mp hresolved with hold | hnew
    · exact haccounted.answered id response hold
    · obtain ⟨other, -, hsame⟩ := List.mem_map.mp hnew
      cases (Prod.mk.inj hsame).2

/-- The step lemma: every event keeps the account. -/
theorem Accounted.step {run next : ClientRun} {event : ClientEvent} (haccounted : run.Accounted)
    (hstep : automaton.step run event = some next) : next.Accounted := by
  cases event with
  | send request =>
    obtain rfl := Option.some.inj hstep
    exact haccounted.send request
  | message envelope =>
    obtain rfl := Option.some.inj hstep
    exact haccounted.message envelope
  | error =>
    obtain rfl := Option.some.inj hstep
    show Accounted { run with client := run.client.onError }
    unfold WorkerClient.onError
    split
    · exact haccounted.rejectAll _
    · exact haccounted
  | terminate =>
    obtain rfl := Option.some.inj hstep
    have hleft : Accounted { run with
        client := { run.client with nextId := run.client.nextId + 1, listening := false }
        terminated := true } :=
      ⟨fun entry hentry ↦ Nat.lt_succ_of_lt (haccounted.fresh entry hentry), haccounted.distinct,
        haccounted.waits, haccounted.done, haccounted.apart, haccounted.once, haccounted.either,
        haccounted.answered⟩
    exact hleft.rejectAll _

/-! ### After the end -/

/-- After `terminate()` nothing waits. -/
def Empty (run : ClientRun) : Prop :=
  run.terminated = true → run.client.pending.keys = []

/-- An event keeps the map empty when it sends nothing after `terminate()`. -/
theorem Empty.step {run next : ClientRun} {event : ClientEvent} (hempty : run.Empty)
    (hinTime : run.SendsInTime event) (hstep : automaton.step run event = some next) :
    next.Empty := by
  cases event with
  | send request =>
    obtain rfl := Option.some.inj hstep
    intro hterminated
    have hopen : run.terminated = false := hinTime
    exact absurd (hopen.symm.trans hterminated) Bool.false_ne_true
  | message envelope =>
    obtain rfl := Option.some.inj hstep
    intro hterminated
    have hkeys := hempty hterminated
    have hnone : run.client.pending.get? envelope.id = none := by
      rw [OrderedMap.get?_eq_none_iff, hkeys]
      exact List.not_mem_nil
    have hsame : run.client.onMessage envelope = run.client := by
      unfold WorkerClient.onMessage
      rw [hnone]
      exact ite_self _
    show (run.client.onMessage envelope).pending.keys = []
    rw [hsame]
    exact hkeys
  | error =>
    obtain rfl := Option.some.inj hstep
    intro hterminated
    show run.client.onError.pending.keys = []
    unfold WorkerClient.onError
    split
    · rfl
    · exact hempty hterminated
  | terminate =>
    obtain rfl := Option.some.inj hstep
    intro _
    rfl

/-- The account of a run in which nothing waits at the end is what the page relies on. -/
theorem settled_of_accounted {run : ClientRun} (haccounted : run.Accounted) (hempty : run.Empty) :
    run.Settled where
  once := haccounted.once
  sent := haccounted.done
  answered := haccounted.answered
  complete := by
    intro hterminated entry hentry
    rcases haccounted.either entry hentry with hwaiting | hsettled
    · rw [hempty hterminated] at hwaiting
      cases hwaiting
    · exact hsettled

/-- A request that is sent after `terminate()` is not settled. -/
theorem not_settled_send {run : ClientRun} (haccounted : run.Accounted)
    (hterminated : run.terminated = true) (request : WorkerRequest) :
    ¬ Settled { run with
      client := (run.client.send request).1
      sent := run.sent ++ [((run.client.send request).2.id, request.kind)] } := by
  intro hsettled
  have hdone := hsettled.complete hterminated _
    (List.mem_append_right _ (List.mem_singleton_self _))
  have hwaits : run.client.nextId ∈ (run.client.pending.set run.client.nextId request.kind).keys :=
    (OrderedMap.mem_keys_set _ _ _ _).mpr (Or.inl rfl)
  exact (haccounted.send request).apart _ hwaits hdone

/-- In every run of a client: every state is settled exactly when no request is sent after
`terminate()`. -/
theorem settled_iff_runMeets (events : List ClientEvent) :
    AlwaysSettled create events ↔ automaton.RunMeets SendsInTime create events := by
  refine Automaton.always_iff_runMeets (fun run ↦ run.Accounted ∧ run.Empty) ?_ ?_ ?_
    ⟨accounted_create, fun hterminated ↦ nomatch hterminated⟩
  · exact fun run hboth ↦ settled_of_accounted hboth.1 hboth.2
  · exact fun run event next hboth hadmits hstep ↦
      ⟨hboth.1.step hstep, hboth.2.step hadmits hstep⟩
  · intro run event hboth hlate
    cases event with
    | send request =>
      have hterminated : run.terminated = true := Bool.not_eq_false _ ▸ hlate
      exact ⟨_, rfl, not_settled_send hboth.1 hterminated request⟩
    | message envelope => exact absurd trivial hlate
    | error => exact absurd trivial hlate
    | terminate => exact absurd trivial hlate

/-- The page sends a request after it has terminated the client. -/
def lateSend : List ClientEvent :=
  [.terminate, .send .ping]

/-- Its promise is stranded. -/
theorem not_settled_lateSend : ¬ AlwaysSettled create lateSend ∧
    ∃ run, automaton.run create lateSend = some run ∧ run.sent = [(2, .ping)] ∧
      run.client.settled = [] ∧ run.client.listening = false := by
  refine ⟨fun halways ↦ ?_, _, rfl, rfl, rfl, rfl⟩
  have hsettled := halways lateSend (List.prefix_refl _) _ rfl
  have hdone := hsettled.complete rfl (2, .ping) (List.mem_singleton_self _)
  revert hdone
  decide

end ClientRun

end OpfsWebauthn.Storage
