import OpfsWebauthn.Foundation.Automaton
import OpfsWebauthn.Share.NoteCodec
import OpfsWebauthn.Share.Receive

/-!
# The lifetime of recipient handles

The effect of `receive-dialog.tsx` with `prepareReceive` and `pollAndDecrypt` of `share.ts`. A
handle lives in the memory of the wasm module until `free()` is called on it, and the duty to do so
moves: `prepareReceive` frees the handle when it fails, the effect when the dialog was closed
meanwhile, and the `finally` of `pollAndDecrypt` otherwise.

A flow is one run of the effect. Its stage says which `await` it is suspended at, and every call on
a handle is logged under the number of the handle. The dialog may be opened and closed at any time,
and the replies of the relay, the timers and the drawn secrets are events. The wasm module is
assumed to load.

`lifecycle` is what a handle is for: it is prepared, used, freed and never touched again. The
calls on each handle are a run of it (`Accounted`), and its phase is known from the stage of the
flow that created it.
-/

set_option autoImplicit false
set_option relaxedAutoImplicit false

namespace OpfsWebauthn.Share

open Foundation Storage Crypto

/-! ### The lifecycle of a handle -/

/-- A call that concerns a `RecipientHandle`. -/
inductive HandleCall
  | prepare
  | pubkey
  | openShare
  | free
deriving DecidableEq, Repr

/-- How far the life of a handle has come. -/
inductive HandlePhase
  | absent
  | live
  | freed
deriving DecidableEq, Repr

/-- The life of a handle: it is prepared once, its methods are called while it lives, and it is
freed once. -/
def lifecycle : Automaton HandlePhase HandleCall where
  step
    | .absent, .prepare => some .live
    | .live, .pubkey => some .live
    | .live, .openShare => some .live
    | .live, .free => some .freed
    | _, _ => none

/-- Every call on any handle, in order. -/
abbrev HandleLog := List (ℕ × HandleCall)

/-- The calls on one handle. -/
def callsOn (id : ℕ) (log : HandleLog) : List HandleCall :=
  (log.filter fun entry ↦ entry.1 = id).map Prod.snd

/-! ### A flow -/

/-- What the effect catches. -/
inductive FlowError
  /-- A rejection of the share client. -/
  | thrown (cause : Thrown)
  /-- The plaintext is no note. -/
  | undecodable (failure : DecodeFailure)
  /-- `upsertNote` was rejected. -/
  | unsaved (message : String)
deriving DecidableEq, Repr

/-- The `State` of the dialog; an error is kept before it is described. -/
inductive DialogState
  | minting
  | waiting (session : RecipientSession)
  | received
  | error (cause : FlowError)
deriving DecidableEq, Repr

/-- Which `await` a flow is suspended at. A live handle is carried along with its number. -/
inductive Stage
  /-- `ensureWasmReady()` in `prepareReceive`. -/
  | loading
  /-- `client.mint(handle.pubkey)`. -/
  | minting (id : ℕ) (handle : RecipientHandle)
  /-- `prepareReceive` was resolved. -/
  | prepared (id : ℕ) (session : RecipientSession)
  /-- `prepareReceive` was rejected. -/
  | refused (cause : Thrown)
  /-- `ensureWasmReady()` in `pollAndDecrypt`. -/
  | starting (id : ℕ) (session : RecipientSession)
  /-- `client.tryDownloadBlob(session.code)`. -/
  | downloading (id : ℕ) (session : RecipientSession) (deadline : ℕ)
  /-- `sleep(intervalMs, signal)`, and whether its listener can still be called: one that is added
  to an aborted signal never is. -/
  | sleeping (id : ℕ) (session : RecipientSession) (deadline : ℕ) (listening : Bool)
  /-- `sleep` was resolved. -/
  | woken (id : ℕ) (session : RecipientSession) (deadline : ℕ)
  /-- `sleep` was rejected. -/
  | interrupted (id : ℕ) (session : RecipientSession) (deadline : ℕ)
  /-- `pollAndDecrypt` was settled. -/
  | settled (result : Except Thrown Bytes)
  /-- `upsertNote(sharedNote)`. -/
  | saving (note : SharedNote)
  | ended

/-- The handle that a suspended flow still has to free. -/
def Stage.held? : Stage → Option ℕ
  | .minting id _ | .prepared id _ | .starting id _ | .downloading id _ _ | .sleeping id _ _ _
  | .woken id _ _ | .interrupted id _ _ => some id
  | .loading | .refused _ | .settled _ | .saving _ | .ended => none

/-- One run of the effect. `created` remembers which handle its `prepareReceive` created. -/
structure Flow where
  active : Bool
  aborted : Bool
  screen : DialogState
  stage : Stage
  created : Option ℕ

/-- A dialog that was just opened. -/
def Flow.mounted : Flow :=
  ⟨true, false, .minting, .loading, none⟩

/-- What happens to a flow. -/
inductive FlowEvent
  /-- `prepareReceive` goes on with the secret drawn for the handle, if any can be drawn. -/
  | wasmReady (drawn : Option (ByteArrayN keyLen))
  | minted (reply : RelayReply)
  /-- A promise that was settled earlier is acted upon. -/
  | resumed
  /-- `pollAndDecrypt` starts its loop. -/
  | pollReady (now : ℕ)
  /-- The reply to a poll, and the clock when it is there. -/
  | downloaded (now : ℕ) (reply : RelayReply)
  /-- The timer of `sleep` fires. -/
  | slept
  | saved (reply : Except String Unit)
  /-- The clean-up of the effect. -/
  | closed

/-- A flow after an event, and the calls it made on handles. -/
structure Turn where
  flow : Flow
  calls : HandleLog

/-- `throwIfAborted(signal)`. -/
def throwIfAborted (aborted : Bool) : Except Thrown Unit :=
  if aborted then .error (.share (.of .network "share polling aborted by caller")) else .ok ()

/-- The `catch` of the effect. -/
def Flow.fail (flow : Flow) (cause : FlowError) : Flow :=
  { flow with
    stage := .ended
    screen := if flow.active then .error cause else flow.screen }

/-- `pollAndDecrypt` leaves its loop with a result, after some calls on the handle: the `finally`
frees it. -/
def Flow.settle (flow : Flow) (id : ℕ) (calls : List HandleCall) (result : Except Thrown Bytes) :
    Turn :=
  ⟨{ flow with stage := .settled result }, (calls ++ [HandleCall.free]).map (Prod.mk id)⟩

/-- The head of the loop of `pollAndDecrypt`. -/
def Flow.poll (flow : Flow) (id : ℕ) (session : RecipientSession) (deadline : ℕ) : Turn :=
  match throwIfAborted flow.aborted with
  | .error cause => flow.settle id [] (.error cause)
  | .ok () => ⟨{ flow with stage := .downloading id session deadline }, []⟩

/-- The calls that `openSealedBlob` makes on the handle. -/
def openCalls (blob : Bytes) : List HandleCall :=
  match decodeShareBlob blob with
  | .error _ => []
  | .ok _ => [.openShare]

variable (primitives : Primitives)

/-- The rest of the loop of `pollAndDecrypt`, once the reply of the relay is there. -/
def Flow.afterDownload (flow : Flow) (id : ℕ) (session : RecipientSession) (deadline now : ℕ)
    (reply : RelayReply) : Turn :=
  match tryDownloadBlob reply with
  | .error cause => flow.settle id [] (.error cause)
  | .ok (some blob) =>
    flow.settle id (openCalls blob) (openSealedBlob primitives session.handle blob)
  | .ok none =>
    if now ≥ deadline then
      flow.settle id []
        (.error (.share (.of .rendezvousExpired "timed out waiting for the sender")))
    else ⟨{ flow with stage := .sleeping id session deadline (!flow.aborted) }, []⟩

/-- The effect or the loop goes on after a promise that was settled. -/
def Flow.resume (flow : Flow) : Option Turn :=
  match flow.stage with
  | .prepared id session =>
    if flow.active then
      some ⟨{ flow with screen := .waiting session, stage := .starting id session }, []⟩
    else some ⟨{ flow with stage := .ended }, [(id, .free)]⟩
  | .refused cause => some ⟨flow.fail (.thrown cause), []⟩
  | .woken id session deadline => some (flow.poll id session deadline)
  | .interrupted id _ _ =>
    some (flow.settle id [] (.error (.share (.of .network "share polling aborted by caller"))))
  | .settled (.error cause) => some ⟨flow.fail (.thrown cause), []⟩
  | .settled (.ok plaintext) =>
    if flow.active then
      match decodeSharedNote plaintext with
      | .error failure => some ⟨flow.fail (.undecodable failure), []⟩
      | .ok note => some ⟨{ flow with stage := .saving note }, []⟩
    else some ⟨{ flow with stage := .ended }, []⟩
  | _ => none

/-- `active = false; controller.abort()`: the abort rejects a sleep that listens. -/
def Flow.close (flow : Flow) : Flow :=
  { flow with
    active := false
    aborted := true
    stage :=
      match flow.stage with
      | .sleeping id session deadline true => .interrupted id session deadline
      | stage => stage }

/-- What an event does to a flow, when `allocated` handles exist already. -/
def Flow.step (allocated : ℕ) (flow : Flow) : FlowEvent → Option Turn
  | .wasmReady drawn =>
    match flow.stage, drawn with
    | .loading, none => some ⟨{ flow with
        stage := .refused
          (.foreign "entropy source (crypto.getRandomValues / OS RNG) failed") }, []⟩
    | .loading, some secret => some ⟨{ flow with
        stage := .minting allocated ⟨secret⟩
        created := some allocated }, [(allocated, .prepare), (allocated, .pubkey)]⟩
    | _, _ => none
  | .minted reply =>
    match flow.stage with
    | .minting id handle =>
      match mint reply with
      | .error cause => some ⟨{ flow with stage := .refused cause }, [(id, .free)]⟩
      | .ok parts =>
        some ⟨{ flow with stage := .prepared id ⟨parts.code, parts.expiresAt, handle⟩ }, []⟩
    | _ => none
  | .resumed => flow.resume
  | .pollReady now =>
    match flow.stage with
    | .starting id session => some (flow.poll id session (pollDeadline session now none))
    | _ => none
  | .downloaded now reply =>
    match flow.stage with
    | .downloading id session deadline =>
      some (flow.afterDownload primitives id session deadline now reply)
    | _ => none
  | .slept =>
    match flow.stage with
    | .sleeping id session deadline _ =>
      some ⟨{ flow with stage := .woken id session deadline }, []⟩
    | _ => none
  | .saved reply =>
    match flow.stage, reply with
    | .saving _, .error message => some ⟨flow.fail (.unsaved message), []⟩
    | .saving _, .ok () => some ⟨{ flow with
        stage := .ended
        screen := if flow.active then .received else flow.screen }, []⟩
    | _, _ => none
  | .closed => if flow.active then some ⟨flow.close, []⟩ else none

/-! ### All flows -/

/-- Every flow of the page, the log of their calls, and how many handles were created. -/
structure Receivers where
  flows : List Flow
  log : HandleLog
  allocated : ℕ

/-- A page on which no dialog was opened yet. -/
def Receivers.start : Receivers :=
  ⟨[], [], 0⟩

/-- What happens on the page. -/
inductive ReceiversEvent
  | opened
  | happened (index : ℕ) (event : FlowEvent)

/-- How many handles a turn created. -/
def preparedBy (calls : HandleLog) : ℕ :=
  calls.countP fun call ↦ call.2 = .prepare

/-- The page after a turn of one flow. -/
def Receivers.after (world : Receivers) (index : ℕ) (turn : Turn) : Receivers :=
  ⟨world.flows.set index turn.flow, world.log ++ turn.calls,
    world.allocated + preparedBy turn.calls⟩

/-- What an event does. -/
def Receivers.step (world : Receivers) : ReceiversEvent → Option Receivers
  | .opened => some { world with flows := world.flows ++ [.mounted] }
  | .happened index event =>
    match world.flows[index]? with
    | none => none
    | some flow =>
      (flow.step primitives world.allocated event).map (world.after index)

/-- The page, under any interleaving of its dialogs. -/
def receivers : Automaton Receivers ReceiversEvent where
  step := Receivers.step primitives

/-! ### The model against the one-call functions -/

/-- The loop of a flow takes the turn that `pollTurn` takes. -/
theorem afterDownload_stage (flow : Flow) (id : ℕ) (session : RecipientSession) (deadline now : ℕ)
    (reply : RelayReply) :
    (flow.afterDownload primitives id session deadline now reply).flow.stage =
      match pollTurn primitives session.handle deadline now reply with
      | some result => .settled result
      | none => .sleeping id session deadline (!flow.aborted) := by
  unfold Flow.afterDownload pollTurn
  cases tryDownloadBlob reply with
  | error cause => rfl
  | ok blob? =>
    cases blob? with
    | some blob => rfl
    | none =>
      by_cases hdeadline : now ≥ deadline
      · simp only [hdeadline, if_true]
        rfl
      · simp only [hdeadline, if_false]

variable {primitives}

/-! ### The calls on one handle -/

theorem callsOn_append (id : ℕ) (first second : HandleLog) :
    callsOn id (first ++ second) = callsOn id first ++ callsOn id second := by
  unfold callsOn
  rw [List.filter_append, List.map_append]

theorem callsOn_eq_nil {id : ℕ} {log : HandleLog} (hlog : ∀ entry ∈ log, entry.1 ≠ id) :
    callsOn id log = [] := by
  unfold callsOn
  rw [List.map_eq_nil_iff, List.filter_eq_nil_iff]
  intro entry hentry
  simpa using hlog entry hentry

theorem eq_of_mem_map_mk {id : ℕ} {calls : List HandleCall} {entry : ℕ × HandleCall}
    (hentry : entry ∈ calls.map (Prod.mk id)) : entry.1 = id := by
  obtain ⟨call, _, hcall⟩ := List.mem_map.mp hentry
  rw [← hcall]

theorem callsOn_map_mk (id : ℕ) (calls : List HandleCall) :
    callsOn id (calls.map (Prod.mk id)) = calls := by
  unfold callsOn
  rw [List.filter_eq_self.mpr]
  · rw [List.map_map]
    exact List.map_id calls
  · intro entry hentry
    simpa using eq_of_mem_map_mk hentry

/-- The life of a handle that went from one phase to another has a call of `free` for each time
it was freed. -/
def HandlePhase.frees : HandlePhase → ℕ
  | .freed => 1
  | .absent | .live => 0

/-- A call moves the number of times a handle was freed by what it is. -/
theorem frees_of_step {phase next : HandlePhase} {call : HandleCall}
    (hstep : lifecycle.step phase call = some next) :
    phase.frees + [call].count .free = next.frees := by
  cases phase <;> cases call <;> first
    | cases hstep
      rfl
    | cases hstep

/-- How often a handle is freed over a part of its life. -/
theorem frees_of_run {calls : List HandleCall} : ∀ {phase final : HandlePhase},
    lifecycle.run phase calls = some final → phase.frees + calls.count .free = final.frees := by
  induction calls with
  | nil =>
    intro phase final hrun
    rw [Automaton.run, Option.some.injEq] at hrun
    rw [hrun, List.count_nil, Nat.add_zero]
  | cons call rest ih =>
    intro phase final hrun
    obtain ⟨next, hnext, hrest⟩ := Option.bind_eq_some_iff.mp hrun
    have hcall := frees_of_step hnext
    have hlater := ih hrest
    rw [← List.singleton_append, List.count_append]
    omega

/-- Nothing is called on a handle that was freed. -/
theorem eq_nil_of_run_freed {calls : List HandleCall} {final : HandlePhase}
    (hrun : lifecycle.run .freed calls = some final) : calls = [] := by
  cases calls with
  | nil => rfl
  | cons call rest =>
    obtain ⟨next, hnext, _⟩ := Option.bind_eq_some_iff.mp hrun
    cases hnext

/-- `free` is the last call of a life. -/
theorem eq_nil_of_run_free {earlier later : List HandleCall} {phase final : HandlePhase}
    (hrun : lifecycle.run phase (earlier ++ .free :: later) = some final) : later = [] := by
  rw [Automaton.run_append, Option.bind_eq_some_iff] at hrun
  obtain ⟨before, _, hfree⟩ := hrun
  obtain ⟨after, hafter, hlater⟩ := Option.bind_eq_some_iff.mp hfree
  have hfreed : after = .freed := by
    cases before with
    | live => exact (Option.some.inj hafter).symm
    | absent => cases hafter
    | freed => cases hafter
  rw [hfreed] at hlater
  exact eq_nil_of_run_freed hlater

/-! ### What a turn does to the handle of its flow -/

/-- The phase of the handle that a flow created, read off the stage of the flow. -/
def Flow.phase (flow : Flow) : HandlePhase :=
  match flow.created, flow.stage.held? with
  | none, _ => .absent
  | some _, some _ => .live
  | some _, none => .freed

/-- A flow holds no handle but the one it created, and it created none before it began. -/
structure Flow.Owns (flow : Flow) : Prop where
  held : ∀ id, flow.stage.held? = some id → flow.created = some id
  fresh : flow.stage = .loading → flow.created = none

/-- What a turn can do: create a handle, or move the handle of the flow along its life. -/
inductive Turn.Follows (allocated : ℕ) (flow : Flow) (turn : Turn) : Prop
  | creates (hnone : flow.created = none) (hcreated : turn.flow.created = some allocated)
      (hcalls : turn.calls = [(allocated, .prepare), (allocated, .pubkey)])
      (hphase : turn.flow.phase = .live)
  | keeps (hcreated : turn.flow.created = flow.created) (hprepared : preparedBy turn.calls = 0)
      (hcalls : ∀ entry ∈ turn.calls, flow.created = some entry.1)
      (hrun : ∀ id, flow.created = some id →
        lifecycle.run flow.phase (callsOn id turn.calls) = some turn.flow.phase)

/-- A turn that follows the life of the handle and leaves a flow that owns it. -/
structure Turn.Sound (allocated : ℕ) (flow : Flow) (turn : Turn) : Prop where
  owns : turn.flow.Owns
  follows : turn.Follows allocated flow

theorem Flow.Owns.phase_eq_live {flow : Flow} (howns : flow.Owns) {id : ℕ}
    (hheld : flow.stage.held? = some id) : flow.phase = .live := by
  have hcreated : flow.created = some id := howns.held id hheld
  unfold Flow.phase
  rw [hcreated, hheld]

/-- A turn without a call that keeps what the flow holds is sound. -/
theorem Turn.sound_of_rests {allocated : ℕ} {flow next : Flow} (howns : flow.Owns)
    (hcreated : next.created = flow.created) (hheld : next.stage.held? = flow.stage.held?)
    (hloading : next.stage = .loading → flow.stage = .loading) :
    Turn.Sound allocated flow ⟨next, []⟩ := by
  constructor
  · constructor
    · intro id hid
      rw [hcreated]
      apply howns.held
      rw [← hheld]
      exact hid
    · intro hstage
      rw [hcreated]
      exact howns.fresh (hloading hstage)
  · have hphase : next.phase = flow.phase := by
      unfold Flow.phase
      rw [hcreated, hheld]
    apply Turn.Follows.keeps hcreated (by rfl) (List.forall_mem_nil _)
    intro id _
    show some flow.phase = some next.phase
    rw [hphase]

/-- A turn that makes at most one call and then frees the handle the flow holds is sound. -/
theorem Turn.sound_of_frees {allocated : ℕ} {flow next : Flow} (howns : flow.Owns) {id : ℕ}
    (hheld : flow.stage.held? = some id) (hcreated : next.created = flow.created)
    (hnext : next.stage.held? = none) (hloading : next.stage ≠ .loading)
    (calls : List HandleCall) (hcalls : calls = [] ∨ calls = [.openShare]) :
    Turn.Sound allocated flow ⟨next, (calls ++ [HandleCall.free]).map (Prod.mk id)⟩ := by
  have hid : flow.created = some id := howns.held id hheld
  have hfreed : next.phase = .freed := by
    unfold Flow.phase
    rw [hcreated, hid, hnext]
  constructor
  · constructor
    · intro other hother
      simp [hnext] at hother
    · intro hstage
      exact absurd hstage hloading
  · apply Turn.Follows.keeps hcreated
    · rcases hcalls with rfl | rfl <;> rfl
    · intro entry hentry
      rw [hid, Option.some.injEq]
      exact (eq_of_mem_map_mk hentry).symm
    · intro other hother
      have hsame : other = id := Option.some.inj (hother.symm.trans hid)
      rw [hsame, callsOn_map_mk, howns.phase_eq_live hheld, hfreed]
      rcases hcalls with rfl | rfl <;> rfl

section Turns

variable {allocated : ℕ} {flow : Flow} {id : ℕ}

theorem sound_settle (howns : flow.Owns) (hheld : flow.stage.held? = some id)
    {calls : List HandleCall} (hcalls : calls = [] ∨ calls = [.openShare])
    (result : Except Thrown Bytes) :
    (flow.settle id calls result).Sound allocated flow :=
  Turn.sound_of_frees howns hheld (by rfl) (by rfl) (by simp) calls hcalls

theorem sound_fail (howns : flow.Owns) (hheld : flow.stage.held? = none) (cause : FlowError) :
    Turn.Sound allocated flow ⟨flow.fail cause, []⟩ :=
  Turn.sound_of_rests howns (by rfl) (by rw [hheld]; rfl) (by simp [Flow.fail])

theorem sound_poll (howns : flow.Owns) (hheld : flow.stage.held? = some id)
    (session : RecipientSession) (deadline : ℕ) :
    (flow.poll id session deadline).Sound allocated flow := by
  unfold Flow.poll
  cases throwIfAborted flow.aborted with
  | error cause => exact sound_settle howns hheld (.inl rfl) _
  | ok _ => exact Turn.sound_of_rests howns (by rfl) (by rw [hheld]; rfl) (by simp)

/-- `openSealedBlob` calls no method of the handle but `openShare`, at most once. -/
theorem openCalls_eq_or (blob : Bytes) : openCalls blob = [] ∨ openCalls blob = [.openShare] := by
  unfold openCalls
  cases decodeShareBlob blob with
  | error error => exact .inl rfl
  | ok parts => exact .inr rfl

theorem sound_afterDownload (howns : flow.Owns) (hheld : flow.stage.held? = some id)
    (session : RecipientSession) (deadline now : ℕ) (reply : RelayReply) :
    (flow.afterDownload primitives id session deadline now reply).Sound allocated flow := by
  unfold Flow.afterDownload
  cases tryDownloadBlob reply with
  | error cause => exact sound_settle howns hheld (.inl rfl) _
  | ok blob? =>
    cases blob? with
    | some blob => exact sound_settle howns hheld (openCalls_eq_or blob) _
    | none =>
      by_cases hdeadline : now ≥ deadline
      · simp only [hdeadline, if_true]
        exact sound_settle howns hheld (.inl rfl) _
      · simp only [hdeadline, if_false]
        exact Turn.sound_of_rests howns (by rfl) (by rw [hheld]; rfl) (by simp)

theorem sound_resume (howns : flow.Owns) {turn : Turn} (hturn : flow.resume = some turn) :
    turn.Sound allocated flow := by
  unfold Flow.resume at hturn
  split at hturn
  case h_1 id session hstage =>
    have hheld : flow.stage.held? = some id := by rw [hstage]; rfl
    by_cases hactive : flow.active
    · simp only [hactive, if_true, Option.some.injEq] at hturn
      subst hturn
      exact Turn.sound_of_rests howns (by rfl) (by rw [hheld]; rfl) (by simp)
    · simp only [hactive, Bool.false_eq_true, if_false, Option.some.injEq] at hturn
      subst hturn
      exact Turn.sound_of_frees howns hheld (by rfl) (by rfl) (by simp) [] (.inl rfl)
  case h_2 cause hstage =>
    rw [Option.some.injEq] at hturn
    subst hturn
    exact sound_fail howns (by rw [hstage]; rfl) _
  case h_3 id session deadline hstage =>
    rw [Option.some.injEq] at hturn
    subst hturn
    exact sound_poll howns (by rw [hstage]; rfl) session deadline
  case h_4 id session deadline hstage =>
    rw [Option.some.injEq] at hturn
    subst hturn
    exact sound_settle howns (by rw [hstage]; rfl) (.inl rfl) _
  case h_5 cause hstage =>
    rw [Option.some.injEq] at hturn
    subst hturn
    exact sound_fail howns (by rw [hstage]; rfl) _
  case h_6 plaintext hstage =>
    have hheld : flow.stage.held? = none := by rw [hstage]; rfl
    by_cases hactive : flow.active
    · simp only [hactive, if_true] at hturn
      cases hnote : decodeSharedNote plaintext with
      | error failure =>
        simp only [hnote, Option.some.injEq] at hturn
        subst hturn
        exact sound_fail howns hheld _
      | ok note =>
        simp only [hnote, Option.some.injEq] at hturn
        subst hturn
        exact Turn.sound_of_rests howns (by rfl) (by rw [hheld]; rfl) (by simp)
    · simp only [hactive, Bool.false_eq_true, if_false, Option.some.injEq] at hturn
      subst hturn
      exact Turn.sound_of_rests howns (by rfl) (by rw [hheld]; rfl) (by simp)
  case h_7 => cases hturn

theorem sound_close (howns : flow.Owns) : Turn.Sound allocated flow ⟨flow.close, []⟩ := by
  apply Turn.sound_of_rests howns (by rfl)
  · unfold Flow.close
    split
    case h_1 id session deadline hstage => rw [hstage]; rfl
    case h_2 => rfl
  · unfold Flow.close
    split
    case h_1 => simp
    case h_2 => exact fun hloading ↦ hloading

/-- Every event of a flow takes a sound turn. -/
theorem sound_step (howns : flow.Owns) {event : FlowEvent} {turn : Turn}
    (hturn : flow.step primitives allocated event = some turn) : turn.Sound allocated flow := by
  cases event with
  | wasmReady drawn =>
    simp only [Flow.step] at hturn
    split at hturn
    case h_1 hstage =>
      rw [Option.some.injEq] at hturn
      subst hturn
      exact Turn.sound_of_rests howns (by rfl) (by rw [hstage]; rfl) (by simp)
    case h_2 secret hstage =>
      rw [Option.some.injEq] at hturn
      subst hturn
      constructor
      · constructor
        · exact fun id hid ↦ hid
        · simp
      · exact Turn.Follows.creates (howns.fresh hstage) (by rfl) (by rfl) (by rfl)
    case h_3 => cases hturn
  | minted reply =>
    simp only [Flow.step] at hturn
    split at hturn
    case h_1 id handle hstage =>
      have hheld : flow.stage.held? = some id := by rw [hstage]; rfl
      cases hmint : mint reply with
      | error cause =>
        simp only [hmint, Option.some.injEq] at hturn
        subst hturn
        exact Turn.sound_of_frees howns hheld (by rfl) (by rfl) (by simp) [] (.inl rfl)
      | ok parts =>
        simp only [hmint, Option.some.injEq] at hturn
        subst hturn
        exact Turn.sound_of_rests howns (by rfl) (by rw [hheld]; rfl) (by simp)
    case h_2 => cases hturn
  | resumed => exact sound_resume howns hturn
  | pollReady now =>
    simp only [Flow.step] at hturn
    split at hturn
    case h_1 id session hstage =>
      rw [Option.some.injEq] at hturn
      subst hturn
      exact sound_poll howns (by rw [hstage]; rfl) session _
    case h_2 => cases hturn
  | downloaded now reply =>
    simp only [Flow.step] at hturn
    split at hturn
    case h_1 id session deadline hstage =>
      rw [Option.some.injEq] at hturn
      subst hturn
      exact sound_afterDownload howns (by rw [hstage]; rfl) session deadline now reply
    case h_2 => cases hturn
  | slept =>
    simp only [Flow.step] at hturn
    split at hturn
    case h_1 id session deadline listening hstage =>
      rw [Option.some.injEq] at hturn
      subst hturn
      exact Turn.sound_of_rests howns (by rfl) (by rw [hstage]; rfl) (by simp)
    case h_2 => cases hturn
  | saved reply =>
    simp only [Flow.step] at hturn
    split at hturn
    case h_1 note message hstage =>
      rw [Option.some.injEq] at hturn
      subst hturn
      exact sound_fail howns (by rw [hstage]; rfl) _
    case h_2 note hstage =>
      rw [Option.some.injEq] at hturn
      subst hturn
      exact Turn.sound_of_rests howns (by rfl) (by rw [hstage]; rfl) (by simp)
    case h_3 => cases hturn
  | closed =>
    simp only [Flow.step] at hturn
    by_cases hactive : flow.active
    · simp only [hactive, if_true, Option.some.injEq] at hturn
      subst hturn
      exact sound_close howns
    · simp [hactive] at hturn

end Turns

/-! ### Every handle of the page -/

/-- Every handle was created by one flow, and the calls on it are its life up to the phase that the
flow is in. -/
structure Accounted (world : Receivers) : Prop where
  owns : ∀ flow ∈ world.flows, flow.Owns
  numbered : ∀ entry ∈ world.log, entry.1 < world.allocated
  owned : ∀ id < world.allocated, ∃ (index : ℕ) (flow : Flow),
    world.flows[index]? = some flow ∧ flow.created = some id
  lived : ∀ (index : ℕ) (flow : Flow) (id : ℕ), world.flows[index]? = some flow →
    flow.created = some id →
      id < world.allocated ∧ lifecycle.run .absent (callsOn id world.log) = some flow.phase
  apart : ∀ (first second : ℕ) (flow other : Flow) (id : ℕ), world.flows[first]? = some flow →
    world.flows[second]? = some other → flow.created = some id → other.created = some id →
      first = second

theorem accounted_start : Accounted .start := by
  constructor
  · exact List.forall_mem_nil _
  · exact List.forall_mem_nil _
  · intro id hid
    exact absurd hid (Nat.not_lt_zero id)
  · intro index flow id hflow
    cases hflow
  · intro first second flow other id hflow
    cases hflow

/-- A flow among those of a page with one more dialog is an earlier one, or created nothing yet. -/
theorem getElem?_of_created {flows : List Flow} {index : ℕ} {flow : Flow} {id : ℕ}
    (hflow : (flows ++ [Flow.mounted])[index]? = some flow) (hid : flow.created = some id) :
    flows[index]? = some flow := by
  by_cases hlt : index < flows.length
  · rwa [List.getElem?_append_left hlt] at hflow
  · rw [List.getElem?_append_right (Nat.le_of_not_lt hlt)] at hflow
    have hmem : flow ∈ [Flow.mounted] := List.mem_of_getElem? hflow
    rw [List.mem_singleton.mp hmem] at hid
    cases hid

/-- A dialog that is opened changes nothing about the handles there are. -/
theorem Accounted.opened {world : Receivers} (haccounted : Accounted world) :
    Accounted { world with flows := world.flows ++ [.mounted] } := by
  constructor
  · intro flow hflow
    rcases List.mem_append.mp hflow with hearlier | hlast
    · exact haccounted.owns flow hearlier
    · rw [List.mem_singleton.mp hlast]
      constructor
      · intro id hid
        cases hid
      · exact fun _ ↦ rfl
  · exact haccounted.numbered
  · intro id hlt
    obtain ⟨index, flow, hflow, hid⟩ := haccounted.owned id hlt
    refine ⟨index, flow, ?_, hid⟩
    have hindex : index < world.flows.length := (List.getElem?_eq_some_iff.mp hflow).1
    show (world.flows ++ [.mounted])[index]? = some flow
    rw [List.getElem?_append_left hindex]
    exact hflow
  · intro index flow id hflow hid
    exact haccounted.lived index flow id (getElem?_of_created hflow hid) hid
  · intro first second flow other id hflow hother hid hotherId
    exact haccounted.apart first second flow other id (getElem?_of_created hflow hid)
      (getElem?_of_created hother hotherId) hid hotherId

/-- A flow among those of a page where one was replaced is the new one, or another as before. -/
theorem getElem?_set_cases {flows : List Flow} {index place : ℕ} {next flow : Flow}
    (hflow : (flows.set index next)[place]? = some flow) :
    place = index ∧ flow = next ∨ place ≠ index ∧ flows[place]? = some flow := by
  by_cases hplace : place = index
  · have hlt : index < flows.length := by
      have hplaceLt := (List.getElem?_eq_some_iff.mp hflow).1
      rw [List.length_set] at hplaceLt
      omega
    rw [hplace, List.getElem?_set_self hlt, Option.some.injEq] at hflow
    exact .inl ⟨hplace, hflow.symm⟩
  · rw [List.getElem?_set_ne (Ne.symm hplace)] at hflow
    exact .inr ⟨hplace, hflow⟩

section Turns

variable {world : Receivers} {index : ℕ} {flow : Flow} {turn : Turn}

theorem allocated_after :
    (world.after index turn).allocated = world.allocated + preparedBy turn.calls := rfl

theorem getElem?_after (hflow : world.flows[index]? = some flow) :
    (world.flows.set index turn.flow)[index]? = some turn.flow :=
  List.getElem?_set_self (List.getElem?_eq_some_iff.mp hflow).1

theorem Accounted.owns_after (haccounted : Accounted world) (howns : turn.flow.Owns) :
    ∀ other ∈ (world.after index turn).flows, other.Owns := by
  intro other hother
  rcases List.mem_or_eq_of_mem_set hother with hearlier | hnew
  · exact haccounted.owns other hearlier
  · rw [hnew]
    exact howns

/-- A turn that creates a handle gives it the next number, which no flow has. -/
theorem Accounted.after_creates (haccounted : Accounted world)
    (hflow : world.flows[index]? = some flow) (howns : turn.flow.Owns)
    (hnone : flow.created = none) (hcreated : turn.flow.created = some world.allocated)
    (hcalls : turn.calls = [(world.allocated, .prepare), (world.allocated, .pubkey)])
    (hphase : turn.flow.phase = .live) : Accounted (world.after index turn) := by
  have hcount : preparedBy turn.calls = 1 := by rw [hcalls]; rfl
  have hothers : ∀ id, id < world.allocated → callsOn id turn.calls = [] := by
    intro id hlt
    apply callsOn_eq_nil
    rw [hcalls]
    simp
    omega
  constructor
  · exact haccounted.owns_after howns
  · intro entry hentry
    rw [allocated_after, hcount]
    rcases List.mem_append.mp hentry with hearlier | hnew
    · exact Nat.lt_succ_of_lt (haccounted.numbered entry hearlier)
    · rw [hcalls] at hnew
      simp at hnew
      rcases hnew with rfl | rfl <;> simp
  · intro id hlt
    rw [allocated_after, hcount] at hlt
    by_cases hnew : id = world.allocated
    · exact ⟨index, turn.flow, getElem?_after hflow, by rw [hcreated, hnew]⟩
    · obtain ⟨place, owner, howner, hid⟩ := haccounted.owned id (by omega)
      have hne : index ≠ place := by
        intro hsame
        rw [← hsame, hflow, Option.some.injEq] at howner
        rw [← howner, hnone] at hid
        cases hid
      refine ⟨place, owner, ?_, hid⟩
      show (world.flows.set index turn.flow)[place]? = some owner
      rw [List.getElem?_set_ne hne]
      exact howner
  · intro place other id hother hid
    show id < world.allocated + preparedBy turn.calls ∧
      lifecycle.run .absent (callsOn id (world.log ++ turn.calls)) = some other.phase
    rw [hcount, callsOn_append]
    rcases getElem?_set_cases hother with ⟨-, rfl⟩ | ⟨-, hearlier⟩
    · have hlast : world.allocated = id := Option.some.inj (hcreated.symm.trans hid)
      have hunused : callsOn id world.log = [] := by
        apply callsOn_eq_nil
        intro entry hentry
        have hlt := haccounted.numbered entry hentry
        omega
      rw [hunused, hphase, hcalls, hlast]
      constructor
      · omega
      · show lifecycle.run .absent (callsOn id ([HandleCall.prepare, .pubkey].map (Prod.mk id))) =
          some .live
        rw [callsOn_map_mk]
        rfl
    · obtain ⟨hlt, hrun⟩ := haccounted.lived place other id hearlier hid
      rw [hothers id hlt, List.append_nil]
      exact ⟨Nat.lt_succ_of_lt hlt, hrun⟩
  · intro first second one other id hone hother hid hotherId
    rcases getElem?_set_cases hone with ⟨rfl, rfl⟩ | ⟨hfirst, hearlier⟩
    · rcases getElem?_set_cases hother with ⟨rfl, -⟩ | ⟨-, hotherEarlier⟩
      · rfl
      · have hlt := (haccounted.lived second other id hotherEarlier hotherId).1
        have hlast : world.allocated = id := Option.some.inj (hcreated.symm.trans hid)
        omega
    · have hlt := (haccounted.lived first one id hearlier hid).1
      rcases getElem?_set_cases hother with ⟨rfl, rfl⟩ | ⟨-, hotherEarlier⟩
      · have hlast : world.allocated = id := Option.some.inj (hcreated.symm.trans hotherId)
        omega
      · exact haccounted.apart first second one other id hearlier hotherEarlier hid hotherId

/-- A turn that creates no handle moves its own along, and no other flow notices. -/
theorem Accounted.after_keeps (haccounted : Accounted world)
    (hflow : world.flows[index]? = some flow) (howns : turn.flow.Owns)
    (hcreated : turn.flow.created = flow.created) (hprepared : preparedBy turn.calls = 0)
    (hcalls : ∀ entry ∈ turn.calls, flow.created = some entry.1)
    (hrun : ∀ id, flow.created = some id →
      lifecycle.run flow.phase (callsOn id turn.calls) = some turn.flow.phase) :
    Accounted (world.after index turn) := by
  have hold : ∀ (place : ℕ) (other : Flow),
      (world.flows.set index turn.flow)[place]? = some other →
        ∃ earlier, world.flows[place]? = some earlier ∧ other.created = earlier.created := by
    intro place other hother
    rcases getElem?_set_cases hother with ⟨rfl, rfl⟩ | ⟨-, hearlier⟩
    · exact ⟨flow, hflow, hcreated⟩
    · exact ⟨other, hearlier, rfl⟩
  constructor
  · exact haccounted.owns_after howns
  · intro entry hentry
    rw [allocated_after, hprepared, Nat.add_zero]
    rcases List.mem_append.mp hentry with hearlier | hnew
    · exact haccounted.numbered entry hearlier
    · exact (haccounted.lived index flow entry.1 hflow (hcalls entry hnew)).1
  · intro id hlt
    rw [allocated_after, hprepared, Nat.add_zero] at hlt
    obtain ⟨place, owner, howner, hid⟩ := haccounted.owned id hlt
    by_cases hplace : index = place
    · rw [← hplace, hflow, Option.some.injEq] at howner
      exact ⟨index, turn.flow, getElem?_after hflow, by rw [hcreated, howner, hid]⟩
    · refine ⟨place, owner, ?_, hid⟩
      show (world.flows.set index turn.flow)[place]? = some owner
      rw [List.getElem?_set_ne hplace]
      exact howner
  · intro place other id hother hid
    show id < world.allocated + preparedBy turn.calls ∧
      lifecycle.run .absent (callsOn id (world.log ++ turn.calls)) = some other.phase
    rw [hprepared, Nat.add_zero, callsOn_append, Automaton.run_append]
    rcases getElem?_set_cases hother with ⟨-, rfl⟩ | ⟨hplace, hearlier⟩
    · have hflowId : flow.created = some id := hcreated.symm.trans hid
      obtain ⟨hlt, hbefore⟩ := haccounted.lived index flow id hflow hflowId
      rw [hbefore, Option.bind_some]
      exact ⟨hlt, hrun id hflowId⟩
    · obtain ⟨hlt, hbefore⟩ := haccounted.lived place other id hearlier hid
      have hnone : callsOn id turn.calls = [] := by
        apply callsOn_eq_nil
        intro entry hentry hsame
        rw [← hsame] at hid
        exact hplace (haccounted.apart place index other flow entry.1 hearlier hflow hid
          (hcalls entry hentry))
      rw [hbefore, Option.bind_some, hnone]
      exact ⟨hlt, rfl⟩
  · intro first second one other id hone hother hid hotherId
    obtain ⟨oneBefore, honeBefore, honeCreated⟩ := hold first one hone
    obtain ⟨otherBefore, hotherBefore, hotherCreated⟩ := hold second other hother
    rw [honeCreated] at hid
    rw [hotherCreated] at hotherId
    exact haccounted.apart first second oneBefore otherBefore id honeBefore hotherBefore hid
      hotherId

/-- A sound turn of one flow leaves every handle accounted for. -/
theorem Accounted.after (haccounted : Accounted world)
    (hflow : world.flows[index]? = some flow) (hsound : turn.Sound world.allocated flow) :
    Accounted (world.after index turn) := by
  cases hsound.follows with
  | creates hnone hcreated hcalls hphase =>
    exact haccounted.after_creates hflow hsound.owns hnone hcreated hcalls hphase
  | keeps hcreated hprepared hcalls hrun =>
    exact haccounted.after_keeps hflow hsound.owns hcreated hprepared hcalls hrun

end Turns

/-- The handles of every reachable page are accounted for. -/
theorem accounted_of_reaches {world : Receivers}
    (hreaches : (receivers primitives).Reaches .start world) : Accounted world := by
  apply hreaches.invariant Accounted accounted_start
  intro state event next haccounted _ hstep
  cases event with
  | opened =>
    have hnext : next = { state with flows := state.flows ++ [.mounted] } :=
      (Option.some.inj hstep).symm
    rw [hnext]
    exact haccounted.opened
  | happened index event =>
    have hstep : Receivers.step primitives state (.happened index event) = some next := hstep
    unfold Receivers.step at hstep
    cases hflow : state.flows[index]? with
    | none => simp [hflow] at hstep
    | some flow =>
      simp only [hflow, Option.map_eq_some_iff] at hstep
      obtain ⟨turn, hturn, hnext⟩ := hstep
      rw [← hnext]
      have howns : flow.Owns := haccounted.owns flow (List.mem_of_getElem? hflow)
      exact haccounted.after hflow (sound_step howns hturn)

/-- Under any interleaving, every handle was created by one flow, it has been freed exactly once
when that flow has ended, and nothing is called on it after it was freed. -/
theorem handle_freed_once {world : Receivers}
    (hreaches : (receivers primitives).Reaches .start world) {id : ℕ}
    (hprepared : (id, .prepare) ∈ world.log) :
    (∃! index : ℕ, world.flows[index]?.bind Flow.created = some id) ∧
      (∀ flow ∈ world.flows, flow.created = some id → flow.stage = .ended →
        (callsOn id world.log).count .free = 1) ∧
      ∀ earlier later, world.log = earlier ++ (id, .free) :: later →
        ∀ entry ∈ later, entry.1 ≠ id := by
  have haccounted := accounted_of_reaches hreaches
  obtain ⟨index, owner, howner, hid⟩ :=
    haccounted.owned id (haccounted.numbered (id, .prepare) hprepared)
  refine ⟨?_, ?_, ?_⟩
  · refine ⟨index, by simp [howner, hid], ?_⟩
    intro other hother
    obtain ⟨flow, hflow, hflowId⟩ := Option.bind_eq_some_iff.mp hother
    exact haccounted.apart other index flow owner id hflow howner hflowId hid
  · intro flow hflow hflowId hended
    obtain ⟨place, hplace⟩ := List.getElem?_of_mem hflow
    have hrun := (haccounted.lived place flow id hplace hflowId).2
    have hfreed : flow.phase = .freed := by
      unfold Flow.phase
      rw [hflowId, hended]
      rfl
    have hcount := frees_of_run hrun
    rw [hfreed] at hcount
    show List.count .free (callsOn id world.log) = 1
    have habsent : HandlePhase.absent.frees = 0 := rfl
    have honce : HandlePhase.freed.frees = 1 := rfl
    omega
  · intro earlier later hlog entry hentry hsame
    have hrun := (haccounted.lived index owner id howner hid).2
    have hfree : callsOn id ((id, .free) :: later) = .free :: callsOn id later := by
      simp [callsOn]
    rw [hlog, callsOn_append, hfree] at hrun
    have hnone : callsOn id later = [] := eq_nil_of_run_free hrun
    have hmem : entry.2 ∈ callsOn id later := by
      unfold callsOn
      apply List.mem_map_of_mem
      rw [List.mem_filter]
      exact ⟨hentry, by simpa using hsame⟩
    rw [hnone] at hmem
    cases hmem

/-- A run that calls no primitive needs none. -/
def uncalled : Primitives where
  blake3 _ := ⟨List.replicate keyLen 0, rfl⟩
  base32Encode _ := ""
  publicKey secret := secret
  diffieHellman secret _ := secret
  hkdf _ _ _ := none
  aeadEncrypt _ _ _ _ := none
  aeadDecrypt _ _ _ _ := none

/-- A dialog whose poll finds nothing and which is closed while it sleeps. -/
def closedAsleep : List ReceiversEvent :=
  [.opened, .happened 0 (.wasmReady (some ⟨List.replicate keyLen 7, rfl⟩)),
    .happened 0 (.minted (.response 200
      (.ok ([1, 0, 0, 0, 0, 0, 0, 3, 232] ++ List.replicate 12 65)))),
    .happened 0 .resumed, .happened 0 (.pollReady 5),
    .happened 0 (.downloaded 9 (.response 404 (.ok []))), .happened 0 .closed,
    .happened 0 .resumed, .happened 0 .resumed]

/-- The handle of a dialog that is closed while it sleeps. -/
theorem handle_freed_once_closedAsleep :
    ∃ world, (receivers uncalled).run .start closedAsleep = some world ∧
      world.log = [(0, .prepare), (0, .pubkey), (0, .free)] ∧
      (∃! index : ℕ, world.flows[index]?.bind Flow.created = some 0) ∧
      (∀ flow ∈ world.flows, flow.created = some 0 → flow.stage = .ended →
        (callsOn 0 world.log).count .free = 1) ∧
      ∀ earlier later, world.log = earlier ++ (0, .free) :: later →
        ∀ entry ∈ later, entry.1 ≠ 0 := by
  have hrun : ∃ world, (receivers uncalled).run .start closedAsleep = some world ∧
      world.log = [(0, .prepare), (0, .pubkey), (0, .free)] := ⟨_, rfl, rfl⟩
  obtain ⟨world, hworld, hlog⟩ := hrun
  have hprepared : (0, .prepare) ∈ world.log := by
    rw [hlog]
    exact List.mem_cons_self
  exact ⟨world, hworld, hlog, handle_freed_once (Automaton.reaches_of_run hworld) hprepared⟩

end OpfsWebauthn.Share
