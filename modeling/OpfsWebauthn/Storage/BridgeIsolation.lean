import Mathlib.Logic.Function.Basic
import OpfsWebauthn.Foundation.Automaton
import OpfsWebauthn.Storage.LeaderBridge

/-!
# Many bridges on one writer

Any number of bridges share one writer and one id allocator, as on the leader tab. `SharedWriter`
holds the bridges, the counter of the allocator and the messages the writer has received and not
answered, and next to them the history: what every client sent, what was forwarded for it under
which id, what the writer answered, and what every client received. Clients number their requests
as they like, so two clients use the same numbers.

`Isolated` is the invariant of a run. The ids of the forwarded requests are distinct and below the
counter, every id a bridge remembers is the id of a request of its own client that the writer has
not answered, and every reply a client received answers a request it sent. `isolated_step` is the
step lemma. `bridge_isolation` collects what holds in every state reached: each reply of the writer
carries the number of a request that this client sent and what the writer answered to that very
request, no forwarded ids collide, `close` is never forwarded, and closing, disposing or failing
one bridge changes no other bridge and no reply that another client waits for.
-/

set_option autoImplicit false
set_option relaxedAutoImplicit false

namespace OpfsWebauthn.Storage

open Foundation

/-- A message that a bridge posted to the writer: the bridge, the envelope as its client sent it,
and the message as the writer received it. -/
structure Forward where
  bridge : ℕ
  request : ClientEnvelope
  posted : PageMessage
deriving DecidableEq, Repr

/-- Where an envelope on a pair channel comes from. -/
inductive ReplySource
  /-- The writer's answer to the message it received under this id. -/
  | writer (leaderId : ℕ)
  /-- The answer to `close` that the bridge makes itself. -/
  | intercepted
  /-- `failPending`. -/
  | failure
deriving DecidableEq, Repr

/-- An envelope that a client received. -/
structure Reply where
  envelope : ServerEnvelope
  source : ReplySource
deriving DecidableEq, Repr

/-- The bridges of a leader on their writer, with the history of the run. -/
structure SharedWriter where
  bridges : ℕ → LeaderBridge Unit
  nextLeaderEnvelopeId : ℕ
  received : List PageMessage
  sent : ℕ → List ClientEnvelope
  forwarded : List Forward
  answered : List (ℕ × ServerBody)
  replies : ℕ → List Reply

/-- What can happen: a client's envelope reaches its bridge, the writer answers one of the messages
it has received, a bridge is disposed, or `failPending` is called on it. -/
inductive SharedWriterEvent
  | clientMessage (bridge : ℕ) (envelope : ClientEnvelope)
  | writerAnswers (position : ℕ) (body : ServerBody)
  | dispose (bridge : ℕ)
  | failPending (bridge : ℕ) (message : String)
deriving DecidableEq, Repr

namespace BridgeEffect

/-- The message that an effect posts to the writer. -/
def toWriter? : BridgeEffect → Option PageMessage
  | .writerPost message => some message
  | .channelPost _ => none
  | .channelClose => none
  | .clientClosed => none

/-- The envelope that an effect posts to the client. -/
def toClient? : BridgeEffect → Option ServerEnvelope
  | .writerPost _ => none
  | .channelPost envelope => some envelope
  | .channelClose => none
  | .clientClosed => none

@[simp] theorem toWriter?_writerPost (message : PageMessage) :
    toWriter? (.writerPost message) = some message := rfl

@[simp] theorem toWriter?_channelPost (envelope : ServerEnvelope) :
    toWriter? (.channelPost envelope) = none := rfl

@[simp] theorem toWriter?_channelClose : toWriter? .channelClose = none := rfl

@[simp] theorem toWriter?_clientClosed : toWriter? .clientClosed = none := rfl

@[simp] theorem toClient?_writerPost (message : PageMessage) :
    toClient? (.writerPost message) = none := rfl

@[simp] theorem toClient?_channelPost (envelope : ServerEnvelope) :
    toClient? (.channelPost envelope) = some envelope := rfl

@[simp] theorem toClient?_channelClose : toClient? .channelClose = none := rfl

@[simp] theorem toClient?_clientClosed : toClient? .clientClosed = none := rfl

end BridgeEffect

namespace SharedWriter

/-- Bridges without any traffic. -/
def initial : SharedWriter where
  bridges := fun _ ↦ .create ()
  nextLeaderEnvelopeId := 1
  received := []
  sent := fun _ ↦ []
  forwarded := []
  answered := []
  replies := fun _ ↦ []

/-- Adds replies to the history of one client. -/
def withReplies (replies : ℕ → List Reply) (bridge : ℕ) (source : ReplySource)
    (effects : List BridgeEffect) : ℕ → List Reply :=
  Function.update replies bridge
    (replies bridge ++ (effects.filterMap BridgeEffect.toClient?).map fun envelope ↦
      ⟨envelope, source⟩)

/-- The transition function. -/
def step (state : SharedWriter) : SharedWriterEvent → Option SharedWriter
  | .clientMessage bridge envelope =>
    let outcome :=
      (state.bridges bridge).onClientMessage state.nextLeaderEnvelopeId envelope.toMessage
    let posted := outcome.2.2.filterMap BridgeEffect.toWriter?
    some { state with
      bridges := Function.update state.bridges bridge outcome.1
      nextLeaderEnvelopeId := outcome.2.1
      received := state.received ++ posted
      sent := Function.update state.sent bridge (state.sent bridge ++ [envelope])
      forwarded := state.forwarded ++ posted.map fun message ↦ ⟨bridge, envelope, message⟩
      replies := withReplies state.replies bridge .intercepted outcome.2.2 }
  | .writerAnswers position body =>
    match state.received[position]? with
    | none => none
    | some ⟨none, _⟩ => some { state with received := state.received.eraseIdx position }
    | some ⟨some leaderId, _⟩ =>
      -- every bridge listens to the writer
      let outcome := fun bridge ↦ (state.bridges bridge).onWriterMessage ⟨some leaderId, body⟩
      some { state with
        bridges := fun bridge ↦ (outcome bridge).1
        received := state.received.eraseIdx position
        answered := state.answered ++ [(leaderId, body)]
        replies := fun bridge ↦ withReplies state.replies bridge (.writer leaderId)
          (outcome bridge).2 bridge }
  | .dispose bridge =>
    some { state with
      bridges := Function.update state.bridges bridge (state.bridges bridge).dispose.1 }
  | .failPending bridge message =>
    let outcome := (state.bridges bridge).failPending message
    some { state with
      bridges := Function.update state.bridges bridge outcome.1
      replies := withReplies state.replies bridge .failure outcome.2 }

/-- The bridges of a leader as an automaton. -/
def automaton : Automaton SharedWriter SharedWriterEvent :=
  ⟨step⟩

/-! ### What one step can do -/

/-- A client message that reaches a disposed bridge is only recorded as sent. -/
theorem step_clientMessage_disposed {state : SharedWriter} {bridge : ℕ}
    (hdisposed : (state.bridges bridge).disposed = true) (envelope : ClientEnvelope) :
    state.step (.clientMessage bridge envelope) = some { state with
      sent := Function.update state.sent bridge (state.sent bridge ++ [envelope]) } := by
  simp [step, withReplies, LeaderBridge.onClientMessage_disposed _ hdisposed]

/-- A `close` that reaches a live bridge is answered with its own number, and disposes the
bridge. -/
theorem step_clientMessage_close {state : SharedWriter} {bridge : ℕ}
    (hlive : (state.bridges bridge).disposed = false) {envelope : ClientEnvelope}
    (hclose : envelope.request.kind = .close) :
    state.step (.clientMessage bridge envelope) = some { state with
      bridges := Function.update state.bridges bridge
        { state.bridges bridge with disposed := true }
      sent := Function.update state.sent bridge (state.sent bridge ++ [envelope])
      replies := Function.update state.replies bridge
        (state.replies bridge ++ [⟨⟨envelope.id, .response .close⟩, .intercepted⟩]) } := by
  have hid : envelope.toMessage.id = some envelope.id := rfl
  simp [step, withReplies, LeaderBridge.onClientMessage_close _ hlive hid hclose,
    List.filterMap_cons]

/-- Any other request that reaches a live bridge is forwarded under the next id. -/
theorem step_clientMessage_forward {state : SharedWriter} {bridge : ℕ}
    (hlive : (state.bridges bridge).disposed = false) {envelope : ClientEnvelope}
    (hclose : envelope.request.kind ≠ .close) :
    state.step (.clientMessage bridge envelope) = some { state with
      bridges := Function.update state.bridges bridge { state.bridges bridge with
        idMap := (state.bridges bridge).idMap.set state.nextLeaderEnvelopeId envelope.id }
      nextLeaderEnvelopeId := state.nextLeaderEnvelopeId + 1
      received := state.received ++ [⟨some state.nextLeaderEnvelopeId, envelope.request⟩]
      sent := Function.update state.sent bridge (state.sent bridge ++ [envelope])
      forwarded := state.forwarded ++
        [⟨bridge, envelope, ⟨some state.nextLeaderEnvelopeId, envelope.request⟩⟩] } := by
  have hid : envelope.toMessage.id = some envelope.id := rfl
  have hrequest : envelope.toMessage.request = envelope.request := rfl
  simp [step, withReplies, LeaderBridge.onClientMessage_forward _ hlive hid hclose, hrequest]

/-- The writer's answer to a message with an id: every bridge gets to see it. -/
theorem step_writerAnswers {state : SharedWriter} {position leaderId : ℕ} {request : WorkerRequest}
    (hreceived : state.received[position]? = some ⟨some leaderId, request⟩) (body : ServerBody) :
    state.step (.writerAnswers position body) = some { state with
      bridges := fun bridge ↦ ((state.bridges bridge).onWriterMessage ⟨some leaderId, body⟩).1
      received := state.received.eraseIdx position
      answered := state.answered ++ [(leaderId, body)]
      replies := fun bridge ↦ withReplies state.replies bridge (.writer leaderId)
        ((state.bridges bridge).onWriterMessage ⟨some leaderId, body⟩).2 bridge } := by
  simp [step, hreceived]

/-- What a client receives of an answer: the envelope under its own number when its live bridge
remembers the id, and nothing otherwise. -/
theorem withReplies_onWriterMessage (state : SharedWriter) (bridge leaderId : ℕ)
    (body : ServerBody) :
    withReplies state.replies bridge (.writer leaderId)
        ((state.bridges bridge).onWriterMessage ⟨some leaderId, body⟩).2 bridge =
      state.replies bridge ++
        if (state.bridges bridge).disposed then []
        else ((state.bridges bridge).idMap.get? leaderId).toList.map fun clientId ↦
          ⟨⟨clientId, body⟩, .writer leaderId⟩ := by
  cases hdisposed : (state.bridges bridge).disposed with
  | true => simp [withReplies, LeaderBridge.onWriterMessage_disposed hdisposed]
  | false =>
    cases hmapped : (state.bridges bridge).idMap.get? leaderId with
    | none => simp [withReplies, LeaderBridge.onWriterMessage_unmapped hmapped]
    | some clientId => simp [withReplies, LeaderBridge.onWriterMessage_mapped hdisposed hmapped]

/-! ### The invariant -/

/-- A reply carries what the writer answered to a request that this client sent and that was
forwarded for it. -/
def ProducedByWriter (state : SharedWriter) (bridge : ℕ) (envelope : ServerEnvelope) : Prop :=
  ∃ request ∈ state.sent bridge, request.id = envelope.id ∧ ∃ leaderId,
    ⟨bridge, request, ⟨some leaderId, request.request⟩⟩ ∈ state.forwarded ∧
      (leaderId, envelope.body) ∈ state.answered

/-- Why a client received a reply. It carries the number of a request that this client sent, and a
reply of the writer is the writer's answer to the message this request was forwarded as. The other
two kinds are the bridge's own: the answer to a `close`, and the error that `failPending` makes for
a forwarded request. -/
def Justified (state : SharedWriter) (bridge : ℕ) (reply : Reply) : Prop :=
  ∃ request ∈ state.sent bridge, request.id = reply.envelope.id ∧
    match reply.source with
    | .writer leaderId =>
      ⟨bridge, request, ⟨some leaderId, request.request⟩⟩ ∈ state.forwarded ∧
        (leaderId, reply.envelope.body) ∈ state.answered
    | .intercepted => request.request.kind = .close ∧ reply.envelope.body = .response .close
    | .failure => (∃ message, reply.envelope.body = .error message) ∧ ∃ leaderId,
        ⟨bridge, request, ⟨some leaderId, request.request⟩⟩ ∈ state.forwarded

/-- The invariant of a run of the bridges of one leader. -/
structure Isolated (state : SharedWriter) : Prop where
  /-- A forwarded message is the client's request under an id of the allocator. -/
  numbered : ∀ forward ∈ state.forwarded, ∃ leaderId < state.nextLeaderEnvelopeId,
    forward.posted = ⟨some leaderId, forward.request.request⟩
  /-- No two forwarded messages have the same id. -/
  distinct : (state.forwarded.map fun forward ↦ forward.posted.id).Nodup
  /-- What is forwarded was sent by the client of that bridge, and is no `close`. -/
  requested : ∀ forward ∈ state.forwarded, forward.request ∈ state.sent forward.bridge ∧
    forward.request.request.kind ≠ .close
  /-- The messages that wait for an answer are forwarded messages. -/
  waiting : ∀ message ∈ state.received, ∃ forward ∈ state.forwarded, forward.posted = message
  /-- No two messages that wait have the same id. -/
  waiting_distinct : (state.received.map PageMessage.id).Nodup
  /-- A message that waits has not been answered. -/
  unanswered : ∀ message ∈ state.received, ∀ answer ∈ state.answered,
    message.id ≠ some answer.1
  /-- Every answer is an answer to a forwarded message. -/
  answers : ∀ answer ∈ state.answered, ∃ forward ∈ state.forwarded,
    forward.posted.id = some answer.1
  /-- No message is answered twice. -/
  answered_distinct : (state.answered.map Prod.fst).Nodup
  /-- The ids a bridge remembers are those of requests it forwarded. -/
  remembered : ∀ bridge leaderId clientId,
    (state.bridges bridge).idMap.get? leaderId = some clientId →
      ∃ request, request.id = clientId ∧
        ⟨bridge, request, ⟨some leaderId, request.request⟩⟩ ∈ state.forwarded
  /-- A live bridge remembers only ids that the writer has not answered. -/
  awaited : ∀ bridge leaderId clientId, (state.bridges bridge).disposed = false →
    (state.bridges bridge).idMap.get? leaderId = some clientId →
      ∃ message ∈ state.received, message.id = some leaderId
  /-- Every reply that a client received is justified. -/
  justified : ∀ bridge, ∀ reply ∈ state.replies bridge, state.Justified bridge reply

/-- A justification stays valid when the histories grow. -/
theorem Justified.mono {state next : SharedWriter} {bridge : ℕ} {reply : Reply}
    (hjustified : state.Justified bridge reply)
    (hsent : ∀ request ∈ state.sent bridge, request ∈ next.sent bridge)
    (hforwarded : ∀ forward ∈ state.forwarded, forward ∈ next.forwarded)
    (hanswered : ∀ answer ∈ state.answered, answer ∈ next.answered) :
    next.Justified bridge reply := by
  obtain ⟨request, hrequest, hid, hsource⟩ := hjustified
  refine ⟨request, hsent request hrequest, hid, ?_⟩
  cases hreply : reply.source with
  | writer leaderId =>
    rw [hreply] at hsource
    exact ⟨hforwarded _ hsource.1, hanswered _ hsource.2⟩
  | intercepted =>
    rw [hreply] at hsource
    exact hsource
  | failure =>
    rw [hreply] at hsource
    obtain ⟨hmessage, leaderId, hforward⟩ := hsource
    exact ⟨hmessage, leaderId, hforwarded _ hforward⟩

/-- What a client has sent only grows. -/
theorem mem_sent_update {sent : ℕ → List ClientEnvelope} (bridge other : ℕ)
    (envelope : ClientEnvelope) {request : ClientEnvelope} (hrequest : request ∈ sent other) :
    request ∈ Function.update sent bridge (sent bridge ++ [envelope]) other := by
  by_cases hother : other = bridge
  · subst hother
    rw [Function.update_self]
    exact List.mem_append_left _ hrequest
  · rwa [Function.update_of_ne hother]

/-- The initial state is isolated. -/
theorem isolated_initial : Isolated initial where
  numbered := by simp [initial]
  distinct := by simp [initial]
  requested := by simp [initial]
  waiting := by simp [initial]
  waiting_distinct := by simp [initial]
  unanswered := by simp [initial]
  answers := by simp [initial]
  answered_distinct := by simp [initial]
  remembered := by simp [initial, LeaderBridge.create]
  awaited := by simp [initial, LeaderBridge.create]
  justified := by simp [initial]

/-- A client message that only enters the history keeps the invariant. -/
theorem isolated_sent {state : SharedWriter} (hisolated : Isolated state) (bridge : ℕ)
    (envelope : ClientEnvelope) :
    Isolated { state with
      sent := Function.update state.sent bridge (state.sent bridge ++ [envelope]) } where
  numbered := hisolated.numbered
  distinct := hisolated.distinct
  requested := fun forward hforward ↦
    ⟨mem_sent_update bridge _ envelope (hisolated.requested forward hforward).1,
      (hisolated.requested forward hforward).2⟩
  waiting := hisolated.waiting
  waiting_distinct := hisolated.waiting_distinct
  unanswered := hisolated.unanswered
  answers := hisolated.answers
  answered_distinct := hisolated.answered_distinct
  remembered := hisolated.remembered
  awaited := hisolated.awaited
  justified := fun other reply hreply ↦ (hisolated.justified other reply hreply).mono
    (fun _ hrequest ↦ mem_sent_update bridge other envelope hrequest)
    (fun _ hforward ↦ hforward) fun _ hanswer ↦ hanswer

/-- Replacing a bridge by one that remembers no more, and is not revived, keeps the invariant, and
so does a reply that is justified. -/
theorem isolated_bridge {state : SharedWriter} (hisolated : Isolated state) (bridge : ℕ)
    (replaced : LeaderBridge Unit) (replies : ℕ → List Reply)
    (hremembers : ∀ leaderId clientId, replaced.idMap.get? leaderId = some clientId →
      (state.bridges bridge).idMap.get? leaderId = some clientId)
    (hlive : replaced.disposed = false → (state.bridges bridge).disposed = false)
    (hreplies : ∀ other, ∀ reply ∈ replies other,
      reply ∈ state.replies other ∨ state.Justified other reply) :
    Isolated { state with
      bridges := Function.update state.bridges bridge replaced
      replies := replies } where
  numbered := hisolated.numbered
  distinct := hisolated.distinct
  requested := hisolated.requested
  waiting := hisolated.waiting
  waiting_distinct := hisolated.waiting_distinct
  unanswered := hisolated.unanswered
  answers := hisolated.answers
  answered_distinct := hisolated.answered_distinct
  remembered := by
    intro other leaderId clientId hget
    by_cases hother : other = bridge
    · subst hother
      simp only [Function.update_self] at hget
      exact hisolated.remembered other leaderId clientId (hremembers leaderId clientId hget)
    · simp only [Function.update_of_ne hother] at hget
      exact hisolated.remembered other leaderId clientId hget
  awaited := by
    intro other leaderId clientId hdisposed hget
    by_cases hother : other = bridge
    · subst hother
      simp only [Function.update_self] at hget hdisposed
      exact hisolated.awaited other leaderId clientId (hlive hdisposed)
        (hremembers leaderId clientId hget)
    · simp only [Function.update_of_ne hother] at hget hdisposed
      exact hisolated.awaited other leaderId clientId hdisposed hget
  justified := by
    intro other reply hreply
    have hjustified : state.Justified other reply :=
      (hreplies other reply hreply).elim (hisolated.justified other reply) id
    exact hjustified.mono (fun _ h ↦ h) (fun _ h ↦ h) fun _ h ↦ h

/-- Forwarding a request under the next id keeps the invariant. -/
theorem isolated_forward {state : SharedWriter} (hisolated : Isolated state) {bridge : ℕ}
    {envelope : ClientEnvelope} (hsent : envelope ∈ state.sent bridge)
    (hclose : envelope.request.kind ≠ .close) :
    Isolated { state with
      bridges := Function.update state.bridges bridge { state.bridges bridge with
        idMap := (state.bridges bridge).idMap.set state.nextLeaderEnvelopeId envelope.id }
      nextLeaderEnvelopeId := state.nextLeaderEnvelopeId + 1
      received := state.received ++ [⟨some state.nextLeaderEnvelopeId, envelope.request⟩]
      forwarded := state.forwarded ++
        [⟨bridge, envelope, ⟨some state.nextLeaderEnvelopeId, envelope.request⟩⟩] } := by
  -- the id is new: every earlier message has an id below the counter
  have hfresh : ∀ forward ∈ state.forwarded,
      forward.posted.id ≠ some state.nextLeaderEnvelopeId := by
    intro forward hforward heq
    obtain ⟨leaderId, hlt, hposted⟩ := hisolated.numbered forward hforward
    rw [hposted, Option.some.injEq] at heq
    omega
  have hgrows : ∀ forward ∈ state.forwarded, forward ∈ state.forwarded ++
      [⟨bridge, envelope, ⟨some state.nextLeaderEnvelopeId, envelope.request⟩⟩] :=
    fun forward hforward ↦ List.mem_append_left _ hforward
  exact {
    numbered := by
      intro forward hforward
      rcases List.mem_append.mp hforward with hold | hnew
      · obtain ⟨leaderId, hlt, hposted⟩ := hisolated.numbered forward hold
        exact ⟨leaderId, Nat.lt_succ_of_lt hlt, hposted⟩
      · obtain rfl := List.mem_singleton.mp hnew
        exact ⟨state.nextLeaderEnvelopeId, Nat.lt_succ_self _, rfl⟩
    distinct := by
      rw [List.map_append, List.nodup_append]
      refine ⟨hisolated.distinct, List.nodup_singleton _, ?_⟩
      rintro id hid other hother rfl
      obtain ⟨forward, hforward, rfl⟩ := List.mem_map.mp hid
      exact hfresh forward hforward (List.mem_singleton.mp hother)
    requested := by
      intro forward hforward
      rcases List.mem_append.mp hforward with hold | hnew
      · exact hisolated.requested forward hold
      · obtain rfl := List.mem_singleton.mp hnew
        exact ⟨hsent, hclose⟩
    waiting := by
      intro message hmessage
      rcases List.mem_append.mp hmessage with hold | hnew
      · obtain ⟨forward, hforward, hposted⟩ := hisolated.waiting message hold
        exact ⟨forward, hgrows forward hforward, hposted⟩
      · exact ⟨_, List.mem_append_right _ (List.mem_singleton_self _),
          (List.mem_singleton.mp hnew).symm⟩
    waiting_distinct := by
      rw [List.map_append, List.nodup_append]
      refine ⟨hisolated.waiting_distinct, List.nodup_singleton _, ?_⟩
      rintro id hid other hother rfl
      obtain ⟨message, hmessage, rfl⟩ := List.mem_map.mp hid
      obtain ⟨forward, hforward, rfl⟩ := hisolated.waiting message hmessage
      exact hfresh forward hforward (List.mem_singleton.mp hother)
    unanswered := by
      intro message hmessage answer hanswer
      rcases List.mem_append.mp hmessage with hold | hnew
      · exact hisolated.unanswered message hold answer hanswer
      · obtain rfl := List.mem_singleton.mp hnew
        obtain ⟨forward, hforward, hposted⟩ := hisolated.answers answer hanswer
        exact fun heq ↦ hfresh forward hforward (hposted.trans heq.symm)
    answers := by
      intro answer hanswer
      obtain ⟨forward, hforward, hposted⟩ := hisolated.answers answer hanswer
      exact ⟨forward, hgrows forward hforward, hposted⟩
    answered_distinct := hisolated.answered_distinct
    remembered := by
      intro other leaderId clientId hget
      by_cases hother : other = bridge
      · subst hother
        simp only [Function.update_self, OrderedMap.get?_set] at hget
        split_ifs at hget with hid
        · subst hid
          exact ⟨envelope, Option.some.inj hget,
            List.mem_append_right _ (List.mem_singleton_self _)⟩
        · obtain ⟨request, hrequest, hforward⟩ :=
            hisolated.remembered other leaderId clientId hget
          exact ⟨request, hrequest, hgrows _ hforward⟩
      · simp only [Function.update_of_ne hother] at hget
        obtain ⟨request, hrequest, hforward⟩ :=
          hisolated.remembered other leaderId clientId hget
        exact ⟨request, hrequest, hgrows _ hforward⟩
    awaited := by
      intro other leaderId clientId hdisposed hget
      by_cases hother : other = bridge
      · subst hother
        simp only [Function.update_self] at hdisposed
        simp only [Function.update_self, OrderedMap.get?_set] at hget
        split_ifs at hget with hid
        · subst hid
          exact ⟨_, List.mem_append_right _ (List.mem_singleton_self _), rfl⟩
        · obtain ⟨message, hmessage, hmessageId⟩ :=
            hisolated.awaited other leaderId clientId hdisposed hget
          exact ⟨message, List.mem_append_left _ hmessage, hmessageId⟩
      · simp only [Function.update_of_ne hother] at hget hdisposed
        obtain ⟨message, hmessage, hmessageId⟩ :=
          hisolated.awaited other leaderId clientId hdisposed hget
        exact ⟨message, List.mem_append_left _ hmessage, hmessageId⟩
    justified := fun other reply hreply ↦ (hisolated.justified other reply hreply).mono
      (fun _ hrequest ↦ hrequest) hgrows fun _ hanswer ↦ hanswer }

/-- In a list whose elements have distinct labels, what remains after one element is removed has
other labels. -/
theorem label_ne_of_mem_eraseIdx {α β : Type*} (label : α → β) {list : List α}
    (hdistinct : (list.map label).Nodup) {position : ℕ} {removed kept : α}
    (hremoved : list[position]? = some removed) (hkept : kept ∈ list.eraseIdx position) :
    label kept ≠ label removed := by
  obtain ⟨index, hother, hindex⟩ := List.mem_eraseIdx_iff_getElem?.mp hkept
  intro heq
  have hlabels : (list.map label)[index]? = (list.map label)[position]? := by
    rw [List.getElem?_map, List.getElem?_map, hindex, hremoved, Option.map_some, Option.map_some,
      heq]
  have hlt : index < (list.map label).length := by
    rw [List.length_map]
    exact (List.getElem?_eq_some_iff.mp hindex).1
  exact hother ((List.getElem?_inj hlt hdistinct).mp hlabels)

/-- An element other than the removed one stays in the list. -/
theorem mem_eraseIdx_of_label_ne {α β : Type*} (label : α → β) {list : List α} {position : ℕ}
    {removed kept : α} (hremoved : list[position]? = some removed) (hkept : kept ∈ list)
    (hlabel : label kept ≠ label removed) : kept ∈ list.eraseIdx position := by
  obtain ⟨index, hindex⟩ := List.mem_iff_getElem?.mp hkept
  refine List.mem_eraseIdx_iff_getElem?.mpr ⟨index, ?_, hindex⟩
  rintro rfl
  exact hlabel (congrArg label (Option.some.inj (hindex.symm.trans hremoved)))

/-- An answer of the writer keeps the invariant. -/
theorem isolated_answer {state : SharedWriter} (hisolated : Isolated state)
    {position leaderId : ℕ} {request : WorkerRequest}
    (hreceived : state.received[position]? = some ⟨some leaderId, request⟩) (body : ServerBody) :
    Isolated { state with
      bridges := fun bridge ↦ ((state.bridges bridge).onWriterMessage ⟨some leaderId, body⟩).1
      received := state.received.eraseIdx position
      answered := state.answered ++ [(leaderId, body)]
      replies := fun bridge ↦ withReplies state.replies bridge (.writer leaderId)
        ((state.bridges bridge).onWriterMessage ⟨some leaderId, body⟩).2 bridge } := by
  have hmem : (⟨some leaderId, request⟩ : PageMessage) ∈ state.received :=
    List.mem_of_getElem? hreceived
  have hkept : ∀ message ∈ state.received.eraseIdx position, message ∈ state.received :=
    fun message hmessage ↦ List.mem_of_mem_eraseIdx hmessage
  have hgrows : ∀ answer ∈ state.answered, answer ∈ state.answered ++ [(leaderId, body)] :=
    fun answer hanswer ↦ List.mem_append_left _ hanswer
  -- what a bridge remembers afterwards it remembered before
  have hremembers : ∀ bridge other clientId,
      ((state.bridges bridge).onWriterMessage ⟨some leaderId, body⟩).1.idMap.get? other =
        some clientId →
      (state.bridges bridge).idMap.get? other = some clientId ∧
        ((state.bridges bridge).disposed = false → other ≠ leaderId) := by
    intro bridge other clientId hget
    cases hdisposed : (state.bridges bridge).disposed with
    | true =>
      rw [LeaderBridge.onWriterMessage_disposed hdisposed] at hget
      exact ⟨hget, fun hlive ↦ absurd hlive (by simp)⟩
    | false =>
      rw [LeaderBridge.get?_onWriterMessage hdisposed] at hget
      by_cases hother : other = leaderId
      · rw [if_pos hother] at hget
        cases hget
      · rw [if_neg hother] at hget
        exact ⟨hget, fun _ ↦ hother⟩
  exact {
    numbered := hisolated.numbered
    distinct := hisolated.distinct
    requested := hisolated.requested
    waiting := fun message hmessage ↦ hisolated.waiting message (hkept message hmessage)
    waiting_distinct :=
      hisolated.waiting_distinct.sublist ((List.eraseIdx_sublist _ _).map PageMessage.id)
    unanswered := by
      intro message hmessage answer hanswer
      rcases List.mem_append.mp hanswer with hold | hnew
      · exact hisolated.unanswered message (hkept message hmessage) answer hold
      · obtain rfl := List.mem_singleton.mp hnew
        exact label_ne_of_mem_eraseIdx PageMessage.id hisolated.waiting_distinct hreceived hmessage
    answers := by
      intro answer hanswer
      rcases List.mem_append.mp hanswer with hold | hnew
      · exact hisolated.answers answer hold
      · obtain rfl := List.mem_singleton.mp hnew
        obtain ⟨forward, hforward, hposted⟩ := hisolated.waiting _ hmem
        exact ⟨forward, hforward, congrArg PageMessage.id hposted⟩
    answered_distinct := by
      rw [List.map_append, List.nodup_append]
      refine ⟨hisolated.answered_distinct, List.nodup_singleton _, ?_⟩
      intro id hid other hother heq
      obtain ⟨answer, hanswer, rfl⟩ := List.mem_map.mp hid
      have hother' : other = leaderId := List.mem_singleton.mp hother
      exact hisolated.unanswered _ hmem answer hanswer (congrArg some (heq.trans hother').symm)
    remembered := by
      intro bridge other clientId hget
      exact hisolated.remembered bridge other clientId (hremembers bridge other clientId hget).1
    awaited := by
      intro bridge other clientId hlive hget
      have hbefore : (state.bridges bridge).disposed = false := by
        rwa [LeaderBridge.disposed_onWriterMessage] at hlive
      obtain ⟨hmapped, hne⟩ := hremembers bridge other clientId hget
      obtain ⟨message, hmessage, hid⟩ :=
        hisolated.awaited bridge other clientId hbefore hmapped
      refine ⟨message, mem_eraseIdx_of_label_ne PageMessage.id hreceived hmessage ?_, hid⟩
      rw [hid]
      intro heq
      exact hne hbefore (Option.some.inj heq)
    justified := by
      intro bridge reply hreply
      simp only [withReplies_onWriterMessage, List.mem_append] at hreply
      rcases hreply with hold | hnew
      · exact (hisolated.justified bridge reply hold).mono (fun _ h ↦ h) (fun _ h ↦ h) hgrows
      · cases hdisposed : (state.bridges bridge).disposed with
        | true => simp [hdisposed] at hnew
        | false =>
          cases hmapped : (state.bridges bridge).idMap.get? leaderId with
          | none => simp [hdisposed, hmapped] at hnew
          | some clientId =>
            have hreply : reply = ⟨⟨clientId, body⟩, .writer leaderId⟩ := by
              simpa [hdisposed, hmapped] using hnew
            subst hreply
            obtain ⟨sent, hsentId, hforward⟩ :=
              hisolated.remembered bridge leaderId clientId hmapped
            exact ⟨sent, (hisolated.requested _ hforward).1, hsentId, hforward,
              List.mem_append_right _ (List.mem_singleton_self _)⟩ }

/-- The envelopes that `failPending` posts are errors for ids the bridge remembers. -/
theorem mem_toClient?_failPending {bridge : LeaderBridge Unit} {message : String}
    {envelope : ServerEnvelope}
    (henvelope : envelope ∈ (bridge.failPending message).2.filterMap BridgeEffect.toClient?) :
    envelope.body = .error message ∧
      ∃ leaderId, bridge.idMap.get? leaderId = some envelope.id := by
  unfold LeaderBridge.failPending at henvelope
  split at henvelope
  · simp at henvelope
  · obtain ⟨effect, heffect, hpost⟩ := List.mem_filterMap.mp henvelope
    obtain ⟨clientId, hclientId, rfl⟩ := List.mem_map.mp heffect
    rw [BridgeEffect.toClient?_channelPost, Option.some.injEq] at hpost
    subst hpost
    exact ⟨rfl, (OrderedMap.mem_values_iff _ _).mp hclientId⟩

/-- Every step keeps the invariant. -/
theorem isolated_step {state next : SharedWriter} {event : SharedWriterEvent}
    (hisolated : Isolated state) (hstep : state.step event = some next) : Isolated next := by
  cases event with
  | clientMessage bridge envelope =>
    have hsent := isolated_sent hisolated bridge envelope
    have hmem : envelope ∈
        Function.update state.sent bridge (state.sent bridge ++ [envelope]) bridge := by
      rw [Function.update_self]
      exact List.mem_append_right _ (List.mem_singleton_self _)
    cases hdisposed : (state.bridges bridge).disposed with
    | true =>
      rw [step_clientMessage_disposed hdisposed, Option.some.injEq] at hstep
      exact hstep ▸ hsent
    | false =>
      by_cases hclose : envelope.request.kind = .close
      · rw [step_clientMessage_close hdisposed hclose, Option.some.injEq] at hstep
        subst hstep
        refine isolated_bridge hsent bridge _ _ (fun _ _ hget ↦ hget) (fun hlive ↦ ?_) ?_
        · cases hlive
        · intro other reply hreply
          by_cases hother : other = bridge
          · subst hother
            rw [Function.update_self] at hreply
            rcases List.mem_append.mp hreply with hold | hnew
            · exact Or.inl hold
            · obtain rfl := List.mem_singleton.mp hnew
              exact Or.inr ⟨envelope, hmem, rfl, hclose, rfl⟩
          · rw [Function.update_of_ne hother] at hreply
            exact Or.inl hreply
      · rw [step_clientMessage_forward hdisposed hclose, Option.some.injEq] at hstep
        exact hstep ▸ isolated_forward hsent hmem hclose
  | writerAnswers position body =>
    cases hreceived : state.received[position]? with
    | none =>
      rw [step, hreceived] at hstep
      cases hstep
    | some message =>
      obtain ⟨id, request⟩ := message
      -- whatever waits for an answer has an id
      obtain ⟨forward, hforward, hposted⟩ :=
        hisolated.waiting _ (List.mem_of_getElem? hreceived)
      obtain ⟨leaderId, -, hnumber⟩ := hisolated.numbered forward hforward
      obtain rfl : id = some leaderId :=
        congrArg PageMessage.id (hposted.symm.trans hnumber)
      rw [step_writerAnswers hreceived, Option.some.injEq] at hstep
      exact hstep ▸ isolated_answer hisolated hreceived body
  | dispose bridge =>
    rw [step, Option.some.injEq] at hstep
    subst hstep
    refine isolated_bridge hisolated bridge _ state.replies ?_ ?_ fun other reply hreply ↦
      Or.inl hreply
    · intro leaderId clientId hget
      unfold LeaderBridge.dispose at hget
      split at hget <;> exact hget
    · intro hlive
      unfold LeaderBridge.dispose at hlive
      split at hlive
      · exact hlive
      · cases hlive
  | failPending bridge message =>
    rw [step, Option.some.injEq] at hstep
    subst hstep
    refine isolated_bridge hisolated bridge _ _ ?_ ?_ ?_
    · intro leaderId clientId hget
      unfold LeaderBridge.failPending at hget
      split at hget
      · exact hget
      · cases hget
    · intro hlive
      unfold LeaderBridge.failPending at hlive
      split at hlive <;> exact hlive
    · intro other reply hreply
      unfold withReplies at hreply
      by_cases hother : other = bridge
      · subst hother
        rw [Function.update_self] at hreply
        rcases List.mem_append.mp hreply with hold | hnew
        · exact Or.inl hold
        · obtain ⟨envelope, henvelope, rfl⟩ := List.mem_map.mp hnew
          obtain ⟨hbody, leaderId, hget⟩ := mem_toClient?_failPending henvelope
          obtain ⟨request, hid, hforward⟩ := hisolated.remembered other leaderId _ hget
          exact Or.inr ⟨request, (hisolated.requested _ hforward).1, hid, ⟨message, hbody⟩,
            leaderId, hforward⟩
      · rw [Function.update_of_ne hother] at hreply
        exact Or.inl hreply

/-- Every state that the bridges of one leader reach is isolated. -/
theorem isolated_of_reaches {state : SharedWriter} (hreaches : automaton.Reaches initial state) :
    Isolated state :=
  hreaches.invariant Isolated isolated_initial fun _ _ _ hisolated _ hstep ↦
    isolated_step hisolated hstep

/-! ### What the invariant says about the clients -/

/-- The events that end one bridge or its requests: its client's `close`, a disposal, and
`failPending`. -/
def SharedWriterEvent.Ends (bridge : ℕ) : SharedWriterEvent → Prop
  | .clientMessage target envelope => target = bridge ∧ envelope.request.kind = .close
  | .writerAnswers _ _ => False
  | .dispose target => target = bridge
  | .failPending target _ => target = bridge

/-- Ending one bridge changes no other bridge and no other client's replies, and takes nothing away
from what the writer has still to answer. -/
theorem step_ends {state next : SharedWriter} {event : SharedWriterEvent} {bridge : ℕ}
    (hends : SharedWriterEvent.Ends bridge event) (hstep : state.step event = some next) :
    next.received = state.received ∧ ∀ other, other ≠ bridge →
      next.bridges other = state.bridges other ∧ next.replies other = state.replies other := by
  cases event with
  | clientMessage target envelope =>
    obtain ⟨rfl, hclose⟩ := hends
    cases hdisposed : (state.bridges target).disposed with
    | true =>
      rw [step_clientMessage_disposed hdisposed, Option.some.injEq] at hstep
      subst hstep
      exact ⟨rfl, fun other _ ↦ ⟨rfl, rfl⟩⟩
    | false =>
      rw [step_clientMessage_close hdisposed hclose, Option.some.injEq] at hstep
      subst hstep
      exact ⟨rfl, fun other hother ↦
        ⟨Function.update_of_ne hother _ _, Function.update_of_ne hother _ _⟩⟩
  | writerAnswers position body => exact hends.elim
  | dispose target =>
    obtain rfl : target = bridge := hends
    rw [step, Option.some.injEq] at hstep
    subst hstep
    exact ⟨rfl, fun other hother ↦ ⟨Function.update_of_ne hother _ _, rfl⟩⟩
  | failPending target message =>
    obtain rfl : target = bridge := hends
    rw [step, Option.some.injEq] at hstep
    subst hstep
    exact ⟨rfl, fun other hother ↦
      ⟨Function.update_of_ne hother _ _, Function.update_of_ne hother _ _⟩⟩

/-- An id that a live bridge remembers can be answered, and the answer reaches the client of that
bridge, under its own number, and no other client. -/
theorem answer_reaches_client {state : SharedWriter} (hisolated : Isolated state)
    {bridge leaderId clientId : ℕ} (hlive : (state.bridges bridge).disposed = false)
    (hmapped : (state.bridges bridge).idMap.get? leaderId = some clientId) :
    ∃ position, ∀ body, ∃ next, state.step (.writerAnswers position body) = some next ∧
      ∀ other, next.replies other = state.replies other ++
        if other = bridge then [⟨⟨clientId, body⟩, .writer leaderId⟩] else [] := by
  obtain ⟨⟨id, request⟩, hmessage, hid⟩ :=
    hisolated.awaited bridge leaderId clientId hlive hmapped
  obtain rfl : id = some leaderId := hid
  obtain ⟨position, hposition⟩ := List.mem_iff_getElem?.mp hmessage
  refine ⟨position, fun body ↦ ⟨_, step_writerAnswers hposition body, fun other ↦ ?_⟩⟩
  simp only [withReplies_onWriterMessage]
  by_cases hother : other = bridge
  · subst hother
    simp [hlive, hmapped]
  · cases hget : (state.bridges other).idMap.get? leaderId with
    | none => simp [hother]
    | some otherId =>
      -- two bridges that remember one id would have forwarded two messages under it
      obtain ⟨first, -, hfirst⟩ := hisolated.remembered bridge leaderId clientId hmapped
      obtain ⟨second, -, hsecond⟩ := hisolated.remembered other leaderId otherId hget
      have hsame := List.inj_on_of_nodup_map hisolated.distinct hfirst hsecond rfl
      exact absurd (congrArg Forward.bridge hsame).symm hother

/-- In every state that any number of bridges on one writer reach: every reply a client received is
justified by a request of that same client, what is posted to the writer is what the client asked
for under an id that no other posted message has, no `close` is posted to the writer, ending one
bridge leaves the other bridges and their replies alone, and an id that a live bridge remembers is
still to be answered, to its own client only. -/
theorem bridge_isolation {state : SharedWriter} (hreaches : automaton.Reaches initial state) :
    (∀ bridge, ∀ reply ∈ state.replies bridge, state.Justified bridge reply) ∧
    (state.forwarded.map fun forward ↦ forward.posted.id).Nodup ∧
    (∀ forward ∈ state.forwarded, forward.posted.request = forward.request.request ∧
      forward.posted.request.kind ≠ .close) ∧
    (∀ message ∈ state.received, message.request.kind ≠ .close) ∧
    (∀ bridge event next, SharedWriterEvent.Ends bridge event → state.step event = some next →
      next.received = state.received ∧ ∀ other, other ≠ bridge →
        next.bridges other = state.bridges other ∧ next.replies other = state.replies other) ∧
    (∀ bridge leaderId clientId, (state.bridges bridge).disposed = false →
      (state.bridges bridge).idMap.get? leaderId = some clientId →
      ∃ position, ∀ body, ∃ next, state.step (.writerAnswers position body) = some next ∧
        ∀ other, next.replies other = state.replies other ++
          if other = bridge then [⟨⟨clientId, body⟩, .writer leaderId⟩] else []) := by
  have hisolated := isolated_of_reaches hreaches
  have hposted : ∀ forward ∈ state.forwarded,
      forward.posted.request = forward.request.request ∧ forward.posted.request.kind ≠ .close := by
    intro forward hforward
    obtain ⟨leaderId, -, hnumber⟩ := hisolated.numbered forward hforward
    have hrequest : forward.posted.request = forward.request.request := by rw [hnumber]
    exact ⟨hrequest, hrequest ▸ (hisolated.requested forward hforward).2⟩
  refine ⟨hisolated.justified, hisolated.distinct, hposted, ?_, ?_, ?_⟩
  · intro message hmessage
    obtain ⟨forward, hforward, rfl⟩ := hisolated.waiting message hmessage
    exact (hposted forward hforward).2
  · intro bridge event next hends hstep
    exact step_ends hends hstep
  · intro bridge leaderId clientId hlive hmapped
    exact answer_reaches_client hisolated hlive hmapped

/-- Two clients with equal numbers. The first closes while both wait; the writer then answers the
second, out of order. -/
def equalNumbers : List SharedWriterEvent :=
  [.clientMessage 0 ⟨1, .ping⟩, .clientMessage 1 ⟨1, .bootstrap⟩, .clientMessage 0 ⟨2, .close⟩,
    .writerAnswers 1 (.response (.bootstrap 3)), .writerAnswers 0 (.response .ping)]

/-- In this run each client got the reply to its own request, or to its `close`, and nothing
else. -/
theorem bridge_isolation_equalNumbers :
    ∃ state, automaton.run initial equalNumbers = some state ∧
      state.replies 0 = [⟨⟨2, .response .close⟩, .intercepted⟩] ∧
      state.replies 1 = [⟨⟨1, .response (.bootstrap 3)⟩, .writer 2⟩] ∧
      ∀ bridge, ∀ reply ∈ state.replies bridge, state.Justified bridge reply := by
  have hrun : automaton.run initial equalNumbers = some _ := rfl
  exact ⟨_, hrun, rfl, rfl, (bridge_isolation (Automaton.reaches_of_run hrun)).1⟩

/-- Not every reply was produced by the writer: the error envelope of `failPending` and the answer
to a `close` are the bridge's own. -/
theorem own_replies_not_producedByWriter :
    ∃ state, automaton.run initial [.clientMessage 0 ⟨1, .ping⟩,
        .failPending 0 "storage worker failed", .clientMessage 0 ⟨2, .close⟩] = some state ∧
      (state.replies 0).map Reply.envelope =
        [⟨1, .error "storage worker failed"⟩, ⟨2, .response .close⟩] ∧
      ∀ reply ∈ state.replies 0, ¬ state.ProducedByWriter 0 reply.envelope := by
  refine ⟨_, rfl, rfl, ?_⟩
  rintro reply - ⟨request, -, -, leaderId, -, hanswered⟩
  exact List.not_mem_nil hanswered

end SharedWriter

end OpfsWebauthn.Storage
