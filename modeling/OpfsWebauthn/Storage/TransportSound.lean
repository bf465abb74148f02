import OpfsWebauthn.Storage.TransportSpec

/-!
# The invariant of one transport

`Sound grants tab transport` is what always holds of the variables of one closure, when the lock
was granted `grants` times: what a live writer implies, what the bridges are, and which channels the
transport can have. Every outcome of `Ran` keeps it, and so does the lock callback when the
transport has no writer.
-/

set_option autoImplicit false
set_option relaxedAutoImplicit false

namespace OpfsWebauthn.Storage.Transport

open Foundation

/-- A bridge in the map of a transport: it is not disposed, it serves the writer of the transport on
the pair name of its client, and its numbers are below the next ones. -/
structure SoundBridge (writer : Option ℕ) (nextObject nextLeaderEnvelopeId clientId : ℕ)
    (bridge : LeaderBridge BridgePort) : Prop where
  live : bridge.disposed = false
  writer : writer = some bridge.channel.writer
  name : bridge.channel.channel.name = ⟨bridge.channel.writer, clientId⟩
  object : bridge.channel.channel.object < nextObject
  allocated : ∀ id ∈ bridge.idMap.keys, id < nextLeaderEnvelopeId

namespace SoundBridge

variable {writer : Option ℕ} {nextObject next clientId : ℕ} {bridge : LeaderBridge BridgePort}

/-- A fresh bridge is sound. -/
theorem create {own object : ℕ} (hwriter : writer = some own) (hobject : object < nextObject) :
    SoundBridge writer nextObject next clientId
      (.create ⟨⟨object, ⟨own, clientId⟩⟩, own⟩) where
  live := rfl
  writer := hwriter
  name := rfl
  object := hobject
  allocated := by simp [LeaderBridge.create]

/-- Larger next numbers keep a bridge sound. -/
theorem mono (hbridge : SoundBridge writer nextObject next clientId bridge) {moreObjects more : ℕ}
    (hobjects : nextObject ≤ moreObjects) (hmore : next ≤ more) :
    SoundBridge writer moreObjects more clientId bridge :=
  { hbridge with
    object := Nat.lt_of_lt_of_le hbridge.object hobjects
    allocated := fun id hid ↦ Nat.lt_of_lt_of_le (hbridge.allocated id hid) hmore }

/-- A message of the writer keeps a bridge sound. -/
theorem onWriterMessage (hbridge : SoundBridge writer nextObject next clientId bridge)
    (data : WriterMessage) :
    SoundBridge writer nextObject next clientId (bridge.onWriterMessage data).1 := by
  rcases data with ⟨_ | leaderId, body⟩
  · rw [bridge.onWriterMessage_raw]
    exact hbridge
  · cases hmapped : bridge.idMap.get? leaderId with
    | none =>
      rw [LeaderBridge.onWriterMessage_unmapped hmapped]
      exact hbridge
    | some clientId =>
      rw [LeaderBridge.onWriterMessage_mapped hbridge.live hmapped]
      exact { hbridge with
        allocated := fun id hid ↦
          hbridge.allocated id ((OrderedMap.mem_keys_erase _ _ _).mp hid).2 }

end SoundBridge

/-- The invariant of the variables of one closure. -/
structure Sound (grants tab : ℕ) (transport : Transport) : Prop where
  client : transport.clientId = tab
  hears : transport.listening = !transport.closed
  deaf : transport.closed = true → transport.discovering = false
  opened : ∀ leader, transport.writer = some leader → transport.closed = false
  leads : ∀ leader, transport.writer = some leader → transport.leaderId = some leader
  resolves : ∀ leader, transport.writer = some leader → transport.resolveLock = some leader
  bridge : ∀ clientId bridge, transport.bridges.get? clientId = some bridge →
    SoundBridge transport.writer transport.nextObject transport.nextLeaderEnvelopeId clientId bridge
  filed : ∀ id data, transport.inFlight.get? id = some data → data.id = some id
  pair : ∀ channel, transport.pairChannel = some channel → channel.name.clientId = tab ∧
    channel.object < transport.nextObject ∧ channel.name.leaderId ∈ transport.joined
  current : transport.closed = false → ∀ leader, transport.currentLeaderId = some leader →
    ∃ channel, transport.pairChannel = some channel ∧ channel.name = ⟨leader, tab⟩
  pending : ∀ pair, transport.pendingPair = some pair → pair.channel = ⟨pair.leaderId, tab⟩ ∧
    ∃ channel, transport.pairChannel = some channel ∧ channel.name = pair.channel
  dropped : transport.closed = true → transport.pairChannel = none ∧ transport.inFlight = .empty
  released : transport.closed = true → transport.resolveLock = none
  granted : ∀ leader, transport.leaderId = some leader → leader < grants
  held : ∀ grant, transport.resolveLock = some grant → grant < grants
  known : ∀ leader ∈ transport.joined, leader < grants
  spent : transport.failed = true → transport.inFlight = .empty
  defers : transport.microtasks ≠ [] → transport.failed = true

namespace Sound

variable {grants tab : ℕ} {transport : Transport} {received : LeaderMessage → Prop}
  {falls : Prop}

/-- A transport without a writer has no bridges. -/
theorem bridges_none (hsound : Sound grants tab transport) (hwriter : transport.writer = none)
    (clientId : ℕ) : transport.bridges.get? clientId = none := by
  cases hbridge : transport.bridges.get? clientId with
  | none => rfl
  | some bridge =>
    have hserves := (hsound.bridge clientId bridge hbridge).writer
    rw [hwriter] at hserves
    cases hserves

/-- The leader of a pair channel was granted. -/
theorem pair_lt (hsound : Sound grants tab transport) {channel : PairChannel}
    (hchannel : transport.pairChannel = some channel) : channel.name.leaderId < grants :=
  hsound.known _ (hsound.pair channel hchannel).2.2

/-- The leader of a pending pair was granted. -/
theorem pending_lt (hsound : Sound grants tab transport) {pair : PendingPair}
    (hpending : transport.pendingPair = some pair) : pair.leaderId < grants := by
  obtain ⟨hname, channel, hchannel, hsame⟩ := hsound.pending pair hpending
  have hlt := hsound.pair_lt hchannel
  rwa [hsame, hname] at hlt

/-- A transport that hears the discovery channel is open. -/
theorem open_of_discovering (hsound : Sound grants tab transport)
    (hhears : transport.discovering = true) : transport.closed = false := by
  by_contra hclosed
  have hdeaf := hsound.deaf (by simpa using hclosed)
  exact Bool.false_ne_true (hdeaf.symm.trans hhears)

/-- More grants keep the invariant. -/
theorem mono (hsound : Sound grants tab transport) {more : ℕ} (hmore : grants ≤ more) :
    Sound more tab transport :=
  { hsound with
    granted := fun leader hleader ↦ Nat.lt_of_lt_of_le (hsound.granted leader hleader) hmore
    held := fun grant hgrant ↦ Nat.lt_of_lt_of_le (hsound.held grant hgrant) hmore
    known := fun leader hleader ↦ Nat.lt_of_lt_of_le (hsound.known leader hleader) hmore }

/-- The outbox does not matter. -/
theorem of_outbox (hsound : Sound grants tab transport) (outbox : List TransportEffect) :
    Sound grants tab { transport with outbox := outbox } :=
  { hsound with }

/-- A transport that was just created. -/
theorem create (grants tab : ℕ) : Sound grants tab (Transport.create tab) := by
  constructor <;> simp [Transport.create, requestLock, Transport.initial, emit]

/-- A pair channel was attached. -/
theorem paired (hsound : Sound grants tab transport) (hopen : transport.closed = false) {id : ℕ}
    (hknown : id < grants) : Sound grants tab (transport.paired id) :=
  { hsound with
    bridge := fun clientId bridge hbridge ↦
      (hsound.bridge clientId bridge hbridge).mono (Nat.le_succ _) (Nat.le_refl _)
    pair := by
      rintro channel hchannel
      obtain rfl : _ = channel := Option.some.inj hchannel
      exact ⟨hsound.client, Nat.lt_succ_self _,
        List.mem_append_right _ (List.mem_singleton_self id)⟩
    current := by
      rintro - leader hleader
      obtain rfl : id = leader := Option.some.inj hleader
      exact ⟨_, rfl, by rw [hsound.client]⟩
    pending := by
      rintro pair hpair
      obtain rfl : _ = pair := Option.some.inj hpair
      exact ⟨by rw [hsound.client], _, rfl, rfl⟩
    dropped := fun hclosed ↦ absurd (hopen.symm.trans hclosed) Bool.false_ne_true
    known := by
      intro leader hleader
      rcases List.mem_append.mp hleader with hold | hnew
      · exact hsound.known leader hold
      · rw [List.mem_singleton.mp hnew]
        exact hknown }

/-- A bridge for a client was opened. -/
theorem bridged (hsound : Sound grants tab transport) {own : ℕ} (clientId : ℕ)
    (hwriter : transport.writer = some own) :
    Sound grants tab (transport.bridged clientId ⟨own, clientId⟩ own own) :=
  { hsound with
    bridge := by
      intro other bridge hbridge
      have hfound : (transport.bridges.set clientId (.create
          ⟨⟨transport.nextObject, ⟨own, clientId⟩⟩, own⟩)).get? other = some bridge := hbridge
      rw [OrderedMap.get?_set] at hfound
      by_cases hother : other = clientId
      · rw [if_pos hother, Option.some.injEq] at hfound
        subst hother hfound
        exact .create hwriter (Nat.lt_succ_self _)
      · rw [if_neg hother] at hfound
        exact (hsound.bridge other bridge hfound).mono (Nat.le_succ _) (Nat.le_refl _)
    pair := fun channel hchannel ↦
      have hpair := hsound.pair channel hchannel
      ⟨hpair.1, Nat.lt_succ_of_lt hpair.2.1, hpair.2.2⟩ }

/-- The writer crashed. -/
theorem crashed (hsound : Sound grants tab transport) (leader : ℕ) (message : String) :
    Sound grants tab (transport.crashed leader message) :=
  { hsound with
    opened := nofun
    leads := nofun
    resolves := nofun
    bridge := nofun
    current := fun _ ↦ nofun
    released := fun _ ↦ rfl
    granted := nofun
    held := nofun }

/-- The transport gave up for good. -/
theorem abandoned (hsound : Sound grants tab transport) (times : List ℕ) :
    Sound grants tab (transport.abandoned times) :=
  { hsound with
    filed := nofun
    pair := nofun
    current := fun _ ↦ nofun
    pending := nofun
    deaf := fun _ ↦ rfl
    dropped := fun _ ↦ ⟨rfl, rfl⟩
    spent := fun _ ↦ rfl
    defers := fun _ ↦ rfl }

/-- The transport closed. -/
theorem shut (hsound : Sound grants tab transport) : Sound grants tab transport.shut :=
  { hsound with
    hears := rfl
    deaf := fun _ ↦ rfl
    opened := nofun
    leads := nofun
    resolves := nofun
    bridge := nofun
    filed := nofun
    pair := nofun
    current := nofun
    pending := nofun
    dropped := fun _ ↦ ⟨rfl, rfl⟩
    released := fun _ ↦ rfl
    granted := nofun
    held := nofun
    spent := fun _ ↦ rfl }

/-- A value was posted. -/
theorem posted (hsound : Sound grants tab transport) (hopen : transport.closed = false)
    (hworks : transport.failed = false) (data : PageMessage) :
    Sound grants tab (transport.posted data) :=
  { hsound with
    filed := by
      intro id found hfound
      change (transport.tracked data).get? id = some found at hfound
      unfold tracked at hfound
      cases hid : data.id with
      | none =>
        rw [hid] at hfound
        exact hsound.filed id found hfound
      | some own =>
        rw [hid] at hfound
        dsimp only at hfound
        rw [OrderedMap.get?_set] at hfound
        by_cases hown : id = own
        · rw [if_pos hown, Option.some.injEq] at hfound
          rw [← hfound, hid, hown]
        · rw [if_neg hown] at hfound
          exact hsound.filed id found hfound
    dropped := fun hclosed ↦ absurd (hopen.symm.trans hclosed) Bool.false_ne_true
    spent := fun hfailed ↦ absurd (hworks.symm.trans hfailed) Bool.false_ne_true }

/-- An envelope arrived on the pair channel. -/
theorem delivered (hsound : Sound grants tab transport) (envelope : ServerEnvelope)
    (synthetic : Bool) : Sound grants tab (transport.onPairMessage envelope synthetic) :=
  { hsound with
    filed := by
      intro id found hfound
      change (transport.inFlight.erase envelope.id).get? id = some found at hfound
      rw [OrderedMap.get?_erase] at hfound
      by_cases hid : id = envelope.id
      · rw [if_pos hid] at hfound
        cases hfound
      · rw [if_neg hid] at hfound
        exact hsound.filed id found hfound
    dropped := by
      intro hclosed
      obtain ⟨hpair, hempty⟩ := hsound.dropped hclosed
      refine ⟨hpair, ?_⟩
      change transport.inFlight.erase envelope.id = .empty
      rw [hempty]
      rfl
    spent := by
      intro hfailed
      change transport.inFlight.erase envelope.id = .empty
      rw [hsound.spent hfailed]
      rfl }

/-- A bridge of the transport heard its client. -/
theorem heard (hsound : Sound grants tab transport) {clientId : ℕ}
    {bridge : LeaderBridge BridgePort} (hbridge : transport.bridges.get? clientId = some bridge)
    {data : PageMessage} {next : Transport}
    (hheard : BridgeHeard transport clientId bridge data next) : Sound grants tab next := by
  have hown := hsound.bridge clientId bridge hbridge
  cases hheard with
  | passed hid => exact hsound.of_outbox _
  | forwarded id hid hkind =>
    refine { hsound with bridge := ?_ }
    intro other found hfound
    change (transport.bridges.set clientId _).get? other = some found at hfound
    rw [OrderedMap.get?_set] at hfound
    by_cases hother : other = clientId
    · rw [if_pos hother, Option.some.injEq] at hfound
      subst hother hfound
      refine { hown with allocated := ?_ }
      intro key hkey
      rcases (OrderedMap.mem_keys_set _ _ _ _).mp hkey with hnew | hold
      · rw [hnew]
        exact Nat.lt_succ_self _
      · exact Nat.lt_succ_of_lt (hown.allocated key hold)
    · rw [if_neg hother] at hfound
      exact (hsound.bridge other found hfound).mono (Nat.le_refl _) (Nat.le_succ _)
  | closed id hid hkind =>
    refine { hsound with bridge := ?_ }
    intro other found hfound
    change (transport.bridges.erase clientId).get? other = some found at hfound
    rw [OrderedMap.get?_erase] at hfound
    by_cases hother : other = clientId
    · rw [if_pos hother] at hfound
      cases hfound
    · rw [if_neg hother] at hfound
      exact hsound.bridge other found hfound

/-- The bridges of the transport heard the writer. -/
theorem replied (hsound : Sound grants tab transport) (data : WriterMessage) :
    Sound grants tab (transport.onWriterMessage data) := by
  refine { hsound with bridge := ?_ }
  intro clientId found hfound
  change (transport.bridges.mapValues _).get? clientId = some found at hfound
  rw [OrderedMap.get?_mapValues, Option.map_eq_some_iff] at hfound
  obtain ⟨bridge, hbridge, rfl⟩ := hfound
  exact (hsound.bridge clientId bridge hbridge).onWriterMessage data

/-- Every outcome keeps the invariant. -/
theorem ran (hsound : Sound grants tab transport)
    (hnames : ∀ message, received message → Names grants message) {next : Transport}
    (hran : Ran received falls transport next) : Sound grants tab next := by
  cases hran with
  | idle => exact hsound
  | paired id hreceived hopen hother hnew => exact hsound.paired hopen (hnames _ hreceived)
  | bridged clientId name writer own hreceived hwriter hown =>
    have hsame : writer = own :=
      Option.some.inj ((hsound.leads writer hwriter).symm.trans hown)
    subst hsame
    obtain ⟨-, rfl⟩ := hnames _ hreceived
    exact hsound.bridged clientId hwriter
  | acknowledged pair hreceived hpending => exact { hsound with pending := nofun }
  | deposed leaderId message hreceived hcurrent =>
    exact { hsound with
      pair := nofun
      current := fun _ ↦ nofun
      pending := nofun
      dropped := fun hclosed ↦ ⟨rfl, (hsound.dropped hclosed).2⟩ }
  | announced writer own hwriter hown => exact hsound.of_outbox _
  | asked pair hpending => exact hsound.of_outbox _
  | requested leader times hfalls hwriter =>
    exact { hsound.crashed leader "storage writer error" with }
  | abandoned leader times hfalls hwriter => exact (hsound.crashed leader _).abandoned times
  | lockSettled ready abort => exact { hsound with }
  | lockRejected ready abort => exact { hsound with }
  | received envelope synthetic => exact hsound.delivered envelope synthetic
  | heard clientId bridge data next hbridge hheard => exact hsound.heard hbridge hheard
  | replied data => exact hsound.replied data
  | deferred data hfailed => exact { hsound with defers := fun _ ↦ hfailed }
  | refused id rest hqueued =>
    exact { hsound with defers := fun _ ↦ hsound.defers (by simp [hqueued]) }
  | posted data hopen hworks => exact hsound.posted hopen hworks data
  | shut hfalls hopen => exact hsound.shut

/-- What a message on the discovery channel says about the transport that posted it, before and
after. -/
def Says (transport next : Transport) : LeaderMessage → Prop
  | .leaderElected id => transport.writer = some id ∧ next.writer = some id
  | .pairRequest leaderId clientId channel =>
    clientId = transport.clientId ∧ next.pendingPair = some ⟨leaderId, channel⟩
  | .pairAck leaderId clientId =>
    next.writer = some leaderId ∧ ∃ bridge, next.bridges.get? clientId = some bridge
  | .leaderQuery => False
  | .leaderFailed leaderId _ => transport.writer = some leaderId ∧ next.writer = none

/-- The discovery posts of every outcome. -/
theorem says_of_ran (hsound : Sound grants tab transport) (hsent : transport.outbox = [])
    {next : Transport} (hran : Ran received falls transport next) {message : LeaderMessage}
    (hposted : .discoveryPost message ∈ next.outbox) : Says transport next message := by
  have hreplayed : .discoveryPost message ∉ transport.replayed := by
    unfold replayed
    split <;> simp
  have hfailures : .discoveryPost message ∉ transport.failures "storage writer error" := by
    simp only [failures, channelPosts, List.mem_flatMap, List.mem_filterMap, not_exists, not_and]
    intro bridge _ effect _
    cases effect <;> simp
  have hreleases : .discoveryPost message ∉ transport.releases := by
    simp [releases]
  cases hran with
  | idle => simp [hsent] at hposted
  | paired id hreceived hopen hother hnew =>
    simp only [Transport.paired, hsent, List.nil_append, List.mem_singleton,
      TransportEffect.discoveryPost.injEq] at hposted
    subst hposted
    exact ⟨rfl, rfl⟩
  | bridged clientId name writer own hreceived hwriter hown =>
    obtain rfl : writer = own := Option.some.inj ((hsound.leads writer hwriter).symm.trans hown)
    simp only [Transport.bridged, hsent, List.nil_append, List.mem_singleton,
      TransportEffect.discoveryPost.injEq] at hposted
    subst hposted
    exact ⟨hwriter, _, OrderedMap.get?_set_self _ _ _⟩
  | acknowledged pair hreceived hpending =>
    simp only [Transport.acknowledged, hsent, List.nil_append] at hposted
    exact absurd hposted hreplayed
  | deposed leaderId message hreceived hcurrent => simp [Transport.deposed, hsent] at hposted
  | announced writer own hwriter hown =>
    obtain rfl : writer = own := Option.some.inj ((hsound.leads writer hwriter).symm.trans hown)
    simp only [emit, hsent, List.nil_append, List.mem_singleton,
      TransportEffect.discoveryPost.injEq] at hposted
    subst hposted
    exact ⟨hwriter, hwriter⟩
  | asked pair hpending =>
    simp only [emit, hsent, List.nil_append, List.mem_singleton,
      TransportEffect.discoveryPost.injEq] at hposted
    subst hposted
    exact ⟨rfl, hpending⟩
  | requested leader times hfalls hwriter =>
    simp only [Transport.requested, Transport.crashed, hsent, List.nil_append, List.mem_append,
      hfailures, hreleases, List.mem_cons, TransportEffect.discoveryPost.injEq, reduceCtorEq,
      List.not_mem_nil, or_false, false_or] at hposted
    subst hposted
    exact ⟨hwriter, rfl⟩
  | abandoned leader times hfalls hwriter =>
    simp only [Transport.abandoned, Transport.crashed, hsent, List.nil_append, List.mem_append,
      hfailures, hreleases, List.mem_cons, TransportEffect.discoveryPost.injEq, reduceCtorEq,
      List.not_mem_nil, List.mem_map, and_false, exists_false, or_false, false_or] at hposted
    subst hposted
    exact ⟨hwriter, rfl⟩
  | lockSettled ready abort => simp [hsent] at hposted
  | lockRejected ready abort => simp [hsent] at hposted
  | received envelope synthetic => simp [onPairMessage, emit, hsent] at hposted
  | heard clientId bridge data next hbridge hheard =>
    cases hheard with
    | passed hid => simp [passed, hsent] at hposted
    | forwarded id hid hkind => simp [forwarded, hsent] at hposted
    | closed id hid hkind => simp [unbridged, hsent] at hposted
  | replied data =>
    simp only [onWriterMessage, emit, channelPosts, hsent, List.nil_append, List.mem_flatMap,
      List.mem_filterMap] at hposted
    obtain ⟨bridge, -, effect, -, heffect⟩ := hposted
    cases effect <;> simp at heffect
  | deferred data hfailed => simp [Transport.deferred, hsent] at hposted
  | refused id rest hqueued => simp [Transport.refused, hsent] at hposted
  | posted data hopen hworks => simp [Transport.posted, hsent] at hposted
  | shut hfalls hopen => simp [Transport.shut, hsent, hreleases] at hposted

/-- The discovery posts of every outcome name leaders that were granted. -/
theorem names_of_ran (hsound : Sound grants tab transport) (hsent : transport.outbox = [])
    (hnames : ∀ message, received message → Names grants message) {next : Transport}
    (hran : Ran received falls transport next) {message : LeaderMessage}
    (hposted : .discoveryPost message ∈ next.outbox) : Names grants message := by
  have htold := hsound.says_of_ran hsent hran hposted
  have hnext := hsound.ran hnames hran
  cases message with
  | leaderElected id => exact hsound.granted id (hsound.leads id htold.1)
  | pairRequest leaderId clientId channel =>
    refine ⟨hnext.pending_lt htold.2, ?_⟩
    rw [htold.1, hsound.client]
    exact (hnext.pending _ htold.2).1
  | pairAck leaderId clientId => exact hnext.granted leaderId (hnext.leads leaderId htold.1)
  | leaderQuery => trivial
  | leaderFailed leaderId message => exact hsound.granted leaderId (hsound.leads leaderId htold.1)

/-- The promotion of a transport without a writer. -/
theorem promoted (hsound : Sound grants tab transport) (hopen : transport.closed = false)
    (hwriter : transport.writer = none) :
    Sound (grants + 1) tab (transport.promoted grants) := by
  have hmore := hsound.mono (Nat.le_succ grants)
  exact { hmore with
    opened := fun _ _ ↦ hopen
    leads := fun _ hleader ↦ hleader
    resolves := fun _ hleader ↦ hleader
    bridge := by
      intro other bridge hbridge
      change (transport.bridges.set transport.clientId _).get? other = some bridge at hbridge
      rw [OrderedMap.get?_set] at hbridge
      by_cases hother : other = transport.clientId
      · rw [if_pos hother, Option.some.injEq] at hbridge
        subst hother hbridge
        exact .create rfl (by simp [Transport.promoted])
      · rw [if_neg hother, hsound.bridges_none hwriter] at hbridge
        cases hbridge
    pair := by
      intro channel hchannel
      obtain rfl : _ = channel := Option.some.inj hchannel
      exact ⟨hsound.client, Nat.lt_succ_self _,
        List.mem_append_right _ (List.mem_singleton_self grants)⟩
    current := by
      intro _ leader hleader
      obtain rfl : grants = leader := Option.some.inj hleader
      exact ⟨_, rfl, by rw [hsound.client]⟩
    pending := nofun
    dropped := fun hclosed ↦ absurd (hopen.symm.trans hclosed) Bool.false_ne_true
    released := fun hclosed ↦ absurd (hopen.symm.trans hclosed) Bool.false_ne_true
    granted := by
      intro leader hleader
      obtain rfl : grants = leader := Option.some.inj hleader
      exact Nat.lt_succ_self grants
    held := by
      intro grant hgrant
      obtain rfl : grants = grant := Option.some.inj hgrant
      exact Nat.lt_succ_self grants
    known := by
      intro leader hleader
      rcases List.mem_append.mp hleader with hold | hnew
      · exact hmore.known leader hold
      · rw [List.mem_singleton.mp hnew]
        exact Nat.lt_succ_self grants }

/-- A grant whose writer factory throws, to a transport without a writer. -/
theorem unpromoted (hsound : Sound grants tab transport) (hopen : transport.closed = false)
    (hwriter : transport.writer = none) (message : String) :
    Sound (grants + 1) tab (transport.unpromoted grants message) := by
  have hmore := hsound.mono (Nat.le_succ grants)
  have hnone : ∀ leader, transport.writer ≠ some leader := by simp [hwriter]
  exact { hmore with
    leads := fun leader hleader ↦ absurd hleader (hnone leader)
    resolves := fun leader hleader ↦ absurd hleader (hnone leader)
    pending := nofun
    released := fun hclosed ↦ absurd (hopen.symm.trans hclosed) Bool.false_ne_true
    granted := by
      intro leader hleader
      obtain rfl : grants = leader := Option.some.inj hleader
      exact Nat.lt_succ_self grants
    held := by
      intro grant hgrant
      obtain rfl : grants = grant := Option.some.inj hgrant
      exact Nat.lt_succ_self grants }

/-- The lock callback keeps the invariant of a transport without a writer. -/
theorem onLockGranted (hsound : Sound grants tab transport) (hwriter : transport.writer = none)
    (factory : Except String Unit) :
    Sound (grants + 1) tab (transport.onLockGranted grants factory) := by
  rcases onLockGranted_cases transport grants factory with
    ⟨-, hdeclined⟩ | ⟨hopen, -, hpromoted⟩ | ⟨message, hopen, -, hunpromoted⟩
  · rw [hdeclined]
    exact (hsound.mono (Nat.le_succ grants)).of_outbox _
  · rw [hpromoted]
    exact hsound.promoted hopen hwriter
  · rw [hunpromoted]
    exact hsound.unpromoted hopen hwriter message

end Sound

end OpfsWebauthn.Storage.Transport
