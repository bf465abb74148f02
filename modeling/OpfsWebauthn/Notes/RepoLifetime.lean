import OpfsWebauthn.Notes.NotesRepo

/-!
# Which transports of a page are open

Every transport that a page opens has an owner: the call of `createRepo` that opened it, then the
hook that the repository is attached to, then the cleanup that took it from there. From this,
`open_iff_attached`: when nothing is pending, the only open transport is the one of the attached
repository. `ready_repo_open` says that the repository that a mounted page shows is of the vault
that it is mounted with and was never closed, and `ladder_of_made` that `createRepo` goes to its
next tier only after it has closed the transport of the tier before.
-/

set_option autoImplicit false
set_option relaxedAutoImplicit false

namespace OpfsWebauthn.Notes

open Foundation

variable {Vault : Type}

/-! ### Calls on transports -/

/-- The transport that a call opened. -/
def madeTransport : Mounts.Performed Vault → Option ℕ
  | ⟨.makeSharedTransport, .ok transport⟩ => some transport
  | ⟨.makeLeaderTransport, .ok made⟩ => made
  | ⟨.makeDedicatedTransport, .ok transport⟩ => some transport
  | _ => none

/-- The transport that a call closes. -/
def closedTransport : PageCall Vault → Option ℕ
  | .terminate transport => some transport
  | .closeLeader transport => some transport
  | _ => none

/-- The calls that open a transport. -/
def PageCall.makes : PageCall Vault → Bool
  | .makeSharedTransport | .makeLeaderTransport | .makeDedicatedTransport => true
  | _ => false

/-- Some call of a trace opened this transport. -/
def OpenedIn (transport : ℕ) (trace : List (Mounts.Performed Vault)) : Prop :=
  ∃ performed ∈ trace, madeTransport performed = some transport

/-- Some call of a trace closed this transport. -/
def ClosedIn (transport : ℕ) (trace : List (Mounts.Performed Vault)) : Prop :=
  ∃ performed ∈ trace, closedTransport performed.1 = some transport

@[simp] theorem openedIn_nil (transport : ℕ) :
    ¬ OpenedIn transport ([] : List (Mounts.Performed Vault)) := by
  rintro ⟨performed, hmem, -⟩
  cases hmem

@[simp] theorem closedIn_nil (transport : ℕ) :
    ¬ ClosedIn transport ([] : List (Mounts.Performed Vault)) := by
  rintro ⟨performed, hmem, -⟩
  cases hmem

theorem openedIn_cons {transport : ℕ} {performed : Mounts.Performed Vault}
    {trace : List (Mounts.Performed Vault)} : OpenedIn transport (performed :: trace) ↔
      madeTransport performed = some transport ∨ OpenedIn transport trace := by
  simp only [OpenedIn, List.exists_mem_cons_iff]

theorem closedIn_cons {transport : ℕ} {performed : Mounts.Performed Vault}
    {trace : List (Mounts.Performed Vault)} : ClosedIn transport (performed :: trace) ↔
      closedTransport performed.1 = some transport ∨ ClosedIn transport trace := by
  simp only [ClosedIn, List.exists_mem_cons_iff]

theorem openedIn_append {transport : ℕ} {first second : List (Mounts.Performed Vault)} :
    OpenedIn transport (first ++ second) ↔
      OpenedIn transport first ∨ OpenedIn transport second := by
  simp only [OpenedIn, List.mem_append, or_and_right, exists_or]

theorem closedIn_append {transport : ℕ} {first second : List (Mounts.Performed Vault)} :
    ClosedIn transport (first ++ second) ↔
      ClosedIn transport first ∨ ClosedIn transport second := by
  simp only [ClosedIn, List.mem_append, or_and_right, exists_or]

/-! ### The ladder -/

/-- What `bootRepo` did until its promise settled. -/
inductive BootRan (vault : Vault) (transport : ℕ) :
    List (Mounts.Performed Vault) → Except Rejection (PageRepo Vault) → Prop
  | booted : BootRan vault transport [⟨.bootstrap transport, .ok ()⟩] (.ok ⟨transport, vault⟩)
  | failed (err : Rejection) : BootRan vault transport
      [⟨.bootstrap transport, .error err⟩, ⟨.terminate transport, ()⟩] (.error err)

/-- What the last tier did. -/
inductive DedicatedRan (vault : Vault) :
    List (Mounts.Performed Vault) → Except Rejection (PageRepo Vault) → Prop
  | unmade (err : Rejection) :
      DedicatedRan vault [⟨.makeDedicatedTransport, .error err⟩] (.error err)
  | made {transport : ℕ} {trace : List (Mounts.Performed Vault)}
      {result : Except Rejection (PageRepo Vault)} (hboot : BootRan vault transport trace result) :
      DedicatedRan vault (⟨.makeDedicatedTransport, .ok transport⟩ :: trace) result

/-- What the leader election and the last tier did. -/
inductive LeaderRan (vault : Vault) :
    List (Mounts.Performed Vault) → Except Rejection (PageRepo Vault) → Prop
  | unmade (err : Rejection) : LeaderRan vault [⟨.makeLeaderTransport, .error err⟩] (.error err)
  | unsupported {trace : List (Mounts.Performed Vault)} {result : Except Rejection (PageRepo Vault)}
      (hrest : DedicatedRan vault trace result) :
      LeaderRan vault (⟨.makeLeaderTransport, .ok none⟩ :: trace) result
  | booted (leader : ℕ) : LeaderRan vault [⟨.makeLeaderTransport, .ok (some leader)⟩,
      ⟨.whenReady leader, .ok ()⟩, ⟨.bootstrap leader, .ok ()⟩] (.ok ⟨leader, vault⟩)
  | notReady (leader : ℕ) (err : Rejection) {trace : List (Mounts.Performed Vault)}
      {result : Except Rejection (PageRepo Vault)} (hrest : DedicatedRan vault trace result) :
      LeaderRan vault (⟨.makeLeaderTransport, .ok (some leader)⟩ ::
        ⟨.whenReady leader, .error err⟩ :: ⟨.closeLeader leader, ()⟩ :: trace) result
  | notBooted (leader : ℕ) (err : Rejection) {trace : List (Mounts.Performed Vault)}
      {result : Except Rejection (PageRepo Vault)} (hrest : DedicatedRan vault trace result) :
      LeaderRan vault (⟨.makeLeaderTransport, .ok (some leader)⟩ ::
        ⟨.whenReady leader, .ok ()⟩ :: ⟨.bootstrap leader, .error err⟩ ::
        ⟨.terminate leader, ()⟩ :: ⟨.closeLeader leader, ()⟩ :: trace) result

/-- What the tiers from the shared worker on did. -/
inductive SharedRan (vault : Vault) :
    List (Mounts.Performed Vault) → Except Rejection (PageRepo Vault) → Prop
  | unmade (err : Rejection) (hother : isOpfsUnavailable err = false) :
      SharedRan vault [⟨.makeSharedTransport, .error err⟩] (.error err)
  | booted (transport : ℕ) : SharedRan vault [⟨.makeSharedTransport, .ok transport⟩,
      ⟨.bootstrap transport, .ok ()⟩] (.ok ⟨transport, vault⟩)
  | failed (transport : ℕ) (err : Rejection) (hother : isOpfsUnavailable err = false) :
      SharedRan vault [⟨.makeSharedTransport, .ok transport⟩, ⟨.bootstrap transport, .error err⟩,
        ⟨.terminate transport, ()⟩] (.error err)
  | unavailable (err : Rejection) (hopfs : isOpfsUnavailable err = true)
      {trace : List (Mounts.Performed Vault)} {result : Except Rejection (PageRepo Vault)}
      (hrest : LeaderRan vault trace result) :
      SharedRan vault (⟨.makeSharedTransport, .error err⟩ :: trace) result
  | stepsDown (transport : ℕ) (err : Rejection) (hopfs : isOpfsUnavailable err = true)
      {trace : List (Mounts.Performed Vault)} {result : Except Rejection (PageRepo Vault)}
      (hrest : LeaderRan vault trace result) :
      SharedRan vault (⟨.makeSharedTransport, .ok transport⟩ ::
        ⟨.bootstrap transport, .error err⟩ :: ⟨.terminate transport, ()⟩ :: trace) result

/-- What `createRepo` did until its promise settled. -/
inductive CreateRan (supportsSharedWorker : Bool) (vault : Vault) :
    List (Mounts.Performed Vault) → Except Rejection (PageRepo Vault) → Prop
  | unloaded (err : Rejection) :
      CreateRan supportsSharedWorker vault [⟨.ensureWasm, .error err⟩] (.error err)
  | shared (hsupports : supportsSharedWorker = true) {trace : List (Mounts.Performed Vault)}
      {result : Except Rejection (PageRepo Vault)} (hrest : SharedRan vault trace result) :
      CreateRan supportsSharedWorker vault (⟨.ensureWasm, .ok ()⟩ :: trace) result
  | leader (hsupports : supportsSharedWorker = false) {trace : List (Mounts.Performed Vault)}
      {result : Except Rejection (PageRepo Vault)} (hrest : LeaderRan vault trace result) :
      CreateRan supportsSharedWorker vault (⟨.ensureWasm, .ok ()⟩ :: trace) result

section Runs

variable {supportsSharedWorker : Bool} {vault : Vault} {next : Continuation Vault}
  {trace : List (Mounts.Performed Vault)}

/-- A run that ends went through some calls until the promise settled, and on from there. -/
def GoesThrough (ran : List (Mounts.Performed Vault) → Except Rejection (PageRepo Vault) → Prop)
    (next : Continuation Vault) (trace : List (Mounts.Performed Vault)) : Prop :=
  ∃ earlier later result, trace = earlier ++ later ∧ ran earlier result ∧
    (next result).Runs later (.done ())

theorem bootRepo_done {transport : ℕ}
    (hruns : (bootRepo transport vault next).Runs trace (.done ())) :
    GoesThrough (BootRan vault transport) next trace := by
  obtain ⟨booted, rest, rfl, hbooted⟩ := hruns.of_done
  cases booted with
  | ok _ => exact ⟨_, rest, _, List.singleton_append.symm, .booted, hbooted⟩
  | error err =>
    obtain ⟨_, rest, rfl, hclosed⟩ := hbooted.of_done
    exact ⟨[_, _], rest, _, rfl, .failed err, hclosed⟩

theorem dedicatedTier_done (hruns : (dedicatedTier vault next).Runs trace (.done ())) :
    GoesThrough (DedicatedRan vault) next trace := by
  obtain ⟨made, rest, rfl, hmade⟩ := hruns.of_done
  cases made with
  | error err => exact ⟨_, rest, _, List.singleton_append.symm, .unmade err, hmade⟩
  | ok transport =>
    obtain ⟨earlier, later, result, rfl, hboot, hlater⟩ := bootRepo_done hmade
    exact ⟨_ :: earlier, later, result, rfl, .made hboot, hlater⟩

theorem leaderTier_done (hruns : (leaderTier vault next).Runs trace (.done ())) :
    GoesThrough (LeaderRan vault) next trace := by
  obtain ⟨made, rest, rfl, hmade⟩ := hruns.of_done
  cases made with
  | error err => exact ⟨_, rest, _, List.singleton_append.symm, .unmade err, hmade⟩
  | ok made =>
    cases made with
    | none =>
      obtain ⟨earlier, later, result, rfl, hrest, hlater⟩ := dedicatedTier_done hmade
      exact ⟨_ :: earlier, later, result, rfl, .unsupported hrest, hlater⟩
    | some leader =>
      obtain ⟨ready, rest, rfl, hready⟩ := hmade.of_done
      cases ready with
      | error err =>
        obtain ⟨_, rest, rfl, hclosed⟩ := hready.of_done
        obtain ⟨earlier, later, result, rfl, hrest, hlater⟩ := dedicatedTier_done hclosed
        exact ⟨_ :: _ :: _ :: earlier, later, result, rfl, .notReady leader err hrest, hlater⟩
      | ok _ =>
        obtain ⟨earlier, later, result, rfl, hboot, hlater⟩ := bootRepo_done hready
        cases hboot with
        | booted => exact ⟨[_, _, _], later, _, rfl, .booted leader, hlater⟩
        | failed err =>
          obtain ⟨_, rest, rfl, hclosed⟩ := hlater.of_done
          obtain ⟨earlier, later, result, rfl, hrest, hlater⟩ := dedicatedTier_done hclosed
          exact ⟨_ :: _ :: _ :: _ :: _ :: earlier, later, result, rfl,
            .notBooted leader err hrest, hlater⟩

theorem sharedTier_done (hruns : (sharedTier vault next).Runs trace (.done ())) :
    GoesThrough (SharedRan vault) next trace := by
  obtain ⟨made, rest, rfl, hmade⟩ := hruns.of_done
  cases made with
  | error err =>
    dsimp only at hmade
    split_ifs at hmade with hopfs
    · obtain ⟨earlier, later, result, rfl, hrest, hlater⟩ := leaderTier_done hmade
      exact ⟨_ :: earlier, later, result, rfl, .unavailable err hopfs hrest, hlater⟩
    · exact ⟨_, rest, _, List.singleton_append.symm, .unmade err (Bool.not_eq_true _ ▸ hopfs),
        hmade⟩
  | ok transport =>
    obtain ⟨earlier, later, result, rfl, hboot, hlater⟩ := bootRepo_done hmade
    cases hboot with
    | booted => exact ⟨[_, _], later, _, rfl, .booted transport, hlater⟩
    | failed err =>
      dsimp only at hlater
      split_ifs at hlater with hopfs
      · obtain ⟨earlier, later, result, rfl, hrest, hlater⟩ := leaderTier_done hlater
        exact ⟨_ :: _ :: _ :: earlier, later, result, rfl, .stepsDown transport err hopfs hrest,
          hlater⟩
      · exact ⟨[_, _, _], later, _, rfl, .failed transport err (Bool.not_eq_true _ ▸ hopfs),
          hlater⟩

theorem createRepo_done
    (hruns : (createRepo supportsSharedWorker vault next).Runs trace (.done ())) :
    GoesThrough (CreateRan supportsSharedWorker vault) next trace := by
  obtain ⟨loaded, rest, rfl, hloaded⟩ := hruns.of_done
  cases loaded with
  | error err => exact ⟨_, rest, _, List.singleton_append.symm, .unloaded err, hloaded⟩
  | ok _ =>
    dsimp only at hloaded
    split_ifs at hloaded with hsupports
    · obtain ⟨earlier, later, result, rfl, hrest, hlater⟩ := sharedTier_done hloaded
      exact ⟨_ :: earlier, later, result, rfl, .shared hsupports hrest, hlater⟩
    · obtain ⟨earlier, later, result, rfl, hrest, hlater⟩ := leaderTier_done hloaded
      exact ⟨_ :: earlier, later, result, rfl, .leader (Bool.not_eq_true _ ▸ hsupports) hrest,
        hlater⟩

end Runs

/-! ### What a call of the ladder may do -/

/-- Every transport that was opened is closed. -/
def AllClosed (trace : List (Mounts.Performed Vault)) : Prop :=
  ∀ transport, OpenedIn transport trace → ClosedIn transport trace

/-- The shared worker failed, and only because it lacks the storage. -/
def SteppedDown (trace : List (Mounts.Performed Vault)) : Prop :=
  ∃ err, isOpfsUnavailable err = true ∧ (⟨.makeSharedTransport, .error err⟩ ∈ trace ∨
    ∃ transport, ⟨.bootstrap transport, .error err⟩ ∈ trace)

/-- A call after others: it opens a transport only when all others are closed and no tier above is
left, and it closes only what was opened. -/
structure Lawful (supportsSharedWorker : Bool) (past : List (Mounts.Performed Vault))
    (performed : Mounts.Performed Vault) : Prop where
  making : performed.1.makes = true → AllClosed past
  stepping : performed.1.makes = true → performed.1 ≠ .makeSharedTransport →
    supportsSharedWorker = true → SteppedDown past
  closing : ∀ transport, closedTransport performed.1 = some transport → OpenedIn transport past

/-- Each call of a trace is lawful after those before it. -/
def LawfulFrom (supportsSharedWorker : Bool) :
    List (Mounts.Performed Vault) → List (Mounts.Performed Vault) → Prop
  | _, [] => True
  | past, performed :: rest => Lawful supportsSharedWorker past performed ∧
      LawfulFrom supportsSharedWorker (past ++ [performed]) rest

/-- Where a trace is lawful, each of its calls is. -/
theorem LawfulFrom.lawful {supportsSharedWorker : Bool}
    {earlier later : List (Mounts.Performed Vault)}
    {performed : Mounts.Performed Vault} : ∀ {past : List (Mounts.Performed Vault)},
      LawfulFrom supportsSharedWorker past (earlier ++ performed :: later) →
        Lawful supportsSharedWorker (past ++ earlier) performed := by
  induction earlier with
  | nil =>
    intro past hlawful
    rw [List.append_nil]
    exact hlawful.1
  | cons first rest ih =>
    intro past hlawful
    have hrest := ih hlawful.2
    rwa [List.append_assoc, List.singleton_append] at hrest

/-- A lawful trace goes on lawfully. -/
theorem LawfulFrom.append {supportsSharedWorker : Bool}
    {first second : List (Mounts.Performed Vault)} :
    ∀ {past : List (Mounts.Performed Vault)}, LawfulFrom supportsSharedWorker past first →
      LawfulFrom supportsSharedWorker (past ++ first) second →
        LawfulFrom supportsSharedWorker past (first ++ second) := by
  induction first with
  | nil =>
    intro past _ hsecond
    rw [List.append_nil] at hsecond
    exact hsecond
  | cons performed rest ih =>
    intro past hfirst hsecond
    refine ⟨hfirst.1, ih hfirst.2 ?_⟩
    rwa [List.append_assoc, List.singleton_append]

section Lawful

variable {supportsSharedWorker : Bool} {vault : Vault}
  {past trace : List (Mounts.Performed Vault)} {result : Except Rejection (PageRepo Vault)}

/-- A call that neither opens nor closes a transport is lawful. -/
theorem lawful_of_idle {performed : Mounts.Performed Vault} (hmakes : performed.1.makes = false)
    (hclosed : closedTransport performed.1 = none) :
    Lawful supportsSharedWorker past performed := by
  refine ⟨?_, ?_, ?_⟩
  · intro hother
    rw [hmakes] at hother
    cases hother
  · intro hother
    rw [hmakes] at hother
    cases hother
  · intro transport hother
    rw [hclosed] at hother
    cases hother

/-- Closing a transport that was opened is lawful. -/
theorem lawful_of_closing {performed : Mounts.Performed Vault} {transport : ℕ}
    (hmakes : performed.1.makes = false) (hclosed : closedTransport performed.1 = some transport)
    (hopened : OpenedIn transport past) : Lawful supportsSharedWorker past performed := by
  refine ⟨?_, ?_, ?_⟩
  · intro hother
    rw [hmakes] at hother
    cases hother
  · intro hother
    rw [hmakes] at hother
    cases hother
  · intro other hother
    rw [hclosed] at hother
    exact Option.some.inj hother ▸ hopened

theorem lawful_bootRan {transport : ℕ} (hran : BootRan vault transport trace result)
    (hopened : OpenedIn transport past) : LawfulFrom supportsSharedWorker past trace := by
  cases hran with
  | booted => exact ⟨lawful_of_idle rfl rfl, trivial⟩
  | failed err =>
    refine ⟨lawful_of_idle rfl rfl, lawful_of_closing rfl rfl ?_, trivial⟩
    exact openedIn_append.mpr (.inl hopened)

/-- The last tiers are lawful when all is closed and the shared worker is out of the question. -/
theorem lawful_dedicatedRan (hran : DedicatedRan vault trace result) (hclosed : AllClosed past)
    (hstepped : supportsSharedWorker = true → SteppedDown past) :
    LawfulFrom supportsSharedWorker past trace := by
  have hmaking : ∀ made, Lawful supportsSharedWorker past ⟨.makeDedicatedTransport, made⟩ :=
    fun made ↦ ⟨fun _ ↦ hclosed, fun _ _ ↦ hstepped, fun _ hother ↦ by cases hother⟩
  cases hran with
  | unmade err => exact ⟨hmaking _, trivial⟩
  | made hboot =>
    exact ⟨hmaking _, lawful_bootRan hboot
      (openedIn_append.mpr (.inr ⟨_, List.mem_cons_self, rfl⟩))⟩

theorem SteppedDown.append (hstepped : SteppedDown past) (later : List (Mounts.Performed Vault)) :
    SteppedDown (past ++ later) := by
  obtain ⟨err, hopfs, hmade | ⟨transport, hbooted⟩⟩ := hstepped
  · exact ⟨err, hopfs, .inl (List.mem_append_left _ hmade)⟩
  · exact ⟨err, hopfs, .inr ⟨transport, List.mem_append_left _ hbooted⟩⟩

theorem AllClosed.append (hclosed : AllClosed past) {later : List (Mounts.Performed Vault)}
    (hlater : AllClosed later) : AllClosed (past ++ later) := by
  intro transport hopened
  rcases openedIn_append.mp hopened with hpast | hnew
  · exact closedIn_append.mpr (.inl (hclosed transport hpast))
  · exact closedIn_append.mpr (.inr (hlater transport hnew))

theorem lawful_leaderRan (hran : LeaderRan vault trace result) (hclosed : AllClosed past)
    (hstepped : supportsSharedWorker = true → SteppedDown past) :
    LawfulFrom supportsSharedWorker past trace := by
  have hmaking : ∀ made, Lawful supportsSharedWorker past ⟨.makeLeaderTransport, made⟩ :=
    fun made ↦ ⟨fun _ ↦ hclosed, fun _ _ ↦ hstepped, fun _ hother ↦ by cases hother⟩
  cases hran with
  | unmade err => exact ⟨hmaking _, trivial⟩
  | unsupported hrest =>
    refine ⟨hmaking _, lawful_dedicatedRan hrest (hclosed.append ?_) fun hsupports ↦
      (hstepped hsupports).append _⟩
    intro transport hopened
    simp [openedIn_cons, madeTransport] at hopened
  | booted leader =>
    exact ⟨hmaking _, lawful_of_idle rfl rfl, lawful_of_idle rfl rfl, trivial⟩
  | notReady leader err hrest =>
    refine ⟨hmaking _, lawful_of_idle rfl rfl, lawful_of_closing rfl rfl ?_, ?_⟩
    · simp [openedIn_append, openedIn_cons, madeTransport]
    · rw [List.append_assoc, List.append_assoc]
      refine lawful_dedicatedRan hrest (hclosed.append ?_) fun hsupports ↦
        (hstepped hsupports).append _
      intro transport hopened
      simpa [openedIn_cons, closedIn_cons, madeTransport, closedTransport] using hopened
  | notBooted leader err hrest =>
    refine ⟨hmaking _, lawful_of_idle rfl rfl, lawful_of_idle rfl rfl,
      lawful_of_closing rfl rfl ?_, lawful_of_closing rfl rfl ?_, ?_⟩
    · simp [openedIn_append, openedIn_cons, madeTransport]
    · simp [openedIn_append, openedIn_cons, madeTransport]
    · rw [List.append_assoc, List.append_assoc, List.append_assoc, List.append_assoc]
      refine lawful_dedicatedRan hrest (hclosed.append ?_) fun hsupports ↦
        (hstepped hsupports).append _
      intro transport hopened
      simpa [openedIn_cons, closedIn_cons, madeTransport, closedTransport] using hopened

theorem lawful_sharedRan (hran : SharedRan vault trace result) (hclosed : AllClosed past) :
    LawfulFrom supportsSharedWorker past trace := by
  have hmaking : ∀ made, Lawful supportsSharedWorker past ⟨.makeSharedTransport, made⟩ :=
    fun made ↦ ⟨fun _ ↦ hclosed, fun _ hne ↦ absurd rfl hne, fun _ hother ↦ by cases hother⟩
  cases hran with
  | unmade err hother => exact ⟨hmaking _, trivial⟩
  | booted transport => exact ⟨hmaking _, lawful_of_idle rfl rfl, trivial⟩
  | failed transport err hother =>
    refine ⟨hmaking _, lawful_of_idle rfl rfl, lawful_of_closing rfl rfl ?_, trivial⟩
    simp [openedIn_append, openedIn_cons, madeTransport]
  | unavailable err hopfs hrest =>
    refine ⟨hmaking _, lawful_leaderRan hrest (hclosed.append ?_) fun _ ↦ ?_⟩
    · intro transport hopened
      simp [openedIn_cons, madeTransport] at hopened
    · exact ⟨err, hopfs, .inl (by simp)⟩
  | stepsDown transport err hopfs hrest =>
    refine ⟨hmaking _, lawful_of_idle rfl rfl, lawful_of_closing rfl rfl ?_, ?_⟩
    · simp [openedIn_append, openedIn_cons, madeTransport]
    · rw [List.append_assoc, List.append_assoc]
      refine lawful_leaderRan hrest (hclosed.append ?_) fun _ ↦ ?_
      · intro transport hopened
        simpa [openedIn_cons, closedIn_cons, madeTransport, closedTransport] using hopened
      · exact ⟨err, hopfs, .inr ⟨transport, by simp⟩⟩

theorem lawful_createRan (hran : CreateRan supportsSharedWorker vault trace result)
    (hclosed : AllClosed past) : LawfulFrom supportsSharedWorker past trace := by
  have hloaded : ∀ loaded, AllClosed (past ++ [(⟨.ensureWasm, loaded⟩ : Mounts.Performed Vault)]) :=
    fun loaded ↦ hclosed.append fun transport hopened ↦ by
      simp [openedIn_cons, madeTransport] at hopened
  cases hran with
  | unloaded err => exact ⟨lawful_of_idle rfl rfl, trivial⟩
  | shared hsupports hrest => exact ⟨lawful_of_idle rfl rfl, lawful_sharedRan hrest (hloaded _)⟩
  | leader hsupports hrest =>
    refine ⟨lawful_of_idle rfl rfl, lawful_leaderRan hrest (hloaded _) fun hother ↦ ?_⟩
    rw [hsupports] at hother
    cases hother

end Lawful

/-! ### How the ladder ends -/

section Ends

variable {supportsSharedWorker : Bool} {vault : Vault}
  {trace : List (Mounts.Performed Vault)} {result : Except Rejection (PageRepo Vault)}

/-- What is open when a promise settles: the transport of the repository that it gives, which was
opened in the end and is not closed, and no other. -/
structure EndsWith (vault : Vault) (trace : List (Mounts.Performed Vault))
    (result : Except Rejection (PageRepo Vault)) : Prop where
  others : ∀ transport, OpenedIn transport trace →
    ClosedIn transport trace ∨ ∃ repo, result = .ok repo ∧ repo.transport = transport
  kept : ∀ repo, result = .ok repo → repo.vault = vault ∧ ∃ before made after,
    trace = before ++ made :: after ∧ madeTransport made = some repo.transport ∧
      ∀ transport, ¬ ClosedIn transport (made :: after)

/-- Calls before, after which all is closed. -/
theorem EndsWith.prepend (hends : EndsWith vault trace result)
    (earlier : List (Mounts.Performed Vault)) (hclosed : AllClosed earlier) :
    EndsWith vault (earlier ++ trace) result := by
  constructor
  · intro transport hopened
    rcases openedIn_append.mp hopened with hearlier | hlater
    · exact .inl (closedIn_append.mpr (.inl (hclosed transport hearlier)))
    · rcases hends.others transport hlater with hgone | hrepo
      · exact .inl (closedIn_append.mpr (.inr hgone))
      · exact .inr hrepo
  · intro repo hrepo
    obtain ⟨hvault, before, made, after, rfl, hmade⟩ := hends.kept repo hrepo
    exact ⟨hvault, earlier ++ before, made, after, (List.append_assoc _ _ _).symm, hmade⟩

/-- Nothing was opened but what was closed. -/
theorem endsWith_error {err : Rejection} (hclosed : AllClosed trace) :
    EndsWith vault trace (.error err) :=
  ⟨fun transport hopened ↦ .inl (hclosed transport hopened), fun _ hrepo ↦ by cases hrepo⟩

/-- A transport was opened, and its database was opened. -/
theorem endsWith_booted {made : Mounts.Performed Vault} {after : List (Mounts.Performed Vault)}
    {transport : ℕ} (hmade : madeTransport made = some transport)
    (hafter : ∀ other, ¬ OpenedIn other after)
    (hclosed : ∀ other, ¬ ClosedIn other (made :: after)) :
    EndsWith vault (made :: after) (.ok ⟨transport, vault⟩) := by
  constructor
  · intro other hopened
    rcases openedIn_cons.mp hopened with hfirst | hlater
    · rw [hmade] at hfirst
      exact .inr ⟨_, rfl, Option.some.inj hfirst⟩
    · exact absurd hlater (hafter other)
  · intro repo hrepo
    cases hrepo
    exact ⟨rfl, [], made, after, rfl, hmade, hclosed⟩

theorem endsWith_dedicatedRan (hran : DedicatedRan vault trace result) :
    EndsWith vault trace result := by
  cases hran with
  | unmade err =>
    refine endsWith_error fun transport hopened ↦ ?_
    simp [openedIn_cons, madeTransport] at hopened
  | made hboot =>
    cases hboot with
    | booted =>
      refine endsWith_booted rfl ?_ ?_
      · simp [openedIn_cons, madeTransport]
      · simp [closedIn_cons, closedTransport]
    | failed err =>
      refine endsWith_error fun transport hopened ↦ ?_
      simpa [openedIn_cons, closedIn_cons, madeTransport, closedTransport] using hopened

theorem endsWith_leaderRan (hran : LeaderRan vault trace result) : EndsWith vault trace result := by
  cases hran with
  | unmade err =>
    refine endsWith_error fun transport hopened ↦ ?_
    simp [openedIn_cons, madeTransport] at hopened
  | unsupported hrest =>
    refine (endsWith_dedicatedRan hrest).prepend [_] fun transport hopened ↦ ?_
    simp [openedIn_cons, madeTransport] at hopened
  | booted leader =>
    refine endsWith_booted rfl ?_ ?_
    · simp [openedIn_cons, madeTransport]
    · simp [closedIn_cons, closedTransport]
  | notReady leader err hrest =>
    refine (endsWith_dedicatedRan hrest).prepend [_, _, _] fun transport hopened ↦ ?_
    simpa [openedIn_cons, closedIn_cons, madeTransport, closedTransport] using hopened
  | notBooted leader err hrest =>
    refine (endsWith_dedicatedRan hrest).prepend [_, _, _, _, _]
      fun transport hopened ↦ ?_
    simpa [openedIn_cons, closedIn_cons, madeTransport, closedTransport] using hopened

theorem endsWith_sharedRan (hran : SharedRan vault trace result) : EndsWith vault trace result := by
  cases hran with
  | unmade err hother =>
    refine endsWith_error fun transport hopened ↦ ?_
    simp [openedIn_cons, madeTransport] at hopened
  | booted transport =>
    refine endsWith_booted rfl ?_ ?_
    · simp [openedIn_cons, madeTransport]
    · simp [closedIn_cons, closedTransport]
  | failed transport err hother =>
    refine endsWith_error fun other hopened ↦ ?_
    simpa [openedIn_cons, closedIn_cons, madeTransport, closedTransport] using hopened
  | unavailable err hopfs hrest =>
    refine (endsWith_leaderRan hrest).prepend [_] fun transport hopened ↦ ?_
    simp [openedIn_cons, madeTransport] at hopened
  | stepsDown transport err hopfs hrest =>
    refine (endsWith_leaderRan hrest).prepend [_, _, _] fun other hopened ↦ ?_
    simpa [openedIn_cons, closedIn_cons, madeTransport, closedTransport] using hopened

theorem endsWith_createRan (hran : CreateRan supportsSharedWorker vault trace result) :
    EndsWith vault trace result := by
  have hloaded : ∀ loaded, AllClosed [(⟨.ensureWasm, loaded⟩ : Mounts.Performed Vault)] := by
    intro loaded transport hopened
    simp [openedIn_cons, madeTransport] at hopened
  cases hran with
  | unloaded err => exact endsWith_error (hloaded _)
  | shared hsupports hrest => exact (endsWith_sharedRan hrest).prepend _ (hloaded _)
  | leader hsupports hrest => exact (endsWith_leaderRan hrest).prepend _ (hloaded _)

end Ends

/-! ### What a mount does -/

/-- What a mount still does after its promise settled. -/
def closing : Bool → Except Rejection (PageRepo Vault) → List (Mounts.Performed Vault)
  | true, .ok repo => [⟨.sendClose repo.transport, ()⟩, ⟨.terminate repo.transport, ()⟩]
  | _, _ => []

/-- What the effect with a vault did when all is done. -/
inductive MountRan (supportsSharedWorker : Bool) (vault : Vault) :
    List (Mounts.Performed Vault) → Prop
  | mk (mount : ℕ) {ran : List (Mounts.Performed Vault)}
      {result : Except Rejection (PageRepo Vault)}
      (hran : CreateRan supportsSharedWorker vault ran result) (cancelled : Bool) :
      MountRan supportsSharedWorker vault
        (⟨.runEffect, mount⟩ :: (ran ++ ⟨.settle mount result, cancelled⟩ ::
          closing cancelled result))

section Mount

variable {supportsSharedWorker : Bool} {vault : Vault} {trace : List (Mounts.Performed Vault)}

theorem closeRepo_done {transport : ℕ}
    (hruns : (closeRepo transport : PageHandler Vault).Runs trace (.done ())) :
    trace = [⟨.sendClose transport, ()⟩, ⟨.terminate transport, ()⟩] := by
  obtain ⟨_, rest, rfl, hsent⟩ := hruns.of_done
  obtain ⟨_, rest, rfl, hclosed⟩ := hsent.of_done
  obtain ⟨rfl, -⟩ := Program.runs_done_iff.mp hclosed
  rfl

theorem mountVault_done
    (hruns : (mountVault supportsSharedWorker vault).Runs trace (.done ())) :
    MountRan supportsSharedWorker vault trace := by
  obtain ⟨mount, rest, rfl, hmounted⟩ := hruns.of_done
  obtain ⟨ran, later, result, rfl, hran, hlater⟩ := createRepo_done hmounted
  obtain ⟨cancelled, rest, rfl, hsettled⟩ := hlater.of_done
  have hclosing : rest = closing cancelled result := by
    cases cancelled with
    | false => exact (Program.runs_done_iff.mp hsettled).1
    | true =>
      cases result with
      | error err => exact (Program.runs_done_iff.mp hsettled).1
      | ok repo => exact closeRepo_done hsettled
  rw [hclosing]
  exact .mk mount hran cancelled

theorem unmount_done (hruns : (unmount : PageHandler Vault).Runs trace (.done ())) :
    trace = [⟨.cleanup, none⟩] ∨ ∃ transport, trace = [⟨.cleanup, some transport⟩,
      ⟨.sendClose transport, ()⟩, ⟨.terminate transport, ()⟩] := by
  obtain ⟨attached, rest, rfl, hcleaned⟩ := hruns.of_done
  cases attached with
  | none =>
    obtain ⟨rfl, -⟩ := Program.runs_done_iff.mp hcleaned
    exact .inl rfl
  | some transport =>
    rw [closeRepo_done hcleaned]
    exact .inr ⟨transport, rfl⟩

/-- Every call of a mount is lawful. -/
theorem lawful_mountRan (hran : MountRan supportsSharedWorker vault trace) :
    LawfulFrom supportsSharedWorker [] trace := by
  cases hran with
  | @mk mount ran result hran cancelled =>
    refine ⟨lawful_of_idle rfl rfl, ?_⟩
    have hstart : AllClosed [(⟨.runEffect, mount⟩ : Mounts.Performed Vault)] := by
      intro transport hopened
      simp [openedIn_cons, madeTransport] at hopened
    have hkept := (endsWith_createRan hran).kept
    refine (lawful_createRan hran hstart).append ?_
    refine ⟨lawful_of_idle rfl rfl, ?_⟩
    cases result with
    | error err =>
      cases cancelled with
      | true => trivial
      | false => trivial
    | ok repo =>
      cases cancelled with
      | false => trivial
      | true =>
        refine ⟨lawful_of_idle rfl rfl, lawful_of_closing rfl rfl ?_, trivial⟩
        obtain ⟨-, before, made, after, hsplit, hmade, -⟩ := hkept repo rfl
        rw [hsplit]
        refine ⟨made, by simp, hmade⟩

end Mount

/-! ### The runs of a page -/

/-- The number that a call gives to the effect. -/
def mountOf : Mounts.Performed Vault → Option ℕ
  | ⟨.runEffect, mount⟩ => some mount
  | _ => none

/-- What the hook keeps. The mount that is not cleaned up is the last one. A repository is attached
when the reaction of its mount says so, and stays attached until the cleanup takes it. -/
structure HookHistory (page : Page Vault) (log : List (Mounts.LogEntry Vault)) : Prop where
  last : ∀ mount attached, page.mounted = some (mount, attached) → mount < page.mounts
  cleaned : ∀ entry ∈ log, ∀ attached, entry.performed = ⟨.cleanup, attached⟩ →
    ∃ mount, entry.before.mounted = some (mount, attached) ∧ mount < page.mounts ∧
      ∀ other now, page.mounted = some (other, now) → other ≠ mount
  attached : ∀ mount transport, page.mounted = some (mount, some transport) →
    ∃ repo, repo.transport = transport ∧
      ∃ entry ∈ log, entry.performed = ⟨.settle mount (.ok repo), false⟩
  shown : ∀ repo mount now, page.state = .ready repo → page.mounted = some (mount, now) →
    ∃ entry ∈ log, entry.performed = ⟨.settle mount (.ok repo), false⟩
  kept : ∀ (position : ℕ) (entry : Mounts.LogEntry Vault) (mount : ℕ) (repo : PageRepo Vault),
    log[position]? = some entry → entry.performed = ⟨.settle mount (.ok repo), false⟩ →
      page.mounted = some (mount, some repo.transport) ∨
      ∃ (later : ℕ) (other : Mounts.LogEntry Vault), position < later ∧
        log[later]? = some other ∧ (other.performed = ⟨.cleanup, some repo.transport⟩ ∨
          ∃ result cancelled, other.performed = ⟨.settle mount result, cancelled⟩)

theorem hookHistory_start : HookHistory (Page.start : Page Vault) [] := by
  refine ⟨?_, List.forall_mem_nil _, ?_, ?_, ?_⟩
  · intro mount attached hmounted
    cases hmounted
  · intro mount transport hmounted
    cases hmounted
  · intro repo mount now hstate
    cases hstate
  · intro position entry mount repo hentry
    simp at hentry

/-- The mount and the repository that a reaction attaches. -/
def attachment : Mounts.Performed Vault → Option (ℕ × PageRepo Vault)
  | ⟨.settle mount (.ok repo), false⟩ => some (mount, repo)
  | _ => none

/-- What a call does to the mounted effect and the state. -/
inductive Page.Moves (page next : Page Vault) : Mounts.Performed Vault → Prop
  | stays {performed : Mounts.Performed Vault} (hmounted : next.mounted = page.mounted)
      (hmounts : next.mounts = page.mounts) (hstate : next.state = page.state)
      (hcleanup : performed.1 ≠ .cleanup) (hattachment : attachment performed = none)
      (hmount : mountOf performed = none) : Moves page next performed
  | runs (hnone : page.mounted = none) (hmounted : next.mounted = some (page.mounts, none))
      (hmounts : next.mounts = page.mounts + 1) (hstate : next.state = .loading) :
      Moves page next ⟨.runEffect, page.mounts⟩
  | idles (hnone : page.mounted = none) (hmounted : next.mounted = none)
      (hmounts : next.mounts = page.mounts) (hstate : next.state = .idle) :
      Moves page next ⟨.runIdle, ()⟩
  | attaches {mount : ℕ} {attached : Option ℕ} {repo : PageRepo Vault}
      (hcurrent : page.mounted = some (mount, attached))
      (hmounted : next.mounted = some (mount, some repo.transport))
      (hmounts : next.mounts = page.mounts) (hstate : next.state = .ready repo) :
      Moves page next ⟨.settle mount (.ok repo), false⟩
  | fails {mount : ℕ} {attached : Option ℕ} {err : Rejection}
      (hcurrent : page.mounted = some (mount, attached)) (hmounted : next.mounted = page.mounted)
      (hmounts : next.mounts = page.mounts) (hstate : next.state = .error err.message) :
      Moves page next ⟨.settle mount (.error err), false⟩
  | cleans {mount : ℕ} {attached : Option ℕ} (hcurrent : page.mounted = some (mount, attached))
      (hmounted : next.mounted = none) (hmounts : next.mounts = page.mounts) :
      Moves page next ⟨.cleanup, attached⟩

theorem Page.make_mounted (page : Page Vault) (conditions : PageConditions) :
    (page.make conditions).1.mounted = page.mounted ∧
      (page.make conditions).1.mounts = page.mounts ∧
      (page.make conditions).1.state = page.state := by
  unfold make
  split
  · exact ⟨rfl, rfl, rfl⟩
  · exact ⟨rfl, rfl, rfl⟩

/-- A transport that a call opens has the next number. -/
theorem Page.opened_of_perform {page next : Page Vault} {call : PageCall Vault}
    {conditions : PageConditions} {result : call.Result}
    (hperform : page.perform call conditions = some (next, result)) :
    page.opened ≤ next.opened ∧ ∀ given, madeTransport ⟨call, result⟩ = some given →
      given = page.opened ∧ given < next.opened := by
  have hmake : page.opened ≤ (page.make conditions).1.opened ∧
      ∀ given, (page.make conditions).2 = .ok given →
        given = page.opened ∧ given < (page.make conditions).1.opened := by
    unfold make
    split
    · exact ⟨Nat.le_refl _, fun _ hgiven ↦ by cases hgiven⟩
    · refine ⟨Nat.le_succ _, fun given hgiven ↦ ?_⟩
      cases hgiven
      exact ⟨rfl, Nat.lt_succ_self _⟩
  cases call with
  | makeSharedTransport =>
    rw [Option.some.inj hperform] at hmake
    refine ⟨hmake.1, fun given hgiven ↦ hmake.2 given ?_⟩
    cases result with
    | ok made => exact congrArg Except.ok (Option.some.inj hgiven)
    | error err => cases hgiven
  | makeDedicatedTransport =>
    rw [Option.some.inj hperform] at hmake
    refine ⟨hmake.1, fun given hgiven ↦ hmake.2 given ?_⟩
    cases result with
    | ok made => exact congrArg Except.ok (Option.some.inj hgiven)
    | error err => cases hgiven
  | makeLeaderTransport =>
    rw [perform] at hperform
    split_ifs at hperform
    · obtain ⟨rfl, rfl⟩ := Prod.mk.inj (Option.some.inj hperform)
      refine ⟨hmake.1, fun given hgiven ↦ hmake.2 given ?_⟩
      cases hmade : (page.make conditions).2 with
      | ok made =>
        rw [hmade] at hgiven
        exact congrArg Except.ok (Option.some.inj hgiven)
      | error err =>
        rw [hmade] at hgiven
        cases hgiven
    · cases hperform
      exact ⟨Nat.le_refl _, fun _ hgiven ↦ by cases hgiven⟩
  | ensureWasm =>
    rw [perform] at hperform
    split at hperform
    · cases hperform
      exact ⟨Nat.le_refl _, fun _ hgiven ↦ by cases hgiven⟩
    · cases hperform
      exact ⟨Nat.le_refl _, fun _ hgiven ↦ by cases hgiven⟩
  | runEffect =>
    rw [perform] at hperform
    split at hperform
    · cases hperform
      exact ⟨Nat.le_refl _, fun _ hgiven ↦ by cases hgiven⟩
    · cases hperform
  | runIdle =>
    rw [perform] at hperform
    split at hperform
    · cases hperform
      exact ⟨Nat.le_refl _, fun _ hgiven ↦ by cases hgiven⟩
    · cases hperform
  | settle mount outcome =>
    refine ⟨?_, fun _ hgiven ↦ by cases hgiven⟩
    rw [perform] at hperform
    unfold settle at hperform
    split_ifs at hperform
    · cases outcome with
      | ok repo =>
        cases hperform
        exact Nat.le_refl _
      | error err =>
        cases hperform
        exact Nat.le_refl _
    · cases hperform
      exact Nat.le_refl _
  | cleanup =>
    rw [perform] at hperform
    split at hperform
    · cases hperform
    · cases hperform
      exact ⟨Nat.le_refl _, fun _ hgiven ↦ by cases hgiven⟩
  | _ =>
    cases hperform
    exact ⟨Nat.le_refl _, fun _ hgiven ↦ by cases hgiven⟩

theorem Page.moves_of_perform {page next : Page Vault} {call : PageCall Vault}
    {conditions : PageConditions} {result : call.Result}
    (hperform : page.perform call conditions = some (next, result)) :
    page.Moves next ⟨call, result⟩ := by
  obtain ⟨hmounted, hmounts, hstate⟩ := page.make_mounted conditions
  cases call with
  | ensureWasm =>
    rw [perform] at hperform
    split at hperform
    · cases hperform
      exact .stays rfl rfl rfl (by simp) rfl rfl
    · cases hperform
      exact .stays rfl rfl rfl (by simp) rfl rfl
  | makeSharedTransport =>
    rw [Option.some.inj hperform] at hmounted hmounts hstate
    exact .stays hmounted hmounts hstate (by simp) rfl rfl
  | makeDedicatedTransport =>
    rw [Option.some.inj hperform] at hmounted hmounts hstate
    exact .stays hmounted hmounts hstate (by simp) rfl rfl
  | makeLeaderTransport =>
    rw [perform] at hperform
    split_ifs at hperform
    · cases hperform
      exact .stays hmounted hmounts hstate (by simp) rfl rfl
    · cases hperform
      exact .stays rfl rfl rfl (by simp) rfl rfl
  | runEffect =>
    rw [perform] at hperform
    split at hperform
    · next hnone =>
      cases hperform
      exact .runs hnone rfl rfl rfl
    · cases hperform
  | runIdle =>
    rw [perform] at hperform
    split at hperform
    · next hnone =>
      cases hperform
      exact .idles hnone hnone rfl rfl
    · cases hperform
  | settle mount outcome =>
    rw [perform] at hperform
    unfold settle at hperform
    split_ifs at hperform with hcurrent
    · obtain ⟨⟨current, attached⟩, hmounted, hsame⟩ := Option.map_eq_some_iff.mp hcurrent
      change current = mount at hsame
      subst hsame
      cases outcome with
      | ok repo =>
        cases hperform
        exact .attaches hmounted rfl rfl rfl
      | error err =>
        cases hperform
        exact .fails hmounted rfl rfl rfl
    · cases hperform
      refine .stays rfl rfl rfl (by simp) ?_ rfl
      cases outcome with
      | ok repo => rfl
      | error err => rfl
  | cleanup =>
    rw [perform] at hperform
    split at hperform
    · cases hperform
    · next mount attached hcurrent =>
      cases hperform
      exact .cleans hcurrent rfl rfl
  | _ =>
    cases hperform
    exact .stays rfl rfl rfl (by simp) rfl rfl

/-- What is the case after one more call, where the call neither cleans up nor attaches. -/
theorem HookHistory.stays {page next : Page Vault} {log : List (Mounts.LogEntry Vault)}
    (hhistory : HookHistory page log) {entry : Mounts.LogEntry Vault}
    (hmounted : next.mounted = page.mounted) (hmounts : next.mounts = page.mounts)
    (hstate : ∀ repo, next.state = .ready repo → page.state = .ready repo)
    (hcleanup : entry.performed.1 ≠ .cleanup) (hattachment : attachment entry.performed = none) :
    HookHistory next (log ++ [entry]) := by
  refine ⟨?_, ?_, ?_, ?_, ?_⟩
  · intro mount attached hcurrent
    rw [hmounts]
    exact hhistory.last mount attached (hmounted ▸ hcurrent)
  · intro other hother attached hperformed
    rw [hmounts, hmounted]
    rcases List.mem_append.mp hother with hold | hnew
    · exact hhistory.cleaned other hold attached hperformed
    · obtain rfl := List.mem_singleton.mp hnew
      exact absurd (congrArg Sigma.fst hperformed) hcleanup
  · intro mount transport hcurrent
    obtain ⟨repo, hsame, other, hother, hsettled⟩ :=
      hhistory.attached mount transport (hmounted ▸ hcurrent)
    exact ⟨repo, hsame, other, List.mem_append_left _ hother, hsettled⟩
  · intro repo mount now hready hcurrent
    obtain ⟨other, hother, hsettled⟩ :=
      hhistory.shown repo mount now (hstate repo hready) (hmounted ▸ hcurrent)
    exact ⟨other, List.mem_append_left _ hother, hsettled⟩
  · intro position other mount repo hother hsettled
    rw [hmounted]
    rcases Threads.getElem?_concat_iff.mp hother with hold | ⟨-, rfl⟩
    · rcases hhistory.kept position other mount repo hold hsettled with hleft | ⟨later, taken, hlt,
        htaken, hcases⟩
      · exact .inl hleft
      · exact .inr ⟨later, taken, hlt, Threads.getElem?_concat_iff.mpr (.inl htaken), hcases⟩
    · rw [hsettled] at hattachment
      cases hattachment

/-- A later call that settles the mount again, or takes the transport from it. -/
theorem HookHistory.kept_of_taken {page : Page Vault} {log : List (Mounts.LogEntry Vault)}
    (hhistory : HookHistory page log) {entry : Mounts.LogEntry Vault} {position mount : ℕ}
    {repo : PageRepo Vault} {settled : Mounts.LogEntry Vault}
    (hsettled : log[position]? = some settled)
    (hperformed : settled.performed = ⟨.settle mount (.ok repo), false⟩)
    (htakes : page.mounted = some (mount, some repo.transport) →
      entry.performed = ⟨.cleanup, some repo.transport⟩ ∨
        ∃ result cancelled, entry.performed = ⟨.settle mount result, cancelled⟩) :
    ∃ (later : ℕ) (other : Mounts.LogEntry Vault), position < later ∧
      (log ++ [entry])[later]? = some other ∧ (other.performed = ⟨.cleanup, some repo.transport⟩ ∨
        ∃ result cancelled, other.performed = ⟨.settle mount result, cancelled⟩) := by
  rcases hhistory.kept position settled mount repo hsettled hperformed with hleft | ⟨later, taken,
    hlt, htaken, hcases⟩
  · exact ⟨log.length, entry, (List.getElem?_eq_some_iff.mp hsettled).1,
      Threads.getElem?_concat_iff.mpr (.inr ⟨rfl, rfl⟩), htakes hleft⟩
  · exact ⟨later, taken, hlt, Threads.getElem?_concat_iff.mpr (.inl htaken), hcases⟩

theorem HookHistory.call {page next : Page Vault} {log : List (Mounts.LogEntry Vault)}
    {call : PageCall Vault} {result : call.Result} (thread : ℕ) (hhistory : HookHistory page log)
    (hmoves : page.Moves next ⟨call, result⟩) :
    HookHistory next (log ++ [⟨thread, page, call, result, next⟩]) := by
  have hentry : (⟨thread, page, call, result, next⟩ : Mounts.LogEntry Vault).performed =
    ⟨call, result⟩ := rfl
  generalize hnew : (⟨thread, page, call, result, next⟩ : Mounts.LogEntry Vault) = entry at hentry
  have hbefore : entry.before = page := hnew ▸ rfl
  generalize hperformed : (⟨call, result⟩ : Mounts.Performed Vault) = performed at hmoves hentry
  clear hperformed hnew
  cases hmoves with
  | stays hmounted hmounts hstate hcleanup hattachment hmount =>
    refine hhistory.stays hmounted hmounts (fun repo hready ↦ hstate ▸ hready) ?_ ?_
    · rw [hentry]
      exact hcleanup
    · rw [hentry]
      exact hattachment
  | @fails mount attached err hcurrent hmounted hmounts hstate =>
    refine hhistory.stays hmounted hmounts (fun repo hready ↦ ?_) ?_ ?_
    · rw [hstate] at hready
      cases hready
    · rw [hentry]
      simp
    · rw [hentry]
      rfl
  | idles hnone hmounted hmounts hstate =>
    refine hhistory.stays (hmounted.trans hnone.symm) hmounts (fun repo hready ↦ ?_) ?_ ?_
    · rw [hstate] at hready
      cases hready
    · rw [hentry]
      simp
    · rw [hentry]
      rfl
  | runs hnone hmounted hmounts hstate =>
    have hnow : ∀ {mount now}, next.mounted = some (mount, now) →
        mount = page.mounts ∧ now = none := by
      intro mount now hcurrent
      rw [hmounted] at hcurrent
      cases hcurrent
      exact ⟨rfl, rfl⟩
    refine ⟨?_, ?_, ?_, ?_, ?_⟩
    · intro mount attached hcurrent
      rw [(hnow hcurrent).1, hmounts]
      exact Nat.lt_succ_self _
    · intro other hother attached hcleaned
      rcases List.mem_append.mp hother with hold | hnew
      · obtain ⟨mount, hmount, hlt, -⟩ := hhistory.cleaned other hold attached hcleaned
        refine ⟨mount, hmount, by omega, fun current now hcurrent ↦ ?_⟩
        rw [(hnow hcurrent).1]
        omega
      · obtain rfl := List.mem_singleton.mp hnew
        rw [hentry] at hcleaned
        cases hcleaned
    · intro mount transport hcurrent
      cases (hnow hcurrent).2
    · intro repo mount now hready
      rw [hstate] at hready
      cases hready
    · intro position other mount repo hother hsettled
      rcases Threads.getElem?_concat_iff.mp hother with hold | ⟨-, rfl⟩
      · refine .inr (hhistory.kept_of_taken hold hsettled fun hcurrent ↦ ?_)
        rw [hnone] at hcurrent
        cases hcurrent
      · rw [hentry] at hsettled
        cases hsettled
  | @attaches mount attached repo hcurrent hmounted hmounts hstate =>
    have hnow : ∀ {other now}, next.mounted = some (other, now) →
        other = mount ∧ now = some repo.transport := by
      intro other now hother
      rw [hmounted] at hother
      cases hother
      exact ⟨rfl, rfl⟩
    have hlast : entry ∈ log ++ [entry] := List.mem_append_right _ List.mem_cons_self
    refine ⟨?_, ?_, ?_, ?_, ?_⟩
    · intro other now hother
      rw [(hnow hother).1, hmounts]
      exact hhistory.last mount attached hcurrent
    · intro other hother taken hcleaned
      rcases List.mem_append.mp hother with hold | hnew
      · obtain ⟨gone, hgone, hlt, hne⟩ := hhistory.cleaned other hold taken hcleaned
        refine ⟨gone, hgone, by omega, fun now rest hnext ↦ ?_⟩
        rw [(hnow hnext).1]
        exact hne mount attached hcurrent
      · obtain rfl := List.mem_singleton.mp hnew
        rw [hentry] at hcleaned
        cases hcleaned
    · intro other transport hother
      obtain ⟨rfl, hsame⟩ := hnow hother
      exact ⟨repo, (Option.some.inj hsame).symm, entry, hlast, hentry⟩
    · intro shown other now hready hother
      obtain ⟨rfl, -⟩ := hnow hother
      rw [hstate] at hready
      cases hready
      exact ⟨entry, hlast, hentry⟩
    · intro position settled other given hsettled hperformed
      rcases Threads.getElem?_concat_iff.mp hsettled with hold | ⟨-, rfl⟩
      · refine .inr (hhistory.kept_of_taken hold hperformed fun hother ↦ ?_)
        rw [hcurrent] at hother
        cases hother
        exact .inr ⟨_, _, hentry⟩
      · rw [hentry] at hperformed
        cases hperformed
        exact .inl hmounted
  | @cleans mount attached hcurrent hmounted hmounts =>
    have hnow : ∀ {other now}, next.mounted ≠ some (other, now) := by
      intro other now hother
      rw [hmounted] at hother
      cases hother
    refine ⟨?_, ?_, ?_, ?_, ?_⟩
    · exact fun other now hother ↦ absurd hother hnow
    · intro other hother taken hcleaned
      rcases List.mem_append.mp hother with hold | hnew
      · obtain ⟨gone, hgone, hlt, -⟩ := hhistory.cleaned other hold taken hcleaned
        exact ⟨gone, hgone, by omega, fun now rest hnext ↦ absurd hnext hnow⟩
      · obtain rfl := List.mem_singleton.mp hnew
        rw [hentry] at hcleaned
        cases hcleaned
        rw [hbefore, hmounts]
        exact ⟨mount, hcurrent, hhistory.last mount attached hcurrent,
          fun now rest hnext ↦ absurd hnext hnow⟩
    · exact fun other transport hother ↦ absurd hother hnow
    · exact fun repo other now _ hother ↦ absurd hother hnow
    · intro position settled other repo hsettled hperformed
      rcases Threads.getElem?_concat_iff.mp hsettled with hold | ⟨-, rfl⟩
      · refine .inr (hhistory.kept_of_taken hold hperformed fun hother ↦ .inl ?_)
        rw [hcurrent] at hother
        cases hother
        exact hentry
      · rw [hentry] at hperformed
        cases hperformed

section Reached

variable {supportsSharedWorker : Bool} {world : Mounts Vault}

theorem hookHistory_before
    (hreaches : (Mounts.automaton Vault supportsSharedWorker).Reaches (Threads.start .start) world)
    {position : ℕ} {entry : Mounts.LogEntry Vault} (hentry : world.log[position]? = some entry) :
    HookHistory entry.before (world.log.take position) := by
  refine (Threads.shared_invariant_before hreaches HookHistory hookHistory_start ?_ ?_ position
    entry hentry).1
  · intro page log conditions next _ helapse
    cases helapse
  · intro page log thread call conditions next result hhistory hperform
    exact hhistory.call thread (Page.moves_of_perform hperform)

theorem hookHistory_of_reaches
    (hreaches : (Mounts.automaton Vault supportsSharedWorker).Reaches (Threads.start .start)
      world) :
    HookHistory world.shared world.log := by
  refine Threads.shared_invariant hreaches HookHistory hookHistory_start ?_ ?_
  · intro page log conditions next _ helapse
    cases helapse
  · intro page log thread call conditions next result hhistory hperform
    exact hhistory.call thread (Page.moves_of_perform hperform)

end Reached

/-! ### What a thread does in the end -/

/-- What a handler did when it is done. -/
inductive Complete (supportsSharedWorker : Bool) :
    HookEvent Vault → List (Mounts.Performed Vault) → Prop
  | mounted {vault : Vault} {trace : List (Mounts.Performed Vault)}
      (hran : MountRan supportsSharedWorker vault trace) :
      Complete supportsSharedWorker (.effect (some vault)) trace
  | idle : Complete supportsSharedWorker (.effect none) [⟨.runIdle, ()⟩]
  | unattached : Complete supportsSharedWorker .cleanup [⟨.cleanup, none⟩]
  | cleaned (transport : ℕ) : Complete supportsSharedWorker .cleanup
      [⟨.cleanup, some transport⟩, ⟨.sendClose transport, ()⟩, ⟨.terminate transport, ()⟩]

section Complete

variable {supportsSharedWorker : Bool} {event : HookEvent Vault}
  {trace earlier later : List (Mounts.Performed Vault)} {performed : Mounts.Performed Vault}

theorem complete_of_done (hruns : (useNotesRepo supportsSharedWorker event).Runs trace (.done ())) :
    Complete supportsSharedWorker event trace := by
  cases event with
  | effect vault =>
    cases vault with
    | none =>
      obtain ⟨_, rest, rfl, hidle⟩ := Program.Runs.of_done hruns
      obtain ⟨rfl, -⟩ := Program.runs_done_iff.mp hidle
      exact .idle
    | some vault => exact .mounted (mountVault_done hruns)
  | cleanup =>
    rcases unmount_done hruns with rfl | ⟨transport, rfl⟩
    · exact .unattached
    · exact .cleaned transport

/-- The call is one of the hook after its effect. -/
def PageCall.ofHook : PageCall Vault → Bool
  | .settle .. | .cleanup => true
  | _ => false

theorem ofHook_bootRan {vault : Vault} {transport : ℕ} {result : Except Rejection (PageRepo Vault)}
    (hran : BootRan vault transport trace result) :
    ∀ performed ∈ trace, performed.1.ofHook = false := by
  cases hran with
  | booted => simp [PageCall.ofHook]
  | failed err => simp [PageCall.ofHook]

theorem ofHook_dedicatedRan {vault : Vault} {result : Except Rejection (PageRepo Vault)}
    (hran : DedicatedRan vault trace result) :
    ∀ performed ∈ trace, performed.1.ofHook = false := by
  cases hran with
  | unmade err => simp [PageCall.ofHook]
  | made hboot => simpa [PageCall.ofHook] using ofHook_bootRan hboot

theorem ofHook_leaderRan {vault : Vault} {result : Except Rejection (PageRepo Vault)}
    (hran : LeaderRan vault trace result) :
    ∀ performed ∈ trace, performed.1.ofHook = false := by
  cases hran with
  | unmade err => simp [PageCall.ofHook]
  | unsupported hrest => simpa [PageCall.ofHook] using ofHook_dedicatedRan hrest
  | booted leader => simp [PageCall.ofHook]
  | notReady leader err hrest => simpa [PageCall.ofHook] using ofHook_dedicatedRan hrest
  | notBooted leader err hrest => simpa [PageCall.ofHook] using ofHook_dedicatedRan hrest

theorem ofHook_sharedRan {vault : Vault} {result : Except Rejection (PageRepo Vault)}
    (hran : SharedRan vault trace result) :
    ∀ performed ∈ trace, performed.1.ofHook = false := by
  cases hran with
  | unmade err hother => simp [PageCall.ofHook]
  | booted transport => simp [PageCall.ofHook]
  | failed transport err hother => simp [PageCall.ofHook]
  | unavailable err hopfs hrest => simpa [PageCall.ofHook] using ofHook_leaderRan hrest
  | stepsDown transport err hopfs hrest => simpa [PageCall.ofHook] using ofHook_leaderRan hrest

theorem ofHook_createRan {vault : Vault} {result : Except Rejection (PageRepo Vault)}
    (hran : CreateRan supportsSharedWorker vault trace result) :
    ∀ performed ∈ trace, performed.1.ofHook = false := by
  cases hran with
  | unloaded err => simp [PageCall.ofHook]
  | shared hsupports hrest => simpa [PageCall.ofHook] using ofHook_sharedRan hrest
  | leader hsupports hrest => simpa [PageCall.ofHook] using ofHook_leaderRan hrest

/-- Two splits of a list at the only entry of a kind are the same. -/
theorem split_unique {β : Type} (kind : β → Bool) {first second third fourth : List β}
    {one other : β}
    (hsame : first ++ one :: second = third ++ other :: fourth) (hone : kind one = true)
    (hfirst : ∀ entry ∈ third, kind entry = false) (hlater : ∀ entry ∈ fourth, kind entry = false) :
    first = third ∧ one = other ∧ second = fourth := by
  rcases List.append_eq_append_iff.mp hsame with ⟨gap, rfl, hgap⟩ | ⟨gap, rfl, hgap⟩
  · cases gap with
    | nil =>
      obtain ⟨hhead, htail⟩ := List.cons.inj hgap
      exact ⟨(List.append_nil _).symm, hhead, htail⟩
    | cons head rest =>
      obtain ⟨hhead, -⟩ := List.cons.inj hgap
      have hnone := hfirst head (by simp)
      rw [← hhead, hone] at hnone
      cases hnone
  · cases gap with
    | nil =>
      obtain ⟨hhead, htail⟩ := List.cons.inj hgap
      exact ⟨List.append_nil _, hhead.symm, htail.symm⟩
    | cons head rest =>
      obtain ⟨-, htail⟩ := List.cons.inj hgap
      have hnone := hlater one (htail ▸ by simp)
      rw [hone] at hnone
      cases hnone

/-- Where a reaction stands in what a handler does. -/
theorem Complete.settle {mount : ℕ} {result : Except Rejection (PageRepo Vault)} {cancelled : Bool}
    (hcomplete : Complete supportsSharedWorker event
      (earlier ++ ⟨.settle mount result, cancelled⟩ :: later)) :
    ∃ vault ran, event = .effect (some vault) ∧ earlier = ⟨.runEffect, mount⟩ :: ran ∧
      CreateRan supportsSharedWorker vault ran result ∧ later = closing cancelled result := by
  generalize hfull : earlier ++ ⟨.settle mount result, cancelled⟩ :: later = full at hcomplete
  have hmem : ⟨.settle mount result, cancelled⟩ ∈ full := hfull ▸ by simp
  cases hcomplete with
  | idle => cases List.mem_singleton.mp hmem
  | unattached => cases List.mem_singleton.mp hmem
  | cleaned transport =>
    simp only [List.mem_cons, List.not_mem_nil, or_false] at hmem
    rcases hmem with hmem | hmem | hmem
    · cases hmem
    · cases hmem
    · cases hmem
  | mounted hran =>
    cases hran with
    | @mk other ran outcome hran given =>
      have hclosing : ∀ performed ∈ closing given outcome, performed.1.ofHook = false := by
        unfold closing
        split
        · simp [PageCall.ofHook]
        · simp
      have hsplit : earlier ++ ⟨.settle mount result, cancelled⟩ :: later =
          (⟨.runEffect, other⟩ :: ran) ++ ⟨.settle other outcome, given⟩ ::
            closing given outcome := hfull
      have hbefore : ∀ performed ∈ (⟨.runEffect, other⟩ :: ran : List (Mounts.Performed Vault)),
          performed.1.ofHook = false := by
        simpa [PageCall.ofHook] using ofHook_createRan hran
      obtain ⟨rfl, hsame, rfl⟩ :=
        split_unique (fun performed ↦ performed.1.ofHook) hsplit rfl hbefore hclosing
      cases hsame
      exact ⟨_, ran, rfl, rfl, hran, rfl⟩

/-- A cleanup that takes a transport closes it. -/
theorem Complete.takes {transport : ℕ} (hcomplete : Complete supportsSharedWorker event trace)
    (hmem : ⟨.cleanup, some transport⟩ ∈ trace) : ClosedIn transport trace := by
  cases hcomplete with
  | idle => cases List.mem_singleton.mp hmem
  | unattached => cases List.mem_singleton.mp hmem
  | cleaned taken =>
    simp only [List.mem_cons, List.not_mem_nil, or_false] at hmem
    rcases hmem with hmem | hmem | hmem
    · cases hmem
      exact ⟨⟨.terminate transport, ()⟩, by simp, rfl⟩
    · cases hmem
    · cases hmem
  | mounted hran =>
    cases hran with
    | @mk mount ran result hran cancelled =>
      rcases List.mem_cons.mp hmem with hmem | hmem
      · cases hmem
      rcases List.mem_append.mp hmem with hmem | hmem
      · cases ofHook_createRan hran _ hmem
      rcases List.mem_cons.mp hmem with hmem | hmem
      · cases hmem
      unfold closing at hmem
      split at hmem
      · simp only [List.mem_cons, List.not_mem_nil, or_false] at hmem
        rcases hmem with hmem | hmem
        · cases hmem
        · cases hmem
      · cases hmem

/-- Only a mount opens transports. -/
theorem Complete.opened {transport : ℕ} (hcomplete : Complete supportsSharedWorker event trace)
    (hmem : performed ∈ trace) (hopened : madeTransport performed = some transport) :
    ∃ vault, event = .effect (some vault) := by
  cases hcomplete with
  | mounted hran => exact ⟨_, rfl⟩
  | idle =>
    obtain rfl := List.mem_singleton.mp hmem
    cases hopened
  | unattached =>
    obtain rfl := List.mem_singleton.mp hmem
    cases hopened
  | cleaned other =>
    simp only [List.mem_cons, List.not_mem_nil, or_false] at hmem
    rcases hmem with rfl | rfl | rfl
    · cases hopened
    · cases hopened
    · cases hopened

/-- A transport is closed by the mount that opened it, or by the cleanup that took it. -/
theorem Complete.closed {transport : ℕ} (hcomplete : Complete supportsSharedWorker event
    (earlier ++ performed :: later)) (hclosed : closedTransport performed.1 = some transport) :
    OpenedIn transport earlier ∨ ⟨.cleanup, some transport⟩ ∈ earlier := by
  generalize hfull : earlier ++ performed :: later = full at hcomplete
  have hmem : performed ∈ full := hfull ▸ by simp
  cases hcomplete with
  | mounted hran =>
    subst hfull
    exact .inl ((lawful_mountRan hran).lawful.closing transport hclosed)
  | idle =>
    obtain rfl := List.mem_singleton.mp hmem
    cases hclosed
  | unattached =>
    obtain rfl := List.mem_singleton.mp hmem
    cases hclosed
  | cleaned other =>
    refine .inr ?_
    cases earlier with
    | nil =>
      obtain ⟨rfl, -⟩ := List.cons.inj hfull
      cases hclosed
    | cons first rest =>
      obtain ⟨rfl, hrest⟩ := List.cons.inj hfull
      have hlater : performed ∈ [(⟨.sendClose other, ()⟩ : Mounts.Performed Vault),
          ⟨.terminate other, ()⟩] := hrest ▸ by simp
      simp only [List.mem_cons, List.not_mem_nil, or_false] at hlater
      rcases hlater with rfl | rfl
      · cases hclosed
      · obtain rfl := Option.some.inj hclosed
        exact List.mem_cons_self

/-- Before a mount opens a transport it has closed the others, and has given up the tiers above. -/
theorem Complete.makes (hcomplete : Complete supportsSharedWorker event
    (earlier ++ performed :: later)) (hmakes : performed.1.makes = true) :
    AllClosed earlier ∧ (performed.1 ≠ .makeSharedTransport → supportsSharedWorker = true →
      SteppedDown earlier) := by
  generalize hfull : earlier ++ performed :: later = full at hcomplete
  have hmem : performed ∈ full := hfull ▸ by simp
  cases hcomplete with
  | mounted hran =>
    subst hfull
    have hlawful := (lawful_mountRan hran).lawful
    exact ⟨hlawful.making hmakes, hlawful.stepping hmakes⟩
  | idle =>
    obtain rfl := List.mem_singleton.mp hmem
    cases hmakes
  | unattached =>
    obtain rfl := List.mem_singleton.mp hmem
    cases hmakes
  | cleaned other =>
    simp only [List.mem_cons, List.not_mem_nil, or_false] at hmem
    rcases hmem with rfl | rfl | rfl
    · cases hmakes
    · cases hmakes
    · cases hmakes

end Complete

/-! ### Owners -/

section Owners

variable {supportsSharedWorker : Bool} {world : Mounts Vault}

theorem nonempty_result (call : PageCall Vault) : Nonempty call.Result := by
  cases call with
  | makeSharedTransport => exact ⟨(.ok 0 : Except Rejection ℕ)⟩
  | makeLeaderTransport => exact ⟨(.ok none : Except Rejection (Option ℕ))⟩
  | makeDedicatedTransport => exact ⟨(.ok 0 : Except Rejection ℕ)⟩
  | runEffect => exact ⟨(0 : ℕ)⟩
  | settle mount result => exact ⟨false⟩
  | cleanup => exact ⟨(none : Option ℕ)⟩
  | ensureWasm => exact ⟨(.ok () : Except Rejection Unit)⟩
  | whenReady transport => exact ⟨(.ok () : Except Rejection Unit)⟩
  | bootstrap transport => exact ⟨(.ok () : Except Rejection Unit)⟩
  | _ => exact ⟨()⟩

/-- The calls of a thread around one of its calls, completed to what its handler does. -/
theorem complete_of_entry
    (hreaches : (Mounts.automaton Vault supportsSharedWorker).Reaches (Threads.start .start) world)
    {position : ℕ} {entry : Mounts.LogEntry Vault} (hentry : world.log[position]? = some entry) :
    ∃ event rest later more, world.threads[entry.thread]? = some ⟨event, rest⟩ ∧
      Threads.trace world.log entry.thread =
        Threads.trace (world.log.take position) entry.thread ++ entry.performed :: later ∧
      Complete supportsSharedWorker event (Threads.trace (world.log.take position) entry.thread ++
        entry.performed :: (later ++ more)) := by
  have hconsistent := Threads.consistent_of_reaches hreaches
  obtain ⟨event, rest, hthread, hruns, -⟩ :=
    hconsistent.exists_thread (List.mem_of_getElem? hentry)
  obtain ⟨more, answer, hmore⟩ := Program.exists_runs_done nonempty_result rest
  have hcomplete := complete_of_done (hruns.trans hmore)
  have hsplit := Threads.trace_split hentry
  rw [hsplit, List.append_assoc, List.cons_append] at hcomplete
  exact ⟨event, rest, _, more, hthread, hsplit, hcomplete⟩

/-- No number is given to two transports, nor to two mounts. -/
theorem nodup_numbers
    (hreaches : (Mounts.automaton Vault supportsSharedWorker).Reaches (Threads.start .start)
      world) :
    (world.log.filterMap fun entry ↦ madeTransport entry.performed).Nodup ∧
      (world.log.filterMap fun entry ↦ mountOf entry.performed).Nodup := by
  constructor
  · refine Threads.nodup_of_fresh hreaches Page.opened madeTransport ?_ ?_
    · intro page conditions next helapse
      cases helapse
    · intro page call conditions next result hperform
      exact Page.opened_of_perform hperform
  · refine Threads.nodup_of_fresh hreaches Page.mounts mountOf ?_ ?_
    · intro page conditions next helapse
      cases helapse
    · intro page call conditions next result hperform
      have hmoves := Page.moves_of_perform hperform
      generalize hcall : (⟨call, result⟩ : Mounts.Performed Vault) = performed at hmoves ⊢
      cases hmoves with
      | stays hmounted hmounts hstate hcleanup hattachment hmount =>
        refine ⟨Nat.le_of_eq hmounts.symm, fun given hgiven ↦ ?_⟩
        rw [hmount] at hgiven
        cases hgiven
      | runs hnone hmounted hmounts hstate =>
        refine ⟨by omega, fun given hgiven ↦ ?_⟩
        obtain rfl := Option.some.inj hgiven
        exact ⟨rfl, by omega⟩
      | idles hnone hmounted hmounts hstate => exact ⟨by omega, fun _ hgiven ↦ by cases hgiven⟩
      | attaches hcurrent hmounted hmounts hstate =>
        exact ⟨by omega, fun _ hgiven ↦ by cases hgiven⟩
      | fails hcurrent hmounted hmounts hstate => exact ⟨by omega, fun _ hgiven ↦ by cases hgiven⟩
      | cleans hcurrent hmounted hmounts => exact ⟨by omega, fun _ hgiven ↦ by cases hgiven⟩

/-- The mount whose reaction attached a repository, and what it did before and after. -/
theorem mount_of_settle
    (hreaches : (Mounts.automaton Vault supportsSharedWorker).Reaches (Threads.start .start) world)
    {position mount : ℕ} {entry : Mounts.LogEntry Vault} {repo : PageRepo Vault}
    (hentry : world.log[position]? = some entry)
    (hsettled : entry.performed = ⟨.settle mount (.ok repo), false⟩) : ∃ vault ran rest,
      world.threads[entry.thread]? = some ⟨.effect (some vault), rest⟩ ∧
      Threads.trace (world.log.take position) entry.thread = ⟨.runEffect, mount⟩ :: ran ∧
      CreateRan supportsSharedWorker vault ran (.ok repo) ∧
      Threads.trace world.log entry.thread =
        ⟨.runEffect, mount⟩ :: (ran ++ [⟨.settle mount (.ok repo), false⟩]) := by
  obtain ⟨event, rest, later, more, hthread, htrace, hcomplete⟩ :=
    complete_of_entry hreaches hentry
  rw [hsettled] at htrace hcomplete
  obtain ⟨vault, ran, rfl, hbefore, hran, hclosing⟩ := hcomplete.settle
  have hlater : later = [] := (List.append_eq_nil_iff.mp hclosing).1
  rw [hlater, hbefore] at htrace
  exact ⟨vault, ran, rest, hthread, hbefore, hran, htrace⟩

/-- The call that opened the transport of an attached repository is one of its mount. -/
theorem opened_of_settle
    (hreaches : (Mounts.automaton Vault supportsSharedWorker).Reaches (Threads.start .start) world)
    {position mount : ℕ} {entry : Mounts.LogEntry Vault} {repo : PageRepo Vault}
    (hentry : world.log[position]? = some entry)
    (hsettled : entry.performed = ⟨.settle mount (.ok repo), false⟩) : ∃ making ∈ world.log,
      making.thread = entry.thread ∧ madeTransport making.performed = some repo.transport := by
  obtain ⟨vault, ran, rest, -, hbefore, hran, -⟩ := mount_of_settle hreaches hentry hsettled
  obtain ⟨-, before, made, after, rfl, hmade, -⟩ := (endsWith_createRan hran).kept repo rfl
  have hmem : made ∈ Threads.trace (world.log.take position) entry.thread := hbefore ▸ by simp
  obtain ⟨making, hmaking, hsame, hperformed⟩ := Threads.mem_trace_iff.mp hmem
  exact ⟨making, List.mem_of_mem_take hmaking, hsame, hperformed ▸ hmade⟩

/-- Two reactions that attach one transport are those of one mount. -/
theorem mount_unique
    (hreaches : (Mounts.automaton Vault supportsSharedWorker).Reaches (Threads.start .start) world)
    {first second one other : ℕ} {entry later : Mounts.LogEntry Vault}
    {repo another : PageRepo Vault} (hentry : world.log[first]? = some entry)
    (hsettled : entry.performed = ⟨.settle one (.ok repo), false⟩)
    (hlater : world.log[second]? = some later)
    (hagain : later.performed = ⟨.settle other (.ok another), false⟩)
    (hsame : repo.transport = another.transport) : one = other := by
  obtain ⟨making, hmaking, hthread, hopened⟩ := opened_of_settle hreaches hentry hsettled
  obtain ⟨making', hmaking', hthread', hopened'⟩ := opened_of_settle hreaches hlater hagain
  rw [← hsame] at hopened'
  have heq : making = making' := Threads.eq_of_nodup_filterMap (nodup_numbers hreaches).1 hmaking
    hmaking' hopened hopened'
  obtain ⟨vault, ran, rest, -, -, -, htrace⟩ := mount_of_settle hreaches hentry hsettled
  obtain ⟨vault', ran', rest', -, -, -, htrace'⟩ := mount_of_settle hreaches hlater hagain
  rw [← hthread, heq, hthread', htrace'] at htrace
  obtain ⟨hhead, -⟩ := List.cons.inj htrace
  cases hhead
  rfl

/-- A transport that a cleanup took is not the one of the current mount. -/
theorem mounted_ne_of_cleanup
    (hreaches : (Mounts.automaton Vault supportsSharedWorker).Reaches (Threads.start .start) world)
    {position mount : ℕ} {now : Option ℕ} {entry : Mounts.LogEntry Vault} {repo : PageRepo Vault}
    (hmounted : world.shared.mounted = some (mount, now))
    (hentry : world.log[position]? = some entry)
    (hsettled : entry.performed = ⟨.settle mount (.ok repo), false⟩) :
    ∀ cleanup ∈ world.log, cleanup.performed ≠ ⟨.cleanup, some repo.transport⟩ := by
  intro cleanup hcleanup hperformed
  obtain ⟨gone, hgone, -, hne⟩ :=
    (hookHistory_of_reaches hreaches).cleaned cleanup hcleanup _ hperformed
  obtain ⟨place, hplace⟩ := List.getElem?_of_mem hcleanup
  obtain ⟨another, hsame, settled, hmem, hagain⟩ :=
    (hookHistory_before hreaches hplace).attached gone repo.transport hgone
  obtain ⟨earlier, hearlier⟩ := List.getElem?_of_mem (List.mem_of_mem_take hmem)
  exact hne mount now hmounted
    (mount_unique hreaches hentry hsettled hearlier hagain hsame.symm)

/-- The transport of the current mount was not closed. -/
theorem not_closed_of_mounted
    (hreaches : (Mounts.automaton Vault supportsSharedWorker).Reaches (Threads.start .start) world)
    {position mount : ℕ} {now : Option ℕ} {settled : Mounts.LogEntry Vault} {repo : PageRepo Vault}
    (hmounted : world.shared.mounted = some (mount, now))
    (hentry : world.log[position]? = some settled)
    (hsettled : settled.performed = ⟨.settle mount (.ok repo), false⟩) :
    ∀ entry ∈ world.log, closedTransport entry.call ≠ some repo.transport := by
  intro entry hmem hclosed
  obtain ⟨place, hplace⟩ := List.getElem?_of_mem hmem
  obtain ⟨event, rest, later, more, hthread, htrace, hcomplete⟩ :=
    complete_of_entry hreaches hplace
  rcases hcomplete.closed hclosed with ⟨made, hmade, hopens⟩ | hcleanup
  · -- the mount itself did not close it after it madeTransport it for good
    obtain ⟨making, hmaking, hsame, hperformed⟩ := Threads.mem_trace_iff.mp hmade
    obtain ⟨owner, howner, hownerThread, hownerOpens⟩ := opened_of_settle hreaches hentry hsettled
    have heq : making = owner := Threads.eq_of_nodup_filterMap (nodup_numbers hreaches).1
      (List.mem_of_mem_take hmaking) howner (hperformed ▸ hopens) hownerOpens
    have hone : entry.thread = settled.thread := by rw [← hsame, heq, hownerThread]
    obtain ⟨vault, ran, others, -, -, hran, hwhole⟩ := mount_of_settle hreaches hentry hsettled
    obtain ⟨-, before, kept, after, rfl, hkept, hnever⟩ := (endsWith_createRan hran).kept repo rfl
    have hnodup := Threads.nodup_trace_of_nodup (nodup_numbers hreaches).1 settled.thread
    rw [hone] at htrace
    have hparts : Threads.trace (world.log.take place) settled.thread ++ entry.performed :: later =
        (⟨.runEffect, mount⟩ :: before) ++
          (kept :: (after ++ [⟨.settle mount (.ok repo), false⟩])) := by
      rw [← htrace, hwhole, List.append_assoc]
      rfl
    have hlate : entry.performed ∉ kept :: (after ++ [⟨.settle mount (.ok repo), false⟩]) := by
      intro hin
      rw [← List.cons_append] at hin
      rcases List.mem_append.mp hin with hin | hin
      · exact hnever repo.transport ⟨_, hin, hclosed⟩
      · have hlast := congrArg Sigma.fst (List.mem_singleton.mp hin)
        change entry.call = _ at hlast
        rw [hlast] at hclosed
        cases hclosed
    have hearly : OpenedIn repo.transport (⟨.runEffect, mount⟩ :: before) := by
      rcases List.append_eq_append_iff.mp hparts with ⟨gap, hgap, -⟩ | ⟨gap, -, hgap⟩
      · rw [hgap]
        rw [hone] at hmade
        exact ⟨made, List.mem_append_left _ hmade, hopens⟩
      · exact absurd (hgap ▸ by simp) hlate
    rw [hwhole, List.append_assoc, ← List.cons_append, List.filterMap_append] at hnodup
    obtain ⟨first, hfirst, hopened⟩ := hearly
    refine (List.nodup_append.mp hnodup).2.2 repo.transport
      (List.mem_filterMap.mpr ⟨first, hfirst, hopened⟩) repo.transport ?_ rfl
    exact List.mem_filterMap.mpr ⟨kept, by simp, hkept⟩
  · obtain ⟨cleanup, hcleaned, -, hperformed⟩ := Threads.mem_trace_iff.mp hcleanup
    exact mounted_ne_of_cleanup hreaches hmounted hentry hsettled cleanup
      (List.mem_of_mem_take hcleaned) hperformed

/-- No mount settles twice. -/
theorem settle_once
    (hreaches : (Mounts.automaton Vault supportsSharedWorker).Reaches (Threads.start .start) world)
    {first second mount : ℕ} {entry later : Mounts.LogEntry Vault} {repo : PageRepo Vault}
    {result : Except Rejection (PageRepo Vault)} {cancelled : Bool}
    (hentry : world.log[first]? = some entry)
    (hsettled : entry.performed = ⟨.settle mount (.ok repo), false⟩)
    (hlater : world.log[second]? = some later) (hlt : first < second) :
    later.performed ≠ ⟨.settle mount result, cancelled⟩ := by
  intro hagain
  obtain ⟨vault, ran, rest, -, -, -, hwhole⟩ := mount_of_settle hreaches hentry hsettled
  obtain ⟨event, others, after, more, -, htrace, hcomplete⟩ := complete_of_entry hreaches hlater
  rw [hagain] at hcomplete
  obtain ⟨vault', ran', -, hbefore, hran', -⟩ := hcomplete.settle
  -- both threads have the number of the mount, so they are one
  have hfirst : (⟨.runEffect, mount⟩ : Mounts.Performed Vault) ∈
      Threads.trace world.log entry.thread := hwhole ▸ List.mem_cons_self
  have hsecond : (⟨.runEffect, mount⟩ : Mounts.Performed Vault) ∈
      Threads.trace world.log later.thread := by
    rw [htrace, hbefore]
    exact List.mem_append_left _ List.mem_cons_self
  obtain ⟨one, hone, honeThread, honePerformed⟩ := Threads.mem_trace_iff.mp hfirst
  obtain ⟨other, hother, hotherThread, hotherPerformed⟩ := Threads.mem_trace_iff.mp hsecond
  have heq : one = other := Threads.eq_of_nodup_filterMap (nodup_numbers hreaches).2 hone hother
    (congrArg mountOf honePerformed) (congrArg mountOf hotherPerformed)
  have hthread : entry.thread = later.thread := by rw [← honeThread, heq, hotherThread]
  have hmem : entry.performed ∈ Threads.trace (world.log.take second) later.thread := by
    refine Threads.mem_trace_iff.mpr ⟨entry, ?_, hthread, rfl⟩
    refine List.mem_of_getElem? (i := first) ?_
    rw [List.getElem?_take_of_lt hlt]
    exact hentry
  rw [hbefore, hsettled] at hmem
  rcases List.mem_cons.mp hmem with hhead | hrest
  · cases hhead
  · have hnone := ofHook_createRan hran' _ hrest
    cases hnone

/-- A repository that was attached and is not the one of the current mount was taken by a
cleanup. -/
theorem attached_or_cleaned
    (hreaches : (Mounts.automaton Vault supportsSharedWorker).Reaches (Threads.start .start) world)
    {position mount : ℕ} {entry : Mounts.LogEntry Vault} {repo : PageRepo Vault}
    (hentry : world.log[position]? = some entry)
    (hsettled : entry.performed = ⟨.settle mount (.ok repo), false⟩) :
    world.shared.mounted = some (mount, some repo.transport) ∨
      ∃ cleanup ∈ world.log, cleanup.performed = ⟨.cleanup, some repo.transport⟩ := by
  rcases (hookHistory_of_reaches hreaches).kept position entry mount repo hentry hsettled with
    hmounted | ⟨later, other, hlt, hother, hcleanup | ⟨result, cancelled, hagain⟩⟩
  · exact .inl hmounted
  · exact .inr ⟨other, List.mem_of_getElem? hother, hcleanup⟩
  · exact absurd hagain (settle_once hreaches hentry hsettled hother hlt)

/-- A call in the trace of a thread is in the log. -/
theorem closed_of_trace {thread transport : ℕ}
    (hclosed : ClosedIn transport (Threads.trace world.log thread)) :
    ∃ entry ∈ world.log, closedTransport entry.call = some transport := by
  obtain ⟨performed, hmem, hcloses⟩ := hclosed
  obtain ⟨entry, hentry, -, rfl⟩ := Threads.mem_trace_iff.mp hmem
  exact ⟨entry, hentry, hcloses⟩

/-- What a handler did that is done. -/
theorem complete_of_finished
    (hreaches : (Mounts.automaton Vault supportsSharedWorker).Reaches (Threads.start .start) world)
    (hdone : ∀ thread ∈ world.threads, thread.rest = .done ()) {entry : Mounts.LogEntry Vault}
    (hentry : entry ∈ world.log) : ∃ event,
      Complete supportsSharedWorker event (Threads.trace world.log entry.thread) ∧
        entry.performed ∈ Threads.trace world.log entry.thread := by
  obtain ⟨event, rest, hthread, hruns, hmem⟩ :=
    (Threads.consistent_of_reaches hreaches).exists_thread hentry
  have hrest : rest = .done () := hdone _ (List.mem_of_getElem? hthread)
  rw [hrest] at hruns
  exact ⟨event, complete_of_done hruns, hmem⟩

/-! ### A page that is locked while it boots -/

/-- The page is mounted with a vault whose shared worker lacks the storage, and is mounted with
another vault before the leader has opened the database. -/
def lockedWhileBooting : List (ThreadsEvent (HookEvent String) PageConditions) :=
  let works : PageConditions := ⟨none, true⟩
  List.flatten [
    .arrive (.effect (some "first")) :: List.replicate 3 (.resume 0 works),
    .resume 0 ⟨some (.error "Missing required OPFS APIs."), true⟩ ::
      List.replicate 3 (.resume 0 works),
    [.arrive .cleanup, .resume 1 works],
    .arrive (.effect (some "second")) :: List.replicate 5 (.resume 2 works),
    List.replicate 4 (.resume 0 works)]

/-- The outcome: three transports, of which the last is attached and the others are closed. -/
theorem lockedWhileBooting_ends : ∃ world,
    (Mounts.automaton String true).run (Threads.start .start) lockedWhileBooting = some world ∧
    (∀ thread ∈ world.threads, thread.rest = .done ()) ∧
    (world.log.filterMap fun entry ↦ madeTransport entry.performed) = [0, 1, 2] ∧
    (world.log.filterMap fun entry ↦ closedTransport entry.call) = [0, 1] ∧
    world.shared.mounted = some (1, some 2) ∧ world.shared.state = .ready ⟨2, "second"⟩ ∧
    (world.log.map fun entry ↦ entry.call.makes)[5]? = some true := by
  have hend : ((Mounts.automaton String true).run (Threads.start .start) lockedWhileBooting).map
      (fun world ↦ (world.threads.all (·.rest.answer?.isSome),
        world.log.filterMap fun entry ↦ madeTransport entry.performed,
        world.log.filterMap fun entry ↦ closedTransport entry.call)) =
      some (true, [0, 1, 2], [0, 1]) := by
    decide +kernel
  have hshared : ((Mounts.automaton String true).run (Threads.start .start)
      lockedWhileBooting).map (fun world ↦ (world.shared.mounted, world.shared.state,
        (world.log.map fun entry ↦ entry.call.makes)[5]?)) =
      some (some (1, some 2), .ready ⟨2, "second"⟩, some true) := by
    decide +kernel
  obtain ⟨world, hrun, hend⟩ := Option.map_eq_some_iff.mp hend
  obtain ⟨hanswered, hend⟩ := Prod.mk.inj hend
  obtain ⟨hmade, hclosed⟩ := Prod.mk.inj hend
  rw [hrun] at hshared
  obtain ⟨hmounted, hshared⟩ := Prod.mk.inj (Option.some.inj hshared)
  obtain ⟨hstate, hmakes⟩ := Prod.mk.inj hshared
  refine ⟨world, hrun, ?_, hmade, hclosed, hmounted, hstate, hmakes⟩
  intro thread hthread
  have hdone := List.all_eq_true.mp hanswered thread hthread
  cases hrest : thread.rest with
  | done answer => rfl
  | call call next =>
    rw [hrest] at hdone
    cases hdone

/-- When no handler of the page has anything left to do, the transports that it opened are closed,
but for the one of the attached repository, which is not. -/
theorem open_iff_attached
    (hreaches : (Mounts.automaton Vault supportsSharedWorker).Reaches (Threads.start .start) world)
    (hdone : ∀ thread ∈ world.threads, thread.rest = .done ()) {making : Mounts.LogEntry Vault}
    (hmaking : making ∈ world.log) {transport : ℕ}
    (hmade : madeTransport making.performed = some transport) :
    (∀ entry ∈ world.log, closedTransport entry.call ≠ some transport) ↔
      ∃ mount, world.shared.mounted = some (mount, some transport) := by
  constructor
  · intro hopen
    have hnever : ∀ {thread}, ¬ ClosedIn transport (Threads.trace world.log thread) := by
      intro thread hclosed
      obtain ⟨entry, hentry, hcloses⟩ := closed_of_trace hclosed
      exact hopen entry hentry hcloses
    obtain ⟨event, hcomplete, hmem⟩ := complete_of_finished hreaches hdone hmaking
    obtain ⟨vault, rfl⟩ := hcomplete.opened hmem hmade
    have hunclosed := @hnever making.thread
    generalize htrace : Threads.trace world.log making.thread = trace at hcomplete hmem hunclosed
    cases hcomplete with
    | mounted hran =>
      cases hran with
      | @mk mount ran result hran cancelled =>
        -- the transport was opened by `createRepo`, which gave it in the end
        have hopened : OpenedIn transport ran := by
          have hall : OpenedIn transport (⟨.runEffect, mount⟩ :: (ran ++
              ⟨.settle mount result, cancelled⟩ :: closing cancelled result)) := ⟨_, hmem, hmade⟩
          rw [openedIn_cons, openedIn_append, openedIn_cons] at hall
          rcases hall with hfirst | hran | hsettle | hclosing
          · cases hfirst
          · exact hran
          · cases hsettle
          · obtain ⟨performed, hin, hopens⟩ := hclosing
            unfold closing at hin
            split at hin
            · simp only [List.mem_cons, List.not_mem_nil, or_false] at hin
              rcases hin with rfl | rfl
              · cases hopens
              · cases hopens
            · cases hin
        rcases (endsWith_createRan hran).others transport hopened with hclosed | ⟨repo, rfl, rfl⟩
        · refine absurd ?_ hunclosed
          rw [closedIn_cons, closedIn_append]
          exact .inr (.inl hclosed)
        · cases cancelled with
          | true =>
            refine absurd ?_ hunclosed
            rw [closedIn_cons, closedIn_append, closedIn_cons]
            exact .inr (.inr (.inr ⟨⟨.terminate repo.transport, ()⟩, by simp [closing], rfl⟩))
          | false =>
            have hsettle : (⟨.settle mount (.ok repo), false⟩ : Mounts.Performed Vault) ∈
                Threads.trace world.log making.thread := htrace ▸ by simp
            obtain ⟨entry, hentry, -, hsettled⟩ := Threads.mem_trace_iff.mp hsettle
            obtain ⟨position, hposition⟩ := List.getElem?_of_mem hentry
            rcases attached_or_cleaned hreaches hposition hsettled with hmounted | ⟨cleanup,
              hcleanup, hcleaned⟩
            · exact ⟨mount, hmounted⟩
            · -- a cleanup that took it has closed it
              obtain ⟨other, hother, hin⟩ := complete_of_finished hreaches hdone hcleanup
              rw [hcleaned] at hin
              exact absurd (hother.takes hin) hnever
  · rintro ⟨mount, hmounted⟩
    obtain ⟨repo, rfl, settled, hsettled, hperformed⟩ :=
      (hookHistory_of_reaches hreaches).attached mount transport hmounted
    obtain ⟨position, hposition⟩ := List.getElem?_of_mem hsettled
    exact not_closed_of_mounted hreaches hmounted hposition hperformed

/-- The transport of the leader that was booted too late is closed, and the one of the page is
open. -/
theorem open_iff_attached_lockedWhileBooting : ∃ world : Mounts String,
    (Mounts.automaton String true).run (Threads.start .start) lockedWhileBooting = some world ∧
    ∀ making ∈ world.log, ∀ transport, madeTransport making.performed = some transport →
      ((∀ entry ∈ world.log, closedTransport entry.call ≠ some transport) ↔ transport = 2) := by
  obtain ⟨world, hrun, hdone, -, -, hmounted, -⟩ := lockedWhileBooting_ends
  refine ⟨world, hrun, fun making hmaking transport hmade ↦ ?_⟩
  rw [open_iff_attached (Automaton.reaches_of_run hrun) hdone hmaking hmade, hmounted]
  constructor
  · rintro ⟨mount, hsame⟩
    cases hsame
    rfl
  · rintro rfl
    exact ⟨1, rfl⟩

/-- The repository that a mounted page shows is the attached one, of the vault that the page is
mounted with, and its transport was not closed. -/
theorem ready_repo_open
    (hreaches : (Mounts.automaton Vault supportsSharedWorker).Reaches (Threads.start .start) world)
    {mount : ℕ} {now : Option ℕ} (hmounted : world.shared.mounted = some (mount, now))
    {repo : PageRepo Vault} (hready : world.shared.state = .ready repo) :
    now = some repo.transport ∧
      (∀ entry ∈ world.log, closedTransport entry.call ≠ some repo.transport) ∧
      ∃ thread rest, world.threads[thread]? = some ⟨.effect (some repo.vault), rest⟩ ∧
        ⟨.runEffect, mount⟩ ∈ Threads.trace world.log thread := by
  obtain ⟨settled, hsettled, hperformed⟩ :=
    (hookHistory_of_reaches hreaches).shown repo mount now hready hmounted
  obtain ⟨position, hposition⟩ := List.getElem?_of_mem hsettled
  refine ⟨?_, not_closed_of_mounted hreaches hmounted hposition hperformed, ?_⟩
  · rcases attached_or_cleaned hreaches hposition hperformed with hcurrent | ⟨cleanup, hcleanup,
      hcleaned⟩
    · rw [hmounted] at hcurrent
      exact (Prod.mk.inj (Option.some.inj hcurrent)).2
    · exact absurd hcleaned
        (mounted_ne_of_cleanup hreaches hmounted hposition hperformed cleanup hcleanup)
  · obtain ⟨vault, ran, rest, hthread, -, hran, htrace⟩ :=
      mount_of_settle hreaches hposition hperformed
    have hvault := ((endsWith_createRan hran).kept repo rfl).1
    refine ⟨settled.thread, rest, hvault ▸ hthread, ?_⟩
    rw [htrace]
    exact List.mem_cons_self

/-- The page shows the repository of the second vault. -/
theorem ready_repo_open_lockedWhileBooting : ∃ world : Mounts String,
    (Mounts.automaton String true).run (Threads.start .start) lockedWhileBooting = some world ∧
    (∀ entry ∈ world.log, closedTransport entry.call ≠ some 2) ∧
    ∃ (thread : ℕ) (rest : PageHandler String),
      world.threads[thread]? = some ⟨.effect (some "second"), rest⟩ := by
  obtain ⟨world, hrun, -, -, -, hmounted, hstate, -⟩ := lockedWhileBooting_ends
  obtain ⟨-, hopen, thread, rest, hthread, -⟩ :=
    ready_repo_open (Automaton.reaches_of_run hrun) hmounted hstate
  exact ⟨world, hrun, hopen, thread, rest, hthread⟩

/-- When `createRepo` opens a transport, every transport that it opened before is closed. Below the
shared worker, where there is one, this happens only after the shared worker failed because it lacks
the storage. -/
theorem ladder_of_made
    (hreaches : (Mounts.automaton Vault supportsSharedWorker).Reaches (Threads.start .start) world)
    {position : ℕ} {entry : Mounts.LogEntry Vault} (hentry : world.log[position]? = some entry)
    (hmakes : entry.call.makes = true) :
    AllClosed (Threads.trace (world.log.take position) entry.thread) ∧
      (entry.call ≠ .makeSharedTransport → supportsSharedWorker = true →
        SteppedDown (Threads.trace (world.log.take position) entry.thread)) := by
  obtain ⟨event, rest, later, more, -, -, hcomplete⟩ := complete_of_entry hreaches hentry
  exact hcomplete.makes hmakes

/-- The leader election begins with the shared worker closed. -/
theorem ladder_of_made_lockedWhileBooting : ∃ world : Mounts String, ∃ entry,
    (Mounts.automaton String true).run (Threads.start .start) lockedWhileBooting = some world ∧
    world.log[5]? = some entry ∧
    AllClosed (Threads.trace (world.log.take 5) entry.thread) := by
  obtain ⟨world, hrun, -, -, -, -, -, hmakes⟩ := lockedWhileBooting_ends
  rw [List.getElem?_map] at hmakes
  obtain ⟨entry, hentry, hmakes⟩ := Option.map_eq_some_iff.mp hmakes
  exact ⟨world, entry, hrun, hentry,
    (ladder_of_made (Automaton.reaches_of_run hrun) hentry hmakes).1⟩

end Owners

end OpfsWebauthn.Notes
