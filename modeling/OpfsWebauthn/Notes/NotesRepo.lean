import Mathlib.Data.List.Infix
import OpfsWebauthn.Foundation.Threads

/-!
# The repository of a mounted page

`createRepo` opens a transport to the database and tries three of them in turn: a shared worker, a
worker behind a leader election, and a dedicated worker. The hook `useNotesRepo` calls it when the
vault changes, keeps the repository that it gives for as long as the page is mounted with that
vault, and closes it afterwards.

Both are handlers that run concurrently: a page may be unmounted, and mounted with another vault,
while an earlier call of `createRepo` still waits for its transport.
-/

set_option autoImplicit false
set_option relaxedAutoImplicit false

namespace OpfsWebauthn.Notes

open Foundation

variable {Vault : Type}

/-! ### Repositories -/

/-- What is thrown or rejected: an `Error`, a string, or anything else with its text. -/
inductive Rejection
  | error (message : String)
  | string (text : String)
  | other (text : String)
deriving DecidableEq, Repr

/-- The message of `err instanceof Error ? err : new Error(String(err))`. -/
def Rejection.message : Rejection → String
  | .error message => message
  | .string text => text
  | .other text => text

/-- `OPFS_UNAVAILABLE_MARKER`. -/
def opfsUnavailableMarker : String := "Missing required OPFS APIs"

/-- `isOpfsUnavailable(err)`. -/
def isOpfsUnavailable : Rejection → Bool
  | .error message => opfsUnavailableMarker.toList <:+: message.toList
  | .string text => opfsUnavailableMarker.toList <:+: text.toList
  | .other _ => false

/-- A repository: the number of its transport, and the vault that it encrypts with. -/
structure PageRepo (Vault : Type) where
  transport : ℕ
  vault : Vault
deriving DecidableEq, Repr

/-- `RepoState`. -/
inductive RepoState (Vault : Type)
  | idle
  | loading
  | ready (repo : PageRepo Vault)
  | error (message : String)
deriving DecidableEq, Repr

/-! ### The page -/

/-- What is shared by the handlers of a page: the outcome of `initPromise`, the number of transports
opened, the number of times that the effect ran with a vault, the one that is not cleaned up with
its `attached`, and the state of the hook. -/
structure Page (Vault : Type) where
  wasm : Option (Except Rejection Unit)
  opened : ℕ
  mounts : ℕ
  mounted : Option (ℕ × Option ℕ)
  state : RepoState Vault

/-- A page before anything is mounted. -/
def Page.start : Page Vault :=
  ⟨none, 0, 0, none, .idle⟩

/-- What a handler does or awaits. -/
inductive PageCall (Vault : Type)
  | ensureWasm
  | makeSharedTransport
  | makeLeaderTransport
  | makeDedicatedTransport
  /-- `leader.whenReady`. -/
  | whenReady (transport : ℕ)
  | bootstrap (transport : ℕ)
  /-- `client.terminate()`, which closes the transport. -/
  | terminate (transport : ℕ)
  /-- `leader.close()`. -/
  | closeLeader (transport : ℕ)
  /-- The request of `repo.close()`. -/
  | sendClose (transport : ℕ)
  /-- The effect, with a vault or without one. -/
  | runEffect
  | runIdle
  /-- The reaction to the promise of `createRepo`. -/
  | settle (mount : ℕ) (result : Except Rejection (PageRepo Vault))
  /-- The cleanup of the effect. -/
  | cleanup

/-- What a call gives: the reaction tells whether the effect was cancelled, and the cleanup gives
the transport of the repository that was attached. -/
def PageCall.Result : PageCall Vault → Type
  | .ensureWasm => Except Rejection Unit
  | .makeSharedTransport => Except Rejection ℕ
  | .makeLeaderTransport => Except Rejection (Option ℕ)
  | .makeDedicatedTransport => Except Rejection ℕ
  | .whenReady _ => Except Rejection Unit
  | .bootstrap _ => Except Rejection Unit
  | .terminate _ => Unit
  | .closeLeader _ => Unit
  | .sendClose _ => Unit
  | .runEffect => ℕ
  | .runIdle => Unit
  | .settle .. => Bool
  | .cleanup => Option ℕ

/-- How the browser answers a call: it fails, or there are no locks to elect a leader with. -/
structure PageConditions where
  failure : Option Rejection
  supportsLeaderElection : Bool
deriving DecidableEq, Repr

namespace Page

/-- What a call that may fail gives. -/
def outcome (conditions : PageConditions) : Except Rejection Unit :=
  match conditions.failure with
  | some err => .error err
  | none => .ok ()

/-- The constructor of a transport. -/
def make (page : Page Vault) (conditions : PageConditions) : Page Vault × Except Rejection ℕ :=
  match conditions.failure with
  | some err => (page, .error err)
  | none => ({ page with opened := page.opened + 1 }, .ok page.opened)

/-- The reaction to the promise of `createRepo`. -/
def settle (page : Page Vault) (mount : ℕ) (result : Except Rejection (PageRepo Vault)) :
    Page Vault × Bool :=
  if page.mounted.map Prod.fst = some mount then
    match result with
    | .ok repo =>
      ({ page with mounted := some (mount, some repo.transport), state := .ready repo }, false)
    | .error err => ({ page with state := .error err.message }, false)
  else (page, true)

/-- What a call does. The effect does not run again before it is cleaned up. -/
def perform (page : Page Vault) : (call : PageCall Vault) → PageConditions →
    Option (Page Vault × call.Result)
  | .ensureWasm, conditions =>
    match page.wasm with
    | some result => some (page, result)
    | none => some ({ page with wasm := some (outcome conditions) }, outcome conditions)
  | .makeSharedTransport, conditions => some (page.make conditions)
  | .makeDedicatedTransport, conditions => some (page.make conditions)
  | .makeLeaderTransport, conditions =>
    if conditions.supportsLeaderElection then
      some ((page.make conditions).1, (page.make conditions).2.map some)
    else some (page, .ok none)
  | .whenReady _, conditions => some (page, outcome conditions)
  | .bootstrap _, conditions => some (page, outcome conditions)
  | .terminate _, _ => some (page, ())
  | .closeLeader _, _ => some (page, ())
  | .sendClose _, _ => some (page, ())
  | .runEffect, _ =>
    match page.mounted with
    | none => some ({ page with
        mounts := page.mounts + 1, mounted := some (page.mounts, none), state := .loading },
        page.mounts)
    | some _ => none
  | .runIdle, _ =>
    match page.mounted with
    | none => some ({ page with state := .idle }, ())
    | some _ => none
  | .settle mount result, _ => some (page.settle mount result)
  | .cleanup, _ =>
    match page.mounted with
    | none => none
    | some (_, attached) => some ({ page with mounted := none }, attached)

/-- The page as a machine. -/
def machine : Machine (Page Vault) (PageCall Vault) PageCall.Result PageConditions :=
  ⟨perform, fun _ _ ↦ none⟩

end Page

/-! ### The handlers -/

/-- A handler of the page. -/
abbrev PageHandler (Vault : Type) := Program (PageCall Vault) PageCall.Result Unit

/-- What goes on when a repository is there, or when it failed. -/
abbrev Continuation (Vault : Type) := Except Rejection (PageRepo Vault) → PageHandler Vault

/-- `bootRepo(transport, vault)`. -/
def bootRepo (transport : ℕ) (vault : Vault) (next : Continuation Vault) : PageHandler Vault :=
  .call (.bootstrap transport) fun booted ↦
  match booted with
  | .ok () => next (.ok ⟨transport, vault⟩)
  | .error err => .call (.terminate transport) fun _ ↦ next (.error err)

/-- The last tier of the ladder. -/
def dedicatedTier (vault : Vault) (next : Continuation Vault) : PageHandler Vault :=
  .call .makeDedicatedTransport fun made ↦
  match made with
  | .error err => next (.error err)
  | .ok transport => bootRepo transport vault next

/-- The ladder from the leader election on. -/
def leaderTier (vault : Vault) (next : Continuation Vault) : PageHandler Vault :=
  .call .makeLeaderTransport fun made ↦
  match made with
  | .error err => next (.error err)
  | .ok none => dedicatedTier vault next
  | .ok (some leader) =>
    let fallBack : PageHandler Vault := .call (.closeLeader leader) fun _ ↦ dedicatedTier vault next
    .call (.whenReady leader) fun ready ↦
    match ready with
    | .error _ => fallBack
    | .ok () => bootRepo leader vault fun result ↦
      match result with
      | .ok repo => next (.ok repo)
      | .error _ => fallBack

/-- The ladder from the shared worker on. -/
def sharedTier (vault : Vault) (next : Continuation Vault) : PageHandler Vault :=
  let stepDown (err : Rejection) : PageHandler Vault :=
    if isOpfsUnavailable err then leaderTier vault next else next (.error err)
  .call .makeSharedTransport fun made ↦
  match made with
  | .error err => stepDown err
  | .ok transport => bootRepo transport vault fun result ↦
    match result with
    | .ok repo => next (.ok repo)
    | .error err => stepDown err

/-- `createRepo({ vault })`. -/
def createRepo (supportsSharedWorker : Bool) (vault : Vault) (next : Continuation Vault) :
    PageHandler Vault :=
  .call .ensureWasm fun loaded ↦
  match loaded with
  | .error err => next (.error err)
  | .ok () => if supportsSharedWorker then sharedTier vault next else leaderTier vault next

/-- `repo.close()`, whose transport is closed whether the request is answered or fails. -/
def closeRepo (transport : ℕ) : PageHandler Vault :=
  .call (.sendClose transport) fun _ ↦ .call (.terminate transport) fun _ ↦ .done ()

/-- The effect of the hook with a vault. -/
def mountVault (supportsSharedWorker : Bool) (vault : Vault) : PageHandler Vault :=
  .call .runEffect fun mount ↦
  createRepo supportsSharedWorker vault fun result ↦
  .call (.settle mount result) fun cancelled ↦
  match cancelled, result with
  | true, .ok repo => closeRepo repo.transport
  | _, _ => .done ()

/-- The cleanup of the hook. -/
def unmount : PageHandler Vault :=
  .call .cleanup fun attached ↦
  match attached with
  | some transport => closeRepo transport
  | none => .done ()

/-- The effect runs or is cleaned up. -/
inductive HookEvent (Vault : Type)
  | effect (vault : Option Vault)
  | cleanup
deriving DecidableEq, Repr

/-- `useNotesRepo(vault)`. -/
def useNotesRepo (supportsSharedWorker : Bool) : HookEvent Vault → PageHandler Vault
  | .effect (some vault) => mountVault supportsSharedWorker vault
  | .effect none => .call .runIdle fun _ ↦ .done ()
  | .cleanup => unmount

/-- The state of a run of the page. -/
abbrev Mounts (Vault : Type) :=
  Threads (Page Vault) (HookEvent Vault) (PageCall Vault) PageCall.Result Unit

namespace Mounts

/-- The page as a system. -/
def automaton (Vault : Type) (supportsSharedWorker : Bool) :
    Automaton (Mounts Vault) (ThreadsEvent (HookEvent Vault) PageConditions) :=
  Threads.automaton Page.machine (useNotesRepo supportsSharedWorker)

/-- A call in the log of a run. -/
abbrev LogEntry (Vault : Type) := Foundation.Entry (Page Vault) (PageCall Vault) PageCall.Result

/-- A call with its result. -/
abbrev Performed (Vault : Type) := Σ call : PageCall Vault, call.Result

end Mounts

end OpfsWebauthn.Notes
