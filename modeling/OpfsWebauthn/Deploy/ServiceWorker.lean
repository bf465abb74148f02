import Mathlib.Data.Sigma.Basic
import Mathlib.Logic.Function.Basic
import OpfsWebauthn.Deploy.PrecacheManifest
import OpfsWebauthn.Foundation.Threads

/-!
# The service worker

`sw.js` as handlers that run concurrently on the caches of an origin: the installation and the
activation of any number of workers, and any number of requests that they serve. What a handler
awaits is a call, and between two calls of one handler any number of calls of others may happen.

A cache that was opened is an object. Deleting the name of a cache does not take the object away
from a handler that has opened it, and opening the name again makes another object.
-/

set_option autoImplicit false
set_option relaxedAutoImplicit false

namespace OpfsWebauthn.Deploy

open Foundation Storage

/-! ### Requests and responses -/

/-- A URL without its fragment, which no cache looks at. -/
structure Url where
  origin : String
  pathname : String
  search : String
deriving DecidableEq, Repr

/-- What the worker reads of a request; `navigate` is `request.mode === "navigate"`. -/
structure FetchRequest where
  method : String
  url : Url
  navigate : Bool
deriving DecidableEq, Repr

/-- What the worker reads of a response, and the body. Responses with a `Vary` header are not
modelled, so a cache looks only at the URL; nor are redirected ones, so a page accepts any. -/
structure FetchResponse where
  status : ℕ
  body : Bytes
deriving DecidableEq, Repr

/-- `response.ok`. -/
def FetchResponse.ok (response : FetchResponse) : Bool :=
  200 ≤ response.status && response.status ≤ 299

/-- What a cache accepts: it refuses a partial response. -/
def FetchResponse.isComplete (response : FetchResponse) : Bool :=
  response.status ≠ 206

/-- `new Request(url)`. -/
def FetchRequest.get (url : Url) : FetchRequest :=
  ⟨"GET", url, false⟩

/-- `self.location.origin`, and a relative URL resolved against the location of the worker. -/
structure Site where
  origin : String
  resolve : String → Url

/-! ### The browser -/

/-- The phases of a worker. -/
inductive Phase
  | parsed
  | installing
  | installed
  | activating
  | activated
  | redundant
deriving DecidableEq, Repr

/-- How a worker gets from one phase to another. A worker that is activated stays so when it gets a
request. -/
inductive Transition
  | install
  | failed
  | installed
  | activate
  | activated
  | dispatch
deriving DecidableEq, Repr

/-- The phase that a transition leaves. -/
def Transition.before : Transition → Phase
  | .install => .parsed
  | .failed => .installing
  | .installed => .installing
  | .activate => .installed
  | .activated => .activating
  | .dispatch => .activated

/-- The phase that a transition reaches. -/
def Transition.after : Transition → Phase
  | .install => .installing
  | .failed => .redundant
  | .installed => .installed
  | .activate => .activating
  | .activated => .activated
  | .dispatch => .activated

/-- The named caches of the origin in the order in which they were made, the contents of the cache
objects, the number of objects made, and the phase of each worker. -/
structure Browser where
  caches : OrderedMap String ℕ
  contents : ℕ → Url → Option FetchResponse
  created : ℕ
  phase : ℕ → Phase

/-- What a worker awaits. -/
inductive WorkerCall
  /-- The browser moves a worker from one phase to another. -/
  | advance (worker : ℕ) (transition : Transition)
  | openCache (name : String)
  | addAll (cache : ℕ) (urls : List String)
  | cacheKeys
  | deleteCache (name : String)
  | matchCache (cache : ℕ) (url : Url)
  | put (cache : ℕ) (url : Url) (response : FetchResponse)
  | fetch (request : FetchRequest)
  /-- The promise of `respondWith` settles; without a response the page gets a network error. -/
  | respond (answer : Option FetchResponse)
deriving DecidableEq, Repr

/-- What a call gives. A cache that cannot be opened, a failed `addAll` and a failed fetch give
nothing. -/
def WorkerCall.Result : WorkerCall → Type
  | .advance .. => Unit
  | .openCache _ => Option ℕ
  | .addAll .. => Option (List (Url × FetchResponse))
  | .cacheKeys => List String
  | .deleteCache _ => Bool
  | .matchCache .. => Option FetchResponse
  | .put .. => Unit
  | .fetch _ => Option FetchResponse
  | .respond _ => Unit

instance : (call : WorkerCall) → DecidableEq call.Result
  | .advance .. => inferInstanceAs (DecidableEq Unit)
  | .openCache _ => inferInstanceAs (DecidableEq (Option ℕ))
  | .addAll .. => inferInstanceAs (DecidableEq (Option (List (Url × FetchResponse))))
  | .cacheKeys => inferInstanceAs (DecidableEq (List String))
  | .deleteCache _ => inferInstanceAs (DecidableEq Bool)
  | .matchCache .. => inferInstanceAs (DecidableEq (Option FetchResponse))
  | .put .. => inferInstanceAs (DecidableEq Unit)
  | .fetch _ => inferInstanceAs (DecidableEq (Option FetchResponse))
  | .respond _ => inferInstanceAs (DecidableEq Unit)

/-- What the network answers at a call, and whether the storage of the browser works. -/
structure Conditions where
  network : FetchRequest → Option FetchResponse
  storage : Bool

/-- The answers to the requests of `addAll`, or nothing when one of them is no answer that the cache
accepts. -/
def fetchAll (site : Site) (network : FetchRequest → Option FetchResponse) :
    List String → Option (List (Url × FetchResponse))
  | [] => some []
  | url :: rest =>
    match network (.get (site.resolve url)) with
    | some response =>
      if response.ok && response.isComplete then
        (fetchAll site network rest).map fun pairs ↦ (site.resolve url, response) :: pairs
      else none
    | none => none

namespace Browser

/-- Writes responses into a cache. -/
def write (browser : Browser) (cache : ℕ) (pairs : List (Url × FetchResponse)) : Browser :=
  { browser with contents := fun other url ↦
      if other = cache then
        match pairs.lookup url with
        | some response => some response
        | none => browser.contents other url
      else browser.contents other url }

/-- `caches.open(name)`. -/
def openCache (browser : Browser) (name : String) : Browser × ℕ :=
  match browser.caches.get? name with
  | some cache => (browser, cache)
  | none => ({ browser with
      caches := browser.caches.set name browser.created
      contents := Function.update browser.contents browser.created fun _ ↦ none
      created := browser.created + 1 }, browser.created)

/-- What a call does. The browser does not advance a worker that is in another phase, and nothing is
written to a cache that does not exist. -/
def perform (site : Site) (browser : Browser) : (call : WorkerCall) → Conditions →
    Option (Browser × call.Result)
  | .advance worker transition, _ =>
    if browser.phase worker = transition.before then
      some ({ browser with phase := Function.update browser.phase worker transition.after }, ())
    else none
  | .openCache name, conditions =>
    if conditions.storage then
      some ((browser.openCache name).1, some (browser.openCache name).2)
    else some (browser, none)
  | .addAll cache urls, conditions =>
    if browser.created ≤ cache then none
    else if conditions.storage ∧ (urls.map site.resolve).Nodup then
      match fetchAll site conditions.network urls with
      | some pairs => some (browser.write cache pairs, some pairs)
      | none => some (browser, none)
    else some (browser, none)
  | .cacheKeys, _ => some (browser, browser.caches.keys)
  | .deleteCache name, _ =>
    some ({ browser with caches := browser.caches.erase name }, (browser.caches.get? name).isSome)
  | .matchCache cache url, _ => some (browser, browser.contents cache url)
  | .put cache url response, conditions =>
    if browser.created ≤ cache then none
    else if conditions.storage ∧ response.isComplete then
      some (browser.write cache [(url, response)], ())
    else some (browser, ())
  | .fetch request, conditions => some (browser, conditions.network request)
  | .respond _, _ => some (browser, ())

/-- What a call does, one rule for each outcome. -/
inductive Does (site : Site) (browser : Browser) :
    (call : WorkerCall) → call.Result → Browser → Prop
  | advanced {worker : ℕ} {transition : Transition}
      (hphase : browser.phase worker = transition.before) :
      Does site browser (.advance worker transition) ()
        { browser with phase := Function.update browser.phase worker transition.after }
  | opened (name : String) : Does site browser (.openCache name)
      (some (browser.openCache name).2) (browser.openCache name).1
  | unopened (name : String) : Does site browser (.openCache name) none browser
  | added {cache : ℕ} {urls : List String} {pairs : List (Url × FetchResponse)}
      {network : FetchRequest → Option FetchResponse} (hcache : cache < browser.created)
      (hnodup : (urls.map site.resolve).Nodup)
      (hpairs : fetchAll site network urls = some pairs) :
      Does site browser (.addAll cache urls) (some pairs) (browser.write cache pairs)
  | unadded (cache : ℕ) (urls : List String) : Does site browser (.addAll cache urls) none browser
  | listed : Does site browser .cacheKeys browser.caches.keys browser
  | deleted (name : String) : Does site browser (.deleteCache name)
      (browser.caches.get? name).isSome { browser with caches := browser.caches.erase name }
  | matched (cache : ℕ) (url : Url) :
      Does site browser (.matchCache cache url) (browser.contents cache url) browser
  | stored {cache : ℕ} (url : Url) {response : FetchResponse} (hcache : cache < browser.created)
      (hcomplete : response.isComplete = true) :
      Does site browser (.put cache url response) () (browser.write cache [(url, response)])
  | refused (cache : ℕ) (url : Url) (response : FetchResponse) :
      Does site browser (.put cache url response) () browser
  | fetched (request : FetchRequest) (answer : Option FetchResponse) :
      Does site browser (.fetch request) answer browser
  | responded (answer : Option FetchResponse) : Does site browser (.respond answer) () browser

theorem does_of_perform {site : Site} {browser next : Browser} {call : WorkerCall}
    {conditions : Conditions} {result : call.Result}
    (hperform : browser.perform site call conditions = some (next, result)) :
    Does site browser call result next := by
  cases call with
  | advance worker transition =>
    rw [perform] at hperform
    split_ifs at hperform with hphase
    cases hperform
    exact .advanced hphase
  | openCache name =>
    rw [perform] at hperform
    split_ifs at hperform
    · cases hperform
      exact .opened name
    · cases hperform
      exact .unopened name
  | addAll cache urls =>
    rw [perform] at hperform
    split_ifs at hperform with hcache hworks
    · cases hpairs : fetchAll site conditions.network urls with
      | none =>
        rw [hpairs] at hperform
        cases hperform
        exact .unadded cache urls
      | some pairs =>
        rw [hpairs] at hperform
        cases hperform
        exact .added (Nat.lt_of_not_le hcache) hworks.2 hpairs
    · cases hperform
      exact .unadded cache urls
  | cacheKeys =>
    cases hperform
    exact .listed
  | deleteCache name =>
    cases hperform
    exact .deleted name
  | matchCache cache url =>
    cases hperform
    exact .matched cache url
  | put cache url response =>
    rw [perform] at hperform
    split_ifs at hperform with hcache hworks
    · cases hperform
      exact .stored url (Nat.lt_of_not_le hcache) hworks.2
    · cases hperform
      exact .refused cache url response
  | fetch request =>
    cases hperform
    exact .fetched request _
  | respond answer =>
    cases hperform
    exact .responded answer

/-- The browser as a machine. -/
def machine (site : Site) : Machine Browser WorkerCall WorkerCall.Result Conditions :=
  ⟨fun browser call conditions ↦ browser.perform site call conditions, fun _ _ ↦ none⟩

end Browser

/-! ### The handlers -/

/-- A handler of the worker. -/
abbrev WorkerHandler := Program WorkerCall WorkerCall.Result Unit

/-- `PRECACHE`; without `sw-manifest.js` there is nothing to cache. -/
def precache (manifest : Option Manifest) : Manifest :=
  manifest.getD ⟨"dev", []⟩

/-- `CACHE_PREFIX`. -/
def cachePrefix : String := "opfs-shell-"

/-- `key.startsWith(CACHE_PREFIX)`. -/
def hasCachePrefix (key : String) : Bool :=
  cachePrefix.toList.isPrefixOf key.toList

/-- `SHELL_URL`. -/
def shellUrl : String := "./index.html"

/-- `isRuntimeConfig(pathname)`. -/
def isRuntimeConfig (pathname : String) : Bool :=
  pathname = "/config.js" || "/config.js".toList.isSuffixOf pathname.toList

/-- `pathname.includes("/api/")`. -/
def includesApi (pathname : String) : Bool :=
  "/api/".toList <:+: pathname.toList

/-- The requests that the worker leaves to the browser. -/
def passesThrough (site : Site) (manifest : Option Manifest) (request : FetchRequest) : Bool :=
  request.method ≠ "GET" || request.url.origin ≠ site.origin ||
    includesApi request.url.pathname || isRuntimeConfig request.url.pathname ||
    (precache manifest).urls.isEmpty

/-- The synthesised answer of a navigation without network and shell. -/
def offlineResponse : FetchResponse :=
  ⟨503, utf8 "Offline"⟩

/-- The promise of `respondWith` settles, and the handler goes on. -/
def settleWith (answer : Option FetchResponse) (next : WorkerHandler) : WorkerHandler :=
  .call (.respond answer) fun _ ↦ next

/-- The listener of `install`. -/
def install (worker : ℕ) (manifest : Option Manifest) : WorkerHandler :=
  .call (.advance worker .install) fun _ ↦
  .call (.openCache (cacheName (precache manifest))) fun opened ↦
  match opened with
  | none => .call (.advance worker .failed) fun _ ↦ .done ()
  | some cache =>
    .call (.addAll cache (precache manifest).urls) fun added ↦
    match added with
    | none => .call (.advance worker .failed) fun _ ↦ .done ()
    | some _ => .call (.advance worker .installed) fun _ ↦ .done ()

/-- `Promise.all(stale.map((k) => caches.delete(k)))`. -/
def deleteAll (next : WorkerHandler) : List String → WorkerHandler
  | [] => next
  | name :: rest => .call (.deleteCache name) fun _ ↦ deleteAll next rest

/-- `stale`. -/
def staleKeys (manifest : Option Manifest) (keys : List String) : List String :=
  keys.filter fun key ↦ hasCachePrefix key && key ≠ cacheName (precache manifest)

/-- The listener of `activate`. -/
def activate (worker : ℕ) (manifest : Option Manifest) : WorkerHandler :=
  .call (.advance worker .activate) fun _ ↦
  .call .cacheKeys fun keys ↦
  deleteAll (.call (.advance worker .activated) fun _ ↦ .done ())
    (staleKeys manifest keys)

/-- `navigationStrategy(request)`. -/
def navigationStrategy (site : Site) (manifest : Option Manifest) (request : FetchRequest) :
    WorkerHandler :=
  .call (.openCache (cacheName (precache manifest))) fun opened ↦
  match opened with
  | none => settleWith none (.done ())
  | some cache =>
    .call (.fetch request) fun fetched ↦
    match fetched with
    | some response =>
      if response.ok || response.status = 404 then settleWith (some response) (.done ())
      else .call (.matchCache cache (site.resolve shellUrl)) fun shell ↦
        settleWith (some (shell.getD response)) (.done ())
    | none =>
      .call (.matchCache cache (site.resolve shellUrl)) fun shell ↦
      settleWith (some (shell.getD offlineResponse)) (.done ())

/-- `cacheFirst(request)`; the response is on its way before it is in the cache. -/
def cacheFirst (manifest : Option Manifest) (request : FetchRequest) : WorkerHandler :=
  .call (.openCache (cacheName (precache manifest))) fun opened ↦
  match opened with
  | none => settleWith none (.done ())
  | some cache =>
    .call (.matchCache cache request.url) fun cached ↦
    match cached with
    | some response => settleWith (some response) (.done ())
    | none =>
      .call (.fetch request) fun fetched ↦
      match fetched with
      | none => settleWith none (.done ())
      | some response =>
        settleWith (some response)
          (if response.ok then .call (.put cache request.url response) fun _ ↦ .done ()
          else .done ())

/-- The listener of `fetch`. The browser gives requests only to a worker that is activated. -/
def serve (site : Site) (worker : ℕ) (manifest : Option Manifest) (request : FetchRequest) :
    WorkerHandler :=
  .call (.advance worker .dispatch) fun _ ↦
  if passesThrough site manifest request then .done ()
  else if request.navigate then navigationStrategy site manifest request
  else cacheFirst manifest request

/-- The events that workers get. -/
inductive WorkerEvent
  | install (worker : ℕ)
  | activate (worker : ℕ)
  | fetch (worker : ℕ) (request : FetchRequest)
deriving DecidableEq, Repr

/-- The listeners. Each worker was evaluated with a manifest of its own, or without one. -/
def listen (site : Site) (manifests : ℕ → Option Manifest) : WorkerEvent → WorkerHandler
  | .install worker => install worker (manifests worker)
  | .activate worker => activate worker (manifests worker)
  | .fetch worker request => serve site worker (manifests worker) request

/-- The state of a run of the workers of an origin. -/
abbrev Workers := Threads Browser WorkerEvent WorkerCall WorkerCall.Result Unit

namespace Workers

/-- The workers as a system. -/
def automaton (site : Site) (manifests : ℕ → Option Manifest) :
    Automaton Workers (ThreadsEvent WorkerEvent Conditions) :=
  Threads.automaton (Browser.machine site) (listen site manifests)

/-- A call in the log of a run. -/
abbrev LogEntry := Foundation.Entry Browser WorkerCall WorkerCall.Result

/-- A call with its result. -/
abbrev Performed := Σ call : WorkerCall, call.Result

end Workers

/-! ### A worker in use -/

/-- A site with the worker at its root. -/
def sampleSite : Site :=
  ⟨"https://notes.example", fun relative ↦
    ⟨"https://notes.example", String.ofList (relative.toList.drop 1), ""⟩⟩

/-- The cache of an older deploy and the cache of another application. -/
def sampleBrowser : Browser where
  caches := ⟨[("opfs-shell-old", 0), ("map-tiles", 1)], by decide⟩
  contents cache url := if cache = 1 ∧ url.pathname = "/tile" then some ⟨200, [7]⟩ else none
  created := 2
  phase _ := .parsed

/-- One worker, with the shell `A`. -/
def sampleManifests : ℕ → Option Manifest
  | 0 => some (buildManifest twoShells (oneFile indexHtml [0x41]))
  | _ => none

/-- A server with the shell and a chunk. -/
def online : Conditions :=
  ⟨fun request ↦ if request.url.pathname = "/index.html" then some ⟨200, [0x41]⟩
    else if request.url.pathname = "/chunk.js" then some ⟨200, [0x63]⟩ else some ⟨404, []⟩, true⟩

/-- No network. -/
def offline : Conditions :=
  ⟨fun _ ↦ none, true⟩

/-- A request on the site. -/
def visit (pathname : String) (navigate : Bool) : FetchRequest :=
  ⟨"GET", ⟨"https://notes.example", pathname, ""⟩, navigate⟩

/-- A worker is installed and activated, stores a chunk, and without network serves the shell and a
navigation. -/
def installedOffline : List (ThreadsEvent WorkerEvent Conditions) :=
  List.flatten [
    .arrive (.install 0) :: List.replicate 4 (.resume 0 online),
    .arrive (.activate 0) :: List.replicate 4 (.resume 1 online),
    .arrive (.fetch 0 (visit "/chunk.js" false)) :: List.replicate 6 (.resume 2 online),
    .arrive (.fetch 0 (visit "/index.html" false)) :: List.replicate 4 (.resume 3 offline),
    .arrive (.fetch 0 (visit "/notes" true)) :: List.replicate 5 (.resume 4 offline)]

end OpfsWebauthn.Deploy
