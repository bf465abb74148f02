import OpfsWebauthn.Deploy.WorkerCaches

/-!
# The application without network

A worker gets requests only after every file of its manifest was added to its cache
(`primed_of_dispatch`), and the cache stays primed until its name is deleted. So a file of the
deploy is answered from the cache without the network (`resource_from_cache`), and a navigation is
answered by the server's page or by the shell (`navigation_answered`).

Only the activation of a worker of another version deletes a cache with the prefix
(`keptSinceInstall_of_activations`), and it leaves none but its own (`own_cache_of_activated`).
-/

set_option autoImplicit false
set_option relaxedAutoImplicit false

namespace OpfsWebauthn.Deploy

open Foundation Storage

variable {site : Site} {manifests : ℕ → Option Manifest} {initial : Browser} {world : Workers}

/-! ### Installed workers -/

/-- The phases from the end of the installation on. -/
def Phase.isInstalled : Phase → Bool
  | .parsed | .installing | .redundant => false
  | .installed | .activating | .activated => true

/-- A worker in one of these phases was moved there at the end of its installation. -/
def InstalledByCall (browser : Browser) (log : List Workers.LogEntry) : Prop :=
  ∀ worker, (browser.phase worker).isInstalled = true →
    ∃ entry ∈ log, entry.performed = ⟨.advance worker .installed, ()⟩

theorem InstalledByCall.call {browser next : Browser} {log : List Workers.LogEntry}
    {call : WorkerCall} {result : call.Result} (thread : ℕ)
    (hinstalled : InstalledByCall browser log) (hdoes : browser.Does site call result next) :
    InstalledByCall next (log ++ [⟨thread, browser, call, result, next⟩]) := by
  have hold : ∀ worker, (browser.phase worker).isInstalled = true → ∃ entry ∈ log ++
      [(⟨thread, browser, call, result, next⟩ : Workers.LogEntry)],
        entry.performed = ⟨.advance worker .installed, ()⟩ := by
    intro worker hphase
    obtain ⟨entry, hentry, hperformed⟩ := hinstalled worker hphase
    exact ⟨entry, List.mem_append_left _ hentry, hperformed⟩
  intro worker hphase
  cases hdoes with
  | @advanced other transition hbefore =>
    by_cases hsame : worker = other
    · subst hsame
      change (Function.update browser.phase worker transition.after worker).isInstalled = true
        at hphase
      rw [Function.update_self] at hphase
      cases transition with
      | install => cases hphase
      | failed => cases hphase
      | installed => exact ⟨_, List.mem_append_right _ List.mem_cons_self, rfl⟩
      | activate => exact hold worker (by rw [hbefore]; rfl)
      | activated => exact hold worker (by rw [hbefore]; rfl)
      | dispatch => exact hold worker (by rw [hbefore]; rfl)
    · change (Function.update browser.phase other transition.after worker).isInstalled = true
        at hphase
      rw [Function.update_of_ne hsame] at hphase
      exact hold worker hphase
  | opened name =>
    rcases Browser.openCache_cases browser name with ⟨_, _, heq⟩ | ⟨_, heq⟩
    · rw [heq] at hphase
      exact hold worker hphase
    · rw [heq] at hphase
      exact hold worker hphase
  | _ => exact hold worker hphase

/-- A call that finds a worker in one of these phases comes after the end of its installation. -/
theorem installedByCall_before (hphases : ∀ worker, initial.phase worker = .parsed)
    (hreaches : (Workers.automaton site manifests).Reaches (Threads.start initial) world)
    {position : ℕ} {entry : Workers.LogEntry} (hentry : world.log[position]? = some entry) :
    InstalledByCall entry.before (world.log.take position) := by
  refine (Threads.shared_invariant_before hreaches InstalledByCall ?_ ?_ ?_ position entry
    hentry).1
  · intro worker hphase
    rw [hphases] at hphase
    cases hphase
  · intro browser log conditions next _ helapse
    cases helapse
  · intro browser log thread call conditions next result hinstalled hperform
    exact hinstalled.call thread (Browser.does_of_perform hperform)

/-- Before a position the installation of a worker opened this cache under its name, and added every
URL of its manifest to it. -/
structure PrimedBefore (site : Site) (manifests : ℕ → Option Manifest) (world : Workers)
    (worker cache position : ℕ) : Prop where
  opened : ∃ earlier entry rest, earlier < position ∧ world.log[earlier]? = some entry ∧
    world.threads[entry.thread]? = some ⟨.install worker, rest⟩ ∧
    entry.performed = ⟨.openCache (cacheName (precache (manifests worker))), some cache⟩
  added : ∃ earlier entry, earlier < position ∧ world.log[earlier]? = some entry ∧
    ∀ relative ∈ (precache (manifests worker)).urls,
      AddsTo entry.performed cache (site.resolve relative)

/-- A worker that gets a request has its precache. -/
theorem primed_of_dispatch (hphases : ∀ worker, initial.phase worker = .parsed)
    (hreaches : (Workers.automaton site manifests).Reaches (Threads.start initial) world)
    {position worker : ℕ} {entry : Workers.LogEntry} (hentry : world.log[position]? = some entry)
    (hdispatch : entry.performed = ⟨.advance worker .dispatch, ()⟩) :
    ∃ cache, PrimedBefore site manifests world worker cache position := by
  have hphase : (entry.before.phase worker).isInstalled = true := by
    have hdoes := (cacheHistory_before hreaches hentry).2
    obtain ⟨thread, before, call, result, after⟩ := entry
    cases hdispatch
    change before.Does site (.advance worker .dispatch) () after at hdoes
    cases hdoes with
    | advanced hphase =>
      change (before.phase worker).isInstalled = true
      rw [hphase]
      rfl
  obtain ⟨ended, hended, hinstalled⟩ :=
    installedByCall_before hphases hreaches hentry worker hphase
  obtain ⟨last, hlast⟩ := List.getElem?_of_mem hended
  have hlt : last < position := by
    have hlength := (List.getElem?_eq_some_iff.mp hlast).1
    rw [List.length_take] at hlength
    omega
  rw [List.getElem?_take_of_lt hlt] at hlast
  -- where the installation stood when it ended
  obtain ⟨event, rest, next, hthread, hruns⟩ :=
    (Threads.consistent_of_reaches hreaches).runs_before hlast
  have hstands : event = .install worker ∧ ∃ cache pairs,
      ⟨.openCache (cacheName (precache (manifests worker))), some cache⟩ ∈
        Threads.trace (world.log.take last) ended.thread ∧
      ⟨.addAll cache (precache (manifests worker)).urls, some pairs⟩ ∈
        Threads.trace (world.log.take last) ended.thread := by
    generalize Threads.trace (world.log.take last) ended.thread = trace at hruns ⊢
    obtain ⟨thread, before, call, result, after⟩ := ended
    cases hinstalled
    cases event with
    | install other =>
      cases install_runs hruns with
      | added cache pairs => exact ⟨rfl, cache, pairs, by simp, by simp⟩
    | activate other =>
      cases activate_runs hruns with
      | advance _ htransition => exact absurd rfl htransition
    | fetch other request =>
      cases serve_runs hruns with
      | navigation _ _ hstands => cases hstands
      | resource _ _ hstands => cases hstands
  obtain ⟨rfl, cache, pairs, hopened, hadded⟩ := hstands
  refine ⟨cache, ?_, ?_⟩
  · obtain ⟨earlier, opened, hearlier, hopening, hsame, hperformed⟩ :=
      Threads.exists_lt_of_mem_trace_take hopened
    exact ⟨earlier, opened, rest, by omega, hopening, hsame ▸ hthread, hperformed⟩
  · obtain ⟨earlier, adding, hearlier, hadding, -, hperformed⟩ :=
      Threads.exists_lt_of_mem_trace_take hadded
    refine ⟨earlier, adding, by omega, hadding, fun relative hrelative ↦ ?_⟩
    have hdoes := (cacheHistory_before hreaches hadding).2
    have hfetched : pairs.map Prod.fst = (precache (manifests worker)).urls.map site.resolve := by
      obtain ⟨thread, before, call, result, after⟩ := adding
      cases hperformed
      change before.Does site (.addAll cache _) (some pairs) after at hdoes
      cases hdoes with
      | added _ _ hpairs => exact (fetchAll_spec hpairs).1
    refine ⟨_, pairs, hperformed, ?_⟩
    rw [hfetched]
    exact List.mem_map_of_mem hrelative

/-! ### Requests of a worker that was installed -/

/-- No cache was deleted under the name of the worker after its installation opened it. -/
def KeptSinceInstall (manifests : ℕ → Option Manifest) (world : Workers) (worker : ℕ) : Prop :=
  ∀ position entry rest, world.log[position]? = some entry →
    world.threads[entry.thread]? = some ⟨.install worker, rest⟩ →
    entry.call = .openCache (cacheName (precache (manifests worker))) →
    KeptSince world.log position (cacheName (precache (manifests worker)))

/-- A cache keeps its name while no worker of another version is activated. -/
theorem keptSinceInstall_of_activations
    (hreaches : (Workers.automaton site manifests).Reaches (Threads.start initial) world)
    {worker : ℕ} (hactivations : ∀ other, .activate other ∈ world.threads.map Thread.request →
      cacheName (precache (manifests other)) = cacheName (precache (manifests worker))) :
    KeptSinceInstall manifests world worker := by
  intro position entry rest _ _ _ later other _ hother hdeletes
  obtain ⟨event, others, next, hthread, hruns⟩ :=
    (Threads.consistent_of_reaches hreaches).runs_before hother
  have hrequest : event ∈ world.threads.map Thread.request :=
    List.mem_map_of_mem (List.mem_of_getElem? hthread)
  generalize Threads.trace (world.log.take later) other.thread = trace at hruns
  obtain ⟨thread, before, call, result, after⟩ := other
  cases hdeletes
  cases event with
  | install another => cases install_runs hruns
  | activate another =>
    cases activate_runs hruns with
    | delete _ _ hother => exact hother (hactivations another hrequest).symm
  | fetch another request =>
    cases serve_runs hruns with
    | navigation _ _ hstands => cases hstands
    | resource _ _ hstands => cases hstands

/-- The responses that a call got from the network, with their URLs. -/
def networkAnswers : Workers.Performed → List (Url × FetchResponse)
  | ⟨.fetch request, some response⟩ => [(request.url, response)]
  | ⟨.addAll _ _, some pairs⟩ => pairs
  | _ => []

/-- The worker that an event is for. -/
def WorkerEvent.worker : WorkerEvent → ℕ
  | .install worker | .activate worker | .fetch worker _ => worker

/-- The network gave this response for this URL to a handler of a worker whose cache has this
name. -/
def GotFromNetwork (manifests : ℕ → Option Manifest) (world : Workers) (name : String) (url : Url)
    (response : FetchResponse) : Prop :=
  ∃ entry ∈ world.log, ∃ event rest, world.threads[entry.thread]? = some ⟨event, rest⟩ ∧
    cacheName (precache (manifests event.worker)) = name ∧
    (url, response) ∈ networkAnswers entry.performed

/-- An entry among the first ones is one of the log. -/
theorem getElem?_of_take {log : List Workers.LogEntry} {position earlier : ℕ}
    {entry : Workers.LogEntry} (hearlier : (log.take position)[earlier]? = some entry) :
    earlier < position ∧ log[earlier]? = some entry := by
  have hlength := (List.getElem?_eq_some_iff.mp hearlier).1
  rw [List.length_take] at hlength
  have hlt : earlier < position := by omega
  rw [List.getElem?_take_of_lt hlt] at hearlier
  exact ⟨hlt, hearlier⟩

/-- A request of a worker that was installed has the cache in which the installation put every URL
of the manifest. -/
theorem primed_of_opened (hphases : ∀ worker, initial.phase worker = .parsed)
    (hreaches : (Workers.automaton site manifests).Reaches (Threads.start initial) world)
    {worker : ℕ} {request : FetchRequest} {rest : WorkerHandler} {position : ℕ}
    {opened : Workers.LogEntry} (hkept : KeptSinceInstall manifests world worker)
    (hopened : world.log[position]? = some opened)
    (hthread : world.threads[opened.thread]? = some ⟨.fetch worker request, rest⟩) {cache : ℕ}
    (hperformed : opened.performed =
      ⟨.openCache (cacheName (precache (manifests worker))), some cache⟩) :
    PrimedBefore site manifests world worker cache position := by
  -- the request was dispatched before
  obtain ⟨event, rest, next, hsame, hruns⟩ :=
    (Threads.consistent_of_reaches hreaches).runs_before hopened
  rw [hthread] at hsame
  obtain ⟨rfl, -⟩ := Thread.mk.inj (Option.some.inj hsame)
  have hdispatched : ⟨.advance worker .dispatch, ()⟩ ∈
      Threads.trace (world.log.take position) opened.thread := by
    generalize Threads.trace (world.log.take position) opened.thread = trace at hruns ⊢
    obtain ⟨thread, before, call, result, after⟩ := opened
    cases hperformed
    cases serve_runs hruns with
    | navigation _ _ _ => exact List.mem_cons_self
    | resource _ _ _ => exact List.mem_cons_self
  obtain ⟨dispatched, dispatch, hearlier, hdispatch, -, hdispatches⟩ :=
    Threads.exists_lt_of_mem_trace_take hdispatched
  obtain ⟨primed, hprimed⟩ := primed_of_dispatch hphases hreaches hdispatch hdispatches
  -- and what it opened is the cache of the installation
  obtain ⟨hhistory, hdoes⟩ := cacheHistory_before hreaches hopened
  have hnamed : opened.before.caches.get? (cacheName (precache (manifests worker))) =
      some primed := by
    obtain ⟨installing, entry, others, hlt, hentry, hinstall, hopens⟩ := hprimed.opened
    have hbefore : (world.log.take position)[installing]? = some entry := by
      rw [List.getElem?_take_of_lt (by omega)]
      exact hentry
    refine hhistory.linked hbefore hopens ?_
    intro later other hlater hother
    have hcall : entry.call = .openCache (cacheName (precache (manifests worker))) :=
      congrArg Sigma.fst hopens
    exact hkept installing entry others hentry hinstall hcall later other hlater
      (getElem?_of_take hother).2
  have hsameCache : cache = primed := by
    obtain ⟨thread, before, call, result, after⟩ := opened
    cases hperformed
    change before.Does site (.openCache _) (some cache) after at hdoes
    cases hdoes with
    | opened name =>
      rcases Browser.openCache_cases before (cacheName (precache (manifests worker))) with
        ⟨found, hfound, heq⟩ | ⟨hnone, -⟩
      · rw [heq]
        exact Option.some.inj (hfound.symm.trans hnamed)
      · rw [hnamed] at hnone
        cases hnone
  subst hsameCache
  obtain ⟨installing, entry, others, hlt, hentry⟩ := hprimed.opened
  obtain ⟨adding, added, hltAdded, hadded⟩ := hprimed.added
  exact ⟨⟨installing, entry, others, by omega, hentry⟩, adding, added, by omega, hadded⟩

/-- A cache that was opened under a name has no other, and is opened under no other. -/
structure OpenedOnce (browser : Browser) (log : List Workers.LogEntry) : Prop where
  well : browser.WellFormed
  made : ∀ entry ∈ log, ∀ name cache, entry.performed = ⟨.openCache name, some cache⟩ →
    cache < browser.created
  named : ∀ entry ∈ log, ∀ name cache, entry.performed = ⟨.openCache name, some cache⟩ →
    ∀ other, browser.caches.get? other = some cache → other = name
  opened : ∀ first ∈ log, ∀ second ∈ log, ∀ name other cache,
    first.performed = ⟨.openCache name, some cache⟩ →
      second.performed = ⟨.openCache other, some cache⟩ → name = other

/-- A name that has the cache after a call had it before, or the cache is new. -/
theorem get?_before_of_does {browser next : Browser} {call : WorkerCall} {result : call.Result}
    (hdoes : browser.Does site call result next) {name : String} {cache : ℕ}
    (hmade : cache < browser.created) (hcache : next.caches.get? name = some cache) :
    browser.caches.get? name = some cache := by
  cases hdoes with
  | opened other =>
    rcases Browser.openCache_cases browser other with ⟨found, hfound, heq⟩ | ⟨hnone, heq⟩
    · rw [heq] at hcache
      exact hcache
    · rw [Browser.get?_openCache] at hcache
      split_ifs at hcache with hsame
      · rw [heq] at hcache
        obtain rfl := Option.some.inj hcache
        exact absurd hmade (Nat.lt_irrefl _)
      · exact hcache
  | deleted other =>
    change (browser.caches.erase other).get? name = _ at hcache
    rw [OrderedMap.get?_erase] at hcache
    split_ifs at hcache
    exact hcache
  | _ => exact hcache

theorem OpenedOnce.call {browser next : Browser} {log : List Workers.LogEntry}
    {call : WorkerCall} {result : call.Result} (thread : ℕ) (honce : OpenedOnce browser log)
    (hdoes : browser.Does site call result next) :
    OpenedOnce next (log ++ [⟨thread, browser, call, result, next⟩]) := by
  have hwell := honce.well.call hdoes
  have hmade : ∀ entry ∈ log ++ [(⟨thread, browser, call, result, next⟩ : Workers.LogEntry)],
      ∀ name cache, entry.performed = ⟨.openCache name, some cache⟩ → cache < next.created := by
    intro entry hentry name cache hopens
    rcases List.mem_append.mp hentry with hold | hnew
    · exact Nat.lt_of_lt_of_le (honce.made entry hold name cache hopens) (created_of_does hdoes)
    · obtain rfl := List.mem_singleton.mp hnew
      exact hwell.made (get?_of_opens hdoes hopens)
  have hnamed : ∀ entry ∈ log ++ [(⟨thread, browser, call, result, next⟩ : Workers.LogEntry)],
      ∀ name cache, entry.performed = ⟨.openCache name, some cache⟩ →
        ∀ other, next.caches.get? other = some cache → other = name := by
    intro entry hentry name cache hopens other hother
    rcases List.mem_append.mp hentry with hold | hnew
    · have hbefore := get?_before_of_does hdoes (honce.made entry hold name cache hopens) hother
      exact honce.named entry hold name cache hopens other hbefore
    · obtain rfl := List.mem_singleton.mp hnew
      exact hwell.distinct hother (get?_of_opens hdoes hopens)
  refine ⟨hwell, hmade, hnamed, ?_⟩
  intro first hfirst second hsecond name other cache hopens hreopens
  rcases List.mem_append.mp hfirst with hold | hnew
  · rcases List.mem_append.mp hsecond with hsecondOld | hsecondNew
    · exact honce.opened first hold second hsecondOld name other cache hopens hreopens
    · -- the second opening gives its name to the cache
      obtain rfl := List.mem_singleton.mp hsecondNew
      exact (hnamed first hfirst name cache hopens other (get?_of_opens hdoes hreopens)).symm
  · obtain rfl := List.mem_singleton.mp hnew
    exact hnamed second hsecond other cache hreopens name (get?_of_opens hdoes hopens)

theorem openedOnce_of_reaches (hinitial : initial.WellFormed)
    (hreaches : (Workers.automaton site manifests).Reaches (Threads.start initial) world) :
    OpenedOnce world.shared world.log := by
  refine Threads.shared_invariant hreaches OpenedOnce ?_ ?_ ?_
  · exact ⟨hinitial, List.forall_mem_nil _, List.forall_mem_nil _, List.forall_mem_nil _⟩
  · intro browser log conditions next _ helapse
    cases helapse
  · intro browser log thread call conditions next result honce hperform
    exact honce.call thread (Browser.does_of_perform hperform)

/-- What is stored in a cache is a response of success that the network gave for the URL, to a
handler of a worker whose cache has the name under which the cache was opened. -/
theorem gotFromNetwork_of_stores (hinitial : initial.WellFormed)
    (hreaches : (Workers.automaton site manifests).Reaches (Threads.start initial) world)
    {entry : Workers.LogEntry} (hentry : entry ∈ world.log) {cache : ℕ} {url : Url}
    {response : FetchResponse} (hstores : Stores entry.performed cache url response)
    {opening : Workers.LogEntry} (hopening : opening ∈ world.log) {name : String}
    (hopens : opening.performed = ⟨.openCache name, some cache⟩) :
    response.ok = true ∧ GotFromNetwork manifests world name url response := by
  obtain ⟨position, hposition⟩ := List.getElem?_of_mem hentry
  have hname : ∀ {other}, ⟨.openCache other, some cache⟩ ∈
      Threads.trace (world.log.take position) entry.thread → other = name := by
    intro other hother
    obtain ⟨earlier, opened, -, hopened, -, hperformed⟩ :=
      Threads.exists_lt_of_mem_trace_take hother
    exact (openedOnce_of_reaches hinitial hreaches).opened opened (List.mem_of_getElem? hopened)
      opening hopening other name cache hperformed hopens
  rcases hstores with hput | ⟨urls, pairs, hadded, hpair⟩
  · obtain ⟨worker, request, rest, hthread, -, hurl, hok, hopened, hfetched⟩ :=
      request_of_put hreaches hposition hput
    obtain ⟨earlier, fetched, -, hfetch, hsame, hperformed⟩ :=
      Threads.exists_lt_of_mem_trace_take hfetched
    refine ⟨hok, fetched, List.mem_of_getElem? hfetch, .fetch worker request, rest,
      hsame.symm ▸ hthread, hname hopened, ?_⟩
    rw [hperformed, hurl]
    exact List.mem_singleton_self _
  · obtain ⟨worker, rest, hthread, hopened, -, hall⟩ :=
      installation_of_added hreaches hposition hadded
    refine ⟨(hall _ hpair).1, entry, hentry, .install worker, rest, hthread, hname hopened, ?_⟩
    rw [hadded]
    exact hpair

/-- A request of a worker that was installed finds every URL of the manifest in the cache that it
opened, as the network once gave it. -/
theorem matched_of_primed (hinitial : initial.WellFormed)
    (hphases : ∀ worker, initial.phase worker = .parsed)
    (hreaches : (Workers.automaton site manifests).Reaches (Threads.start initial) world)
    {worker : ℕ} {request : FetchRequest} {rest : WorkerHandler} {position : ℕ}
    {matched : Workers.LogEntry} (hkept : KeptSinceInstall manifests world worker)
    (hmatched : world.log[position]? = some matched)
    (hthread : world.threads[matched.thread]? = some ⟨.fetch worker request, rest⟩)
    {cache : ℕ} {relative : String} {found : Option FetchResponse}
    (hfound : matched.performed = ⟨.matchCache cache (site.resolve relative), found⟩)
    (hrelative : relative ∈ (precache (manifests worker)).urls)
    (hopened : ⟨.openCache (cacheName (precache (manifests worker))), some cache⟩ ∈
      Threads.trace (world.log.take position) matched.thread) :
    ∃ response, found = some response ∧ response.ok = true ∧
      GotFromNetwork manifests world (cacheName (precache (manifests worker)))
        (site.resolve relative) response := by
  obtain ⟨opening, opened, hlt, hopening, hsame, hopens⟩ :=
    Threads.exists_lt_of_mem_trace_take hopened
  have hprimed : PrimedBefore site manifests world worker cache opening :=
    primed_of_opened hphases hreaches hkept hopening (hsame ▸ hthread) hopens
  obtain ⟨adding, added, hltAdded, hadding, hadds⟩ := hprimed.added
  have hadded : added ∈ world.log.take position := by
    refine List.mem_of_getElem? (i := adding) ?_
    rw [List.getElem?_take_of_lt (by omega)]
    exact hadding
  obtain ⟨hhistory, hdoes⟩ := cacheHistory_before hreaches hmatched
  have hcached : found = matched.before.contents cache (site.resolve relative) := by
    obtain ⟨thread, before, call, result, after⟩ := matched
    cases hfound
    change before.Does site (.matchCache cache _) result after at hdoes
    cases hdoes with
    | matched _ _ => rfl
  obtain ⟨response, hresponse⟩ :=
    Option.isSome_iff_exists.mp (hhistory.added hadded (hadds relative hrelative)).2
  refine ⟨response, hcached.trans hresponse, ?_⟩
  rcases hhistory.stored hresponse with ⟨-, entry, hentry, hstores⟩ | ⟨-, hnone⟩
  · exact gotFromNetwork_of_stores hinitial hreaches (List.mem_of_mem_take hentry) hstores
      (List.mem_of_getElem? hopening) hopens
  · exact absurd (hadds relative hrelative) (hnone added hadded)

/-- What a request of a worker that was installed found for a URL of the manifest. -/
theorem matched_of_trace (hinitial : initial.WellFormed)
    (hphases : ∀ worker, initial.phase worker = .parsed)
    (hreaches : (Workers.automaton site manifests).Reaches (Threads.start initial) world)
    {worker : ℕ} {request : FetchRequest} {rest : WorkerHandler} {thread : ℕ}
    (hkept : KeptSinceInstall manifests world worker)
    (hthread : world.threads[thread]? = some ⟨.fetch worker request, rest⟩) {cache : ℕ}
    {relative : String} {found : Option FetchResponse}
    (hfound : ⟨.matchCache cache (site.resolve relative), found⟩ ∈
      Threads.trace world.log thread)
    (hrelative : relative ∈ (precache (manifests worker)).urls) :
    ∃ response, found = some response ∧ response.ok = true ∧
      GotFromNetwork manifests world (cacheName (precache (manifests worker)))
        (site.resolve relative) response := by
  obtain ⟨matched, hmem, hsame, hperformed⟩ := Threads.mem_trace_iff.mp hfound
  obtain ⟨matching, hmatched⟩ := List.getElem?_of_mem hmem
  subst hsame
  refine matched_of_primed hinitial hphases hreaches hkept hmatched hthread hperformed hrelative ?_
  obtain ⟨event, rest, next, hevent, hruns⟩ :=
    (Threads.consistent_of_reaches hreaches).runs_before hmatched
  rw [hthread] at hevent
  obtain ⟨rfl, -⟩ := Thread.mk.inj (Option.some.inj hevent)
  generalize Threads.trace (world.log.take matching) matched.thread = trace at hruns ⊢
  generalize hurl : site.resolve relative = url at hperformed
  obtain ⟨thread, before, call, result, after⟩ := matched
  cases hperformed
  cases serve_runs hruns with
  | navigation _ _ hstands =>
    cases hstands
    simp
  | resource _ _ hstands =>
    cases hstands
    simp

/-- Every response of success that the network gave to a worker of the version for a file of the
directory has its content. -/
def ServesDeploy (site : Site) (manifests : ℕ → Option Manifest) (outDir : Directory) (worker : ℕ)
    (world : Workers) : Prop :=
  ∀ file ∈ walk outDir, ∀ response, response.ok = true →
    GotFromNetwork manifests world (cacheName (precache (manifests worker)))
      (site.resolve ("./" ++ file.path)) response → response.body = file.content

/-! ### Requests that are answered -/

/-- The handler of a request that has begun can always make its next call, whatever the conditions
are; it makes at most six, and when it has ended the request was answered. -/
structure GetsAnswered (site : Site) (manifests : ℕ → Option Manifest) (world : Workers)
    (thread : ℕ) (rest : WorkerHandler) : Prop where
  ended : rest = .done () → ∃ answer, ⟨.respond answer, ()⟩ ∈ Threads.trace world.log thread
  moves : Threads.trace world.log thread ≠ [] → rest ≠ .done () → ∀ conditions, ∃ next,
    (Workers.automaton site manifests).step world (.resume thread conditions) = some next
  bounded : (Threads.trace world.log thread).length ≤ 6

/-- The calls that the browser performs whatever the conditions are. -/
def WorkerCall.IsFree : WorkerCall → Prop
  | .openCache _ | .matchCache .. | .fetch _ | .respond _ => True
  | .advance .. | .addAll .. | .cacheKeys | .deleteCache _ | .put .. => False

theorem exists_perform_of_isFree (browser : Browser) {call : WorkerCall} (hfree : call.IsFree)
    (conditions : Conditions) : ∃ next, browser.perform site call conditions = some next := by
  cases call with
  | openCache name =>
    rw [Browser.perform]
    split_ifs
    · exact ⟨_, rfl⟩
    · exact ⟨_, rfl⟩
  | matchCache cache url => exact ⟨_, rfl⟩
  | fetch request => exact ⟨_, rfl⟩
  | respond answer => exact ⟨_, rfl⟩
  | _ => exact hfree.elim

/-- A request that the worker serves is answered when each call of its handler after the first is
one of these. -/
theorem getsAnswered_of_isFree
    (hreaches : (Workers.automaton site manifests).Reaches (Threads.start initial) world)
    {worker : ℕ} {request : FetchRequest}
    (hserved : passesThrough site (manifests worker) request = false) {thread : ℕ}
    {rest : WorkerHandler}
    (hthread : world.threads[thread]? = some ⟨.fetch worker request, rest⟩)
    (hfree : ∀ call next, rest = .call call next → Threads.trace world.log thread ≠ [] →
      call.IsFree) :
    GetsAnswered site manifests world thread rest := by
  have hruns : (serve site worker (manifests worker) request).Runs
      (Threads.trace world.log thread) rest :=
    (Threads.consistent_of_reaches hreaches).runs hthread
  refine ⟨?_, ?_, hruns.length_le serve_atMost⟩
  · rintro rfl
    obtain ⟨⟨call, result⟩, hmem, answer, hcall⟩ := hruns.made (serve_makes hserved)
    cases hcall
    exact ⟨answer, hmem⟩
  · intro hbegun hrest conditions
    cases rest with
    | done answer => exact absurd rfl hrest
    | call call next =>
      obtain ⟨⟨shared, result⟩, hperform⟩ :=
        exists_perform_of_isFree world.shared (hfree call next rfl hbegun) conditions
      exact ⟨_, Threads.resume_eq_some_iff.mpr
        ⟨_, call, next, shared, result, hthread, hperform, rfl⟩⟩

/-! ### The sample deploy -/

/-- A worker in use keeps its cache, and the network gives its shell. -/
theorem installedOffline_meets : ∃ world,
    (Workers.automaton sampleSite sampleManifests).run (Threads.start sampleBrowser)
      installedOffline = some world ∧
    KeptSinceInstall sampleManifests world 0 ∧
    ServesDeploy sampleSite sampleManifests (oneFile indexHtml [0x41]) 0 world ∧
    world.threads.map Thread.request = [.install 0, .activate 0,
      .fetch 0 (visit "/chunk.js" false), .fetch 0 (visit "/index.html" false),
      .fetch 0 (visit "/notes" true)] ∧
    ⟨.respond (some ⟨200, [0x41]⟩), ()⟩ ∈ Threads.trace world.log 3 ∧
    ⟨.respond (some ⟨200, [0x41]⟩), ()⟩ ∈ Threads.trace world.log 4 := by
  have hend : ((Workers.automaton sampleSite sampleManifests).run (Threads.start sampleBrowser)
      installedOffline).map (fun world ↦ (world.threads.map Thread.request,
        world.log.flatMap fun entry ↦ networkAnswers entry.performed)) =
      some ([.install 0, .activate 0, .fetch 0 (visit "/chunk.js" false),
          .fetch 0 (visit "/index.html" false), .fetch 0 (visit "/notes" true)],
        [((visit "/index.html" false).url, ⟨200, [0x41]⟩),
          ((visit "/chunk.js" false).url, ⟨200, [0x63]⟩)]) := by
    decide +kernel
  have hcalls : ((Workers.automaton sampleSite sampleManifests).run (Threads.start sampleBrowser)
      installedOffline).map (fun world ↦
        ((Threads.trace world.log 3).getLast?, (Threads.trace world.log 4).getLast?)) =
      some (some ⟨.respond (some ⟨200, [0x41]⟩), ()⟩,
        some ⟨.respond (some ⟨200, [0x41]⟩), ()⟩) := by
    decide +kernel
  obtain ⟨world, hrun, hend⟩ := Option.map_eq_some_iff.mp hend
  obtain ⟨hrequests, hanswers⟩ := Prod.mk.inj hend
  rw [hrun] at hcalls
  obtain ⟨hresource, hnavigation⟩ := Prod.mk.inj (Option.some.inj hcalls)
  refine ⟨world, hrun, ?_, ?_, hrequests, List.mem_of_getLast? hresource,
    List.mem_of_getLast? hnavigation⟩
  · refine keptSinceInstall_of_activations (Automaton.reaches_of_run hrun) fun other hother ↦ ?_
    rw [hrequests] at hother
    have hsame : other = 0 := by simpa using hother
    rw [hsame]
  · rintro file hfile response - ⟨entry, hentry, -, -, -, -, hpair⟩
    have hgot : (sampleSite.resolve ("./" ++ file.path), response) ∈
        world.log.flatMap fun entry ↦ networkAnswers entry.performed :=
      List.mem_flatMap.mpr ⟨entry, hentry, hpair⟩
    rw [hanswers] at hgot
    have hfiles : walk (oneFile indexHtml [0x41]) = [⟨"index.html", [0x41]⟩] := by decide +kernel
    rw [hfiles] at hfile
    obtain rfl := List.mem_singleton.mp hfile
    rcases List.mem_cons.mp hgot with hshell | hchunk
    · rw [(Prod.mk.inj hshell).2]
    · have hurl := (Prod.mk.inj (List.mem_singleton.mp hchunk)).1
      exact absurd hurl (by decide +kernel)

/-- A thread with a request. -/
theorem exists_rest_of_request (thread : ℕ) {event : WorkerEvent}
    (hrequest : (world.threads.map Thread.request)[thread]? = some event) :
    ∃ rest, world.threads[thread]? = some ⟨event, rest⟩ := by
  rw [List.getElem?_map] at hrequest
  obtain ⟨⟨request, rest⟩, hthread, rfl⟩ := Option.map_eq_some_iff.mp hrequest
  exact ⟨rest, hthread⟩

/-! ### Files of the deploy -/

/-- The URL of an included file is one of the manifest. -/
theorem mem_urls_of_mem_walk {sha256Hex : Bytes → String} {outDir : Directory}
    {manifest : Option Manifest} (hmanifest : manifest = some (buildManifest sha256Hex outDir))
    {file : OutputFile} (hfile : file ∈ walk outDir) :
    "./" ++ file.path ∈ (precache manifest).urls := by
  have hsorted : file ∈ sortedFiles outDir := (List.mem_insertionSort _).mpr hfile
  rw [hmanifest]
  exact List.mem_map_of_mem hsorted

/-- Where the handler of a request stood when it made one of its calls. -/
theorem serveAt_of_mem_trace
    (hreaches : (Workers.automaton site manifests).Reaches (Threads.start initial) world)
    {worker : ℕ} {request : FetchRequest} {rest : WorkerHandler} {thread : ℕ}
    (hthread : world.threads[thread]? = some ⟨.fetch worker request, rest⟩)
    {performed : Workers.Performed} (hmem : performed ∈ Threads.trace world.log thread) :
    ∃ earlier, (∀ other ∈ earlier, other ∈ Threads.trace world.log thread) ∧
      ServeAt site worker (manifests worker) request earlier performed.1 := by
  have hruns := (Threads.consistent_of_reaches hreaches).runs hthread
  obtain ⟨earlier, later, htrace⟩ := List.append_of_mem hmem
  rw [htrace] at hruns
  obtain ⟨next, hbefore⟩ := hruns.before
  refine ⟨earlier, fun other hother ↦ ?_, serve_runs hbefore⟩
  rw [htrace]
  exact List.mem_append_left _ hother

/-- What a request is answered with when its worker has no cache: a network error. -/
def Unopened (world : Workers) (thread : ℕ) (name : String) (answer : Option FetchResponse) :
    Prop :=
  answer = none ∧ ⟨.openCache name, none⟩ ∈ Threads.trace world.log thread

/-- A file of the deploy. -/
def IsFile (file : OutputFile) (response : FetchResponse) : Prop :=
  response.ok = true ∧ response.body = file.content

/-- A worker finds each file of its deploy in its cache. -/
theorem isFile_of_trace {sha256Hex : Bytes → String} {outDir : Directory}
    (hinitial : initial.WellFormed) (hphases : ∀ worker, initial.phase worker = .parsed)
    (hreaches : (Workers.automaton site manifests).Reaches (Threads.start initial) world)
    {worker : ℕ} (hmanifest : manifests worker = some (buildManifest sha256Hex outDir))
    (hkept : KeptSinceInstall manifests world worker)
    (hserves : ServesDeploy site manifests outDir worker world)
    {file : OutputFile} (hfile : file ∈ walk outDir) {request : FetchRequest} {thread : ℕ}
    {rest : WorkerHandler} (hthread : world.threads[thread]? = some ⟨.fetch worker request, rest⟩)
    {cache : ℕ} {found : Option FetchResponse}
    (hmatched : ⟨.matchCache cache (site.resolve ("./" ++ file.path)), found⟩ ∈
      Threads.trace world.log thread) :
    ∃ response, found = some response ∧ IsFile file response := by
  obtain ⟨response, hresponse, hok, hgot⟩ := matched_of_trace hinitial hphases hreaches hkept
    hthread hmatched (mem_urls_of_mem_walk hmanifest hfile)
  exact ⟨response, hresponse, hok, hserves file hfile response hok hgot⟩

/-- An activated worker answers a request for a file of its deploy, unless it is a navigation,
without the network, with the content of the file, while its cache keeps the name; unless the cache
cannot be opened. Whatever the conditions are, its handler gets there in at most six calls. -/
theorem resource_from_cache {sha256Hex : Bytes → String} {outDir : Directory}
    (hinitial : initial.WellFormed) (hphases : ∀ worker, initial.phase worker = .parsed)
    (hreaches : (Workers.automaton site manifests).Reaches (Threads.start initial) world)
    {worker : ℕ} (hmanifest : manifests worker = some (buildManifest sha256Hex outDir))
    (hkept : KeptSinceInstall manifests world worker)
    (hserves : ServesDeploy site manifests outDir worker world)
    (file : OutputFile) (hfile : file ∈ walk outDir) {request : FetchRequest}
    (hurl : request.url = site.resolve ("./" ++ file.path)) (hnavigate : request.navigate = false)
    (hserved : passesThrough site (manifests worker) request = false) {thread : ℕ}
    {rest : WorkerHandler}
    (hthread : world.threads[thread]? = some ⟨.fetch worker request, rest⟩) :
    (∀ other fetched, ⟨.fetch other, fetched⟩ ∉ Threads.trace world.log thread) ∧
    (∀ answer, ⟨.respond answer, ()⟩ ∈ Threads.trace world.log thread →
      (∃ response, answer = some response ∧ IsFile file response) ∨
        Unopened world thread (cacheName (buildManifest sha256Hex outDir)) answer) ∧
    GetsAnswered site manifests world thread rest := by
  have hname : precache (manifests worker) = buildManifest sha256Hex outDir := by
    rw [hmanifest]
    rfl
  have hfound : ∀ cache found, ⟨.matchCache cache request.url, found⟩ ∈
      Threads.trace world.log thread → ∃ response, found = some response ∧
        IsFile file response := by
    intro cache found hmatched
    rw [hurl] at hmatched
    exact isFile_of_trace hinitial hphases hreaches hmanifest hkept hserves hfile hthread hmatched
  have hhits : ∀ cache, ⟨.matchCache cache request.url, none⟩ ∉
      Threads.trace world.log thread := by
    intro cache hmissed
    obtain ⟨response, hresponse, -⟩ := hfound cache none hmissed
    cases hresponse
  refine ⟨?_, ?_, ?_⟩
  · intro other fetched hmem
    obtain ⟨earlier, hearlier, hstands⟩ := serveAt_of_mem_trace hreaches hthread hmem
    cases hstands with
    | navigation _ hmode _ =>
      rw [hnavigate] at hmode
      cases hmode
    | resource _ _ hstands =>
      cases hstands with
      | miss cache => exact hhits cache (hearlier _ (by simp))
  · intro answer hmem
    obtain ⟨earlier, hearlier, hstands⟩ := serveAt_of_mem_trace hreaches hthread hmem
    rw [← hname]
    cases hstands with
    | navigation _ hmode _ =>
      rw [hnavigate] at hmode
      cases hmode
    | resource _ _ hstands =>
      cases hstands with
      | unopened => exact .inr ⟨rfl, hearlier _ (by simp)⟩
      | hit cache response => exact .inl (hfound cache _ (hearlier _ (by simp)))
      | fetched cache answer => exact absurd (hearlier _ (by simp)) (hhits cache)
  · refine getsAnswered_of_isFree hreaches hserved hthread ?_
    rintro call next rfl hbegun
    have hruns := (Threads.consistent_of_reaches hreaches).runs hthread
    generalize Threads.trace world.log thread = trace at hruns hbegun hhits
    cases serve_runs hruns with
    | dispatching => exact absurd rfl hbegun
    | navigation _ hmode _ =>
      rw [hnavigate] at hmode
      cases hmode
    | resource _ _ hstands =>
      cases hstands with
      | settled cache response _ => exact absurd (by simp) (hhits cache)
      | _ => trivial

/-- The shell is served without network. -/
theorem resource_from_cache_shell : ∃ world rest,
    (Workers.automaton sampleSite sampleManifests).run (Threads.start sampleBrowser)
      installedOffline = some world ∧
    ⟨.respond (some ⟨200, [0x41]⟩), ()⟩ ∈ Threads.trace world.log 3 ∧
    (∀ other fetched, ⟨.fetch other, fetched⟩ ∉ Threads.trace world.log 3) ∧
    GetsAnswered sampleSite sampleManifests world 3 rest := by
  obtain ⟨world, hrun, hkept, hserves, hrequests, hresource, -⟩ := installedOffline_meets
  obtain ⟨rest, hthread⟩ := exists_rest_of_request 3 (congrArg (·[3]?) hrequests)
  obtain ⟨hoffline, -, hanswered⟩ := resource_from_cache wellFormed_sampleBrowser (fun _ ↦ rfl)
    (Automaton.reaches_of_run hrun) rfl hkept hserves ⟨"index.html", [0x41]⟩ (by decide +kernel)
    (by decide +kernel) rfl (by decide +kernel) hthread
  exact ⟨world, rest, hrun, hresource, hoffline, hanswered⟩

/-- What a navigation is answered with: the page of the server, when that is a success or a 404, and
else the shell. -/
inductive AnswersNavigation (shell : OutputFile) :
    Option FetchResponse → Option FetchResponse → Prop
  | page {response : FetchResponse} (hfresh : response.ok = true ∨ response.status = 404) :
      AnswersNavigation shell (some response) (some response)
  | shell {fetched : Option FetchResponse} {response : FetchResponse}
      (hstale : ∀ page, fetched = some page → ¬ (page.ok = true ∨ page.status = 404))
      (hshell : IsFile shell response) : AnswersNavigation shell fetched (some response)

/-- An activated worker answers a navigation with the page of the server, when that is a success or
a 404, and else with the shell of its deploy, while its cache keeps the name; unless the cache
cannot be opened. Whatever the conditions are, its handler gets there in at most six calls. -/
theorem navigation_answered {sha256Hex : Bytes → String} {outDir : Directory}
    (hinitial : initial.WellFormed) (hphases : ∀ worker, initial.phase worker = .parsed)
    (hreaches : (Workers.automaton site manifests).Reaches (Threads.start initial) world)
    {worker : ℕ} (hmanifest : manifests worker = some (buildManifest sha256Hex outDir))
    (hkept : KeptSinceInstall manifests world worker)
    (hserves : ServesDeploy site manifests outDir worker world)
    (shell : OutputFile) (hshell : shell ∈ walk outDir) (hpath : shell.path = "index.html")
    {request : FetchRequest} (hnavigate : request.navigate = true)
    (hserved : passesThrough site (manifests worker) request = false) {thread : ℕ}
    {rest : WorkerHandler}
    (hthread : world.threads[thread]? = some ⟨.fetch worker request, rest⟩) :
    (∀ answer, ⟨.respond answer, ()⟩ ∈ Threads.trace world.log thread →
      (∃ fetched, ⟨.fetch request, fetched⟩ ∈ Threads.trace world.log thread ∧
        AnswersNavigation shell fetched answer) ∨
      Unopened world thread (cacheName (buildManifest sha256Hex outDir)) answer) ∧
    GetsAnswered site manifests world thread rest := by
  have hname : precache (manifests worker) = buildManifest sha256Hex outDir := by
    rw [hmanifest]
    rfl
  have hurl : site.resolve ("./" ++ shell.path) = site.resolve shellUrl := by
    rw [hpath]
    rfl
  have hfound : ∀ cache found, ⟨.matchCache cache (site.resolve shellUrl), found⟩ ∈
      Threads.trace world.log thread → ∃ response, found = some response ∧
        IsFile shell response := by
    intro cache found hmatched
    rw [← hurl] at hmatched
    exact isFile_of_trace hinitial hphases hreaches hmanifest hkept hserves hshell hthread hmatched
  constructor
  · intro answer hmem
    obtain ⟨earlier, hearlier, hstands⟩ := serveAt_of_mem_trace hreaches hthread hmem
    rw [← hname]
    cases hstands with
    | resource _ hmode _ =>
      rw [hnavigate] at hmode
      cases hmode
    | navigation _ _ hstands =>
      cases hstands with
      | unopened => exact .inr ⟨rfl, hearlier _ (by simp)⟩
      | fresh cache response hfresh =>
        exact .inl ⟨some response, hearlier _ (by simp), .page hfresh⟩
      | shell cache fetched found hstale =>
        obtain ⟨response, rfl, hfile⟩ := hfound cache found (hearlier _ (by simp))
        exact .inl ⟨fetched, hearlier _ (by simp), .shell hstale hfile⟩
  · refine getsAnswered_of_isFree hreaches hserved hthread ?_
    rintro call next rfl hbegun
    have hruns := (Threads.consistent_of_reaches hreaches).runs hthread
    generalize Threads.trace world.log thread = trace at hruns hbegun
    cases serve_runs hruns with
    | dispatching => exact absurd rfl hbegun
    | resource _ hmode _ =>
      rw [hnavigate] at hmode
      cases hmode
    | navigation _ _ hstands => cases hstands <;> trivial

/-- A navigation without network gets the shell. -/
theorem navigation_answered_offline : ∃ world rest,
    (Workers.automaton sampleSite sampleManifests).run (Threads.start sampleBrowser)
      installedOffline = some world ∧
    (∃ fetched, ⟨.fetch (visit "/notes" true), fetched⟩ ∈ Threads.trace world.log 4 ∧
      AnswersNavigation ⟨"index.html", [0x41]⟩ fetched (some ⟨200, [0x41]⟩)) ∧
    GetsAnswered sampleSite sampleManifests world 4 rest := by
  obtain ⟨world, hrun, hkept, hserves, hrequests, -, hnavigation⟩ := installedOffline_meets
  obtain ⟨rest, hthread⟩ := exists_rest_of_request 4 (congrArg (·[4]?) hrequests)
  obtain ⟨hanswers, hanswered⟩ := navigation_answered wellFormed_sampleBrowser (fun _ ↦ rfl)
    (Automaton.reaches_of_run hrun) rfl hkept hserves ⟨"index.html", [0x41]⟩ (by decide +kernel)
    rfl rfl (by decide +kernel) hthread
  refine ⟨world, rest, hrun, ?_, hanswered⟩
  rcases hanswers _ hnavigation with hpage | ⟨hnone, -⟩
  · exact hpage
  · cases hnone

/-! ### After an activation -/

/-- A name that has a cache had it after any earlier call, or was opened since. -/
def NamedSince (browser : Browser) (log : List Workers.LogEntry) : Prop :=
  ∀ (position : ℕ) (entry : Workers.LogEntry) (name : String), log[position]? = some entry →
    (browser.caches.get? name).isSome = true → (entry.after.caches.get? name).isSome = true ∨
      ∃ (later : ℕ) (opened : Workers.LogEntry), position < later ∧ log[later]? = some opened ∧
        opened.call = .openCache name

theorem NamedSince.call {browser next : Browser} {log : List Workers.LogEntry}
    {call : WorkerCall} {result : call.Result} (thread : ℕ) (hnamed : NamedSince browser log)
    (hdoes : browser.Does site call result next) :
    NamedSince next (log ++ [⟨thread, browser, call, result, next⟩]) := by
  intro position entry name hentry hcached
  rcases Threads.getElem?_concat_iff.mp hentry with hold | ⟨-, rfl⟩
  · have hcases : (browser.caches.get? name).isSome = true ∨ call = .openCache name := by
      cases hdoes with
      | opened other =>
        rw [Browser.get?_openCache] at hcached
        split_ifs at hcached with hsame
        · exact .inr (hsame ▸ rfl)
        · exact .inl hcached
      | deleted other =>
        change ((browser.caches.erase other).get? name).isSome = true at hcached
        rw [OrderedMap.get?_erase] at hcached
        split_ifs at hcached
        · cases hcached
        · exact .inl hcached
      | _ => exact .inl hcached
    rcases hcases with hbefore | hopens
    · rcases hnamed position entry name hold hbefore with
        hafter | ⟨later, opened, hlt, hopened, hcall⟩
      · exact .inl hafter
      · exact .inr ⟨later, opened, hlt, Threads.getElem?_concat_iff.mpr (.inl hopened), hcall⟩
    · exact .inr ⟨log.length, _, (List.getElem?_eq_some_iff.mp hold).1,
        Threads.getElem?_concat_iff.mpr (.inr ⟨rfl, rfl⟩), hopens⟩
  · exact .inl hcached

theorem namedSince_before
    (hreaches : (Workers.automaton site manifests).Reaches (Threads.start initial) world)
    {position : ℕ} {entry : Workers.LogEntry} (hentry : world.log[position]? = some entry) :
    NamedSince entry.before (world.log.take position) := by
  refine (Threads.shared_invariant_before hreaches NamedSince ?_ ?_ ?_ position entry hentry).1
  · intro position entry name hentry
    simp at hentry
  · intro browser log conditions next _ helapse
    cases helapse
  · intro browser log thread call conditions next result hnamed hperform
    exact hnamed.call thread (Browser.does_of_perform hperform)

/-- What the deletions of a list of names did before a program ends. -/
theorem deleteAll_ended {program : WorkerHandler} {names : List String}
    {trace : List Workers.Performed} {last : WorkerCall} {next : last.Result → WorkerHandler}
    (hlast : ∀ name, last ≠ .deleteCache name)
    (hruns : (deleteAll program names).Runs trace (.call last next)) :
    ∀ name ∈ names, ∃ deleted : Bool, ⟨.deleteCache name, deleted⟩ ∈ trace := by
  induction names generalizing trace with
  | nil => exact List.forall_mem_nil _
  | cons first rest ih =>
    rcases hruns.atCall with ⟨-, hcall⟩ | ⟨deleted, later, htrace, hdeleted⟩
    · exact absurd hcall (hlast first)
    · rw [List.forall_mem_cons, htrace]
      refine ⟨⟨deleted, List.mem_cons_self⟩, fun name hname ↦ ?_⟩
      obtain ⟨result, hmem⟩ := ih hdeleted name hname
      exact ⟨result, List.mem_cons_of_mem _ hmem⟩

/-- An activation advances its own worker. -/
theorem activate_advances {worker other : ℕ} {manifest : Option Manifest}
    {trace : List Workers.Performed} {transition : Transition}
    {next : (WorkerCall.advance other transition).Result → WorkerHandler}
    (hruns : (activate worker manifest).Runs trace (.call (.advance other transition) next)) :
    worker = other := by
  cases activate_runs hruns with
  | advance _ _ => rfl

/-- An activation that ends has asked for the names and has deleted the stale ones. -/
theorem activate_ended {worker : ℕ} {manifest : Option Manifest} {trace : List Workers.Performed}
    {next : (WorkerCall.advance worker .activated).Result → WorkerHandler}
    (hruns : (activate worker manifest).Runs trace (.call (.advance worker .activated) next)) :
    ∃ keys : List String, ⟨.cacheKeys, keys⟩ ∈ trace ∧ ∀ name ∈ staleKeys manifest keys,
      ∃ deleted : Bool, ⟨.deleteCache name, deleted⟩ ∈ trace := by
  unfold activate at hruns
  rcases hruns.atCall with ⟨-, hcall⟩ | ⟨begun, rest, rfl, hbegun⟩
  · cases hcall
  rcases hbegun.atCall with ⟨-, hcall⟩ | ⟨keys, rest, rfl, hkeys⟩
  · cases hcall
  refine ⟨keys, by simp, fun name hname ↦ ?_⟩
  obtain ⟨deleted, hmem⟩ := deleteAll_ended (by simp) hkeys name hname
  exact ⟨deleted, by simp [hmem]⟩

/-- An activation deletes only after it has asked for the names. -/
theorem listed_of_deletes {worker : ℕ} {manifest : Option Manifest}
    {trace : List Workers.Performed} {name : String}
    {next : (WorkerCall.deleteCache name).Result → WorkerHandler}
    (hruns : (activate worker manifest).Runs trace (.call (.deleteCache name) next)) :
    ∃ keys : List String, ⟨.cacheKeys, keys⟩ ∈ trace := by
  unfold activate at hruns
  rcases hruns.atCall with ⟨-, hcall⟩ | ⟨begun, rest, rfl, hbegun⟩
  · cases hcall
  rcases hbegun.atCall with ⟨-, hcall⟩ | ⟨keys, rest, rfl, hkeys⟩
  · cases hcall
  exact ⟨keys, by simp⟩

/-- When a worker becomes active, the caches with the prefix are its own, and those that were opened
after its activation asked for the names. -/
theorem own_cache_of_activated
    (hreaches : (Workers.automaton site manifests).Reaches (Threads.start initial) world)
    {worker position : ℕ} {entry : Workers.LogEntry} (hentry : world.log[position]? = some entry)
    (hactivated : entry.performed = ⟨.advance worker .activated, ()⟩) {name : String}
    (hbegins : hasCachePrefix name = true)
    (hnamed : (entry.before.caches.get? name).isSome = true) :
    name = cacheName (precache (manifests worker)) ∨
      ∃ listed listing later opened, listed < later ∧ later < position ∧
        world.log[listed]? = some listing ∧ listing.thread = entry.thread ∧
        listing.call = .cacheKeys ∧ world.log[later]? = some opened ∧
        opened.call = .openCache name := by
  by_cases hown : name = cacheName (precache (manifests worker))
  · exact .inl hown
  refine .inr ?_
  have hconsistent := Threads.consistent_of_reaches hreaches
  have hsince := namedSince_before hreaches hentry
  obtain ⟨event, rest, next, hthread, hruns⟩ := hconsistent.runs_before hentry
  -- the activation listed the names and deleted the stale ones
  have hended : event = .activate worker ∧ ∃ keys : List String,
      ⟨.cacheKeys, keys⟩ ∈ Threads.trace (world.log.take position) entry.thread ∧
      ∀ name ∈ staleKeys (manifests worker) keys, ∃ deleted : Bool,
        ⟨.deleteCache name, deleted⟩ ∈ Threads.trace (world.log.take position) entry.thread := by
    generalize Threads.trace (world.log.take position) entry.thread = trace at hruns ⊢
    obtain ⟨thread, before, call, result, after⟩ := entry
    cases hactivated
    cases event with
    | install other => cases install_runs hruns
    | activate other =>
      have hsame : other = worker := activate_advances hruns
      subst hsame
      exact ⟨rfl, activate_ended hruns⟩
    | fetch other request =>
      cases serve_runs hruns with
      | navigation _ _ hstands => cases hstands
      | resource _ _ hstands => cases hstands
  obtain ⟨rfl, keys, hlisted, hdeleted⟩ := hended
  obtain ⟨listed, listing, hlt, hlisting, hsame, hperformed⟩ :=
    Threads.exists_lt_of_mem_trace_take hlisted
  by_cases hmem : name ∈ keys
  · -- the name was deleted, and opened after that
    have hstale : name ∈ staleKeys (manifests worker) keys := by
      refine List.mem_filter.mpr ⟨hmem, ?_⟩
      rw [hbegins, Bool.true_and, decide_eq_true_eq]
      exact hown
    obtain ⟨result, hdeletes⟩ := hdeleted name hstale
    obtain ⟨deleting, deletion, hltDeleting, hdeletion, hsameDeletion, hperformedDeletion⟩ :=
      Threads.exists_lt_of_mem_trace_take hdeletes
    obtain ⟨event, others, next, hevent, hrunsDeletion⟩ := hconsistent.runs_before hdeletion
    rw [hsameDeletion, hthread] at hevent
    obtain ⟨rfl, -⟩ := Thread.mk.inj (Option.some.inj hevent)
    have hbefore : (world.log.take position)[deleting]? = some deletion := by
      rw [List.getElem?_take_of_lt hltDeleting]
      exact hdeletion
    rcases hsince deleting deletion name hbefore hnamed with hafter | ⟨later, opened, hlater,
      hopened, hcall⟩
    · have hdoes := (cacheHistory_before hreaches hdeletion).2
      have hgone : deletion.after.caches.get? name = none := by
        obtain ⟨thread, before, call, result, after⟩ := deletion
        cases hperformedDeletion
        change before.Does site (.deleteCache name) _ after at hdoes
        cases hdoes with
        | deleted _ => exact OrderedMap.get?_erase_self _ _
      rw [hgone] at hafter
      cases hafter
    · have hasked : ∃ keys : List String, ⟨.cacheKeys, keys⟩ ∈
          Threads.trace (world.log.take deleting) deletion.thread := by
        generalize Threads.trace (world.log.take deleting) deletion.thread = trace
          at hrunsDeletion ⊢
        obtain ⟨thread, before, call, result, after⟩ := deletion
        cases hperformedDeletion
        exact listed_of_deletes hrunsDeletion
      obtain ⟨keys, hasked⟩ := hasked
      obtain ⟨first, asked, hfirst, hgot, hsameAsked, hasks⟩ :=
        Threads.exists_lt_of_mem_trace_take hasked
      have hin := getElem?_of_take hopened
      exact ⟨first, asked, later, opened, by omega, hin.1, hgot, hsameAsked.trans hsameDeletion,
        congrArg Sigma.fst hasks, hin.2, hcall⟩
  · -- the name had no cache when the names were listed
    have hbefore : (world.log.take position)[listed]? = some listing := by
      rw [List.getElem?_take_of_lt hlt]
      exact hlisting
    rcases hsince listed listing name hbefore hnamed with hafter | ⟨later, opened, hlater,
      hopened, hcall⟩
    · have hdoes := (cacheHistory_before hreaches hlisting).2
      have hall : keys = listing.after.caches.keys := by
        obtain ⟨thread, before, call, result, after⟩ := listing
        cases hperformed
        change before.Does site .cacheKeys _ after at hdoes
        cases hdoes with
        | listed => rfl
      rw [OrderedMap.get?_isSome_iff, ← hall] at hafter
      exact absurd hafter hmem
    · have hin := getElem?_of_take hopened
      exact ⟨listed, listing, later, opened, hlater, hin.1, hlisting, hsame,
        congrArg Sigma.fst hperformed, hin.2, hcall⟩

/-- The calls of the installation and the activation before it ends. -/
def beforeActivated : List WorkerCall :=
  [.advance 0 .install, .openCache "opfs-shell-cd324f37fb171efd", .addAll 2 ["./index.html"],
    .advance 0 .installed, .advance 0 .activate, .cacheKeys, .deleteCache "opfs-shell-old"]

/-- The cache of the activated worker is its own: none was opened after the names were listed. -/
theorem own_cache_of_activated_sample : ∃ world entry,
    (Workers.automaton sampleSite sampleManifests).run (Threads.start sampleBrowser)
      installedOffline = some world ∧ world.log[7]? = some entry ∧
    (entry.before.caches.get? "opfs-shell-cd324f37fb171efd").isSome = true ∧
    "opfs-shell-cd324f37fb171efd" = cacheName (precache (sampleManifests 0)) := by
  have hend : ((Workers.automaton sampleSite sampleManifests).run (Threads.start sampleBrowser)
      installedOffline).bind (fun world ↦ world.log[7]?.map fun entry ↦
        (entry.performed, entry.before.caches.keys, (world.log.map Entry.call).take 7)) =
      some (⟨.advance 0 .activated, ()⟩, ["map-tiles", "opfs-shell-cd324f37fb171efd"],
        beforeActivated) := by
    decide +kernel
  obtain ⟨world, hrun, hend⟩ := Option.bind_eq_some_iff.mp hend
  obtain ⟨entry, hentry, hend⟩ := Option.map_eq_some_iff.mp hend
  obtain ⟨hperformed, hend⟩ := Prod.mk.inj hend
  obtain ⟨hkeys, hcalls⟩ := Prod.mk.inj hend
  have hnamed : (entry.before.caches.get? "opfs-shell-cd324f37fb171efd").isSome = true := by
    rw [OrderedMap.get?_isSome_iff, hkeys]
    decide
  refine ⟨world, entry, hrun, hentry, hnamed, ?_⟩
  rcases own_cache_of_activated (Automaton.reaches_of_run hrun) hentry hperformed
    (by decide +kernel) hnamed with hown | ⟨listed, listing, later, opened, hlt, hbefore, hlisting,
      -, hlists, hopened, hopens⟩
  · exact hown
  · have hcall : ∀ position < 7, ∀ {entry : Workers.LogEntry}, world.log[position]? = some entry →
        beforeActivated[position]? = some entry.call := by
      intro position hposition entry hentry
      rw [← hcalls, List.getElem?_take_of_lt hposition, List.getElem?_map, hentry]
      rfl
    have hnone : ∀ later < 7, ∀ listed < later, beforeActivated[listed]? = some .cacheKeys →
        beforeActivated[later]? ≠ some (.openCache "opfs-shell-cd324f37fb171efd") := by
      decide +kernel
    have hlisted := hcall listed (hlt.trans hbefore) hlisting
    rw [hlists] at hlisted
    have hreopened := hcall later hbefore hopened
    rw [hopens] at hreopened
    exact absurd hreopened (hnone later hbefore listed hlt hlisted)

end OpfsWebauthn.Deploy
