import OpfsWebauthn.Deploy.ServiceWorker

/-!
# What the caches hold

Where each handler of the service worker stands when it makes a call (`install_runs`,
`activate_runs`, `serve_runs`), and what follows for the caches in every state reached:
`cacheHistory_of_reaches` says where a cached response comes from, and that an opened cache stays
under its name until that name is deleted.

From these, no response of the API is ever in a cache (`includesApi_of_cached`), and the caches of
other applications of the origin stay as they are (`foreign_of_reaches`).
-/

set_option autoImplicit false
set_option relaxedAutoImplicit false

namespace OpfsWebauthn.Deploy

open Foundation Storage

/-! ### Where the handlers stand -/

section Handlers

variable {site : Site} {worker : ℕ} {manifest : Option Manifest} {request : FetchRequest}
  {call : WorkerCall} {next : call.Result → WorkerHandler} {trace : List Workers.Performed}

/-- The calls that an installation has made, and the call that it is about to make. -/
inductive InstallAt (worker : ℕ) (manifest : Option Manifest) :
    List Workers.Performed → WorkerCall → Prop
  | parsed : InstallAt worker manifest [] (.advance worker .install)
  | installing : InstallAt worker manifest [⟨.advance worker .install, ()⟩]
      (.openCache (cacheName (precache manifest)))
  | unopened : InstallAt worker manifest [⟨.advance worker .install, ()⟩,
      ⟨.openCache (cacheName (precache manifest)), none⟩] (.advance worker .failed)
  | opened (cache : ℕ) : InstallAt worker manifest [⟨.advance worker .install, ()⟩,
      ⟨.openCache (cacheName (precache manifest)), some cache⟩]
      (.addAll cache (precache manifest).urls)
  | notAdded (cache : ℕ) : InstallAt worker manifest [⟨.advance worker .install, ()⟩,
      ⟨.openCache (cacheName (precache manifest)), some cache⟩,
      ⟨.addAll cache (precache manifest).urls, none⟩] (.advance worker .failed)
  | added (cache : ℕ) (pairs : List (Url × FetchResponse)) :
      InstallAt worker manifest [⟨.advance worker .install, ()⟩,
        ⟨.openCache (cacheName (precache manifest)), some cache⟩,
        ⟨.addAll cache (precache manifest).urls, some pairs⟩] (.advance worker .installed)

theorem install_runs
    (hruns : (install worker manifest).Runs trace (.call call next)) :
    InstallAt worker manifest trace call := by
  unfold install at hruns
  rcases hruns.atCall with ⟨rfl, rfl⟩ | ⟨begun, rest, rfl, hbegun⟩
  · exact .parsed
  rcases hbegun.atCall with ⟨rfl, rfl⟩ | ⟨opened, rest, rfl, hopened⟩
  · exact .installing
  cases opened with
  | none =>
    rcases hopened.atCall with ⟨rfl, rfl⟩ | ⟨failed, rest, rfl, hfailed⟩
    · exact .unopened
    · cases (Program.runs_done_iff.mp hfailed).2
  | some cache =>
    rcases hopened.atCall with ⟨rfl, rfl⟩ | ⟨added, rest, rfl, hadded⟩
    · exact .opened cache
    cases added with
    | none =>
      rcases hadded.atCall with ⟨rfl, rfl⟩ | ⟨failed, rest, rfl, hfailed⟩
      · exact .notAdded cache
      · cases (Program.runs_done_iff.mp hfailed).2
    | some pairs =>
      rcases hadded.atCall with ⟨rfl, rfl⟩ | ⟨failed, rest, rfl, hfailed⟩
      · exact .added cache pairs
      · cases (Program.runs_done_iff.mp hfailed).2

/-- An activation advances its worker, asks for the names of the caches, and deletes stale ones. -/
inductive ActivateAt (worker : ℕ) (manifest : Option Manifest) : WorkerCall → Prop
  | advance (transition : Transition) (htransition : transition ≠ .installed) :
      ActivateAt worker manifest (.advance worker transition)
  | keys : ActivateAt worker manifest .cacheKeys
  | delete (name : String) (hbegins : hasCachePrefix name = true)
      (hother : name ≠ cacheName (precache manifest)) :
      ActivateAt worker manifest (.deleteCache name)

theorem deleteAll_runs {program : WorkerHandler} {names : List String}
    (hnames : ∀ name ∈ names, hasCachePrefix name = true ∧ name ≠ cacheName (precache manifest))
    (hprogram : ∀ trace, program.Runs trace (.call call next) → ActivateAt worker manifest call)
    (hruns : (deleteAll program names).Runs trace (.call call next)) :
    ActivateAt worker manifest call := by
  induction names generalizing trace with
  | nil => exact hprogram trace hruns
  | cons name rest ih =>
    rw [List.forall_mem_cons] at hnames
    rcases hruns.atCall with ⟨-, rfl⟩ | ⟨deleted, later, -, hdeleted⟩
    · exact .delete name hnames.1.1 hnames.1.2
    · exact ih hnames.2 hdeleted

theorem activate_runs
    (hruns : (activate worker manifest).Runs trace (.call call next)) :
    ActivateAt worker manifest call := by
  unfold activate at hruns
  rcases hruns.atCall with ⟨-, rfl⟩ | ⟨begun, rest, -, hbegun⟩
  · exact .advance .activate (by decide)
  rcases hbegun.atCall with ⟨-, rfl⟩ | ⟨keys, rest, -, hkeys⟩
  · exact .keys
  refine deleteAll_runs ?_ ?_ hkeys
  · intro name hname
    have hkept := (List.mem_filter.mp hname).2
    rw [Bool.and_eq_true, decide_eq_true_eq] at hkept
    exact hkept
  · intro trace hkeys
    rcases hkeys.atCall with ⟨-, rfl⟩ | ⟨ended, rest, -, hended⟩
    · exact .advance .activated (by decide)
    · cases (Program.runs_done_iff.mp hended).2

/-- The calls that a navigation has made, and the call that it is about to make. -/
inductive NavigationAt (site : Site) (manifest : Option Manifest) (request : FetchRequest) :
    List Workers.Performed → WorkerCall → Prop
  | opening : NavigationAt site manifest request [] (.openCache (cacheName (precache manifest)))
  | unopened : NavigationAt site manifest request
      [⟨.openCache (cacheName (precache manifest)), none⟩] (.respond none)
  | opened (cache : ℕ) : NavigationAt site manifest request
      [⟨.openCache (cacheName (precache manifest)), some cache⟩] (.fetch request)
  | fresh (cache : ℕ) (response : FetchResponse)
      (hfresh : response.ok = true ∨ response.status = 404) : NavigationAt site manifest request
      [⟨.openCache (cacheName (precache manifest)), some cache⟩, ⟨.fetch request, some response⟩]
      (.respond (some response))
  | fallback (cache : ℕ) (fetched : Option FetchResponse)
      (hstale : ∀ response, fetched = some response → ¬ (response.ok = true ∨
        response.status = 404)) : NavigationAt site manifest request
      [⟨.openCache (cacheName (precache manifest)), some cache⟩, ⟨.fetch request, fetched⟩]
      (.matchCache cache (site.resolve shellUrl))
  | shell (cache : ℕ) (fetched shell : Option FetchResponse)
      (hstale : ∀ response, fetched = some response → ¬ (response.ok = true ∨
        response.status = 404)) : NavigationAt site manifest request
      [⟨.openCache (cacheName (precache manifest)), some cache⟩, ⟨.fetch request, fetched⟩,
        ⟨.matchCache cache (site.resolve shellUrl), shell⟩]
      (.respond (some (shell.getD (fetched.getD offlineResponse))))

/-- A handler that settles and is done is about to settle. -/
theorem settleWith_runs {answer : Option FetchResponse}
    (hruns : (settleWith answer (.done ())).Runs trace (.call call next)) :
    trace = [] ∧ call = .respond answer := by
  rcases hruns.atCall with ⟨rfl, rfl⟩ | ⟨settled, rest, rfl, hsettled⟩
  · exact ⟨rfl, rfl⟩
  · cases (Program.runs_done_iff.mp hsettled).2

theorem navigationStrategy_runs
    (hruns : (navigationStrategy site manifest request).Runs trace (.call call next)) :
    NavigationAt site manifest request trace call := by
  unfold navigationStrategy at hruns
  rcases hruns.atCall with ⟨rfl, rfl⟩ | ⟨opened, rest, rfl, hopened⟩
  · exact .opening
  cases opened with
  | none =>
    obtain ⟨rfl, rfl⟩ := settleWith_runs hopened
    exact .unopened
  | some cache =>
    rcases hopened.atCall with ⟨rfl, rfl⟩ | ⟨fetched, rest, rfl, hfetched⟩
    · exact .opened cache
    cases fetched with
    | none =>
      have hstale : ∀ response : FetchResponse, none = some response →
          ¬ (response.ok = true ∨ response.status = 404) := nofun
      rcases hfetched.atCall with ⟨rfl, rfl⟩ | ⟨shell, rest, rfl, hshell⟩
      · exact .fallback cache none hstale
      · obtain ⟨rfl, rfl⟩ := settleWith_runs hshell
        exact .shell cache none shell hstale
    | some response =>
      dsimp only at hfetched
      split_ifs at hfetched with hfresh
      · obtain ⟨rfl, rfl⟩ := settleWith_runs hfetched
        rw [Bool.or_eq_true, decide_eq_true_eq] at hfresh
        exact .fresh cache response hfresh
      · rw [Bool.or_eq_true, decide_eq_true_eq] at hfresh
        have hstale : ∀ other, some response = some other →
            ¬ (other.ok = true ∨ other.status = 404) := by
          intro other hsame
          rw [← Option.some.inj hsame]
          exact hfresh
        rcases hfetched.atCall with ⟨rfl, rfl⟩ | ⟨shell, rest, rfl, hshell⟩
        · exact .fallback cache (some response) hstale
        · obtain ⟨rfl, rfl⟩ := settleWith_runs hshell
          exact .shell cache (some response) shell hstale

/-- The calls that a request for another resource has made, and the call that it is about to
make. -/
inductive CacheFirstAt (manifest : Option Manifest) (request : FetchRequest) :
    List Workers.Performed → WorkerCall → Prop
  | opening : CacheFirstAt manifest request [] (.openCache (cacheName (precache manifest)))
  | unopened : CacheFirstAt manifest request
      [⟨.openCache (cacheName (precache manifest)), none⟩] (.respond none)
  | opened (cache : ℕ) : CacheFirstAt manifest request
      [⟨.openCache (cacheName (precache manifest)), some cache⟩] (.matchCache cache request.url)
  | hit (cache : ℕ) (response : FetchResponse) : CacheFirstAt manifest request
      [⟨.openCache (cacheName (precache manifest)), some cache⟩,
        ⟨.matchCache cache request.url, some response⟩] (.respond (some response))
  | miss (cache : ℕ) : CacheFirstAt manifest request
      [⟨.openCache (cacheName (precache manifest)), some cache⟩,
        ⟨.matchCache cache request.url, none⟩] (.fetch request)
  | fetched (cache : ℕ) (answer : Option FetchResponse) : CacheFirstAt manifest request
      [⟨.openCache (cacheName (precache manifest)), some cache⟩,
        ⟨.matchCache cache request.url, none⟩, ⟨.fetch request, answer⟩] (.respond answer)
  | settled (cache : ℕ) (response : FetchResponse) (hok : response.ok = true) :
      CacheFirstAt manifest request [⟨.openCache (cacheName (precache manifest)), some cache⟩,
        ⟨.matchCache cache request.url, none⟩, ⟨.fetch request, some response⟩,
        ⟨.respond (some response), ()⟩] (.put cache request.url response)

theorem cacheFirst_runs
    (hruns : (cacheFirst manifest request).Runs trace (.call call next)) :
    CacheFirstAt manifest request trace call := by
  unfold cacheFirst at hruns
  rcases hruns.atCall with ⟨rfl, rfl⟩ | ⟨opened, rest, rfl, hopened⟩
  · exact .opening
  cases opened with
  | none =>
    obtain ⟨rfl, rfl⟩ := settleWith_runs hopened
    exact .unopened
  | some cache =>
    rcases hopened.atCall with ⟨rfl, rfl⟩ | ⟨cached, rest, rfl, hcached⟩
    · exact .opened cache
    cases cached with
    | some response =>
      obtain ⟨rfl, rfl⟩ := settleWith_runs hcached
      exact .hit cache response
    | none =>
      rcases hcached.atCall with ⟨rfl, rfl⟩ | ⟨fetched, rest, rfl, hfetched⟩
      · exact .miss cache
      cases fetched with
      | none =>
        obtain ⟨rfl, rfl⟩ := settleWith_runs hfetched
        exact .fetched cache none
      | some response =>
        rcases hfetched.atCall with ⟨rfl, rfl⟩ | ⟨settled, rest, rfl, hsettled⟩
        · exact .fetched cache (some response)
        split_ifs at hsettled with hok
        · rcases hsettled.atCall with ⟨rfl, rfl⟩ | ⟨stored, rest, rfl, hstored⟩
          · exact .settled cache response hok
          · cases (Program.runs_done_iff.mp hstored).2
        · cases (Program.runs_done_iff.mp hsettled).2

/-- The calls that a request has made, and the call that it is about to make. -/
inductive ServeAt (site : Site) (worker : ℕ) (manifest : Option Manifest) (request : FetchRequest) :
    List Workers.Performed → WorkerCall → Prop
  | dispatching : ServeAt site worker manifest request [] (.advance worker .dispatch)
  | navigation {trace : List Workers.Performed} {call : WorkerCall}
      (hroutes : passesThrough site manifest request = false) (hnavigate : request.navigate = true)
      (hstands : NavigationAt site manifest request trace call) :
      ServeAt site worker manifest request (⟨.advance worker .dispatch, ()⟩ :: trace) call
  | resource {trace : List Workers.Performed} {call : WorkerCall}
      (hroutes : passesThrough site manifest request = false)
      (hnavigate : request.navigate = false)
      (hstands : CacheFirstAt manifest request trace call) :
      ServeAt site worker manifest request (⟨.advance worker .dispatch, ()⟩ :: trace) call

theorem serve_runs
    (hruns : (serve site worker manifest request).Runs trace (.call call next)) :
    ServeAt site worker manifest request trace call := by
  unfold serve at hruns
  rcases hruns.atCall with ⟨rfl, rfl⟩ | ⟨begun, rest, rfl, hbegun⟩
  · exact .dispatching
  split_ifs at hbegun with hpasses hnavigate
  · cases (Program.runs_done_iff.mp hbegun).2
  · exact .navigation (Bool.not_eq_true _ ▸ hpasses) hnavigate (navigationStrategy_runs hbegun)
  · exact .resource (Bool.not_eq_true _ ▸ hpasses) (Bool.not_eq_true _ ▸ hnavigate)
      (cacheFirst_runs hbegun)

/-- The promise of `respondWith` settles. -/
def WorkerCall.Responds (call : WorkerCall) : Prop :=
  ∃ answer, call = .respond answer

/-- A handler that settles makes that call. -/
theorem settleWith_makes (answer : Option FetchResponse) (after : WorkerHandler) :
    (settleWith answer after).Makes WorkerCall.Responds :=
  .inl ⟨answer, rfl⟩

/-- On every path the promise settles, unless the worker leaves the request to the browser. -/
theorem serve_makes (hroutes : passesThrough site manifest request = false) :
    (serve site worker manifest request).Makes WorkerCall.Responds := by
  refine .inr fun begun ↦ ?_
  simp only [hroutes, Bool.false_eq_true, if_false]
  split_ifs
  · refine .inr fun (opened : Option ℕ) ↦ ?_
    cases opened with
    | none => exact settleWith_makes _ _
    | some cache =>
      refine .inr fun (fetched : Option FetchResponse) ↦ ?_
      cases fetched with
      | none => exact .inr fun _ ↦ settleWith_makes _ _
      | some response =>
        dsimp only
        split_ifs
        · exact settleWith_makes _ _
        · exact .inr fun _ ↦ settleWith_makes _ _
  · refine .inr fun (opened : Option ℕ) ↦ ?_
    cases opened with
    | none => exact settleWith_makes _ _
    | some cache =>
      refine .inr fun (cached : Option FetchResponse) ↦ ?_
      cases cached with
      | some response => exact settleWith_makes _ _
      | none =>
        refine .inr fun (fetched : Option FetchResponse) ↦ ?_
        cases fetched with
        | none => exact settleWith_makes _ _
        | some response => exact settleWith_makes _ _

/-- A request takes at most six calls. -/
theorem serve_atMost : (serve site worker manifest request).AtMost 6 := by
  intro begun
  dsimp only
  split_ifs
  · trivial
  · intro (opened : Option ℕ)
    cases opened with
    | none => exact fun _ ↦ trivial
    | some cache =>
      intro (fetched : Option FetchResponse)
      cases fetched with
      | none => exact fun _ _ ↦ trivial
      | some response =>
        dsimp only
        split_ifs
        · exact fun _ ↦ trivial
        · exact fun _ _ ↦ trivial
  · intro (opened : Option ℕ)
    cases opened with
    | none => exact fun _ ↦ trivial
    | some cache =>
      intro (cached : Option FetchResponse)
      cases cached with
      | some response => exact fun _ ↦ trivial
      | none =>
        intro (fetched : Option FetchResponse)
        cases fetched with
        | none => exact fun _ ↦ trivial
        | some response =>
          intro settled
          split_ifs
          · exact fun _ ↦ trivial
          · trivial

end Handlers

/-! ### What one call does to the caches -/

namespace Browser

variable {browser : Browser} {name other : String} {cache : ℕ} {url : Url}

/-- Opening a cache gives its name a cache, and leaves the other names. -/
theorem get?_openCache : (browser.openCache name).1.caches.get? other =
    if other = name then some (browser.openCache name).2 else browser.caches.get? other := by
  unfold openCache
  cases hcache : browser.caches.get? name with
  | some cache =>
    split_ifs with hsame
    · rw [hsame, hcache]
    · rfl
  | none => exact OrderedMap.get?_set _ _ _ _

/-- An opened cache is the one that has the name, or a new one. -/
theorem openCache_cases (browser : Browser) (name : String) :
    (∃ cache, browser.caches.get? name = some cache ∧
      browser.openCache name = (browser, cache)) ∨
    (browser.caches.get? name = none ∧ browser.openCache name = ({ browser with
      caches := browser.caches.set name browser.created
      contents := Function.update browser.contents browser.created fun _ ↦ none
      created := browser.created + 1 }, browser.created)) := by
  unfold openCache
  cases hcache : browser.caches.get? name with
  | some cache => exact .inl ⟨cache, rfl, rfl⟩
  | none => exact .inr ⟨rfl, rfl⟩

theorem created_openCache : browser.created ≤ (browser.openCache name).1.created := by
  rcases openCache_cases browser name with ⟨_, _, heq⟩ | ⟨_, heq⟩
  · rw [heq]
  · rw [heq]
    exact Nat.le_succ _

/-- Opening a cache changes the contents of none of the caches there are. -/
theorem contents_openCache (hcache : cache < browser.created) :
    (browser.openCache name).1.contents cache = browser.contents cache := by
  rcases openCache_cases browser name with ⟨_, _, heq⟩ | ⟨_, heq⟩
  · rw [heq]
  · rw [heq]
    exact Function.update_of_ne (Nat.ne_of_lt hcache) _ _

/-- A response in a cache after opening one was there before. -/
theorem contents_of_openCache {response : FetchResponse}
    (hcached : (browser.openCache name).1.contents cache url = some response) :
    browser.contents cache url = some response := by
  rcases openCache_cases browser name with ⟨_, _, heq⟩ | ⟨_, heq⟩
  · rw [heq] at hcached
    exact hcached
  · rw [heq] at hcached
    by_cases hnew : cache = browser.created
    · subst hnew
      change Function.update browser.contents browser.created (fun _ ↦ none) browser.created url =
        _ at hcached
      rw [Function.update_self] at hcached
      cases hcached
    · change Function.update browser.contents browser.created (fun _ ↦ none) cache url = _
        at hcached
      rw [Function.update_of_ne hnew] at hcached
      exact hcached

/-- A response in a cache after a write was written, or was there before and nothing was written
for its URL. -/
theorem contents_of_write {written : ℕ} {pairs : List (Url × FetchResponse)}
    {response : FetchResponse}
    (hcached : (browser.write written pairs).contents cache url = some response) :
    (cache = written ∧ (url, response) ∈ pairs) ∨ (browser.contents cache url = some response ∧
      ¬ (cache = written ∧ url ∈ pairs.map Prod.fst)) := by
  unfold write at hcached
  dsimp only at hcached
  split_ifs at hcached with hsame
  · cases hlookup : pairs.lookup url with
    | some found =>
      rw [hlookup] at hcached
      cases hcached
      obtain ⟨earlier, later, hpairs, -⟩ := List.lookup_eq_some_iff.mp hlookup
      refine .inl ⟨hsame, ?_⟩
      rw [hpairs]
      exact List.mem_append_right _ List.mem_cons_self
    | none =>
      rw [hlookup] at hcached
      refine .inr ⟨hcached, fun hwritten ↦ ?_⟩
      have hsome := (OrderedMap.lookup_isSome_iff pairs url).mpr hwritten.2
      rw [hlookup] at hsome
      cases hsome
  · exact .inr ⟨hcached, fun hwritten ↦ hsame hwritten.1⟩

/-- A write takes no response away. -/
theorem isSome_contents_write {written : ℕ} {pairs : List (Url × FetchResponse)}
    (hcached : (browser.contents cache url).isSome = true ∨
      (cache = written ∧ url ∈ pairs.map Prod.fst)) :
    ((browser.write written pairs).contents cache url).isSome = true := by
  unfold write
  dsimp only
  split_ifs with hsame
  · cases hlookup : pairs.lookup url with
    | some found => rfl
    | none =>
      rcases hcached with hcached | ⟨-, hurl⟩
      · exact hcached
      · have hsome := (OrderedMap.lookup_isSome_iff pairs url).mpr hurl
        rw [hlookup] at hsome
        cases hsome
  · rcases hcached with hcached | ⟨hwritten, -⟩
    · exact hcached
    · exact absurd hwritten hsame

end Browser

/-- The answers of an `addAll` that succeeded. -/
theorem fetchAll_spec {site : Site} {network : FetchRequest → Option FetchResponse}
    {urls : List String} {pairs : List (Url × FetchResponse)}
    (hpairs : fetchAll site network urls = some pairs) :
    pairs.map Prod.fst = urls.map site.resolve ∧
      ∀ pair ∈ pairs, pair.2.ok = true ∧ pair.2.isComplete = true := by
  induction urls generalizing pairs with
  | nil =>
    cases hpairs
    exact ⟨rfl, List.forall_mem_nil _⟩
  | cons url rest ih =>
    rw [fetchAll] at hpairs
    split at hpairs
    · next response _ =>
      split_ifs at hpairs with haccepted
      obtain ⟨later, hlater, hsame⟩ := Option.map_eq_some_iff.mp hpairs
      obtain ⟨hurls, hall⟩ := ih hlater
      subst hsame
      constructor
      · rw [List.map_cons, List.map_cons, hurls]
      · rw [List.forall_mem_cons]
        rw [Bool.and_eq_true] at haccepted
        exact ⟨haccepted, hall⟩
    · cases hpairs

/-! ### The history of the caches -/

/-- The call writes this response for this URL into this cache. -/
def Stores (performed : Workers.Performed) (cache : ℕ) (url : Url) (response : FetchResponse) :
    Prop :=
  performed = ⟨.put cache url response, ()⟩ ∨ ∃ urls pairs,
    performed = ⟨.addAll cache urls, some pairs⟩ ∧ (url, response) ∈ pairs

/-- The call was an `addAll` of this URL to this cache. -/
def AddsTo (performed : Workers.Performed) (cache : ℕ) (url : Url) : Prop :=
  ∃ urls pairs, performed = ⟨.addAll cache urls, some pairs⟩ ∧ url ∈ pairs.map Prod.fst

section Call

variable {site : Site} {browser next : Browser} {call : WorkerCall} {result : call.Result}
  {name : String} {cache : ℕ} {url : Url} {response : FetchResponse}

theorem created_of_does (hdoes : browser.Does site call result next) :
    browser.created ≤ next.created := by
  cases hdoes with
  | opened name => exact Browser.created_openCache
  | _ => exact Nat.le_refl _

/-- An opened cache has the name. -/
theorem get?_of_opens (hdoes : browser.Does site call result next)
    (hopens : (⟨call, result⟩ : Workers.Performed) = ⟨.openCache name, some cache⟩) :
    next.caches.get? name = some cache := by
  cases hdoes with
  | opened other =>
    cases hopens
    rw [Browser.get?_openCache, if_pos rfl]
  | unopened other => cases hopens
  | _ => cases hopens

/-- A name keeps its cache until it is deleted. -/
theorem get?_of_does (hdoes : browser.Does site call result next)
    (hcache : browser.caches.get? name = some cache) (hkept : call ≠ .deleteCache name) :
    next.caches.get? name = some cache := by
  cases hdoes with
  | opened other =>
    rcases Browser.openCache_cases browser other with ⟨found, hfound, heq⟩ | ⟨hnone, heq⟩
    · rw [heq]
      exact hcache
    · have hne : name ≠ other := by
        rintro rfl
        rw [hcache] at hnone
        cases hnone
      rw [Browser.get?_openCache, if_neg hne]
      exact hcache
  | deleted other =>
    have hne : name ≠ other := fun hsame ↦ hkept (hsame ▸ rfl)
    change (browser.caches.erase other).get? name = _
    rw [OrderedMap.get?_erase, if_neg hne]
    exact hcache
  | _ => exact hcache

/-- No call takes a response out of a cache. -/
theorem isSome_of_does (hdoes : browser.Does site call result next)
    (hcache : cache < browser.created) (hcached : (browser.contents cache url).isSome = true) :
    (next.contents cache url).isSome = true := by
  cases hdoes with
  | opened name =>
    rw [Browser.contents_openCache hcache]
    exact hcached
  | added _ _ _ => exact Browser.isSome_contents_write (.inl hcached)
  | stored _ _ _ => exact Browser.isSome_contents_write (.inl hcached)
  | _ => exact hcached

/-- What was added is in the cache. -/
theorem isSome_of_adds (hdoes : browser.Does site call result next)
    (hadds : AddsTo ⟨call, result⟩ cache url) :
    cache < next.created ∧ (next.contents cache url).isSome = true := by
  obtain ⟨urls, pairs, hperformed, hurl⟩ := hadds
  cases hdoes with
  | added hcache _ _ =>
    cases hperformed
    exact ⟨hcache, Browser.isSome_contents_write (.inr ⟨rfl, hurl⟩)⟩
  | unadded _ _ => cases hperformed
  | _ => cases hperformed

/-- What a cache holds after a call was written by it, or was there before and the call added
nothing for its URL. -/
theorem contents_of_does (hdoes : browser.Does site call result next)
    (hcached : next.contents cache url = some response) :
    (response.isComplete = true ∧ Stores ⟨call, result⟩ cache url response) ∨
      (browser.contents cache url = some response ∧ ¬ AddsTo ⟨call, result⟩ cache url) := by
  cases hdoes with
  | opened name =>
    refine .inr ⟨Browser.contents_of_openCache hcached, ?_⟩
    rintro ⟨urls, pairs, hperformed, -⟩
    cases hperformed
  | @added written urls pairs network hwritten hnodup hpairs =>
    rcases Browser.contents_of_write hcached with ⟨rfl, hpair⟩ | ⟨hold, hunwritten⟩
    · exact .inl ⟨((fetchAll_spec hpairs).2 _ hpair).2, .inr ⟨urls, pairs, rfl, hpair⟩⟩
    · refine .inr ⟨hold, ?_⟩
      rintro ⟨others, added, hperformed, hurl⟩
      cases hperformed
      exact hunwritten ⟨rfl, hurl⟩
  | @stored written target stored hwritten hcomplete =>
    rcases Browser.contents_of_write hcached with ⟨rfl, hpair⟩ | ⟨hold, -⟩
    · cases List.mem_singleton.mp hpair
      exact .inl ⟨hcomplete, .inl rfl⟩
    · refine .inr ⟨hold, ?_⟩
      rintro ⟨urls, pairs, hperformed, -⟩
      cases hperformed
  | unadded other urls =>
    refine .inr ⟨hcached, ?_⟩
    rintro ⟨others, pairs, hperformed, -⟩
    cases hperformed
  | _ =>
    refine .inr ⟨hcached, ?_⟩
    rintro ⟨urls, pairs, hperformed, -⟩
    cases hperformed

end Call

/-- Since a position no cache was deleted under this name. -/
def KeptSince (log : List Workers.LogEntry) (position : ℕ) (name : String) : Prop :=
  ∀ later entry, position < later → log[later]? = some entry → entry.call ≠ .deleteCache name

/-- An opened cache has its name until the name is deleted. What was added stays. What a cache holds
was written there by a call, or it was there at the start and nothing was added for its URL. -/
structure CacheHistory (initial browser : Browser) (log : List Workers.LogEntry) : Prop where
  linked : ∀ {position : ℕ} {entry : Workers.LogEntry} {name : String} {cache : ℕ},
    log[position]? = some entry → entry.performed = ⟨.openCache name, some cache⟩ →
      KeptSince log position name → browser.caches.get? name = some cache
  added : ∀ {entry : Workers.LogEntry} {cache : ℕ} {url : Url}, entry ∈ log →
    AddsTo entry.performed cache url →
      cache < browser.created ∧ (browser.contents cache url).isSome = true
  stored : ∀ {cache : ℕ} {url : Url} {response : FetchResponse},
    browser.contents cache url = some response →
      (response.isComplete = true ∧ ∃ entry ∈ log, Stores entry.performed cache url response) ∨
      (initial.contents cache url = some response ∧
        ∀ entry ∈ log, ¬ AddsTo entry.performed cache url)
  grown : initial.created ≤ browser.created
  lasting : ∀ {cache : ℕ} {url : Url}, cache < initial.created →
    (initial.contents cache url).isSome = true → (browser.contents cache url).isSome = true

theorem cacheHistory_start (initial : Browser) : CacheHistory initial initial [] := by
  refine ⟨?_, ?_, ?_, Nat.le_refl _, fun _ hcached ↦ hcached⟩
  · intro position entry name cache hentry
    simp at hentry
  · intro entry cache url hentry
    cases hentry
  · intro cache url response hcached
    exact .inr ⟨hcached, List.forall_mem_nil _⟩

/-- A call keeps the history. -/
theorem CacheHistory.call {site : Site} {initial browser next : Browser}
    {log : List Workers.LogEntry} {call : WorkerCall} {result : call.Result} (thread : ℕ)
    (hhistory : CacheHistory initial browser log) (hdoes : browser.Does site call result next) :
    CacheHistory initial next (log ++ [⟨thread, browser, call, result, next⟩]) := by
  refine ⟨?_, ?_, ?_, ?_, ?_⟩
  · intro position entry name cache hentry hopened hkept
    have hlast : position < log.length → call ≠ .deleteCache name := by
      intro hlt
      exact hkept log.length _ hlt (Threads.getElem?_concat_iff.mpr (.inr ⟨rfl, rfl⟩))
    rcases Threads.getElem?_concat_iff.mp hentry with hold | ⟨-, rfl⟩
    · have hkeptBefore : KeptSince log position name := by
        intro later other hlt hother
        exact hkept later other hlt (Threads.getElem?_concat_iff.mpr (.inl hother))
      exact get?_of_does hdoes (hhistory.linked hold hopened hkeptBefore)
        (hlast (List.getElem?_eq_some_iff.mp hold).1)
    · exact get?_of_opens hdoes hopened
  · intro entry cache url hentry hadds
    rcases List.mem_append.mp hentry with hold | hnew
    · obtain ⟨hcache, hcached⟩ := hhistory.added hold hadds
      exact ⟨Nat.lt_of_lt_of_le hcache (created_of_does hdoes),
        isSome_of_does hdoes hcache hcached⟩
    · obtain rfl := List.mem_singleton.mp hnew
      exact isSome_of_adds hdoes hadds
  · intro cache url response hcached
    rcases contents_of_does hdoes hcached with ⟨hcomplete, hstores⟩ | ⟨hbefore, hadds⟩
    · exact .inl ⟨hcomplete, _, List.mem_append_right _ List.mem_cons_self, hstores⟩
    · rcases hhistory.stored hbefore with ⟨hcomplete, entry, hentry, hstores⟩ | ⟨hstart, hnone⟩
      · exact .inl ⟨hcomplete, entry, List.mem_append_left _ hentry, hstores⟩
      · refine .inr ⟨hstart, ?_⟩
        intro entry hentry
        rcases List.mem_append.mp hentry with hold | hnew
        · exact hnone entry hold
        · obtain rfl := List.mem_singleton.mp hnew
          exact hadds
  · exact Nat.le_trans hhistory.grown (created_of_does hdoes)
  · intro cache url hcache hcached
    exact isSome_of_does hdoes (Nat.lt_of_lt_of_le hcache hhistory.grown)
      (hhistory.lasting hcache hcached)

section Runs

variable {site : Site} {manifests : ℕ → Option Manifest} {initial : Browser} {world : Workers}

/-- The workers never change the caches but by their calls. -/
theorem cacheHistory_of_reaches
    (hreaches : (Workers.automaton site manifests).Reaches (Threads.start initial) world) :
    CacheHistory initial world.shared world.log := by
  refine Threads.shared_invariant hreaches (CacheHistory initial) (cacheHistory_start initial) ?_ ?_
  · intro browser log conditions next _ helapse
    cases helapse
  · intro browser log thread call conditions next result hhistory hperform
    exact hhistory.call thread (Browser.does_of_perform hperform)

/-- So it was at every call, and the call did what it does. -/
theorem cacheHistory_before
    (hreaches : (Workers.automaton site manifests).Reaches (Threads.start initial) world)
    {position : ℕ} {entry : Workers.LogEntry} (hentry : world.log[position]? = some entry) :
    CacheHistory initial entry.before (world.log.take position) ∧
      entry.before.Does site entry.call entry.result entry.after := by
  have hbefore := Threads.shared_invariant_before hreaches (CacheHistory initial)
    (cacheHistory_start initial) (by
      intro browser log conditions next _ helapse
      cases helapse) (by
      intro browser log thread call conditions next result hhistory hperform
      exact hhistory.call thread (Browser.does_of_perform hperform)) position entry hentry
  obtain ⟨hhistory, conditions, hperform⟩ := hbefore
  exact ⟨hhistory, Browser.does_of_perform hperform⟩

/-- Only a request puts a response into a cache, and only one that it got for its own URL, with a
cache that it opened under the name of its worker. -/
theorem request_of_put
    (hreaches : (Workers.automaton site manifests).Reaches (Threads.start initial) world)
    {position : ℕ} {entry : Workers.LogEntry} (hentry : world.log[position]? = some entry)
    {cache : ℕ} {url : Url} {response : FetchResponse}
    (hput : entry.performed = ⟨.put cache url response, ()⟩) :
    ∃ worker request rest, world.threads[entry.thread]? = some ⟨.fetch worker request, rest⟩ ∧
      passesThrough site (manifests worker) request = false ∧ url = request.url ∧
      response.ok = true ∧
      ⟨.openCache (cacheName (precache (manifests worker))), some cache⟩ ∈
        Threads.trace (world.log.take position) entry.thread ∧
      ⟨.fetch request, some response⟩ ∈ Threads.trace (world.log.take position) entry.thread := by
  obtain ⟨event, rest, next, hthread, hruns⟩ :=
    (Threads.consistent_of_reaches hreaches).runs_before hentry
  generalize Threads.trace (world.log.take position) entry.thread = trace at hruns ⊢
  obtain ⟨thread, before, call, result, after⟩ := entry
  cases hput
  cases event with
  | install worker => cases install_runs hruns
  | activate worker => cases activate_runs hruns
  | fetch worker request =>
    cases serve_runs hruns with
    | navigation _ _ hstands => cases hstands
    | resource hroutes _ hstands =>
      cases hstands with
      | settled _ _ hok =>
        refine ⟨worker, request, rest, hthread, hroutes, rfl, hok, ?_, ?_⟩
        · simp
        · simp

/-- Only an installation adds responses, and those are for the URLs of its manifest, in a cache that
it opened under the name of its worker. -/
theorem installation_of_added
    (hreaches : (Workers.automaton site manifests).Reaches (Threads.start initial) world)
    {position : ℕ} {entry : Workers.LogEntry} (hentry : world.log[position]? = some entry)
    {cache : ℕ} {urls : List String} {pairs : List (Url × FetchResponse)}
    (hadded : entry.performed = ⟨.addAll cache urls, some pairs⟩) :
    ∃ worker rest, world.threads[entry.thread]? = some ⟨.install worker, rest⟩ ∧
      ⟨.openCache (cacheName (precache (manifests worker))), some cache⟩ ∈
        Threads.trace (world.log.take position) entry.thread ∧
      pairs.map Prod.fst = (precache (manifests worker)).urls.map site.resolve ∧
      ∀ pair ∈ pairs, pair.2.ok = true ∧ pair.2.isComplete = true := by
  obtain ⟨event, rest, next, hthread, hruns⟩ :=
    (Threads.consistent_of_reaches hreaches).runs_before hentry
  obtain ⟨-, hdoes⟩ := cacheHistory_before hreaches hentry
  generalize Threads.trace (world.log.take position) entry.thread = trace at hruns ⊢
  obtain ⟨thread, before, call, result, after⟩ := entry
  cases hadded
  change before.Does site (.addAll cache urls) (some pairs) after at hdoes
  have hspec : pairs.map Prod.fst = urls.map site.resolve ∧
      ∀ pair ∈ pairs, pair.2.ok = true ∧ pair.2.isComplete = true := by
    cases hdoes with
    | added _ _ hpairs => exact fetchAll_spec hpairs
  cases event with
  | install worker =>
    cases install_runs hruns with
    | opened cache =>
      refine ⟨worker, rest, hthread, ?_, hspec⟩
      simp
  | activate worker => cases activate_runs hruns
  | fetch worker request =>
    cases serve_runs hruns with
    | navigation _ _ hstands => cases hstands
    | resource _ _ hstands => cases hstands

/-! ### Responses of the API -/

/-- What the workers put into the caches are complete responses of success, for the URLs of a
manifest or for requests that a worker serves. -/
theorem cached_of_reaches
    (hreaches : (Workers.automaton site manifests).Reaches (Threads.start initial) world)
    {cache : ℕ} {url : Url} {response : FetchResponse}
    (hcached : world.shared.contents cache url = some response)
    (hnew : initial.contents cache url ≠ some response) :
    response.ok = true ∧ response.isComplete = true ∧
      ((∃ worker, ∃ relative ∈ (precache (manifests worker)).urls, url = site.resolve relative) ∨
        (url.origin = site.origin ∧ includesApi url.pathname = false ∧
          isRuntimeConfig url.pathname = false)) := by
  rcases (cacheHistory_of_reaches hreaches).stored hcached with
    ⟨hcomplete, entry, hentry, hstores⟩ | ⟨hstart, -⟩
  · obtain ⟨position, hposition⟩ := List.getElem?_of_mem hentry
    rcases hstores with hput | ⟨urls, pairs, hadded, hpair⟩
    · obtain ⟨worker, request, -, -, hroutes, hurl, hok, -⟩ :=
        request_of_put hreaches hposition hput
      refine ⟨hok, hcomplete, .inr ?_⟩
      rw [hurl]
      simp only [passesThrough, Bool.or_eq_false_iff, decide_eq_false_iff_not, not_not]
        at hroutes
      exact ⟨hroutes.1.1.1.2, hroutes.1.1.2, hroutes.1.2⟩
    · obtain ⟨worker, -, -, -, hurls, hall⟩ := installation_of_added hreaches hposition hadded
      have hmem : url ∈ pairs.map Prod.fst := List.mem_map_of_mem hpair
      rw [hurls] at hmem
      obtain ⟨relative, hrelative, hresolved⟩ := List.mem_map.mp hmem
      exact ⟨(hall _ hpair).1, hcomplete, .inl ⟨worker, relative, hrelative, hresolved.symm⟩⟩
  · exact absurd hstart hnew

/-- A path below a directory is one of the API only when the directory is, or the path from there
is. -/
theorem includesApi_append {directory path : String} (hslash : directory.toList.getLast? = some '/')
    (hdirectory : includesApi directory = false) (hpath : isApiPath path = false) :
    includesApi (directory ++ path) = false := by
  have hbelow : ¬ "/api/".toList <:+: directory.toList := of_decide_eq_false hdirectory
  have hparts : ¬ "api/".toList <+: path.toList ∧ ¬ "/api/".toList <:+: path.toList := by
    rw [isApiPath, Bool.or_eq_false_iff] at hpath
    exact ⟨of_decide_eq_false hpath.1, of_decide_eq_false hpath.2⟩
  refine decide_eq_false ?_
  rintro ⟨earlier, later, hsplit⟩
  rw [String.toList_append] at hsplit
  rcases List.append_eq_append_iff.mp hsplit with ⟨rest, hrest, -⟩ | ⟨rest, hrest, hlater⟩
  · exact hbelow ⟨earlier, rest, hrest.symm⟩
  · rcases List.append_eq_append_iff.mp hrest with ⟨head, hhead, hpattern⟩ | ⟨gap, -, hgap⟩
    · -- of a segment that begins in the directory at most the first slash is in it
      have hcut : head = "/api/".toList.take head.length := by
        rw [hpattern, List.take_left]
      have hkept : rest = "/api/".toList.drop head.length := by
        rw [hpattern, List.drop_left]
      have hlength : head.length ≤ 5 := by
        have hsum := congrArg List.length hpattern
        rw [List.length_append] at hsum
        have hfive : "/api/".toList.length = 5 := rfl
        omega
      have hlast : head.length ≠ 0 → head.getLast? = some '/' := by
        intro hpositive
        rw [hhead, List.getLast?_append] at hslash
        cases hlast : head.getLast? with
        | none =>
          rw [List.getLast?_eq_none_iff] at hlast
          exact absurd (hlast ▸ rfl) hpositive
        | some ch =>
          rw [hlast] at hslash
          exact hslash
      have hcases : head.length = 0 ∨ head.length = 1 ∨ head.length = 5 ∨
          (head.length = 2 ∨ head.length = 3 ∨ head.length = 4) := by
        omega
      rcases hcases with hzero | hone | hfive | hinside
      · rw [hzero] at hkept
        exact hparts.2 ⟨[], later, by rw [hlater, hkept]; rfl⟩
      · rw [hone] at hkept
        exact hparts.1 ⟨later, by rw [hlater, hkept]; rfl⟩
      · rw [hfive] at hcut
        exact hbelow ⟨earlier, [], by rw [hhead, hcut, List.append_nil]; rfl⟩
      · have hslashed := hlast (by omega)
        rw [hcut] at hslashed
        rcases hinside with htwo | hthree | hfour
        · rw [htwo] at hslashed
          exact absurd hslashed (by decide)
        · rw [hthree] at hslashed
          exact absurd hslashed (by decide)
        · rw [hfour] at hslashed
          exact absurd hslashed (by decide)
    · exact hparts.2 ⟨gap, later, by rw [hlater, hgap]⟩

/-- The manifests are those of built directories, and the included files have plain names: a URL of
a manifest resolves to the path of its file below the directory of the worker. -/
def BuiltPlainly (sha256Hex : Bytes → String) (site : Site) (directory : String)
    (manifests : ℕ → Option Manifest) : Prop :=
  ∀ worker manifest, manifests worker = some manifest → ∃ outDir,
    manifest = buildManifest sha256Hex outDir ∧ ∀ file ∈ walk outDir,
      (site.resolve ("./" ++ file.path)).pathname = directory ++ file.path

/-- A file that the walk includes is none of the API. -/
theorem isApiPath_of_mem_walkEntry {entry : Entry} {parent : String} {name : FileName}
    {file : OutputFile} (hfile : file ∈ walkEntry parent name entry) :
    isApiPath file.path = false := by
  induction entry generalizing parent name with
  | file content =>
    unfold walkEntry at hfile
    split_ifs at hfile with _ hapi
    · cases hfile
    · cases hfile
    · rw [List.mem_singleton] at hfile
      rw [hfile]
      exact Bool.not_eq_true _ ▸ hapi
  | directory size names entries ih =>
    unfold walkEntry at hfile
    split_ifs at hfile
    · cases hfile
    · obtain ⟨index, -, hbelow⟩ := List.mem_flatMap.mp hfile
      exact ih index hbelow
  | special => cases hfile

/-- In every state reached no cache holds a response of the API, unless it did at the start, and
what the caches hold are complete responses of success. -/
theorem includesApi_of_cached {sha256Hex : Bytes → String} {directory : String}
    (hbuilt : BuiltPlainly sha256Hex site directory manifests)
    (hslash : directory.toList.getLast? = some '/') (hdirectory : includesApi directory = false)
    (hreaches : (Workers.automaton site manifests).Reaches (Threads.start initial) world)
    {cache : ℕ} {url : Url} {response : FetchResponse}
    (hcached : world.shared.contents cache url = some response)
    (hnew : initial.contents cache url ≠ some response) :
    includesApi url.pathname = false ∧ response.ok = true ∧ response.isComplete = true := by
  obtain ⟨hok, hcomplete, horigin⟩ := cached_of_reaches hreaches hcached hnew
  refine ⟨?_, hok, hcomplete⟩
  rcases horigin with ⟨worker, relative, hrelative, hresolved⟩ | ⟨-, hapi, -⟩
  · cases hmanifest : manifests worker with
    | none =>
      rw [hmanifest] at hrelative
      cases hrelative
    | some manifest =>
      obtain ⟨outDir, hmade, hplain⟩ := hbuilt worker manifest hmanifest
      rw [hmanifest, hmade] at hrelative
      obtain ⟨file, hsorted, hurl⟩ := List.mem_map.mp hrelative
      have hfile : file ∈ walk outDir := (List.mem_insertionSort _).mp hsorted
      rw [hresolved, ← hurl, hplain file hfile]
      refine includesApi_append hslash hdirectory ?_
      obtain ⟨index, -, hbelow⟩ := List.mem_flatMap.mp hfile
      exact isApiPath_of_mem_walkEntry hbelow
  · exact hapi

/-- The chunk in the cache is none of the API. -/
theorem includesApi_of_cached_chunk : ∃ world,
    (Workers.automaton sampleSite sampleManifests).run (Threads.start sampleBrowser)
      installedOffline = some world ∧
    world.shared.contents 2 (visit "/chunk.js" false).url = some ⟨200, [0x63]⟩ ∧
    includesApi (visit "/chunk.js" false).url.pathname = false := by
  have hend : ((Workers.automaton sampleSite sampleManifests).run (Threads.start sampleBrowser)
      installedOffline).map (·.shared.contents 2 (visit "/chunk.js" false).url) =
        some (some ⟨200, [0x63]⟩) := by
    decide +kernel
  obtain ⟨world, hrun, hcached⟩ := Option.map_eq_some_iff.mp hend
  have hbuilt : BuiltPlainly twoShells sampleSite "/" sampleManifests := by
    intro worker manifest hmanifest
    match worker with
    | 0 =>
      refine ⟨oneFile indexHtml [0x41], (Option.some.inj hmanifest).symm, ?_⟩
      decide +kernel
    | _ + 1 => cases hmanifest
  have hnone := includesApi_of_cached hbuilt (by decide) (by decide +kernel)
    (Automaton.reaches_of_run hrun) hcached (by decide +kernel)
  exact ⟨world, hrun, hcached, hnone.1⟩

/-! ### Caches of other applications -/

/-- The workers open and delete only caches with their prefix. -/
theorem listen_allows (site : Site) (manifests : ℕ → Option Manifest) (event : WorkerEvent) :
    (listen site manifests event).Allows fun call ↦ ∀ name,
      call = .openCache name ∨ call = .deleteCache name → hasCachePrefix name = true := by
  have hown : ∀ manifest, hasCachePrefix (cacheName (precache manifest)) = true := by
    intro manifest
    rw [hasCachePrefix, cacheName, String.toList_append, List.isPrefixOf_iff_prefix]
    exact List.prefix_append _ _
  refine Program.allows_of_runs fun trace call next hruns name hname ↦ ?_
  cases event with
  | install worker =>
    have hstands := install_runs hruns
    rcases hname with rfl | rfl
    · cases hstands
      exact hown _
    · cases hstands
  | activate worker =>
    have hstands := activate_runs hruns
    rcases hname with rfl | rfl
    · cases hstands
    · cases hstands with
      | delete _ hbegins _ => exact hbegins
  | fetch worker request =>
    have hstands := serve_runs hruns
    rcases hname with rfl | rfl
    · cases hstands with
      | navigation _ _ hstands =>
        cases hstands
        exact hown _
      | resource _ _ hstands =>
        cases hstands
        exact hown _
    · cases hstands with
      | navigation _ _ hstands => cases hstands
      | resource _ _ hstands => cases hstands

/-- Every named cache was made, and no two names have one cache. -/
structure Browser.WellFormed (browser : Browser) : Prop where
  made : ∀ {name : String} {cache : ℕ}, browser.caches.get? name = some cache →
    cache < browser.created
  distinct : ∀ {first second : String} {cache : ℕ}, browser.caches.get? first = some cache →
    browser.caches.get? second = some cache → first = second

theorem Browser.WellFormed.call {browser next : Browser} {call : WorkerCall}
    {result : call.Result} (hwell : browser.WellFormed)
    (hdoes : browser.Does site call result next) : next.WellFormed := by
  cases hdoes with
  | opened name =>
    rcases Browser.openCache_cases browser name with ⟨_, _, heq⟩ | ⟨hnone, heq⟩
    · rw [heq]
      exact hwell
    · -- the new cache has no other name
      rw [heq]
      have hget : ∀ {other : String} {cache : ℕ},
          (browser.caches.set name browser.created).get? other = some cache →
            (other = name ∧ cache = browser.created) ∨
              (other ≠ name ∧ browser.caches.get? other = some cache) := by
        intro other cache hcache
        rw [OrderedMap.get?_set] at hcache
        split_ifs at hcache with hsame
        · exact .inl ⟨hsame, (Option.some.inj hcache).symm⟩
        · exact .inr ⟨hsame, hcache⟩
      constructor
      · intro other cache hcache
        rcases hget hcache with ⟨-, rfl⟩ | ⟨-, hold⟩
        · exact Nat.lt_succ_self _
        · exact Nat.lt_succ_of_lt (hwell.made hold)
      · intro first second cache hfirst hsecond
        rcases hget hfirst with ⟨rfl, rfl⟩ | ⟨-, hfirst⟩
        · rcases hget hsecond with ⟨rfl, -⟩ | ⟨-, hsecond⟩
          · rfl
          · exact absurd (hwell.made hsecond) (Nat.lt_irrefl _)
        · rcases hget hsecond with ⟨-, rfl⟩ | ⟨-, hsecond⟩
          · exact absurd (hwell.made hfirst) (Nat.lt_irrefl _)
          · exact hwell.distinct hfirst hsecond
  | deleted name =>
    have hget : ∀ {other : String} {cache : ℕ},
        (browser.caches.erase name).get? other = some cache →
          browser.caches.get? other = some cache := by
      intro other cache hcache
      rw [OrderedMap.get?_erase] at hcache
      split_ifs at hcache
      exact hcache
    exact ⟨fun hcache ↦ hwell.made (hget hcache), fun hfirst hsecond ↦
      hwell.distinct (hget hfirst) (hget hsecond)⟩
  | _ => exact ⟨hwell.made, hwell.distinct⟩

/-- What a run keeps of a cache without the prefix: its name has the cache it had at the start, and
no worker has opened this cache. -/
structure KeepsForeign (initial : Browser) (name : String) (browser : Browser)
    (log : List Workers.LogEntry) : Prop where
  well : browser.WellFormed
  named : browser.caches.get? name = initial.caches.get? name
  unopened : ∀ entry ∈ log, ∀ other cache,
    entry.performed = ⟨.openCache other, some cache⟩ → initial.caches.get? name ≠ some cache

theorem keepsForeign_of_reaches (hinitial : initial.WellFormed)
    (hreaches : (Workers.automaton site manifests).Reaches (Threads.start initial) world)
    {name : String} (hname : hasCachePrefix name = false) :
    KeepsForeign initial name world.shared world.log := by
  refine Threads.shared_invariant_of_allows hreaches (listen_allows site manifests)
    (KeepsForeign initial name) ⟨hinitial, rfl, List.forall_mem_nil _⟩ ?_ ?_
  · intro browser log conditions next _ helapse
    cases helapse
  · intro browser log thread call conditions next result hkeeps hallowed hperform
    have hdoes := Browser.does_of_perform hperform
    have hother : ∀ other, call = .openCache other ∨ call = .deleteCache other →
        name ≠ other := by
      intro other hcall hsame
      have hbegins := hallowed other hcall
      rw [← hsame, hname] at hbegins
      cases hbegins
    refine ⟨hkeeps.well.call hdoes, ?_, ?_⟩
    · rw [← hkeeps.named]
      cases hdoes with
      | opened other => rw [Browser.get?_openCache, if_neg (hother other (.inl rfl))]
      | deleted other =>
        change (browser.caches.erase other).get? name = _
        rw [OrderedMap.get?_erase, if_neg (hother other (.inr rfl))]
      | _ => rfl
    · intro entry hentry other cache hopens hforeign
      rcases List.mem_append.mp hentry with hold | hnew
      · exact hkeeps.unopened entry hold other cache hopens hforeign
      · obtain rfl := List.mem_singleton.mp hnew
        have hopened := get?_of_opens hdoes hopens
        have hstays : next.caches.get? name = some cache := by
          refine get?_of_does hdoes (hkeeps.named.trans hforeign) ?_
          intro hdeletes
          exact hother name (.inr hdeletes) rfl
        have hsame : name = other := (hkeeps.well.call hdoes).distinct hstays hopened
        have hcall : call = .openCache other := congrArg Sigma.fst hopens
        exact hother other (.inl hcall) hsame

/-- In every state reached the caches of other applications of the origin have the names and the
contents that they had at the start, and no worker has opened one. -/
theorem foreign_of_reaches (hinitial : initial.WellFormed)
    (hreaches : (Workers.automaton site manifests).Reaches (Threads.start initial) world)
    {name : String} (hname : hasCachePrefix name = false) :
    world.shared.caches.get? name = initial.caches.get? name ∧
      ∀ cache, initial.caches.get? name = some cache →
        world.shared.contents cache = initial.contents cache ∧
          ∀ entry ∈ world.log, ∀ other, entry.performed ≠ ⟨.openCache other, some cache⟩ := by
  have hkeeps := keepsForeign_of_reaches hinitial hreaches hname
  have hhistory := cacheHistory_of_reaches hreaches
  refine ⟨hkeeps.named, fun cache hcache ↦ ⟨funext fun url ↦ ?_, fun entry hentry other hopens ↦
    hkeeps.unopened entry hentry other cache hopens hcache⟩⟩
  have hopened : ∀ {position thread other},
      ⟨.openCache other, some cache⟩ ∉ Threads.trace (world.log.take position) thread := by
    intro position thread other hmem
    obtain ⟨entry, hentry, -, hopens⟩ := Threads.mem_trace_iff.mp hmem
    exact hkeeps.unopened entry (List.mem_of_mem_take hentry) other cache hopens hcache
  cases hnow : world.shared.contents cache url with
  | some response =>
    rcases hhistory.stored hnow with ⟨-, entry, hentry, hstores⟩ | ⟨hstart, -⟩
    · obtain ⟨position, hposition⟩ := List.getElem?_of_mem hentry
      rcases hstores with hput | ⟨urls, pairs, hadded, -⟩
      · obtain ⟨worker, request, -, -, -, -, -, hopens, -⟩ :=
          request_of_put hreaches hposition hput
        exact absurd hopens hopened
      · obtain ⟨worker, -, -, hopens, -⟩ := installation_of_added hreaches hposition hadded
        exact absurd hopens hopened
    · exact hstart.symm
  | none =>
    cases hbefore : initial.contents cache url with
    | none => rfl
    | some response =>
      have hlasting := hhistory.lasting (hinitial.made hcache)
        (by rw [hbefore]; rfl : (initial.contents cache url).isSome = true)
      rw [hnow] at hlasting
      cases hlasting

/-- The two caches are two objects. -/
theorem wellFormed_sampleBrowser : sampleBrowser.WellFormed := by
  have hentries : ∀ {name cache}, sampleBrowser.caches.get? name = some cache →
      (name, cache) ∈ [("opfs-shell-old", 0), ("map-tiles", 1)] :=
    fun hcache ↦ (OrderedMap.mem_entries_iff _ _ _).mpr hcache
  constructor
  · intro name cache hcache
    have hmem := hentries hcache
    simp only [List.mem_cons, Prod.mk.injEq, List.not_mem_nil, or_false] at hmem
    change cache < 2
    omega
  · intro first second cache hfirst hsecond
    have hmemFirst := hentries hfirst
    have hmemSecond := hentries hsecond
    simp only [List.mem_cons, Prod.mk.injEq, List.not_mem_nil, or_false] at hmemFirst hmemSecond
    rcases hmemFirst with ⟨rfl, rfl⟩ | ⟨rfl, rfl⟩
    · exact (hmemSecond.resolve_right (by simp)).1.symm
    · exact (hmemSecond.resolve_left (by simp)).1.symm

/-- The activation deleted the cache of the older deploy, and the other cache is as it was. -/
theorem foreign_of_reaches_mapTiles : ∃ world,
    (Workers.automaton sampleSite sampleManifests).run (Threads.start sampleBrowser)
      installedOffline = some world ∧
    world.shared.caches.keys = ["map-tiles", "opfs-shell-cd324f37fb171efd"] ∧
    world.shared.caches.get? "map-tiles" = some 1 ∧
    world.shared.contents 1 = sampleBrowser.contents 1 := by
  have hend : ((Workers.automaton sampleSite sampleManifests).run (Threads.start sampleBrowser)
      installedOffline).map (·.shared.caches.keys) =
        some ["map-tiles", "opfs-shell-cd324f37fb171efd"] := by
    decide +kernel
  obtain ⟨world, hrun, hkeys⟩ := Option.map_eq_some_iff.mp hend
  have hforeign := foreign_of_reaches wellFormed_sampleBrowser (Automaton.reaches_of_run hrun)
    (by decide +kernel : hasCachePrefix "map-tiles" = false)
  exact ⟨world, hrun, hkeys, hforeign.1, (hforeign.2 1 (by decide +kernel)).1⟩

end Runs

end OpfsWebauthn.Deploy
