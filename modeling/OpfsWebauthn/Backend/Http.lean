import OpfsWebauthn.Backend.Cors
import OpfsWebauthn.Backend.PickupSafety
import OpfsWebauthn.Foundation.Routing

/-!
# The backend over HTTP

`build_router` answers a request itself or passes it on to a handler: the origin gate, the limit on
the body and the routes decide which (`forwards`). Whatever comes over HTTP, at once and interleaved
call by call, the handlers behind the router run as they do by themselves (`relay_of_http`). So what
holds of every run of the handlers holds of the responses, as `http_pickup` says for the pickups.
-/

set_option autoImplicit false
set_option relaxedAutoImplicit false

namespace OpfsWebauthn.Backend

open Foundation Storage Crypto Share

/-! ### The requests that reach a handler -/

variable (crates : HttpCrates)

/-- The origin of a request, as `cors_layer` reads it. -/
def readOrigin (request : HttpRequest) : Option String :=
  (request.headers.lookup originHeader).bind crates.toStr

/-- The request has no origin, or one on the allow-list. -/
def passesGate (state : AppState) (request : HttpRequest) : Bool :=
  match readOrigin crates request with
  | some origin => originIsAllowed origin state.allowedOrigins
  | none => true

/-- The declared length of the body is within the limit. -/
def declaresWithin (request : HttpRequest) : Bool :=
  match crates.contentLength request.headers with
  | some length => length ≤ maxBlobBytes
  | none => true

/-- The handler of a route, and what it is given. -/
def routed (request : HttpRequest) : Option Request :=
  match request.target, request.method with
  | .rendezvous, .post =>
    if request.body.length ≤ maxBlobBytes then some (.mint request.headers request.body) else none
  | .record (some code), .get | .record (some code), .head => some (.fetch code)
  | .blob (some code), .post =>
    if request.body.length ≤ maxBlobBytes then some (.upload code request.body) else none
  | .blob (some code), .get | .blob (some code), .head => some (.download code)
  | _, _ => none

/-- The requests that the router passes on. -/
def forwards (state : AppState) (request : HttpRequest) : Option Request :=
  if passesGate crates state request && declaresWithin crates request then routed request
  else none

/-- The response with the answer of a handler: the layer names the origin in it, and to a `HEAD`
request it is sent without a body. -/
def respond (request : HttpRequest) (answer : Except AppError Response) : HttpResponse :=
  sent request (match readOrigin crates request with
    | some origin =>
      { intoResponse answer with
        headers := applyCorsHeaders crates (intoResponse answer).headers origin }
    | none => intoResponse answer)

variable {crates : HttpCrates}

/-- The layer changes only the headers. -/
theorem respond_same (request : HttpRequest) (answer : Except AppError Response) :
    (respond crates request answer).status = (intoResponse answer).status ∧
      (request.method ≠ .head →
        (respond crates request answer).body = (intoResponse answer).body) := by
  unfold respond
  constructor
  · rw [(sent_same request _).1]
    cases readOrigin crates request with
    | none => rfl
    | some origin => rfl
  · intro hmethod
    rw [sent, if_neg hmethod]
    cases readOrigin crates request with
    | none => rfl
    | some origin => rfl

variable {primitives : Primitives} {state : AppState} {request : HttpRequest}

/-- A service that refuses a request at once. -/
def RefusesAtOnce (service : Service) : Prop :=
  ∃ response, service = .done response ∧ 400 ≤ response.status

/-- The routes run the handler, or refuse at once. -/
theorem routes_cases (hcrates : crates.Documented) (primitives : Primitives) (state : AppState)
    (request : HttpRequest) :
    (∀ passed, routed request = some passed → routes primitives crates state request =
      (handle primitives (state.ipHeader crates) passed).map intoResponse) ∧
    (routed request = none → RefusesAtOnce (routes primitives crates state request)) := by
  obtain ⟨method, target, headers, body⟩ := request
  have hbody : ∀ (passed : Request) (next : Bytes → Service),
      next body = (handle primitives (state.ipHeader crates) passed).map intoResponse →
      (∀ other, (if body.length ≤ maxBlobBytes then some passed else none) = some other →
        withBody crates body next =
          (handle primitives (state.ipHeader crates) other).map intoResponse) ∧
      ((if body.length ≤ maxBlobBytes then some passed else none) = none →
        RefusesAtOnce (withBody crates body next)) := by
    intro passed next hnext
    unfold withBody
    by_cases hshort : body.length ≤ maxBlobBytes
    · rw [if_pos hshort, hcrates.readBody_of_le _ _ hshort]
      constructor
      · intro other hother
        rw [← Option.some.inj hother]
        exact hnext
      · intro hnone
        cases hnone
    · obtain ⟨response, hread, htooLarge⟩ :=
        hcrates.readBody_of_lt _ _ (Nat.lt_of_not_le hshort)
      rw [if_neg hshort, hread]
      constructor
      · intro other hother
        cases hother
      · exact fun _ ↦ ⟨response, rfl, by rw [htooLarge.status]; decide⟩
  have hrun : ∀ passed : Request, (∀ other, some passed = some other →
      (handle primitives (state.ipHeader crates) passed).map intoResponse =
        (handle primitives (state.ipHeader crates) other).map intoResponse) ∧
      (some passed = none → RefusesAtOnce
        ((handle primitives (state.ipHeader crates) passed).map intoResponse)) := by
    intro passed
    constructor
    · intro other hother
      rw [← Option.some.inj hother]
    · intro hnone
      cases hnone
  have hrefused : ∀ response : HttpResponse, 400 ≤ response.status →
      (∀ other, (none : Option Request) = some other → (.done response : Service) =
        (handle primitives (state.ipHeader crates) other).map intoResponse) ∧
      ((none : Option Request) = none → RefusesAtOnce (.done response)) := by
    intro response hstatus
    constructor
    · intro other hother
      cases hother
    · exact fun _ ↦ ⟨response, rfl, hstatus⟩
  cases target with
  | unmatched => cases method <;> exact hrefused _ (by decide)
  | rendezvous =>
    cases method with
    | post => exact hbody (.mint headers body) (fun read ↦
        (handle primitives (state.ipHeader crates) (.mint headers read)).map intoResponse) rfl
    | _ => exact hrefused _ (by decide)
  | record code =>
    cases code with
    | none => cases method <;> exact hrefused _ (by decide)
    | some code =>
      cases method with
      | get => exact hrun (.fetch code)
      | head => exact hrun (.fetch code)
      | _ => exact hrefused _ (by decide)
  | blob code =>
    cases code with
    | none => cases method <;> exact hrefused _ (by decide)
    | some code =>
      cases method with
      | get => exact hrun (.download code)
      | head => exact hrun (.download code)
      | post => exact hbody (.upload code body) (fun read ↦
          (handle primitives (state.ipHeader crates) (.upload code read)).map intoResponse) rfl
      | _ => exact hrefused _ (by decide)

/-- A preflight has no route. -/
theorem routed_of_options (hoptions : request.method = .options) : routed request = none := by
  unfold routed
  rw [hoptions]
  cases request.target with
  | record code => cases code <;> rfl
  | blob code => cases code <;> rfl
  | _ => rfl

/-- The limit on the declared length, over the routes. -/
theorem limited_cases (hcrates : crates.Documented) (primitives : Primitives) (state : AppState)
    (request : HttpRequest) :
    (∀ passed, (if declaresWithin crates request then routed request else none) = some passed →
      requestBodyLimitLayer crates request (routes primitives crates state request) =
        (handle primitives (state.ipHeader crates) passed).map intoResponse) ∧
    ((if declaresWithin crates request then routed request else none) = none →
      RefusesAtOnce
        (requestBodyLimitLayer crates request (routes primitives crates state request))) := by
  obtain ⟨hrouted, hunrouted⟩ := routes_cases hcrates primitives state request
  have hwithin : declaresWithin crates request = true ↔
      crates.limitLayer maxBlobBytes request.headers = none := by
    rw [hcrates.limitLayer_eq_none_iff, declaresWithin]
    cases crates.contentLength request.headers with
    | none => simp
    | some length => simp
  unfold requestBodyLimitLayer
  cases hlimit : crates.limitLayer maxBlobBytes request.headers with
  | none =>
    rw [if_pos (hwithin.mpr hlimit)]
    exact ⟨hrouted, hunrouted⟩
  | some response =>
    have hlong : ¬ declaresWithin crates request = true := fun hdeclares ↦ by
      rw [hwithin.mp hdeclares] at hlimit
      cases hlimit
    rw [if_neg hlong]
    constructor
    · intro passed hpassed
      cases hpassed
    · refine fun _ ↦ ⟨response, rfl, ?_⟩
      rw [(hcrates.tooLarge _ _ response hlimit).status]
      decide

/-- The router passes on exactly the requests that `forwards` says, and refuses the others, except
that it answers a preflight. -/
theorem buildRouter_forwards (hcrates : crates.Documented) (primitives : Primitives)
    (state : AppState) (request : HttpRequest) :
    (∀ passed, forwards crates state request = some passed →
      buildRouter primitives crates state request =
        (handle primitives (state.ipHeader crates) passed).map (respond crates request)) ∧
    (forwards crates state request = none → (∃ response,
      buildRouter primitives crates state request = .done response) ∧
      (request.method ≠ .options →
        RefusesAtOnce (buildRouter primitives crates state request))) := by
  have hlimited := limited_cases hcrates primitives state request
  have hsent : ∀ response : HttpResponse, 400 ≤ response.status →
      RefusesAtOnce (.done (sent request response)) := by
    intro response hstatus
    refine ⟨_, rfl, ?_⟩
    rw [(sent_same request response).1]
    exact hstatus
  have hlayer : ∀ next : Service, corsLayer crates state request next =
      if request.method = .options then
        .done (preflightResponse crates (readOrigin crates request) state.allowedOrigins)
      else
        match readOrigin crates request with
        | some origin =>
          if originIsAllowed origin state.allowedOrigins then
            next.map fun response ↦
              { response with headers := applyCorsHeaders crates response.headers origin }
          else .done forbiddenOrigin
        | none => next := fun next ↦ rfl
  unfold forwards buildRouter respond passesGate
  rw [hlayer]
  by_cases hoptions : request.method = .options
  · rw [if_pos hoptions, routed_of_options hoptions]
    constructor
    · intro passed hpassed
      split_ifs at hpassed
    · exact fun _ ↦ ⟨⟨_, rfl⟩, fun hother ↦ absurd hoptions hother⟩
  · rw [if_neg hoptions]
    cases readOrigin crates request with
    | none =>
      simp only [Bool.true_and]
      constructor
      · intro passed hpassed
        rw [hlimited.1 passed hpassed, Program.map_map]
        rfl
      · intro hnone
        obtain ⟨response, hdone, hstatus⟩ := hlimited.2 hnone
        rw [hdone]
        exact ⟨⟨_, rfl⟩, fun _ ↦ hsent response hstatus⟩
    | some origin =>
      by_cases hallowed : originIsAllowed origin state.allowedOrigins = true
      · simp only [hallowed, Bool.true_and, if_true]
        constructor
        · intro passed hpassed
          rw [hlimited.1 passed hpassed, Program.map_map, Program.map_map]
          rfl
        · intro hnone
          obtain ⟨response, hdone, hstatus⟩ := hlimited.2 hnone
          rw [hdone]
          exact ⟨⟨_, rfl⟩, fun _ ↦ hsent _ hstatus⟩
      · have hrefused := Bool.eq_false_iff.mpr hallowed
        simp only [hrefused, Bool.false_and, Bool.false_eq_true, if_false]
        constructor
        · intro passed hpassed
          cases hpassed
        · exact fun _ ↦ ⟨⟨_, rfl⟩, fun _ ↦ hsent forbiddenOrigin (by decide)⟩

theorem routes_buildRouter (hcrates : crates.Documented) (primitives : Primitives)
    (state : AppState) :
    Routes (buildRouter primitives crates state) (handle primitives (state.ipHeader crates))
      (forwards crates state) (respond crates) := by
  intro request
  obtain ⟨hforwards, hanswers⟩ := buildRouter_forwards hcrates primitives state request
  exact ⟨hforwards, fun hnone ↦ (hanswers hnone).1⟩

/-! ### Runs -/

/-- The state of a run of the backend over HTTP. -/
abbrev Http := Threads Shared HttpRequest StoreCall StoreCall.Result HttpResponse

namespace Http

/-- The backend over HTTP as a system. -/
def automaton (primitives : Primitives) (crates : HttpCrates) (state : AppState) :
    Automaton Http (ThreadsEvent HttpRequest Passage) :=
  Threads.automaton machine (buildRouter primitives crates state)

/-- An empty store, and the readings of the two clocks. -/
def start (wall clock : ℕ) : Http :=
  Threads.start ⟨.empty, wall, clock⟩

end Http

variable {wall clock : ℕ} {http : Http} {passed : List ℕ} {relay : Relay}

/-- In every run over HTTP the handlers behind the router run as by themselves: there is a run of
the handlers with the same store, the same clocks and the same calls, in which each request that the
router passes on has a handler. What the handler answers is the response, with the headers of the
layer; the other requests have been answered without a call. -/
theorem relay_of_http (hcrates : crates.Documented)
    (hreaches : (Http.automaton primitives crates state).Reaches (Http.start wall clock) http) :
    ∃ passed relay,
      (Relay.automaton primitives (state.ipHeader crates)).Reaches (Relay.start wall clock) relay ∧
      Threads.Behind (forwards crates state) (respond crates) passed http relay :=
  Threads.exists_of_routed (routes_buildRouter hcrates primitives state) hreaches

/-- The response of a request that is passed on is the answer of its handler. -/
theorem answer_of_response
    (hbehind : Threads.Behind (forwards crates state) (respond crates) passed http relay)
    {thread : ℕ} {response : HttpResponse} {request : HttpRequest} {routed : Request}
    (hthread : http.threads[thread]? = some ⟨request, .done response⟩)
    (hforwards : forwards crates state request = some routed) :
    ∃ (place : ℕ) (answer : Except AppError Response),
      passed[place]? = some thread ∧ relay.threads[place]? = some ⟨routed, .done answer⟩ ∧
      response = respond crates request answer := by
  obtain ⟨place, rest, hplace, hrelay, hdone⟩ := hbehind.inner_thread hthread hforwards
  obtain ⟨answer, rfl, hresponse⟩ := Program.map_eq_done_iff.mp hdone.symm
  exact ⟨place, answer, hplace, hrelay, hresponse⟩

/-! ### Pickups -/

/-- A download was answered with bytes. -/
def Served (http : Http) (thread : ℕ) (code : String) (bytes : Bytes) : Prop :=
  ∃ request response, http.threads[thread]? = some ⟨request, .done response⟩ ∧
    request.method = .get ∧ request.target = .blob (some code) ∧
    response.status = 200 ∧ response.body = bytes

/-- An upload was answered as accepted. -/
def Stored (http : Http) (thread : ℕ) (code : String) (bytes : Bytes) : Prop :=
  ∃ request response, http.threads[thread]? = some ⟨request, .done response⟩ ∧
    request.method = .post ∧ request.target = .blob (some code) ∧ request.body = bytes ∧
    response.status = 204

/-- A request that got a response of success was passed on, unless it is a preflight. -/
theorem forwards_of_success (hcrates : crates.Documented)
    (hreaches : (Http.automaton primitives crates state).Reaches (Http.start wall clock) http)
    {thread : ℕ}
    {request : HttpRequest} {response : HttpResponse}
    (hthread : http.threads[thread]? = some ⟨request, .done response⟩)
    (hmethod : request.method ≠ .options) (hstatus : response.status < 400) :
    ∃ routed, forwards crates state request = some routed := by
  cases hforwards : forwards crates state request with
  | some routed => exact ⟨routed, rfl⟩
  | none =>
    have hrefused := ((buildRouter_forwards hcrates primitives state request).2 hforwards).2 hmethod
    obtain ⟨refusal, hdone, hrefusal⟩ := hrefused
    have hconsistent : Threads.Consistent (buildRouter primitives crates state) http :=
      Threads.consistent_of_reaches hreaches
    have hruns := hconsistent.runs hthread
    rw [hdone] at hruns
    obtain ⟨-, hsame⟩ := Program.runs_done_iff.mp hruns
    cases hsame
    exact absurd hstatus (Nat.not_lt_of_le hrefusal)

/-- What the router passes on for a request to the route of a blob. -/
theorem forwards_blob {code : String} {routed : Request}
    (htarget : request.target = .blob (some code))
    (hforwards : forwards crates state request = some routed) :
    (request.method = .get → routed = .download code) ∧
      (request.method = .post → routed = .upload code request.body) := by
  have hrouted : Backend.routed request = some routed := by
    unfold forwards at hforwards
    split_ifs at hforwards
    exact hforwards
  unfold Backend.routed at hrouted
  rw [htarget] at hrouted
  constructor
  · intro hget
    rw [hget] at hrouted
    exact (Option.some.inj hrouted).symm
  · intro hpost
    rw [hpost] at hrouted
    dsimp only at hrouted
    split_ifs at hrouted
    exact (Option.some.inj hrouted).symm

/-- The request of an upload handler. -/
theorem request_of_upload {code : String} {bytes : Bytes}
    (hforwards : forwards crates state request = some (.upload code bytes)) :
    request.method = .post ∧ request.target = .blob (some code) ∧ request.body = bytes := by
  have hrouted : routed request = some (.upload code bytes) := by
    unfold forwards at hforwards
    split_ifs at hforwards
    exact hforwards
  unfold routed at hrouted
  split at hrouted
  · split_ifs at hrouted
    cases hrouted
  · cases hrouted
  · cases hrouted
  · next htarget hmethod =>
    split_ifs at hrouted
    cases hrouted
    exact ⟨hmethod, htarget, rfl⟩
  · cases hrouted
  · cases hrouted
  · cases hrouted

/-- A request to pick up a blob that was answered with 200 was passed on, and its handler was given
the blob. -/
theorem downloaded_of_served (hcrates : crates.Documented)
    (hreaches : (Http.automaton primitives crates state).Reaches (Http.start wall clock) http)
    (hbehind : Threads.Behind (forwards crates state) (respond crates) passed http relay)
    {thread : ℕ} {code : String} {bytes : Bytes} (hserved : Served http thread code bytes) :
    ∃ place : ℕ, passed[place]? = some thread ∧ Downloaded relay place code bytes := by
  obtain ⟨request, response, hthread, hget, htarget, hstatus, hbody⟩ := hserved
  have hmethod : request.method ≠ .options := by
    rw [hget]
    decide
  obtain ⟨routed, hforwards⟩ := forwards_of_success hcrates hreaches hthread hmethod (by omega)
  obtain rfl := (forwards_blob htarget hforwards).1 hget
  obtain ⟨place, answer, hplace, hrelay, rfl⟩ := answer_of_response hbehind hthread hforwards
  obtain ⟨hsameStatus, hsameBody⟩ := respond_same request answer
  rw [hsameStatus] at hstatus
  rw [hsameBody (by rw [hget]; decide)] at hbody
  refine ⟨place, hplace, ?_⟩
  unfold Downloaded
  rw [hrelay]
  cases answer with
  | error error => cases error <;> cases hstatus
  | ok given =>
    cases given with
    | noContent => cases hstatus
    | octetStream served =>
      change served = bytes at hbody
      rw [hbody]

/-- A handler that accepted an upload works for a request that was answered as accepted. -/
theorem stored_of_accepted
    (hbehind : Threads.Behind (forwards crates state) (respond crates) passed http relay)
    {place : ℕ} {code : String} {bytes : Bytes} (haccepted : Accepted relay place code bytes) :
    ∃ thread : ℕ, passed[place]? = some thread ∧ Stored http thread code bytes := by
  obtain ⟨thread, request, hplace, hforwards, hthread⟩ := hbehind.outer_thread haccepted
  obtain ⟨hmethod, htarget, hbody⟩ := request_of_upload hforwards
  refine ⟨thread, hplace, request, _, hthread, hmethod, htarget, hbody, ?_⟩
  rw [(respond_same request _).1]
  rfl

/-- A pickup that was answered with 200 got the body of an upload that was accepted. -/
theorem stored_of_served (hcrates : crates.Documented)
    (hreaches : (Http.automaton primitives crates state).Reaches (Http.start wall clock) http)
    {download : ℕ} {code : String} {bytes : Bytes} (hserved : Served http download code bytes) :
    ∃ upload, Stored http upload code bytes := by
  obtain ⟨passed, relay, hrelay, hbehind⟩ :=
    Threads.exists_of_routed (routes_buildRouter hcrates primitives state) hreaches
  obtain ⟨place, -, hdownloaded⟩ := downloaded_of_served hcrates hreaches hbehind hserved
  obtain ⟨upload, hpicks⟩ := picksUp_of_downloaded hrelay hdownloaded
  obtain ⟨thread, -, hstored⟩ := stored_of_accepted hbehind hpicks.accepted
  exact ⟨thread, hstored⟩

/-- In every run over HTTP of any requests, interleaved call by call: there is an assignment of the
pickups that were answered with 200 to uploads under the same code that were answered with 204, one
to one, under which each pickup got exactly the body of its upload. -/
theorem http_pickup (hcrates : crates.Documented)
    (hreaches : (Http.automaton primitives crates state).Reaches (Http.start wall clock) http) :
    ∃ source : ℕ → ℕ,
      (∀ download code bytes, Served http download code bytes →
        Stored http (source download) code bytes) ∧
      ∀ download other code otherCode bytes otherBytes, Served http download code bytes →
        Served http other otherCode otherBytes → source download = source other →
        download = other := by
  obtain ⟨passed, relay, hrelay, hbehind⟩ :=
    Threads.exists_of_routed (routes_buildRouter hcrates primitives state) hreaches
  have hconsistent : Threads.Consistent (handle primitives (state.ipHeader crates)) relay :=
    Threads.consistent_of_reaches hrelay
  -- Each pickup has an upload behind the router.
  have hsource : ∀ download, ∃ thread, ∀ code bytes, Served http download code bytes →
      Stored http thread code bytes ∧ ∃ (upload place : ℕ), passed[upload]? = some thread ∧
        passed[place]? = some download ∧ PicksUp relay upload place code bytes := by
    intro download
    by_cases hany : ∃ code bytes, Served http download code bytes
    · obtain ⟨code, bytes, hserved⟩ := hany
      obtain ⟨place, hplace, hdownloaded⟩ := downloaded_of_served hcrates hreaches hbehind hserved
      obtain ⟨upload, hpicks⟩ := picksUp_of_downloaded hrelay hdownloaded
      obtain ⟨thread, hthread, hstored⟩ := stored_of_accepted hbehind hpicks.accepted
      refine ⟨thread, fun otherCode otherBytes hother ↦ ?_⟩
      obtain ⟨request, response, hrequest, -, htarget, -, hbody⟩ := hserved
      obtain ⟨same, sameResponse, hsame, -, hotherTarget, -, hotherBody⟩ := hother
      rw [hrequest, Option.some.injEq, Thread.mk.injEq] at hsame
      obtain ⟨rfl, hresponse⟩ := hsame
      obtain rfl : response = sameResponse := by
        cases hresponse
        rfl
      rw [htarget] at hotherTarget
      cases hotherTarget
      rw [hbody] at hotherBody
      subst hotherBody
      exact ⟨hstored, upload, place, hthread, hplace, hpicks⟩
    · exact ⟨0, fun code bytes hserved ↦ (hany ⟨code, bytes, hserved⟩).elim⟩
  choose source hsource using hsource
  refine ⟨source, fun download code bytes hserved ↦ (hsource download code bytes hserved).1, ?_⟩
  intro download other code otherCode bytes otherBytes hserved hother heq
  obtain ⟨-, upload, place, hupload, hplace, hpicks⟩ := hsource download code bytes hserved
  obtain ⟨-, second, otherPlace, hsecond, hotherPlace, hotherPicks⟩ :=
    hsource other otherCode otherBytes hother
  rw [heq] at hupload
  have hlt := (List.getElem?_eq_some_iff.mp hupload).1
  obtain rfl := (List.getElem?_inj hlt hbehind.nodup).mp (hupload.trans hsecond.symm)
  obtain rfl := hpicks.download_eq hconsistent hotherPicks
  rw [hplace, Option.some.injEq] at hotherPlace
  exact hotherPlace

/-! ### An exchange, and a request of another origin -/

/-- A request of the page. -/
def pageRequest (method : Method) (target : Target) (body : Bytes) : HttpRequest :=
  ⟨method, target, [(originHeader, utf8 "https://app.example")], body⟩

/-- A recipient mints, a page of another origin asks for the blob, a sender uploads it and the
recipient picks it up. -/
def pageExchange : List (ThreadsEvent HttpRequest Passage) :=
  let moves (thread : ℕ) : ThreadsEvent HttpRequest Passage := .resume thread ⟨0, 0⟩
  let blob : Target := .blob (some "JCAEZF2HWP7K")
  [.arrive (pageRequest .post .rendezvous recipientKey), moves 0, moves 0, moves 0,
    .arrive ⟨.get, blob, [(originHeader, utf8 "https://other.example")], []⟩,
    .arrive (pageRequest .post blob [1, 2, 3]), moves 2, moves 2, moves 2,
    .elapse ⟨200, 200⟩, .arrive (pageRequest .get blob []), moves 3, moves 3]

/-- Three of the four requests have a handler. -/
theorem relay_of_http_pageExchange : ∃ http passed relay,
    (Http.automaton tabulated releasedCrates oneOrigin).run (Http.start 1700000000 1700000000)
      pageExchange = some http ∧
    http.threads.length = 4 ∧
    (Relay.automaton tabulated (oneOrigin.ipHeader releasedCrates)).Reaches
      (Relay.start 1700000000 1700000000) relay ∧
    Threads.Behind (forwards releasedCrates oneOrigin) (respond releasedCrates) passed http
      relay := by
  have hlength : ((Http.automaton tabulated releasedCrates oneOrigin).run
      (Http.start 1700000000 1700000000) pageExchange).map (·.threads.length) = some 4 := by
    decide +kernel
  obtain ⟨http, hrun, hthreads⟩ := Option.map_eq_some_iff.mp hlength
  obtain ⟨passed, relay, hrelay, hbehind⟩ := relay_of_http documented_releasedCrates
    (Automaton.reaches_of_run hrun)
  exact ⟨http, passed, relay, hrun, hthreads, hrelay, hbehind⟩

/-- The pickup of the recipient gets the upload. -/
theorem http_pickup_pageExchange : ∃ http,
    (Http.automaton tabulated releasedCrates oneOrigin).run (Http.start 1700000000 1700000000)
      pageExchange = some http ∧
    Served http 3 "JCAEZF2HWP7K" [1, 2, 3] ∧
    ∃ upload, Stored http upload "JCAEZF2HWP7K" [1, 2, 3] := by
  have hanswer : ((Http.automaton tabulated releasedCrates oneOrigin).run
      (Http.start 1700000000 1700000000) pageExchange).bind (fun http ↦
        (http.answer? 3).map fun answered ↦
          (answered.1.method, answered.1.target, answered.2.status, answered.2.body)) =
      some (.get, .blob (some "JCAEZF2HWP7K"), 200, [1, 2, 3]) := by decide +kernel
  obtain ⟨http, hrun, hanswer⟩ := Option.bind_eq_some_iff.mp hanswer
  obtain ⟨⟨request, response⟩, hdone, hvalues⟩ := Option.map_eq_some_iff.mp hanswer
  obtain ⟨hmethod, htarget, hstatus, hbody⟩ := by simpa only [Prod.mk.injEq] using hvalues
  have hserved : Served http 3 "JCAEZF2HWP7K" [1, 2, 3] :=
    ⟨request, response, Threads.answer?_eq_some_iff.mp hdone, hmethod, htarget, hstatus, hbody⟩
  obtain ⟨source, hstored, -⟩ := http_pickup documented_releasedCrates
    (Automaton.reaches_of_run hrun)
  exact ⟨http, hrun, hserved, source 3, hstored 3 _ _ hserved⟩

end OpfsWebauthn.Backend
