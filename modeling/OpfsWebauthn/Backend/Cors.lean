import OpfsWebauthn.Share.Exchange

/-!
# The origin gate

`cors.rs` and `router.rs`. The layer wraps every route and the fallback: it answers a preflight
itself, refuses a request from an origin that is not on the allow-list, and names the origin in the
response to the others.

The layer reads the origin with `to_str`, which fails on a byte outside visible ASCII. Such a
request is treated as one without an origin, so a simple request passes the gate.
`gatesOrigin_iff` says for which requests the gate holds.

The `http`, `axum` and `tower-http` crates are a parameter, `HttpCrates`: what is proved holds
whatever they do within their documentation, `HttpCrates.Documented`.
-/

set_option autoImplicit false
set_option relaxedAutoImplicit false

namespace OpfsWebauthn.Backend

open Foundation Storage Crypto Share

/-! ### Requests and responses -/

/-- `Method`. -/
inductive Method
  | get
  | head
  | post
  | options
  | other (name : String)
deriving DecidableEq, Repr

/-- The path of a request, as the router matches it. A code that is not UTF-8 after percent-decoding
is nothing. -/
inductive Target
  /-- `/rendezvous`. -/
  | rendezvous
  /-- `/rendezvous/:code`. -/
  | record (code : Option String)
  /-- `/rendezvous/:code/blob`. -/
  | blob (code : Option String)
  /-- Any other path. -/
  | unmatched
deriving DecidableEq, Repr

/-- `Request<Body>`. -/
structure HttpRequest where
  method : Method
  target : Target
  headers : HeaderMap
  body : Bytes
deriving DecidableEq, Repr

/-- `Response`. -/
structure HttpResponse where
  status : ℕ
  headers : HeaderMap
  body : Bytes
deriving DecidableEq, Repr

/-- `AppState`, without the store and the clock. -/
structure AppState where
  allowedOrigins : List String
  trustedIpHeader : Option String
deriving DecidableEq, Repr

/-- `header::ACCESS_CONTROL_ALLOW_ORIGIN`. -/
def accessControlAllowOrigin : String := "access-control-allow-origin"

/-- What the router and the layers use of the `http`, `axum` and `tower-http` crates. -/
structure HttpCrates where
  /-- `HeaderValue::to_str`. -/
  toStr : Bytes → Option String
  /-- `HeaderValue::from_str`. -/
  fromStr : String → Option Bytes
  /-- `HeaderMap::insert`. -/
  insert : HeaderMap → String × Bytes → HeaderMap
  /-- The extractor `Bytes` under a limit: the body, or the response of the rejection. -/
  readBody : ℕ → Bytes → Except HttpResponse Bytes
  /-- The length that the headers declare. -/
  contentLength : HeaderMap → Option ℕ
  /-- `RequestBodyLimitLayer`: the response to a request that it does not pass on. -/
  limitLayer : ℕ → HeaderMap → Option HttpResponse

/-- The rejection of a body that is too long. It names no origin. -/
structure TooLarge (response : HttpResponse) : Prop where
  status : response.status = 413
  unnamed : ∀ value, (accessControlAllowOrigin, value) ∉ response.headers

/-- The documented behaviour of these crates. -/
structure HttpCrates.Documented (crates : HttpCrates) : Prop where
  /-- The text of a value has its bytes. -/
  toStr : ∀ value text, crates.toStr value = some text → utf8 text = value
  /-- The value of a text has its bytes. -/
  fromStr : ∀ text value, crates.fromStr text = some value → value = utf8 text
  /-- An insertion replaces the values of the name. -/
  mem_insert : ∀ headers header other, other ∈ crates.insert headers header ↔
    (other ∈ headers ∧ other.1 ≠ header.1) ∨ other = header
  /-- A body within the limit is read. -/
  readBody_of_le : ∀ limit body, body.length ≤ limit → crates.readBody limit body = .ok body
  /-- A longer one is rejected. -/
  readBody_of_lt : ∀ limit body, limit < body.length →
    ∃ response, crates.readBody limit body = .error response ∧ TooLarge response
  /-- The layer passes a request on unless it declares a length over the limit. -/
  limitLayer_eq_none_iff : ∀ limit headers, crates.limitLayer limit headers = none ↔
    ∀ length, crates.contentLength headers = some length → length ≤ limit
  /-- It rejects the others. -/
  tooLarge : ∀ limit headers response, crates.limitLayer limit headers = some response →
    TooLarge response

/-- A service: what answers a request, with calls on the store. -/
abbrev Service := Program StoreCall StoreCall.Result HttpResponse

/-- A header in the bytes of its text. -/
def staticHeader (name value : String) : String × Bytes :=
  (name, utf8 value)

/-- `IntoResponse` of the result of a handler. -/
def intoResponse (answer : Except AppError Response) : HttpResponse :=
  match answer with
  | .ok (.octetStream bytes) =>
    ⟨(Response.octetStream bytes).status,
      [staticHeader "content-type" "application/octet-stream"], responseBody answer⟩
  | .ok .noContent => ⟨Response.noContent.status, [], responseBody answer⟩
  | .error error =>
    ⟨error.status, [staticHeader "content-type" "application/json"], responseBody answer⟩

/-! ### The router -/

/-- A rejection of the framework, as plain text. -/
def rejection (status : ℕ) (text : String) : HttpResponse :=
  ⟨status, [staticHeader "content-type" "text/plain; charset=utf-8"], utf8 text⟩

/-- `Path<String>`. -/
def withCode (code : Option String) (next : String → Service) : Service :=
  match code with
  | some code => next code
  | none => .done (rejection 400 "Invalid URL: Invalid UTF-8 in `code`")

variable (primitives : Primitives) (crates : HttpCrates)

/-- `Bytes`, under the limit of the body layer. -/
def withBody (body : Bytes) (next : Bytes → Service) : Service :=
  match crates.readBody maxBlobBytes body with
  | .ok body => next body
  | .error response => .done response

/-- The trusted header of the state, as the handlers read it. -/
def AppState.ipHeader (state : AppState) : TrustedIpHeader :=
  ⟨state.trustedIpHeader, crates.toStr⟩

/-- The routes: one for each handler. A `get` route answers a `HEAD` request as well. -/
def routes (state : AppState) (request : HttpRequest) : Service :=
  let run (routed : Request) : Service :=
    (handle primitives (state.ipHeader crates) routed).map intoResponse
  match request.target, request.method with
  | .rendezvous, .post => withBody crates request.body fun body ↦ run (.mint request.headers body)
  | .record code, .get | .record code, .head => withCode code fun code ↦ run (.fetch code)
  | .blob code, .post =>
    withCode code fun code ↦ withBody crates request.body fun body ↦ run (.upload code body)
  | .blob code, .get | .blob code, .head => withCode code fun code ↦ run (.download code)
  | .rendezvous, _ => .done ⟨405, [staticHeader "allow" "POST"], []⟩
  | .record _, _ => .done ⟨405, [staticHeader "allow" "GET,HEAD"], []⟩
  | .blob _, _ => .done ⟨405, [staticHeader "allow" "POST,GET,HEAD"], []⟩
  | .unmatched, _ => .done ⟨404, [], []⟩

/-- `RequestBodyLimitLayer::new(MAX_BLOB_BYTES)`. -/
def requestBodyLimitLayer (request : HttpRequest) (next : Service) : Service :=
  match crates.limitLayer maxBlobBytes request.headers with
  | some response => .done response
  | none => next

/-! ### The layer -/

/-- `ALLOWED_METHODS`. -/
def allowedMethods : String := "GET, POST, OPTIONS"

/-- `ALLOWED_HEADERS`. -/
def allowedHeaders : String := "content-type"

/-- `PREFLIGHT_MAX_AGE`. -/
def preflightMaxAge : String := "86400"

/-- `header::ORIGIN`. -/
def originHeader : String := "origin"

/-- `origin_is_allowed(origin, allowed)`. -/
def originIsAllowed (origin : String) (allowed : List String) : Bool :=
  allowed.any fun candidate ↦ candidate = origin

/-- `apply_cors_headers(headers, origin)`. -/
def applyCorsHeaders (headers : HeaderMap) (origin : String) : HeaderMap :=
  let named :=
    match crates.fromStr origin with
    | some value => crates.insert headers (accessControlAllowOrigin, value)
    | none => headers
  [staticHeader "vary" "origin", staticHeader "access-control-allow-methods" allowedMethods,
    staticHeader "access-control-allow-headers" allowedHeaders,
    staticHeader "access-control-max-age" preflightMaxAge].foldl crates.insert named

/-- `preflight_response(origin, allowed)`. -/
def preflightResponse (origin : Option String) (allowed : List String) : HttpResponse :=
  match origin with
  | some origin =>
    if originIsAllowed origin allowed then ⟨204, applyCorsHeaders crates [] origin, []⟩
    else ⟨403, [], []⟩
  | none => ⟨403, [], []⟩

/-- `forbidden_origin()`. -/
def forbiddenOrigin : HttpResponse where
  status := 403
  headers := [staticHeader "content-type" "application/json"]
  body := utf8 "\x7b\"error\":\"origin not allowed\"\x7d"

/-- `cors_layer(state, request, next)`. -/
def corsLayer (state : AppState) (request : HttpRequest) (next : Service) : Service :=
  let origin := (request.headers.lookup originHeader).bind crates.toStr
  if request.method = .options then .done (preflightResponse crates origin state.allowedOrigins)
  else
    match origin with
    | some origin =>
      if originIsAllowed origin state.allowedOrigins then
        next.map fun response ↦
          { response with headers := applyCorsHeaders crates response.headers origin }
      else .done forbiddenOrigin
    | none => next

/-- The response as it is sent: the one to a `HEAD` request has no body. -/
def sent (request : HttpRequest) (response : HttpResponse) : HttpResponse :=
  if request.method = .head then { response with body := [] } else response

/-- `build_router(state)`. -/
def buildRouter (state : AppState) (request : HttpRequest) : Service :=
  (corsLayer crates state request
    (requestBodyLimitLayer crates request (routes primitives crates state request))).map
      (sent request)

/-! ### Decoded values -/

/-- The bytes of the allowed origins. -/
def AppState.allowedValues (state : AppState) : List Bytes :=
  state.allowedOrigins.map utf8

/-- A decoded value is allowed exactly when its bytes are those of an allowed origin. -/
theorem originIsAllowed_iff {crates : HttpCrates} (hcrates : crates.Documented) {state : AppState}
    {value : Bytes} {origin : String} (horigin : crates.toStr value = some origin) :
    originIsAllowed origin state.allowedOrigins = true ↔ value ∈ state.allowedValues := by
  rw [← hcrates.toStr value origin horigin, AppState.allowedValues,
    List.mem_map_of_injective utf8_injective]
  simp [originIsAllowed]

/-! ### What the routes answer -/

/-- A response that is not the refusal of an origin, and names none. -/
def Plain (response : HttpResponse) : Prop :=
  response.status ≠ 403 ∧ ∀ value, (accessControlAllowOrigin, value) ∉ response.headers

/-- A response with one header of another name is plain. -/
theorem plain_of_header {status : ℕ} {name value : String} {body : Bytes} (hstatus : status ≠ 403)
    (hname : accessControlAllowOrigin ≠ name) :
    Plain ⟨status, [staticHeader name value], body⟩ := by
  refine ⟨hstatus, fun other hother ↦ hname ?_⟩
  exact congrArg Prod.fst (List.mem_singleton.mp hother)

/-- The responses of the handlers are plain. -/
theorem plain_intoResponse (answer : Except AppError Response) : Plain (intoResponse answer) := by
  cases answer with
  | error error =>
    have hstatus : error.status ≠ 403 := by cases error <;> exact of_decide_eq_true rfl
    exact plain_of_header hstatus (by decide)
  | ok response =>
    cases response with
    | octetStream bytes => exact @plain_of_header 200 _ _ bytes (by decide) (by decide)
    | noContent => exact ⟨by decide, fun value ↦ List.not_mem_nil⟩

/-- A code that was decoded, or the rejection. -/
theorem answers_withCode {condition : HttpResponse → Prop} {code : Option String}
    {next : String → Service} (hrejected : ∀ text, condition (rejection 400 text))
    (hnext : ∀ decoded, (next decoded).Answers condition) :
    (withCode code next).Answers condition := by
  cases code with
  | none => exact hrejected _
  | some decoded => exact hnext decoded

variable {primitives : Primitives} {crates : HttpCrates} {state : AppState} {request : HttpRequest}

/-- The rejection of a body is plain. -/
theorem TooLarge.plain {response : HttpResponse} (htooLarge : TooLarge response) :
    Plain response := by
  refine ⟨?_, htooLarge.unnamed⟩
  rw [htooLarge.status]
  decide

/-- A body that was read, or the rejection. -/
theorem answers_withBody (hcrates : crates.Documented) {condition : HttpResponse → Prop}
    {body : Bytes} {next : Bytes → Service}
    (hrejected : ∀ response, TooLarge response → condition response)
    (hnext : (next body).Answers condition) : (withBody crates body next).Answers condition := by
  unfold withBody
  rcases Nat.lt_or_ge maxBlobBytes body.length with hlong | hshort
  · obtain ⟨response, hread, htooLarge⟩ := hcrates.readBody_of_lt _ _ hlong
    rw [hread]
    exact hrejected response htooLarge
  · rw [hcrates.readBody_of_le _ _ hshort]
    exact hnext

/-- The routes answer with plain responses. -/
theorem plain_routes (hcrates : crates.Documented) :
    (routes primitives crates state request).Answers Plain := by
  have hrun : ∀ routed, ((handle primitives (state.ipHeader crates) routed).map
      intoResponse).Answers Plain := fun routed ↦
    (Program.answers_true _).map fun answer _ ↦ plain_intoResponse answer
  have hpath : ∀ text, Plain (rejection 400 text) := fun text ↦
    plain_of_header (by decide) (by decide)
  have hbody : ∀ response, TooLarge response → Plain response := fun _ htooLarge ↦
    htooLarge.plain
  have hmethod : ∀ methods, Plain ⟨405, [staticHeader "allow" methods], []⟩ := fun methods ↦
    plain_of_header (by decide) (by decide)
  unfold routes
  dsimp only
  split
  · exact answers_withBody hcrates hbody (hrun _)
  · exact answers_withCode hpath fun code ↦ hrun _
  · exact answers_withCode hpath fun code ↦ hrun _
  · exact answers_withCode hpath fun code ↦ answers_withBody hcrates hbody (hrun _)
  · exact answers_withCode hpath fun code ↦ hrun _
  · exact answers_withCode hpath fun code ↦ hrun _
  · exact hmethod _
  · exact hmethod _
  · exact hmethod _
  · exact ⟨by decide, fun value ↦ List.not_mem_nil⟩

/-- So do they under the limit on the body. -/
theorem plain_requestBodyLimitLayer (hcrates : crates.Documented) :
    (requestBodyLimitLayer crates request (routes primitives crates state request)).Answers
      Plain := by
  unfold requestBodyLimitLayer
  cases hlimit : crates.limitLayer maxBlobBytes request.headers with
  | none => exact plain_routes hcrates
  | some response => exact (hcrates.tooLarge _ _ response hlimit).plain

/-! ### The origin that a response names -/

/-- The layer names the origin it is given, or what the response named before. -/
theorem mem_applyCorsHeaders (hcrates : crates.Documented) {headers : HeaderMap} {origin : String}
    {value : Bytes}
    (hvalue : (accessControlAllowOrigin, value) ∈ applyCorsHeaders crates headers origin) :
    value = utf8 origin ∨ (accessControlAllowOrigin, value) ∈ headers := by
  have hothers : ∀ (rest : HeaderMap) (named : HeaderMap),
      (∀ header ∈ rest, header.1 ≠ accessControlAllowOrigin) →
      (accessControlAllowOrigin, value) ∈ rest.foldl crates.insert named →
        (accessControlAllowOrigin, value) ∈ named := by
    intro rest
    induction rest with
    | nil => exact fun named _ hmem ↦ hmem
    | cons header rest ih =>
      intro named hrest hmem
      have hinserted := ih _ (fun other hother ↦ hrest other (List.mem_cons_of_mem _ hother)) hmem
      rcases (hcrates.mem_insert _ _ _).mp hinserted with ⟨hnamed, -⟩ | heq
      · exact hnamed
      · exact absurd (congrArg Prod.fst heq).symm (hrest header List.mem_cons_self)
  have hstatic : ∀ header ∈ [staticHeader "vary" "origin",
      staticHeader "access-control-allow-methods" allowedMethods,
      staticHeader "access-control-allow-headers" allowedHeaders,
      staticHeader "access-control-max-age" preflightMaxAge],
      header.1 ≠ accessControlAllowOrigin := by
    simp only [List.forall_mem_cons]
    decide
  have hnamed := hothers _ _ hstatic hvalue
  cases hfrom : crates.fromStr origin with
  | none =>
    rw [hfrom] at hnamed
    exact .inr hnamed
  | some named =>
    rw [hfrom] at hnamed
    rcases (hcrates.mem_insert _ _ _).mp hnamed with ⟨hbefore, -⟩ | heq
    · exact .inr hbefore
    · exact .inl ((congrArg Prod.snd heq).trans (hcrates.fromStr origin named hfrom))

/-- A response that names no origin but allowed ones. -/
def NamesAllowed (state : AppState) (response : HttpResponse) : Prop :=
  ∀ value, (accessControlAllowOrigin, value) ∈ response.headers → value ∈ state.allowedValues

/-! ### The gate -/

/-- The requests that the layer answers with 403. -/
def RefusesRequest (crates : HttpCrates) (state : AppState) (request : HttpRequest) : Prop :=
  match request.headers.lookup originHeader with
  | none => request.method = .options
  | some first =>
    (request.method = .options ∧ crates.toStr first = none) ∨
      (first ∉ state.allowedValues ∧ (request.method = .options ∨ crates.toStr first ≠ none))

/-- A request is answered with 403, and no handler runs: the service makes no call. -/
def Refused (service : Service) : Prop :=
  ∃ response, service = .done response ∧ response.status = 403

/-- A response of a request that passed. -/
def Passed (state : AppState) (response : HttpResponse) : Prop :=
  response.status ≠ 403 ∧ NamesAllowed state response

/-- A service that only answers requests that passed does not refuse. -/
theorem not_refused_of_passed {service : Service} (hpassed : service.Answers (Passed state)) :
    ¬ Refused service := by
  rintro ⟨response, rfl, hstatus⟩
  exact hpassed.1 hstatus

/-- A plain response has passed, also when an allowed origin is named in it. -/
theorem passed_of_plain (hcrates : crates.Documented) {response : HttpResponse}
    (hplain : Plain response) : Passed state response ∧ ∀ value origin,
      crates.toStr value = some origin → value ∈ state.allowedValues →
        Passed state
          { response with headers := applyCorsHeaders crates response.headers origin } := by
  refine ⟨⟨hplain.1, fun value hvalue ↦ absurd hvalue (hplain.2 value)⟩,
    fun value origin horigin hallowed ↦ ⟨hplain.1, fun other hother ↦ ?_⟩⟩
  rcases mem_applyCorsHeaders hcrates hother with rfl | hbefore
  · rw [hcrates.toStr value origin horigin]
    exact hallowed
  · exact absurd hbefore (hplain.2 other)

/-- The layer over plain responses: a request is refused, without an origin in the response, or it
passes. -/
theorem corsLayer_cases (hcrates : crates.Documented) (state : AppState) (request : HttpRequest)
    {next : Service} (hplain : next.Answers Plain) :
    (RefusesRequest crates state request ∧ ∃ response, corsLayer crates state request next =
      .done response ∧ response.status = 403 ∧ NamesAllowed state response) ∨
    (¬ RefusesRequest crates state request ∧
      (corsLayer crates state request next).Answers (Passed state)) := by
  have hnames : NamesAllowed state ⟨403, [], []⟩ := fun value hvalue ↦
    absurd hvalue List.not_mem_nil
  have hforbidden : NamesAllowed state forbiddenOrigin := by
    have hheader : Plain ⟨200, forbiddenOrigin.headers, []⟩ :=
      plain_of_header (by decide) (by decide)
    exact fun value hvalue ↦ absurd hvalue (hheader.2 value)
  have hnext : next.Answers (Passed state) :=
    hplain.mono fun response hresponse ↦ (passed_of_plain hcrates hresponse).1
  unfold corsLayer RefusesRequest
  cases hlookup : request.headers.lookup originHeader with
  | none =>
    dsimp only [Option.bind_none]
    by_cases hoptions : request.method = .options
    · rw [if_pos hoptions]
      exact .inl ⟨hoptions, _, rfl, rfl, hnames⟩
    · rw [if_neg hoptions]
      exact .inr ⟨hoptions, hnext⟩
  | some first =>
    dsimp only [Option.bind_some]
    cases horigin : crates.toStr first with
    | none =>
      by_cases hoptions : request.method = .options
      · rw [if_pos hoptions]
        exact .inl ⟨.inl ⟨hoptions, rfl⟩, _, rfl, rfl, hnames⟩
      · rw [if_neg hoptions]
        refine .inr ⟨?_, hnext⟩
        rintro (⟨hmethod, -⟩ | ⟨-, hmethod | hnone⟩)
        · exact hoptions hmethod
        · exact hoptions hmethod
        · exact hnone rfl
    | some origin =>
      have hsome : ¬ (request.method = .options ∧ some origin = none) := fun hboth ↦ nomatch hboth.2
      by_cases hallowed : originIsAllowed origin state.allowedOrigins
      · have hvalue := (originIsAllowed_iff hcrates horigin).mp hallowed
        refine .inr ⟨fun hrefuses ↦ (hrefuses.resolve_left hsome).1 hvalue, ?_⟩
        by_cases hoptions : request.method = .options
        · have hempty : Plain ⟨204, [], []⟩ := ⟨by decide, fun value ↦ List.not_mem_nil⟩
          rw [if_pos hoptions, preflightResponse, if_pos hallowed]
          exact (passed_of_plain hcrates hempty).2 first origin horigin hvalue
        · rw [if_neg hoptions]
          simp only [if_pos hallowed]
          exact hplain.map fun response hresponse ↦
            (passed_of_plain hcrates hresponse).2 first origin horigin hvalue
      · have hvalue : first ∉ state.allowedValues :=
          fun hmem ↦ hallowed ((originIsAllowed_iff hcrates horigin).mpr hmem)
        refine .inl ⟨.inr ⟨hvalue, .inr (Option.some_ne_none origin)⟩, ?_⟩
        by_cases hoptions : request.method = .options
        · rw [if_pos hoptions, preflightResponse, if_neg hallowed]
          exact ⟨_, rfl, rfl, hnames⟩
        · rw [if_neg hoptions]
          simp only [if_neg hallowed]
          exact ⟨_, rfl, rfl, hforbidden⟩

/-- What is sent has the status and the headers of the response. -/
theorem sent_same (request : HttpRequest) (response : HttpResponse) :
    (sent request response).status = response.status ∧
      (sent request response).headers = response.headers := by
  unfold sent
  by_cases hhead : request.method = .head
  · simp only [if_pos hhead, and_self]
  · simp only [if_neg hhead, and_self]

/-- So it names the same origin. -/
theorem namesAllowed_sent {response : HttpResponse} (hnames : NamesAllowed state response) :
    NamesAllowed state (sent request response) := by
  intro value hvalue
  rw [(sent_same request response).2] at hvalue
  exact hnames value hvalue

/-- The layer over the routes: a request is refused, without an origin in the response, or it
passes. -/
theorem buildRouter_cases (hcrates : crates.Documented) (primitives : Primitives)
    (state : AppState) (request : HttpRequest) :
    (RefusesRequest crates state request ∧ ∃ response,
      buildRouter primitives crates state request = .done response ∧ response.status = 403 ∧
        NamesAllowed state response) ∨
    (¬ RefusesRequest crates state request ∧
      (buildRouter primitives crates state request).Answers (Passed state)) := by
  have hplain := @plain_requestBodyLimitLayer primitives crates state request hcrates
  unfold buildRouter
  rcases corsLayer_cases hcrates state request hplain with
    ⟨hrefuses, response, hdone, hstatus, hnames⟩ | ⟨hpasses, hanswers⟩
  · rw [hdone]
    exact .inl ⟨hrefuses, _, rfl, (sent_same request response).1.trans hstatus,
      namesAllowed_sent hnames⟩
  · refine .inr ⟨hpasses, hanswers.map fun response hpassed ↦ ⟨?_, namesAllowed_sent hpassed.2⟩⟩
    rw [(sent_same request response).1]
    exact hpassed.1

/-- The gate: a request with an origin that is not allowed is refused, and no response names an
origin that is not allowed. -/
def GatesOrigin (primitives : Primitives) (crates : HttpCrates) (state : AppState)
    (request : HttpRequest) : Prop :=
  (∀ value, (originHeader, value) ∈ request.headers → value ∉ state.allowedValues →
    Refused (buildRouter primitives crates state request)) ∧
  ∀ trace response, (buildRouter primitives crates state request).Runs trace (.done response) →
    NamesAllowed state response

/-- Every origin of the request is allowed, or the layer refuses by the first one: it is not allowed
and can be decoded, or the request is a preflight with an origin that is not allowed or cannot be
decoded. -/
def GateDecides (crates : HttpCrates) (state : AppState) (request : HttpRequest) : Prop :=
  (∀ value, (originHeader, value) ∈ request.headers → value ∈ state.allowedValues) ∨
    ∃ first, request.headers.lookup originHeader = some first ∧
      ((request.method = .options ∧ crates.toStr first = none) ∨
        (first ∉ state.allowedValues ∧ (request.method = .options ∨ crates.toStr first ≠ none)))

/-- The layer refuses exactly the requests that it is said to refuse. -/
theorem refused_buildRouter_iff (hcrates : crates.Documented) :
    Refused (buildRouter primitives crates state request) ↔
      RefusesRequest crates state request := by
  rcases buildRouter_cases hcrates primitives state request with
    ⟨hrefuses, response, hdone, hstatus, -⟩ | ⟨hpasses, hanswers⟩
  · exact ⟨fun _ ↦ hrefuses, fun _ ↦ ⟨response, hdone, hstatus⟩⟩
  · exact ⟨fun hrefused ↦ absurd hrefused (not_refused_of_passed hanswers),
      fun hrefuses ↦ absurd hrefuses hpasses⟩

/-- No response names an origin that is not allowed. -/
theorem namesAllowed_of_runs (hcrates : crates.Documented) {trace : List Performed}
    {response : HttpResponse}
    (hruns : (buildRouter primitives crates state request).Runs trace (.done response)) :
    NamesAllowed state response := by
  rcases buildRouter_cases hcrates primitives state request with
    ⟨-, other, hdone, -, hnames⟩ | ⟨-, hanswers⟩
  · rw [hdone] at hruns
    obtain ⟨-, hsame⟩ := Program.runs_done_iff.mp hruns
    cases hsame
    exact hnames
  · exact (hruns.answer hanswers).2

/-- The gate holds of a request exactly when every origin is allowed, or the layer refuses by the
first one. -/
theorem gatesOrigin_iff (hcrates : crates.Documented) (primitives : Primitives)
    (state : AppState) (request : HttpRequest) :
    GatesOrigin primitives crates state request ↔ GateDecides crates state request := by
  constructor
  · intro hgates
    by_cases hallowed : ∀ value, (originHeader, value) ∈ request.headers →
        value ∈ state.allowedValues
    · exact .inl hallowed
    · right
      simp only [not_forall] at hallowed
      obtain ⟨value, hmem, hvalue⟩ := hallowed
      have hrefuses := (refused_buildRouter_iff hcrates).mp (hgates.1 value hmem hvalue)
      unfold RefusesRequest at hrefuses
      cases hlookup : request.headers.lookup originHeader with
      | none =>
        have habsent := List.lookup_eq_none_iff.mp hlookup _ hmem
        exact absurd habsent (by simp)
      | some first =>
        rw [hlookup] at hrefuses
        exact ⟨first, rfl, hrefuses⟩
  · intro hdecides
    refine ⟨fun value hmem hvalue ↦ ?_, fun trace response ↦ namesAllowed_of_runs hcrates⟩
    rcases hdecides with hallowed | ⟨first, hfirst, hrefuses⟩
    · exact absurd (hallowed value hmem) hvalue
    · refine (refused_buildRouter_iff hcrates).mpr ?_
      unfold RefusesRequest
      rw [hfirst]
      exact hrefuses

/-! ### One backend -/

/-- A value of visible ASCII characters and tabs. -/
def isVisible (value : Bytes) : Bool :=
  value.all fun byte ↦ (32 ≤ byte && byte < 127) || byte == 9

/-- `parse::<usize>()`. -/
def parseUsize (text : String) : Option ℕ :=
  let digits : List Char :=
    match text.toList with
    | '+' :: rest => rest
    | chars => chars
  let number := digits.foldl (fun value digit ↦ value * 10 + (digit.toNat - '0'.toNat)) 0
  if !digits.isEmpty && digits.all Char.isDigit && number ≤ u64Max then some number else none

/-- The text of a visible value. -/
def visibleText (value : Bytes) : Option String :=
  if isVisible value then some (String.ofList (value.map fun byte ↦ Char.ofNat byte.toNat))
  else none

/-- The declared length of a request. -/
def declaredLength (headers : HeaderMap) : Option ℕ :=
  ((headers.lookup "content-length").bind visibleText).bind parseUsize

/-- The crates, with the texts of their rejections. -/
def releasedCrates : HttpCrates where
  toStr := visibleText
  fromStr text := if isVisible (utf8 text) then some (utf8 text) else none
  insert headers header := headers.filter (fun other ↦ other.1 ≠ header.1) ++ [header]
  readBody limit body :=
    if body.length ≤ limit then .ok body
    else .error (rejection 413 "Failed to buffer the request body: length limit exceeded")
  contentLength := declaredLength
  limitLayer limit headers :=
    if ((declaredLength headers).map fun length ↦ decide (limit < length)) = some true then
      some (rejection 413 "length limit exceeded")
    else none

/-- A character of ASCII has the number it was made from. -/
theorem toNat_ofNat_of_ascii {number : ℕ} (hnumber : number < 128) :
    (Char.ofNat number).toNat = number := by
  have hall : ∀ small < 128, (Char.ofNat small).toNat = small := by decide
  exact hall number hnumber

/-- The text of a value has its bytes. -/
theorem utf8_of_visibleText {value : Bytes} {text : String}
    (htext : visibleText value = some text) :
    utf8 text = value := by
  unfold visibleText at htext
  split_ifs at htext with hvisible
  have hbytes : ∀ byte ∈ value, byte.toNat < 128 := by
    intro byte hbyte
    have hrange := List.all_eq_true.mp hvisible byte hbyte
    simp only [Bool.or_eq_true, Bool.and_eq_true, decide_eq_true_eq, beq_iff_eq] at hrange
    rcases hrange with ⟨-, hlt⟩ | rfl
    · exact (UInt8.lt_iff_toNat_lt.mp hlt).trans (by decide)
    · decide
  have hascii : ∀ ch ∈ value.map fun byte ↦ Char.ofNat byte.toNat, ch.val ≤ 0x7f := by
    intro ch hch
    obtain ⟨byte, hbyte, rfl⟩ := List.mem_map.mp hch
    have hnumber : (Char.ofNat byte.toNat).val.toNat = byte.toNat :=
      toNat_ofNat_of_ascii (hbytes byte hbyte)
    rw [UInt32.le_iff_toNat_le, hnumber]
    exact Nat.le_of_lt_succ (hbytes byte hbyte)
  rw [← Option.some.inj htext, utf8_of_ascii hascii, List.map_map]
  refine (List.map_congr_left fun byte hbyte ↦ ?_).trans (List.map_id value)
  show UInt8.ofNat (Char.ofNat byte.toNat).toNat = byte
  rw [toNat_ofNat_of_ascii (hbytes byte hbyte), UInt8.ofNat_toNat]

/-- The rejections are those of a body that is too long. -/
theorem tooLarge_rejection (text : String) : TooLarge (rejection 413 text) :=
  ⟨rfl, (plain_of_header (by decide) (by decide) : Plain (rejection 413 text)).2⟩

/-- They are as documented. -/
theorem documented_releasedCrates : releasedCrates.Documented where
  toStr _ _ := utf8_of_visibleText
  fromStr text value hvalue := by
    change (if isVisible (utf8 text) then some (utf8 text) else none) = some value at hvalue
    split_ifs at hvalue
    exact (Option.some.inj hvalue).symm
  mem_insert headers header other := by simp [releasedCrates]
  readBody_of_le limit body hshort := if_pos hshort
  readBody_of_lt limit body hlong :=
    ⟨_, if_neg (Nat.not_le_of_lt hlong), tooLarge_rejection _⟩
  limitLayer_eq_none_iff limit headers := by
    simp only [releasedCrates]
    cases declaredLength headers with
    | none => simp
    | some length => simp
  tooLarge limit headers response hresponse := by
    simp only [releasedCrates] at hresponse
    split_ifs at hresponse
    rw [← Option.some.inj hresponse]
    exact tooLarge_rejection _

/-- A backend for one origin. -/
def oneOrigin : AppState := ⟨["https://app.example"], none⟩

/-- A mint request with an origin. -/
def mintFrom (origin : Bytes) : HttpRequest where
  method := .post
  target := .rendezvous
  headers := [(originHeader, origin)]
  body := recipientKey

/-- The gate holds of a mint request with another origin. -/
theorem gatesOrigin_iff_otherOrigin :
    GatesOrigin tabulated releasedCrates oneOrigin (mintFrom (utf8 "https://other.example")) := by
  refine (gatesOrigin_iff documented_releasedCrates tabulated oneOrigin _).mpr (.inr ?_)
  exact ⟨_, rfl, .inr ⟨by decide +kernel, .inr (by decide +kernel)⟩⟩

/-- A mint request whose origin is one byte outside ASCII. -/
def undecodableMint : HttpRequest :=
  mintFrom [0xff]

/-- This request passes the gate: its handler runs, and counts the mint. -/
theorem not_gatesOrigin_undecodableMint :
    (∃ next, buildRouter tabulated releasedCrates oneOrigin undecodableMint =
      .call (.incrementMintCounter "unknown" 300) next) ∧
    ¬ GatesOrigin tabulated releasedCrates oneOrigin undecodableMint := by
  have hvalue : [0xff] ∉ oneOrigin.allowedValues := by decide +kernel
  have hpasses : ¬ RefusesRequest releasedCrates oneOrigin undecodableMint := by
    rintro (⟨hoptions, -⟩ | ⟨-, hoptions | hdecoded⟩)
    · exact absurd hoptions (by decide)
    · exact absurd hoptions (by decide)
    · exact hdecoded (by decide)
  refine ⟨⟨_, rfl⟩, fun hgates ↦ hpasses ?_⟩
  exact (refused_buildRouter_iff documented_releasedCrates).mp
    (hgates.1 [0xff] (List.mem_singleton.mpr rfl) hvalue)

end OpfsWebauthn.Backend
