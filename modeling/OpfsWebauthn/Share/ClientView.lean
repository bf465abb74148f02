import OpfsWebauthn.Backend.Http
import OpfsWebauthn.Share.EndToEnd

/-!
# What the client makes of the backend's responses

`RendezvousClient` knows the backend only by the status and the body of its responses. A request of
the page that is well formed is never refused for its form, so none of its responses is taken for a
violation of the protocol: `client_understands` lists for each request what the client can get from
the real router, and what has happened in the store then.
-/

set_option autoImplicit false
set_option relaxedAutoImplicit false

namespace OpfsWebauthn.Share

open Foundation Storage Crypto Backend

/-! ### What a handler refuses -/

/-- A request with a key, a code and a blob of the right sizes. -/
def WellFormed : Request → Prop
  | .mint _ body => body.length = x25519PubkeyLen
  | .fetch code => utf8Length code = codeLen
  | .upload code body => utf8Length code = codeLen ∧ body ≠ [] ∧ body.length ≤ maxBlobBytes
  | .download code => utf8Length code = codeLen

/-- The statuses with which a well-formed request can be refused. -/
def refusals : Request → List ℕ
  | .mint _ _ => [429, 409]
  | .fetch _ => [404, 410]
  | .upload _ _ => [404, 410, 409]
  | .download _ => [404]

/-- A well-formed request is refused with one of these statuses only. -/
theorem answers_wellFormed (primitives : Primitives) (trustedIpHeader : TrustedIpHeader)
    {request : Request} (hformed : WellFormed request) :
    (handle primitives trustedIpHeader request).Answers fun answer ↦
      ∀ error, answer = .error error → error.status ∈ refusals request := by
  have hrefused : ∀ (refusal : AppError) (statuses : List ℕ), refusal.status ∈ statuses →
      ∀ error, (.error refusal : Except AppError Response) = .error error →
        error.status ∈ statuses := by
    intro refusal statuses hmem error herror
    cases herror
    exact hmem
  have hsucceeded : ∀ (response : Response) (statuses : List ℕ) (error : AppError),
      (.ok response : Except AppError Response) = .error error → error.status ∈ statuses := by
    intro response statuses error herror
    cases herror
  cases request with
  | mint headers body =>
    intro (minted : ℕ)
    by_cases hlimit : minted > mintRateLimit
    · simp only [if_pos hlimit]
      exact hrefused .rateLimited [429, 409] (by decide)
    · have hread : readCappedBody body x25519PubkeyLen = .ok body := by
        rw [readCappedBody, if_neg (Nat.not_lt_of_le (Nat.le_of_eq hformed))]
      have hlength : ¬ body.length ≠ x25519PubkeyLen := not_not.mpr hformed
      simp only [if_neg hlimit, hread, if_neg hlength]
      intro now (ok : Bool)
      cases ok with
      | false => exact hrefused (.conflict _) [429, 409] (by decide)
      | true => exact hsucceeded _ _
  | fetch code =>
    change (fetchRendezvous code).Answers _
    have hcode : assertCode code = .ok () := if_neg (not_not.mpr hformed)
    unfold fetchRendezvous
    rw [hcode]
    intro (found : Option RendezvousRecord)
    cases found with
    | none => exact hrefused (.notFound _) [404, 410] (by decide)
    | some record =>
      intro (now : ℕ)
      by_cases hexpired : record.expiresAt ≤ now
      · simp only [if_pos hexpired]
        exact hrefused (.gone _) [404, 410] (by decide)
      · simp only [if_neg hexpired]
        exact hsucceeded _ _
  | upload code body =>
    obtain ⟨hlength, hbody, hshort⟩ := hformed
    change (Backend.uploadBlob code body).Answers _
    have hcode : assertCode code = .ok () := if_neg (not_not.mpr hlength)
    have hread : readCappedBody body maxBlobBytes = .ok body := by
      rw [readCappedBody, if_neg (Nat.not_lt_of_le hshort)]
    unfold Backend.uploadBlob
    rw [hcode]
    intro (found : Option RendezvousRecord)
    cases found with
    | none => exact hrefused (.notFound _) [404, 410, 409] (by decide)
    | some record =>
      intro (now : ℕ)
      by_cases hexpired : record.expiresAt ≤ now
      · simp only [if_pos hexpired]
        exact hrefused (.gone _) [404, 410, 409] (by decide)
      · simp only [if_neg hexpired, hread, if_neg hbody]
        intro (ok : Bool)
        cases ok with
        | false => exact hrefused (.conflict _) [404, 410, 409] (by decide)
        | true => exact hsucceeded _ _
  | download code =>
    change (downloadBlob code).Answers _
    have hcode : assertCode code = .ok () := if_neg (not_not.mpr hformed)
    unfold downloadBlob
    rw [hcode]
    intro now (taken : Option Bytes)
    cases taken with
    | none => exact hrefused (.notFound _) [404] (by decide)
    | some bytes => exact hsucceeded _ _

/-! ### Requests of the page -/

/-- A response as the client gets it. -/
def replyTo (response : HttpResponse) : RelayReply :=
  .response response.status (.ok response.body)

/-- A request that the browser sends for the page: its origin is on the allow-list or left out, and
the declared length is that of the body. -/
structure FromPage (crates : HttpCrates) (state : AppState) (request : HttpRequest) : Prop where
  gate : passesGate crates state request = true
  declared : ∀ length, crates.contentLength request.headers = some length →
    length = request.body.length

/-- A promise of the client is rejected with one of these kinds. -/
def RejectedWith {α : Type} (kinds : List ShareErrorKind) (settled : Except Thrown α) : Prop :=
  ∃ error, settled = .error (.share error) ∧ error.kind ∈ kinds

variable {primitives : Primitives} {crates : HttpCrates} {state : AppState} {wall clock : ℕ}
  {http : Http}

/-- The router passes on a request of the page with a body within the limit. -/
theorem FromPage.forwards {request : HttpRequest} (hpage : FromPage crates state request)
    (hshort : request.body.length ≤ maxBlobBytes) :
    Backend.forwards crates state request = routed request := by
  have hdeclared : declaresWithin crates request = true := by
    unfold declaresWithin
    cases hlength : crates.contentLength request.headers with
    | none => rfl
    | some length =>
      rw [hpage.declared length hlength]
      exact decide_eq_true hshort
  rw [Backend.forwards, hpage.gate, hdeclared]
  rfl

/-- The response to a request that is passed on is the answer of a handler, which has made the calls
of the thread. -/
theorem handler_of_response (hcrates : crates.Documented)
    (hreaches : (Http.automaton primitives crates state).Reaches (Http.start wall clock) http)
    {thread : ℕ}
    {request : HttpRequest} {response : HttpResponse} {routed : Request}
    (hthread : http.threads[thread]? = some ⟨request, .done response⟩)
    (hforwards : forwards crates state request = some routed) (hmethod : request.method ≠ .head) :
    ∃ answer,
      (handle primitives (state.ipHeader crates) routed).Runs (Threads.trace http.log thread)
        (.done answer) ∧ replyTo response = replyOf answer ∧
      (∀ now : ℕ, (⟨.now, now⟩ : Performed) ∈ Threads.trace http.log thread →
        now ≤ http.shared.clock) ∧
      ∀ code record, (⟨.getRendezvous code, some record⟩ : Performed) ∈
          Threads.trace http.log thread →
        record.epk.length = x25519PubkeyLen ∧ commitmentCode primitives record.epk = code := by
  obtain ⟨passed, relay, hrelay, hbehind⟩ :=
    Threads.exists_of_routed (routes_buildRouter hcrates primitives state) hreaches
  have hconsistent : Threads.Consistent (handle primitives (state.ipHeader crates)) relay :=
    Threads.consistent_of_reaches hrelay
  obtain ⟨place, answer, hplace, hanswer, rfl⟩ := answer_of_response hbehind hthread hforwards
  have htrace := hbehind.trace_eq hconsistent.started hplace
  obtain ⟨hstatus, hbody⟩ := respond_same request answer
  refine ⟨answer, ?_, ?_, ?_, ?_⟩
  · rw [htrace]
    exact hconsistent.runs hanswer
  · unfold replyTo
    rw [hstatus, hbody hmethod]
    cases answer with
    | error error => rfl
    | ok given => cases given <;> rfl
  · intro now hnow
    rw [htrace] at hnow
    obtain ⟨entry, hentry, -, hperformed⟩ := Threads.mem_trace_iff.mp hnow
    rw [← hbehind.shared]
    exact now_le_clock hrelay hentry hperformed
  · intro code record hget
    rw [htrace] at hget
    obtain ⟨entry, hentry, -, hperformed⟩ := Threads.mem_trace_iff.mp hget
    obtain ⟨position, hposition⟩ := List.getElem?_of_mem hentry
    exact commits_of_getRendezvous hrelay ⟨entry, hposition, hperformed⟩

/-! ### The four requests -/

/-- A refusal of a well-formed request is a rejection with the kind of its status. -/
theorem rejectedWith_of_refusal {α : Type} {kinds : List ShareErrorKind} {context : ErrorContext}
    {error : AppError} {statuses : List ℕ} (hstatus : error.status ∈ statuses)
    (hkinds : ∀ status ∈ statuses, (shareErrorForStatus status context).kind ∈ kinds) :
    RejectedWith kinds
      (.error (.share (shareErrorForStatus error.status context)) : Except Thrown α) :=
  ⟨_, rfl, hkinds _ hstatus⟩

section Settled

variable {trustedIpHeader : TrustedIpHeader} {headers : HeaderMap} {code : String} {body : Bytes}
  {trace : List Performed} {answer : Except AppError Response}

/-- What `client.mint` makes of the answer of the mint handler. -/
theorem mint_of_runs (hbase32 : Base32Digits primitives) {epk : ByteArrayN keyLen}
    (hruns : (mintRendezvous primitives trustedIpHeader headers epk.val).Runs trace (.done answer))
    (hclock : ∀ now : ℕ, (⟨.now, now⟩ : Performed) ∈ trace → now + rendezvousTtlSeconds < 2 ^ 53) :
    (∃ expiresAt, mint (replyOf answer) = .ok ⟨commitmentCode primitives epk.val, expiresAt⟩ ∧
      ⟨.putRendezvous (commitmentCode primitives epk.val) ⟨epk.val, expiresAt⟩, true⟩ ∈ trace) ∨
    RejectedWith [.rateLimited, .blobAlreadyUploaded] (mint (replyOf answer)) := by
  cases answer with
  | error error =>
    have hstatus : error.status ∈ [429, 409] := Program.Runs.answer hruns
      (@answers_wellFormed primitives trustedIpHeader (.mint headers epk.val) epk.property) error
      rfl
    have hthrown : mint (replyOf (.error error)) =
        .error (.share (shareErrorForStatus error.status .mint)) := if_neg (not_isOk_status error)
    rw [hthrown]
    exact .inr (rejectedWith_of_refusal hstatus (by decide))
  | ok response =>
    obtain ⟨minted, now, -, -, rfl, rfl⟩ := putRendezvous_of_runs hruns
    have hsafe := hclock now (List.mem_cons_of_mem _ List.mem_cons_self)
    have hwhole : (now + rendezvousTtlSeconds) % 2 ^ 64 = now + rendezvousTtlSeconds := by omega
    rw [hwhole]
    obtain ⟨chars, hcode, hlength, hchars⟩ := commitmentCode_eq_ofList hbase32 epk.val
    have hascii : ∀ ch ∈ chars, ch.val ≤ 0x7f := fun ch hch ↦
      val_le_of_isCodeChar (List.all_eq_true.mp hchars ch hch)
    have hdecoded := @decodeMintResponse_text chars (now + rendezvousTtlSeconds) hlength hascii
      (by omega)
    rw [← hcode, if_neg (by omega)] at hdecoded
    refine .inl ⟨now + rendezvousTtlSeconds, ?_, ?_⟩
    · change (decodeMintResponse (protocolVersion :: _)).mapError _ = _
      rw [hdecoded]
      rfl
    · exact List.mem_cons_of_mem _ (List.mem_cons_of_mem _ List.mem_cons_self)

/-- What `client.fetchEpk` makes of the answer of the fetch handler. -/
theorem fetchEpk_of_runs (hcode : utf8Length code = codeLen)
    (hruns : (fetchRendezvous code).Runs trace (.done answer))
    (hcommits : ∀ record, (⟨.getRendezvous code, some record⟩ : Performed) ∈ trace →
      record.epk.length = x25519PubkeyLen ∧ commitmentCode primitives record.epk = code) :
    (∃ key, fetchEpk (replyOf answer) = .ok key ∧ verifyCode primitives code key = true) ∨
    RejectedWith [.rendezvousNotFound, .rendezvousExpired] (fetchEpk (replyOf answer)) := by
  cases answer with
  | error error =>
    have hstatus : error.status ∈ [404, 410] := Program.Runs.answer hruns
      (@answers_wellFormed primitives .absent (.fetch code) hcode) error rfl
    have hthrown : fetchEpk (replyOf (.error error)) =
        .error (.share (shareErrorForStatus error.status .fetchRendezvous)) :=
      if_neg (not_isOk_status error)
    rw [hthrown]
    exact .inr (rejectedWith_of_refusal hstatus (by decide))
  | ok response =>
    obtain ⟨record, now, rfl, -, rfl⟩ := getRendezvous_of_runs hruns
    obtain ⟨hlength, hcommits⟩ := hcommits record List.mem_cons_self
    refine .inl ⟨record.epk, rfl, (verifyCode_iff _ hcode record.epk).mpr ⟨hlength, ?_⟩⟩
    rw [codeForPubkey, if_neg (not_not.mpr hlength), hcommits]

/-- What `client.uploadBlob` makes of the answer of the upload handler. -/
theorem uploadBlob_of_runs (primitives : Primitives) (hcode : utf8Length code = codeLen)
    (hbody : body ≠ [])
    (hshort : body.length ≤ maxBlobBytes)
    (hruns : (Backend.uploadBlob code body).Runs trace (.done answer)) :
    (uploadBlob (replyOf answer) = .ok () ∧ ∃ expiresAt,
      ⟨.putBlob code body expiresAt, true⟩ ∈ trace) ∨
    RejectedWith [.rendezvousNotFound, .rendezvousExpired, .blobAlreadyUploaded]
      (uploadBlob (replyOf answer)) := by
  cases answer with
  | error error =>
    have hstatus : error.status ∈ [404, 410, 409] := Program.Runs.answer hruns
      (@answers_wellFormed primitives .absent (.upload code body) ⟨hcode, hbody, hshort⟩) error rfl
    have hthrown : uploadBlob (replyOf (.error error)) =
        .error (.share (shareErrorForStatus error.status .uploadBlob)) :=
      if_neg (not_isOk_status error)
    rw [hthrown]
    exact .inr (rejectedWith_of_refusal hstatus (by decide))
  | ok response =>
    left
    unfold Backend.uploadBlob at hruns
    have hassert : assertCode code = .ok () := if_neg (not_not.mpr hcode)
    rw [hassert] at hruns
    obtain ⟨found, later, rfl, hget⟩ := Program.Runs.of_done hruns
    cases found with
    | none => cases (Program.runs_done_iff.mp hget).2
    | some record =>
      obtain ⟨now, last, rfl, hnow⟩ := Program.Runs.of_done hget
      have hread : readCappedBody body maxBlobBytes = .ok body := by
        rw [readCappedBody, if_neg (Nat.not_lt_of_le hshort)]
      by_cases hexpired : record.expiresAt ≤ now
      · rw [if_pos hexpired] at hnow
        cases (Program.runs_done_iff.mp hnow).2
      · rw [if_neg hexpired, hread] at hnow
        simp only [if_neg hbody] at hnow
        obtain ⟨ok, rest, rfl, hput⟩ := Program.Runs.of_done hnow
        cases ok with
        | false => cases (Program.runs_done_iff.mp hput).2
        | true =>
          cases (Program.runs_done_iff.mp hput).2
          exact ⟨rfl, _,
            List.mem_cons_of_mem _ (List.mem_cons_of_mem _ List.mem_cons_self)⟩

end Settled

/-- In every run over HTTP of any requests, interleaved call by call, with a clock that stays a safe
integer: the client never takes a response to a well-formed request of the page for a violation of
the protocol. A mint yields the commitment of the key, which is stored with the deadline returned;
a fetch yields a key that the code verifies; an upload that succeeds is stored; a pickup yields an
upload under the code that was accepted, or nothing. Each can fail only as listed. -/
theorem client_understands (hbase32 : Base32Digits primitives) (hcrates : crates.Documented)
    (hreaches : (Http.automaton primitives crates state).Reaches (Http.start wall clock) http)
    (hclock : http.shared.clock + rendezvousTtlSeconds < 2 ^ 53) {thread : ℕ}
    {request : HttpRequest} {response : HttpResponse}
    (hthread : http.threads[thread]? = some ⟨request, .done response⟩)
    (hpage : FromPage crates state request) :
    (∀ epk : ByteArrayN keyLen, request.method = .post → request.target = .rendezvous →
      request.body = epk.val →
        (∃ expiresAt, mint (replyTo response) = .ok ⟨commitmentCode primitives epk.val, expiresAt⟩ ∧
          ⟨.putRendezvous (commitmentCode primitives epk.val) ⟨epk.val, expiresAt⟩, true⟩ ∈
            Threads.trace http.log thread) ∨
        RejectedWith [.rateLimited, .blobAlreadyUploaded] (mint (replyTo response))) ∧
    (∀ code, utf8Length code = codeLen → request.method = .get →
      request.target = .record (some code) → request.body = [] →
        (∃ key, fetchEpk (replyTo response) = .ok key ∧ verifyCode primitives code key = true) ∨
        RejectedWith [.rendezvousNotFound, .rendezvousExpired] (fetchEpk (replyTo response))) ∧
    (∀ code, utf8Length code = codeLen → request.method = .post →
      request.target = .blob (some code) → request.body ≠ [] →
      request.body.length ≤ maxBlobBytes →
        (uploadBlob (replyTo response) = .ok () ∧ ∃ expiresAt,
          ⟨.putBlob code request.body expiresAt, true⟩ ∈ Threads.trace http.log thread) ∨
        RejectedWith [.rendezvousNotFound, .rendezvousExpired, .blobAlreadyUploaded]
          (uploadBlob (replyTo response))) ∧
    (∀ code, utf8Length code = codeLen → request.method = .get →
      request.target = .blob (some code) → request.body = [] →
        tryDownloadBlob (replyTo response) = .ok none ∨
        ∃ bytes upload, tryDownloadBlob (replyTo response) = .ok (some bytes) ∧
          Stored http upload code bytes) := by
  have hrouted : ∀ routed, request.body.length ≤ maxBlobBytes →
      Backend.routed request = some routed → forwards crates state request = some routed := by
    intro routed hshort hroute
    rw [hpage.forwards hshort, hroute]
  obtain ⟨method, target, headers, body⟩ := request
  refine ⟨?_, ?_, ?_, ?_⟩
  · rintro epk rfl rfl rfl
    have hlength : epk.val.length ≤ maxBlobBytes := by
      rw [epk.property]
      decide
    obtain ⟨answer, hruns, hreply, hnow, -⟩ := handler_of_response hcrates hreaches hthread
      (hrouted (.mint headers epk.val) hlength (if_pos hlength)) nofun
    rw [hreply]
    refine mint_of_runs hbase32 hruns fun now hmem ↦ ?_
    have hle := hnow now hmem
    omega
  · rintro code hcode rfl rfl rfl
    obtain ⟨answer, hruns, hreply, -, hcommits⟩ := handler_of_response hcrates hreaches hthread
      (hrouted (.fetch code) (Nat.zero_le _) rfl) nofun
    rw [hreply]
    exact fetchEpk_of_runs hcode hruns fun record hget ↦ hcommits code record hget
  · rintro code hcode rfl rfl hbody hshort
    obtain ⟨answer, hruns, hreply, -, -⟩ := handler_of_response hcrates hreaches hthread
      (hrouted (.upload code body) hshort (if_pos hshort)) nofun
    rw [hreply]
    exact uploadBlob_of_runs primitives hcode hbody hshort hruns
  · rintro code hcode rfl rfl rfl
    obtain ⟨answer, hruns, hreply, -, -⟩ := handler_of_response hcrates hreaches hthread
      (hrouted (.download code) (Nat.zero_le _) rfl) nofun
    have hassert : assertCode code = .ok () := if_neg (not_not.mpr hcode)
    obtain ⟨now, taken, -, hanswer⟩ := answer_of_download hassert hruns
    rw [hreply, hanswer]
    cases taken with
    | none => exact .inl rfl
    | some bytes =>
      right
      rw [hanswer] at hreply
      obtain ⟨hstatus, hbody⟩ := RelayReply.response.inj hreply
      obtain ⟨upload, hstored⟩ := stored_of_served hcrates hreaches
        ⟨_, response, hthread, rfl, rfl, hstatus, Except.ok.inj hbody⟩
      exact ⟨bytes, upload, rfl, hstored⟩

/-- The last request of an exchange: the client gets the uploaded blob. -/
theorem client_understands_pageExchange : ∃ http response,
    (Http.automaton commuting releasedCrates oneOrigin).run (Http.start 1700000000 1700000000)
      pageExchange = some http ∧
    http.threads[3]? =
      some ⟨pageRequest .get (.blob (some "JCAEZF2HWP7K")) [], .done response⟩ ∧
    response.status = 200 ∧
    (tryDownloadBlob (replyTo response) = .ok none ∨
      ∃ bytes upload, tryDownloadBlob (replyTo response) = .ok (some bytes) ∧
        Stored http upload "JCAEZF2HWP7K" bytes) := by
  have hanswer : ((Http.automaton commuting releasedCrates oneOrigin).run
      (Http.start 1700000000 1700000000) pageExchange).bind (fun http ↦
        (http.answer? 3).map fun answered ↦ (answered.1, answered.2.status, http.shared.clock)) =
      some (pageRequest .get (.blob (some "JCAEZF2HWP7K")) [], 200, 1700000200) := by
    decide +kernel
  obtain ⟨http, hrun, hanswer⟩ := Option.bind_eq_some_iff.mp hanswer
  obtain ⟨⟨request, response⟩, hdone, hvalues⟩ := Option.map_eq_some_iff.mp hanswer
  obtain ⟨rfl, hstatus, hclock⟩ := by simpa only [Prod.mk.injEq] using hvalues
  have hthread := Threads.answer?_eq_some_iff.mp hdone
  have hpage : FromPage releasedCrates oneOrigin
      (pageRequest .get (.blob (some "JCAEZF2HWP7K")) []) := by
    refine ⟨by decide +kernel, fun length hlength ↦ ?_⟩
    have hnone : releasedCrates.contentLength
        (pageRequest .get (.blob (some "JCAEZF2HWP7K")) []).headers = none := by
      decide +kernel
    rw [hnone] at hlength
    cases hlength
  have hsafe : http.shared.clock + rendezvousTtlSeconds < 2 ^ 53 := by
    rw [hclock]
    decide
  obtain ⟨-, -, -, hdownload⟩ := client_understands base32Digits_commuting
    documented_releasedCrates (Automaton.reaches_of_run hrun) hsafe hthread hpage
  exact ⟨http, response, hrun, hthread, hstatus,
    hdownload "JCAEZF2HWP7K" (by decide) rfl rfl rfl⟩

end OpfsWebauthn.Share
