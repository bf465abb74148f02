import OpfsWebauthn.Backend.Store
import OpfsWebauthn.Foundation.Threads
import OpfsWebauthn.Share.Seal
import OpfsWebauthn.Storage.Repo

/-!
# The handlers of the share backend

`handlers.rs`, `errors.rs`, `config.rs` and `state.rs`. A handler is a program over the calls it
makes on the store and on the clock of its state; between two calls other handlers run. The store
runs under a mutex, so each call is atomic.

The wall clock that the store reads and the injectable clock of the handlers are two clocks. Both
only move forward, also while a call runs: `Passage` says how far. A reading of the wall clock is
the number of seconds of a `SystemTime`, which fit an `i64`.

For each handler one lemma says what it has done when it reaches a call or an answer that matters.
-/

set_option autoImplicit false
set_option relaxedAutoImplicit false

namespace OpfsWebauthn.Backend

open Foundation Storage Crypto Share

/-! ### Configuration and errors -/

/-- `RENDEZVOUS_TTL_SECONDS`. -/
def rendezvousTtlSeconds : ℕ := 300

/-- `MAX_BLOB_BYTES`. -/
def maxBlobBytes : ℕ := 64 * 1024

/-- `MINT_RATE_LIMIT`. -/
def mintRateLimit : ℕ := 10

/-- `AppError`. -/
inductive AppError
  | badRequest (message : String)
  | notFound (message : String)
  | conflict (message : String)
  | gone (message : String)
  | payloadTooLarge (message : String)
  | rateLimited
deriving DecidableEq, Repr

/-- `AppError::status`. -/
def AppError.status : AppError → ℕ
  | .badRequest _ => 400
  | .notFound _ => 404
  | .conflict _ => 409
  | .gone _ => 410
  | .payloadTooLarge _ => 413
  | .rateLimited => 429

/-- The responses of the handlers that succeed. -/
inductive Response
  /-- `octet_stream_response(bytes)`. -/
  | octetStream (bytes : Bytes)
  /-- `StatusCode::NO_CONTENT`. -/
  | noContent
deriving DecidableEq, Repr

/-- The status of a response. -/
def Response.status : Response → ℕ
  | .octetStream _ => 200
  | .noContent => 204

/-! ### The calls -/

/-- The calls of a handler: the methods of `RendezvousStore`, and `(state.now)()`. -/
inductive StoreCall
  | putRendezvous (code : String) (record : RendezvousRecord)
  | getRendezvous (code : String)
  | putBlob (code : String) (blob : Bytes) (expiresAt : ℕ)
  | takeBlob (code : String) (now : ℕ)
  | incrementMintCounter (ip : String) (ttlSeconds : ℕ)
  | now
deriving DecidableEq, Repr

/-- What a call returns. -/
@[reducible] def StoreCall.Result : StoreCall → Type
  | .putRendezvous _ _ => Bool
  | .getRendezvous _ => Option RendezvousRecord
  | .putBlob _ _ _ => Bool
  | .takeBlob _ _ => Option Bytes
  | .incrementMintCounter _ _ => ℕ
  | .now => ℕ

/-- Results of one call can be compared. -/
def StoreCall.decidableEqResult : (call : StoreCall) → DecidableEq call.Result
  | .putRendezvous _ _ => inferInstanceAs (DecidableEq Bool)
  | .getRendezvous _ => inferInstanceAs (DecidableEq (Option RendezvousRecord))
  | .putBlob _ _ _ => inferInstanceAs (DecidableEq Bool)
  | .takeBlob _ _ => inferInstanceAs (DecidableEq (Option Bytes))
  | .incrementMintCounter _ _ => inferInstanceAs (DecidableEq ℕ)
  | .now => inferInstanceAs (DecidableEq ℕ)

/-- A call that was made, with its result. -/
abbrev Performed := Σ call : StoreCall, call.Result

instance : DecidableEq Performed :=
  have := StoreCall.decidableEqResult
  instDecidableEqSigma

/-- A handler. -/
abbrev Handler := Program StoreCall StoreCall.Result (Except AppError Response)

/-! ### The state that the handlers share -/

/-- The store, the wall clock it reads, and the clock of the handlers. -/
structure Shared where
  inner : Inner
  wall : ℕ
  clock : ℕ

/-- How far the two clocks move on. -/
structure Passage where
  wall : ℕ
  clock : ℕ
deriving DecidableEq, Repr

/-- The largest number of seconds of a `SystemTime`. -/
def i64Max : ℕ := 2 ^ 63 - 1

namespace Shared

/-- Time passes. -/
def elapse (shared : Shared) (passage : Passage) : Option Shared :=
  if shared.wall + passage.wall ≤ i64Max ∧ shared.clock + passage.clock ≤ u64Max then
    some { shared with wall := shared.wall + passage.wall, clock := shared.clock + passage.clock }
  else none

/-- What a call does to the store and what it returns, when the wall clock shows `later` at its
end. -/
def callStore (shared : Shared) (later : ℕ) : (call : StoreCall) → Inner × call.Result
  | .putRendezvous code record => shared.inner.putRendezvous shared.wall code record
  | .getRendezvous code => (shared.inner, shared.inner.getRendezvous code)
  | .putBlob code blob expiresAt => shared.inner.putBlob shared.wall code blob expiresAt
  | .takeBlob code now => shared.inner.takeBlob code now
  | .incrementMintCounter ip ttlSeconds =>
    shared.inner.incrementMintCounter shared.wall later ip ttlSeconds
  | .now => (shared.inner, shared.clock)

/-- A call, while which time passes. -/
def perform (shared : Shared) (call : StoreCall) (passage : Passage) :
    Option (Shared × call.Result) :=
  (shared.elapse passage).map fun later ↦
    let (inner, result) := shared.callStore later.wall call
    ({ later with inner := inner }, result)

end Shared

/-- The store and the clocks as the handlers see them. -/
def machine : Machine Shared StoreCall StoreCall.Result Passage :=
  ⟨Shared.perform, Shared.elapse⟩

/-! ### The handlers -/

/-- `MINT_RESPONSE_VERSION`. -/
def mintResponseVersion : UInt8 := 1

/-- `encode_mint_response(code, expires_at)`. -/
def encodeMintResponse (code : String) (expiresAt : ℕ) : Bytes :=
  mintResponseVersion :: (bytesOf 8 expiresAt ++ utf8 code)

/-- `UNKNOWN_CLIENT_BUCKET`. -/
def unknownClientBucket : String := "unknown"

/-- The headers of a request: the names are in lower case. -/
abbrev HeaderMap := List (String × Bytes)

/-- `AppState.trusted_ip_header`, with `HeaderValue::to_str` of the `http` crate, which decodes the
value of that header. -/
structure TrustedIpHeader where
  name : Option String
  toStr : Bytes → Option String

/-- No header is trusted. -/
def TrustedIpHeader.absent : TrustedIpHeader := ⟨none, fun _ ↦ none⟩

/-- `char::is_whitespace`. -/
def isWhitespace (ch : Char) : Bool :=
  let number := ch.toNat
  (9 ≤ number && number ≤ 13) || (0x2000 ≤ number && number ≤ 0x200a) ||
    [0x20, 0x85, 0xa0, 0x1680, 0x2028, 0x2029, 0x202f, 0x205f, 0x3000].contains number

/-- `str::trim`. -/
def trim (text : String) : String :=
  String.ofList (((text.toList.dropWhile isWhitespace).reverse.dropWhile isWhitespace).reverse)

/-- `client_ip(headers, state)`, with the trusted header of the state. -/
def clientIp (headers : HeaderMap) (trustedIpHeader : TrustedIpHeader) : String :=
  match trustedIpHeader.name with
  | none => unknownClientBucket
  | some headerName =>
    match (headers.lookup headerName).bind trustedIpHeader.toStr with
    | none => unknownClientBucket
    | some value => if trim value = "" then unknownClientBucket else trim value

/-- `read_capped_body(body, max)`. -/
def readCappedBody (body : Bytes) (max : ℕ) : Except AppError Bytes :=
  if body.length > max then
    .error (.payloadTooLarge ("body exceeds " ++ toString max ++ " bytes"))
  else .ok body

/-- `assert_code(code)`. -/
def assertCode (code : String) : Except AppError Unit :=
  if utf8Length code ≠ codeLen then .error (.badRequest "malformed code") else .ok ()

variable (primitives : Primitives)

/-- `mint_rendezvous`. The sum of the clock and the lifetime wraps around in a release build. -/
def mintRendezvous (trustedIpHeader : TrustedIpHeader) (headers : HeaderMap) (body : Bytes) :
    Handler :=
  let ip := clientIp headers trustedIpHeader
  .call (.incrementMintCounter ip rendezvousTtlSeconds) fun (minted : ℕ) ↦
    if minted > mintRateLimit then .done (.error .rateLimited)
    else
      match readCappedBody body x25519PubkeyLen with
      | .error error => .done (.error error)
      | .ok body =>
        if body.length ≠ x25519PubkeyLen then
          .done (.error (.badRequest
            ("epk must be exactly " ++ toString x25519PubkeyLen ++ " bytes")))
        else
          let code := commitmentCode primitives body
          .call .now fun (now : ℕ) ↦
            let expiresAt := (now + rendezvousTtlSeconds) % 2 ^ 64
            .call (.putRendezvous code ⟨body, expiresAt⟩) fun (ok : Bool) ↦
              if !ok then .done (.error (.conflict "code collision; retry"))
              else .done (.ok (.octetStream (encodeMintResponse code expiresAt)))

/-- `fetch_rendezvous`. -/
def fetchRendezvous (code : String) : Handler :=
  match assertCode code with
  | .error error => .done (.error error)
  | .ok () =>
    .call (.getRendezvous code) fun (found : Option RendezvousRecord) ↦
      match found with
      | none => .done (.error (.notFound "no such rendezvous"))
      | some record =>
        .call .now fun (now : ℕ) ↦
          if record.expiresAt ≤ now then .done (.error (.gone "rendezvous expired"))
          else .done (.ok (.octetStream record.epk))

/-- `upload_blob`. -/
def uploadBlob (code : String) (body : Bytes) : Handler :=
  match assertCode code with
  | .error error => .done (.error error)
  | .ok () =>
    .call (.getRendezvous code) fun (found : Option RendezvousRecord) ↦
      match found with
      | none => .done (.error (.notFound "no such rendezvous"))
      | some record =>
        .call .now fun (now : ℕ) ↦
          if record.expiresAt ≤ now then .done (.error (.gone "rendezvous expired"))
          else
            match readCappedBody body maxBlobBytes with
            | .error error => .done (.error error)
            | .ok blob =>
              if blob = [] then .done (.error (.badRequest "empty blob"))
              else
                let blobExpiresAt := max record.expiresAt (saturatingAdd u64Max now 1)
                .call (.putBlob code blob blobExpiresAt) fun (ok : Bool) ↦
                  if !ok then .done (.error (.conflict "blob already uploaded"))
                  else .done (.ok .noContent)

/-- `download_blob`. -/
def downloadBlob (code : String) : Handler :=
  match assertCode code with
  | .error error => .done (.error error)
  | .ok () =>
    .call .now fun (now : ℕ) ↦
      .call (.takeBlob code now) fun (taken : Option Bytes) ↦
        match taken with
        | none => .done (.error (.notFound "blob unavailable"))
        | some blob => .done (.ok (.octetStream blob))

/-- The requests of the four routes. -/
inductive Request
  | mint (headers : HeaderMap) (body : Bytes)
  | fetch (code : String)
  | upload (code : String) (body : Bytes)
  | download (code : String)
deriving DecidableEq, Repr

/-- The router. -/
def handle (trustedIpHeader : TrustedIpHeader) : Request → Handler
  | .mint headers body => mintRendezvous primitives trustedIpHeader headers body
  | .fetch code => fetchRendezvous code
  | .upload code body => uploadBlob code body
  | .download code => downloadBlob code

/-! ### What a handler has done -/

section Runs

variable {primitives : Primitives} {trustedIpHeader : TrustedIpHeader} {headers : HeaderMap}
  {code : String} {body : Bytes} {trace : List Performed} {rest : Handler}

/-- A body within the cap is read as it is. -/
theorem readCappedBody_eq_ok {bytes : Bytes} {max : ℕ} {read : Bytes}
    (hread : readCappedBody bytes max = .ok read) : read = bytes ∧ bytes.length ≤ max := by
  unfold readCappedBody at hread
  split_ifs at hread with hlong
  exact ⟨(Except.ok.inj hread).symm, Nat.le_of_not_lt hlong⟩

/-- The calls that the handler of a request can make. -/
def mayCall (primitives : Primitives) (trustedIpHeader : TrustedIpHeader) :
    Request → StoreCall → Prop
  | .mint headers _, .incrementMintCounter ip ttlSeconds =>
    ip = clientIp headers trustedIpHeader ∧ ttlSeconds = rendezvousTtlSeconds
  | .mint _ body, .putRendezvous code record =>
    record.epk = body ∧ body.length = x25519PubkeyLen ∧ code = commitmentCode primitives body
  | .fetch code, .getRendezvous other => other = code
  | .upload code _, .getRendezvous other => other = code
  | .upload code body, .putBlob other bytes _ => other = code ∧ bytes = body
  | .download code, .takeBlob other _ => other = code
  | .mint _ _, .now | .fetch _, .now | .upload _ _, .now | .download _, .now => True
  | _, _ => False

theorem allows_handle (request : Request) : (handle primitives trustedIpHeader request).Allows
    (mayCall primitives trustedIpHeader request) := by
  cases request with
  | mint headers body =>
    refine ⟨⟨rfl, rfl⟩, fun (minted : ℕ) ↦ ?_⟩
    by_cases hlimit : minted > mintRateLimit
    · simp only [if_pos hlimit]
      trivial
    · simp only [if_neg hlimit]
      cases hread : readCappedBody body x25519PubkeyLen with
      | error cause => trivial
      | ok read =>
        obtain rfl := (readCappedBody_eq_ok hread).1
        by_cases hlength : read.length ≠ x25519PubkeyLen
        · simp only [if_pos hlength]
          trivial
        · simp only [if_neg hlength]
          refine ⟨trivial, fun now ↦ ⟨⟨rfl, not_not.mp hlength, rfl⟩, fun (ok : Bool) ↦ ?_⟩⟩
          cases ok <;> trivial
  | fetch code =>
    change (fetchRendezvous code).Allows _
    unfold fetchRendezvous
    cases hcode : assertCode code with
    | error cause => trivial
    | ok _ =>
      refine ⟨rfl, fun (found : Option RendezvousRecord) ↦ ?_⟩
      cases found with
      | none => trivial
      | some record =>
        refine ⟨trivial, fun (now : ℕ) ↦ ?_⟩
        by_cases hexpired : record.expiresAt ≤ now
        · simp only [if_pos hexpired]
          trivial
        · simp only [if_neg hexpired]
          trivial
  | upload code body =>
    change (uploadBlob code body).Allows _
    unfold uploadBlob
    cases hcode : assertCode code with
    | error cause => trivial
    | ok _ =>
      refine ⟨rfl, fun (found : Option RendezvousRecord) ↦ ?_⟩
      cases found with
      | none => trivial
      | some record =>
        refine ⟨trivial, fun (now : ℕ) ↦ ?_⟩
        by_cases hexpired : record.expiresAt ≤ now
        · simp only [if_pos hexpired]
          trivial
        · simp only [if_neg hexpired]
          cases hread : readCappedBody body maxBlobBytes with
          | error cause => trivial
          | ok blob =>
            obtain rfl := (readCappedBody_eq_ok hread).1
            by_cases hempty : blob = []
            · simp only [if_pos hempty]
              trivial
            · simp only [if_neg hempty]
              refine ⟨⟨rfl, rfl⟩, fun (ok : Bool) ↦ ?_⟩
              cases ok <;> trivial
  | download code =>
    change (downloadBlob code).Allows _
    unfold downloadBlob
    cases hcode : assertCode code with
    | error cause => trivial
    | ok _ =>
      refine ⟨trivial, fun (now : ℕ) ↦ ⟨rfl, fun (taken : Option Bytes) ↦ ?_⟩⟩
      cases taken <;> trivial

/-- A handler answers after at most three calls. -/
theorem atMost_handle (request : Request) :
    (handle primitives trustedIpHeader request).AtMost 3 := by
  cases request with
  | mint headers body =>
    intro (minted : ℕ)
    by_cases hlimit : minted > mintRateLimit
    · simp only [if_pos hlimit]
      trivial
    · simp only [if_neg hlimit]
      cases readCappedBody body x25519PubkeyLen with
      | error cause => trivial
      | ok read =>
        by_cases hlength : read.length ≠ x25519PubkeyLen
        · simp only [if_pos hlength]
          trivial
        · simp only [if_neg hlength]
          intro now (ok : Bool)
          cases ok <;> trivial
  | fetch code =>
    change (fetchRendezvous code).AtMost 3
    unfold fetchRendezvous
    cases assertCode code with
    | error cause => trivial
    | ok _ =>
      intro (found : Option RendezvousRecord)
      cases found with
      | none => trivial
      | some record =>
        intro (now : ℕ)
        by_cases hexpired : record.expiresAt ≤ now
        · simp only [if_pos hexpired]
          trivial
        · simp only [if_neg hexpired]
          trivial
  | upload code body =>
    change (uploadBlob code body).AtMost 3
    unfold uploadBlob
    cases assertCode code with
    | error cause => trivial
    | ok _ =>
      intro (found : Option RendezvousRecord)
      cases found with
      | none => trivial
      | some record =>
        intro (now : ℕ)
        by_cases hexpired : record.expiresAt ≤ now
        · simp only [if_pos hexpired]
          trivial
        · simp only [if_neg hexpired]
          cases readCappedBody body maxBlobBytes with
          | error cause => trivial
          | ok blob =>
            by_cases hempty : blob = []
            · simp only [if_pos hempty]
              trivial
            · simp only [if_neg hempty]
              intro (ok : Bool)
              cases ok <;> trivial
  | download code =>
    change (downloadBlob code).AtMost 3
    unfold downloadBlob
    cases assertCode code with
    | error cause => trivial
    | ok _ =>
      intro (now : ℕ) (taken : Option Bytes)
      cases taken <;> trivial

/-- An upload that has called `put_blob` read a record of its code that had not expired, and the
deadline of the blob is that of the record: the clamp does nothing. -/
theorem putBlob_of_runs {other : String} {bytes : Bytes} {expiresAt : ℕ} {ok : Bool}
    (hruns : (uploadBlob code body).Runs trace rest)
    (hput : ⟨.putBlob other bytes expiresAt, ok⟩ ∈ trace) :
    other = code ∧ bytes = body ∧ ∃ epk now,
      trace = [⟨.getRendezvous code, some ⟨epk, expiresAt⟩⟩, ⟨.now, now⟩,
        ⟨.putBlob code body expiresAt, ok⟩] ∧ now < expiresAt ∧
      rest = .done (if ok then .ok .noContent else .error (.conflict "blob already uploaded")) := by
  unfold uploadBlob at hruns
  cases hcode : assertCode code with
  | error cause =>
    rw [hcode] at hruns
    exact absurd hput (hruns.not_mem_done _)
  | ok _ =>
    rw [hcode] at hruns
    obtain ⟨found, trace, rfl, hruns, heq | hrest⟩ := hruns.of_mem hput
    · cases heq
    clear hput
    cases found with
    | none => exact absurd hrest (hruns.not_mem_done _)
    | some record =>
      obtain ⟨now, trace, rfl, hruns, heq | hput⟩ := hruns.of_mem hrest
      · cases heq
      by_cases hexpired : record.expiresAt ≤ now
      · rw [if_pos hexpired] at hruns
        exact absurd hput (hruns.not_mem_done _)
      · rw [if_neg hexpired] at hruns
        cases hread : readCappedBody body maxBlobBytes with
        | error cause =>
          rw [hread] at hruns
          exact absurd hput (hruns.not_mem_done _)
        | ok blob =>
          obtain rfl := (readCappedBody_eq_ok hread).1
          simp only [hread] at hruns
          by_cases hempty : blob = []
          · rw [if_pos hempty] at hruns
            exact absurd hput (hruns.not_mem_done _)
          · rw [if_neg hempty] at hruns
            have hclamp : max record.expiresAt (saturatingAdd u64Max now 1) =
                record.expiresAt := by
              unfold saturatingAdd
              omega
            rw [hclamp] at hruns
            obtain ⟨stored, trace, rfl, hruns, heq | hlast⟩ := hruns.of_mem hput
            · cases heq
              refine ⟨rfl, rfl, record.epk, now, ?_, Nat.lt_of_not_le hexpired, ?_⟩
              · cases ok <;> obtain ⟨rfl, -⟩ := Program.runs_done_iff.mp hruns <;> rfl
              · cases ok <;> exact (Program.runs_done_iff.mp hruns).2
            · cases stored <;> exact absurd hlast (hruns.not_mem_done _)

/-- A download that has answered with bytes took them from the store under the clock it had
read. -/
theorem takeBlob_of_runs {response : Response}
    (hruns : (downloadBlob code).Runs trace (.done (.ok response))) : ∃ now bytes,
      trace = [⟨.now, now⟩, ⟨.takeBlob code now, some bytes⟩] ∧ response = .octetStream bytes := by
  unfold downloadBlob at hruns
  cases hcode : assertCode code with
  | error cause =>
    rw [hcode] at hruns
    cases (Program.runs_done_iff.mp hruns).2
  | ok _ =>
    rw [hcode] at hruns
    obtain ⟨now, later, rfl, hread⟩ := Program.Runs.of_done hruns
    obtain ⟨taken, last, rfl, htaken⟩ := Program.Runs.of_done hread
    clear hruns hread
    cases taken with
    | none => cases (Program.runs_done_iff.mp htaken).2
    | some bytes =>
      obtain ⟨rfl, hresponse⟩ := Program.runs_done_iff.mp htaken
      cases hresponse
      exact ⟨now, bytes, rfl, rfl⟩

/-- A fetch that has answered with a key read it in a record that had not expired. -/
theorem getRendezvous_of_runs {response : Response}
    (hruns : (fetchRendezvous code).Runs trace (.done (.ok response))) : ∃ record now,
      trace = [⟨.getRendezvous code, some record⟩, ⟨.now, now⟩] ∧ now < record.expiresAt ∧
      response = .octetStream record.epk := by
  unfold fetchRendezvous at hruns
  cases hcode : assertCode code with
  | error cause =>
    rw [hcode] at hruns
    cases (Program.runs_done_iff.mp hruns).2
  | ok _ =>
    rw [hcode] at hruns
    obtain ⟨found, later, rfl, hfound⟩ := Program.Runs.of_done hruns
    clear hruns
    cases found with
    | none => cases (Program.runs_done_iff.mp hfound).2
    | some record =>
      obtain ⟨now, last, rfl, hread⟩ := Program.Runs.of_done hfound
      clear hfound
      by_cases hexpired : record.expiresAt ≤ now
      · rw [if_pos hexpired] at hread
        cases (Program.runs_done_iff.mp hread).2
      · rw [if_neg hexpired] at hread
        obtain ⟨rfl, hresponse⟩ := Program.runs_done_iff.mp hread
        cases hresponse
        exact ⟨record, now, rfl, Nat.lt_of_not_le hexpired, rfl⟩

/-- A mint request that has answered was counted first, and was refused as rate limited exactly
when the count was over the limit. -/
theorem incrementMintCounter_of_runs {answer : Except AppError Response}
    (hruns : (mintRendezvous primitives trustedIpHeader headers body).Runs trace (.done answer)) :
    ∃ (minted : ℕ) (later : List Performed), trace =
        ⟨.incrementMintCounter (clientIp headers trustedIpHeader) rendezvousTtlSeconds, minted⟩ ::
          later ∧
      (answer = .error .rateLimited ↔ mintRateLimit < minted) := by
  obtain ⟨minted, later, rfl, hcounted⟩ := Program.Runs.of_done hruns
  refine ⟨minted, later, rfl, ?_⟩
  by_cases hlimit : minted > mintRateLimit
  · rw [if_pos hlimit] at hcounted
    obtain ⟨-, hanswer⟩ := Program.runs_done_iff.mp hcounted
    cases hanswer
    exact ⟨fun _ ↦ hlimit, fun _ ↦ rfl⟩
  · rw [if_neg hlimit] at hcounted
    refine ⟨fun hrefused ↦ ?_, fun hover ↦ absurd hover hlimit⟩
    subst hrefused
    cases hcapped : readCappedBody body x25519PubkeyLen with
    | error cause =>
      rw [hcapped] at hcounted
      have hcause := (Program.runs_done_iff.mp hcounted).2
      unfold readCappedBody at hcapped
      split_ifs at hcapped
      cases hcapped
      cases hcause
    | ok read =>
      simp only [hcapped] at hcounted
      by_cases hlength : read.length ≠ x25519PubkeyLen
      · rw [if_pos hlength] at hcounted
        cases (Program.runs_done_iff.mp hcounted).2
      · rw [if_neg hlength] at hcounted
        obtain ⟨now, last, rfl, hread⟩ := Program.Runs.of_done hcounted
        obtain ⟨ok, _, rfl, hstored⟩ := Program.Runs.of_done hread
        cases ok <;> cases (Program.runs_done_iff.mp hstored).2

/-- A mint request that succeeded was within the limit, and stored its key under the commitment. -/
theorem putRendezvous_of_runs {response : Response}
    (hruns : (mintRendezvous primitives trustedIpHeader headers body).Runs trace
      (.done (.ok response))) : ∃ (minted now : ℕ),
      minted ≤ mintRateLimit ∧ body.length = x25519PubkeyLen ∧
      trace = [
        ⟨.incrementMintCounter (clientIp headers trustedIpHeader) rendezvousTtlSeconds, minted⟩,
        ⟨.now, now⟩,
        ⟨.putRendezvous (commitmentCode primitives body)
          ⟨body, (now + rendezvousTtlSeconds) % 2 ^ 64⟩, true⟩] ∧
      response = .octetStream (encodeMintResponse (commitmentCode primitives body)
        ((now + rendezvousTtlSeconds) % 2 ^ 64)) := by
  obtain ⟨minted, later, rfl, hcounted⟩ := Program.Runs.of_done hruns
  by_cases hlimit : minted > mintRateLimit
  · rw [if_pos hlimit] at hcounted
    cases (Program.runs_done_iff.mp hcounted).2
  · rw [if_neg hlimit] at hcounted
    cases hcapped : readCappedBody body x25519PubkeyLen with
    | error cause =>
      rw [hcapped] at hcounted
      cases (Program.runs_done_iff.mp hcounted).2
    | ok read =>
      obtain rfl := (readCappedBody_eq_ok hcapped).1
      simp only [hcapped] at hcounted
      by_cases hlength : read.length ≠ x25519PubkeyLen
      · rw [if_pos hlength] at hcounted
        cases (Program.runs_done_iff.mp hcounted).2
      · rw [if_neg hlength] at hcounted
        obtain ⟨now, last, rfl, hread⟩ := Program.Runs.of_done hcounted
        obtain ⟨ok, _, rfl, hstored⟩ := Program.Runs.of_done hread
        clear hruns hcounted hread
        cases ok with
        | false => cases (Program.runs_done_iff.mp hstored).2
        | true =>
          obtain ⟨rfl, hresponse⟩ := Program.runs_done_iff.mp hstored
          cases hresponse
          exact ⟨minted, now, Nat.le_of_not_lt hlimit, not_not.mp hlength, rfl, rfl⟩

end Runs

end OpfsWebauthn.Backend
