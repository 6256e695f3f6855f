import BitsService.Blobstores.WebDavRuns

/-! # Copying on a WebDAV server

`Copy` first puts an empty blob at its destination and then asks the server to copy. Two requests
can fail, and the first has replaced the destination by then. -/
namespace BitsService
open GoLib.Effect
set_option autoImplicit false

/-! ## The server -/

/-- What `httpClient.Do` returns: an error, or a response with a status code and text. -/
inductive Reply where
  | transport (e : GoError)
  | status (code : ℕ) (text : Bytes)
  deriving DecidableEq

def Reply.success : Reply → Bool
  | .transport _ => false
  | .status code _ => 200 ≤ code && code ≤ 204

/-- A request that fails. It may have been carried out nonetheless. -/
structure FailedRequest where
  reply : Reply
  applied : Bool
  unsuccessful : reply.success = false

/-- The blobs by resource, and the failures of the coming requests; once these have run out, all
are served. -/
structure WebDavServer where
  contents : Bytes → Option Bytes
  script : List (Option FailedRequest)

namespace WebDavServer

/-- A request that is not in the script is answered and carried out by `serve`. -/
def request (serve : (Bytes → Option Bytes) → Reply × (Bytes → Option Bytes)) :
    Prog GoError WebDavServer Reply := fun s =>
  match s.script.headD none with
  | none => (.returned (serve s.contents).1, ⟨(serve s.contents).2, s.script.tail⟩)
  | some failure => (.returned failure.reply,
      ⟨if failure.applied then (serve s.contents).2 else s.contents, s.script.tail⟩)

def servePut (r body : Bytes) (contents : Bytes → Option Bytes) :
    Reply × (Bytes → Option Bytes) :=
  (.status 201 (ascii "201 Created"), Function.update contents r (some body))

/-- `COPY` of a missing source is answered with 404. -/
def serveCopy (q r : Bytes) (contents : Bytes → Option Bytes) : Reply × (Bytes → Option Bytes) :=
  match contents q with
  | none => (.status 404 (ascii "404 Not Found"), contents)
  | some content =>
    (.status 201 (ascii "201 Created"), Function.update contents r (some content))

end WebDavServer

/-! ## The client -/

/-- The blobstore, with the resource that the server takes an URL below the private endpoint to
name, unless there is no such URL. -/
structure WebDavBlobstore where
  webdavPrivateEndpoint : Bytes
  resource : Bytes → Option Bytes

namespace WebDavBlobstore
open WebDavServer
variable (blobstore : WebDavBlobstore)

def adminUrl (path : Bytes) : Bytes := blobstore.webdavPrivateEndpoint ++ ascii "/admin/" ++ path

/-- `httputil.NewRequest` panics when the URL cannot be parsed. -/
def newRequest (path : Bytes) : Prog GoError WebDavServer Bytes :=
  match blobstore.resource (blobstore.adminUrl path) with
  | none => raise (.sys (ascii "parse " ++ blobstore.adminUrl path))
  | some r => pure r

def put (path src : Bytes) : Prog GoError WebDavServer (Result Unit) := do
  let r ← blobstore.newRequest path
  match ← request (servePut r src) with
  | .transport e => pure (.error (.wrapped (ascii "Request failed. path=" ++ path) e))
  | .status code text =>
    if code < 200 ∨ code > 204 then
      pure (.error (.sys (sprintf
        (ascii "Expected StatusCreated, but got status code: " ++ text) [])))
    else pure (.ok ())

def putOrRedirect (path src : Bytes) : Prog GoError WebDavServer (Result Bytes) :=
  orReturn (blobstore.put path src) id fun _ => pure (.ok [])

/-- The `Destination` header is the URL that the first request went to. -/
def copy (src dest : Bytes) : Prog GoError WebDavServer (Result Unit) :=
  orReturn (blobstore.putOrRedirect dest []) id fun _ => do
    let q ← blobstore.newRequest src
    let r ← blobstore.newRequest dest
    match ← request (serveCopy q r) with
    | .transport e => pure (.error (.wrapped (ascii "Request failed. src=" ++ src ++
        ascii ", dest=" ++ dest) e))
    | .status code text =>
      if code = 404 then pure (.error .newNotFoundError)
      else if code < 200 ∨ code > 204 then
        pure (.error (.sys (sprintf
          (ascii "Expected HTTP status code 200-204, but got status code: " ++ text) [])))
      else pure (.ok ())

/-! ## What a copy leaves at its destination -/

variable {blobstore} {s : WebDavServer} {src dest q r : Bytes}

theorem run_newRequest_some {path : Bytes}
    (h : blobstore.resource (blobstore.adminUrl path) = some r) :
    (blobstore.newRequest path).run s = (.returned r, s) := by
  unfold newRequest
  rw [h]
  rfl

theorem run_newRequest_none {path : Bytes}
    (h : blobstore.resource (blobstore.adminUrl path) = none) :
    ∃ e, (blobstore.newRequest path).run s = (.panicked e, s) := by
  unfold newRequest
  rw [h]
  exact ⟨_, rfl⟩

theorem run_request_served {serve : (Bytes → Option Bytes) → Reply × (Bytes → Option Bytes)}
    (h : s.script.headD none = none) :
    (request serve).run s =
      (.returned (serve s.contents).1, ⟨(serve s.contents).2, s.script.tail⟩) := by
  unfold request Prog.run
  simp only [h]

theorem run_request_failed {serve : (Bytes → Option Bytes) → Reply × (Bytes → Option Bytes)}
    {failure : FailedRequest} (h : s.script.headD none = some failure) :
    (request serve).run s = (.returned failure.reply,
      ⟨if failure.applied then (serve s.contents).2 else s.contents, s.script.tail⟩) := by
  unfold request Prog.run
  simp only [h]

theorem success_iff {code : ℕ} {text : Bytes} :
    (Reply.status code text).success = true ↔ ¬ (code < 200 ∨ code > 204) := by
  simp [Reply.success]

theorem run_put {path : Bytes} (body : Bytes) {reply : Reply} {s' : WebDavServer}
    (hresource : blobstore.resource (blobstore.adminUrl path) = some r)
    (hreply : (request (servePut r body)).run s = (.returned reply, s')) :
    ∃ result, (blobstore.put path body).run s = (.returned result, s') ∧
      (result = .ok () ↔ reply.success = true) := by
  unfold put
  rw [run_bind_returned (run_newRequest_some hresource), run_bind_returned hreply]
  cases reply with
  | transport e => exact ⟨_, rfl, iff_of_false (fun h => nomatch h) (fun h => nomatch h)⟩
  | status code text =>
    by_cases hcode : code < 200 ∨ code > 204
    · simp only [if_pos hcode]
      exact ⟨_, rfl, iff_of_false (fun h => nomatch h) (fun h => success_iff.mp h hcode)⟩
    · simp only [if_neg hcode]
      exact ⟨_, rfl, iff_of_true rfl (success_iff.mpr hcode)⟩

theorem run_copy_put_failed {e : GoError} {s' : WebDavServer}
    (h : (blobstore.put dest []).run s = (.returned (.error e), s')) :
    (blobstore.copy src dest).run s = (.returned (.error e), s') :=
  run_orReturn_error (run_bind_returned h)

theorem run_copy_put_ok {s₁ : WebDavServer}
    (h : (blobstore.put dest []).run s = (.returned (.ok ()), s₁))
    (hdest : blobstore.resource (blobstore.adminUrl dest) = some r)
    (hsrc : blobstore.resource (blobstore.adminUrl src) = some q) {reply : Reply}
    {s' : WebDavServer} (hreply : (request (serveCopy q r)).run s₁ = (.returned reply, s')) :
    ∃ result, (blobstore.copy src dest).run s = (.returned result, s') ∧
      (result = .ok () ↔ reply.success = true) := by
  have hput : (blobstore.putOrRedirect dest []).run s = (.returned (.ok []), s₁) :=
    run_bind_returned h
  unfold copy
  rw [run_orReturn_ok hput, run_bind_returned (run_newRequest_some hsrc),
    run_bind_returned (run_newRequest_some hdest), run_bind_returned hreply]
  cases reply with
  | transport e => exact ⟨_, rfl, iff_of_false (fun h => nomatch h) (fun h => nomatch h)⟩
  | status code text =>
    by_cases hmissing : code = 404
    · simp only [if_pos hmissing]
      refine ⟨_, rfl, iff_of_false (fun h => nomatch h) (fun h => success_iff.mp h (.inr ?_))⟩
      omega
    · simp only [if_neg hmissing]
      by_cases hcode : code < 200 ∨ code > 204
      · simp only [if_pos hcode]
        exact ⟨_, rfl, iff_of_false (fun h => nomatch h) (fun h => success_iff.mp h hcode)⟩
      · simp only [if_neg hcode]
        exact ⟨_, rfl, iff_of_true rfl (success_iff.mpr hcode)⟩

theorem run_copy_no_source {s₁ : WebDavServer}
    (h : (blobstore.put dest []).run s = (.returned (.ok ()), s₁))
    (hsrc : blobstore.resource (blobstore.adminUrl src) = none) :
    ∃ e, (blobstore.copy src dest).run s = (.panicked e, s₁) := by
  have hput : (blobstore.putOrRedirect dest []).run s = (.returned (.ok []), s₁) :=
    run_bind_returned h
  obtain ⟨e, hpanic⟩ := run_newRequest_none (s := s₁) hsrc
  unfold copy
  rw [run_orReturn_ok hput]
  exact ⟨e, run_bind_panicked hpanic⟩

theorem run_copy_no_dest (hdest : blobstore.resource (blobstore.adminUrl dest) = none) :
    ∃ e, (blobstore.copy src dest).run s = (.panicked e, s) := by
  obtain ⟨e, hpanic⟩ := run_newRequest_none (s := s) hdest
  exact ⟨e, run_bind_panicked (run_bind_panicked (run_bind_panicked hpanic))⟩

variable (blobstore) (s) (src) (dest) in
/-- When a copy returns an error, its destination is as it was, and when it returns nil, the
destination holds what the source held before. -/
def CopiesAtomically : Prop :=
  ∀ r, blobstore.resource (blobstore.adminUrl dest) = some r → ∀ result s',
    (blobstore.copy src dest).run s = (.returned result, s') →
      (result ≠ .ok () → s'.contents r = s.contents r) ∧
      (result = .ok () → ∃ q, blobstore.resource (blobstore.adminUrl src) = some q ∧
        s'.contents r = s.contents q)

variable (blobstore) (s) (src) (dest) in
/-- The first request fails and is not carried out; or it is, and the source is another resource
that there is, and the second is served; or else what they leave is what was there. -/
def LeavesDestination : Prop :=
  match blobstore.resource (blobstore.adminUrl dest) with
  | none => True
  | some r =>
    match s.script.headD none with
    | some failure => failure.applied = false ∨ s.contents r = some []
    | none =>
      match blobstore.resource (blobstore.adminUrl src) with
      | none => True
      | some q =>
        if q ≠ r ∧ s.contents q ≠ none then
          match s.script.tail.headD none with
          | none => True
          | some failure => s.contents r = if failure.applied then s.contents q else some []
        else s.contents r = some []

theorem copiesAtomically_of_error {e : GoError} {s' : WebDavServer}
    (hdest : blobstore.resource (blobstore.adminUrl dest) = some r)
    (hrun : (blobstore.copy src dest).run s = (.returned (.error e), s')) :
    blobstore.CopiesAtomically s src dest ↔ s'.contents r = s.contents r := by
  constructor
  · intro hcopies
    exact (hcopies r hdest _ s' hrun).1 (fun h => nomatch h)
  · intro h r' hdest' result s'' hrun'
    rw [hdest] at hdest'
    rw [hrun] at hrun'
    cases hdest'
    cases hrun'
    exact ⟨fun _ => h, fun hok => nomatch hok⟩

theorem copiesAtomically_of_ok {s' : WebDavServer}
    (hdest : blobstore.resource (blobstore.adminUrl dest) = some r)
    (hsrc : blobstore.resource (blobstore.adminUrl src) = some q)
    (hrun : (blobstore.copy src dest).run s = (.returned (.ok ()), s')) :
    blobstore.CopiesAtomically s src dest ↔ s'.contents r = s.contents q := by
  constructor
  · intro hcopies
    obtain ⟨q', hsrc', hcontent⟩ := (hcopies r hdest _ s' hrun).2 rfl
    rw [hsrc] at hsrc'
    cases hsrc'
    exact hcontent
  · intro h r' hdest' result s'' hrun'
    rw [hdest] at hdest'
    rw [hrun] at hrun'
    cases hdest'
    cases hrun'
    exact ⟨fun hne => absurd rfl hne, fun _ => ⟨q, hsrc, h⟩⟩

theorem copiesAtomically_of_panic {e : GoError} {s' : WebDavServer}
    (hrun : (blobstore.copy src dest).run s = (.panicked e, s')) :
    blobstore.CopiesAtomically s src dest := by
  intro r _ result s'' hrun'
  rw [hrun] at hrun'
  cases hrun'

theorem serveCopy_present {content : Bytes} {contents : Bytes → Option Bytes}
    (h : contents q = some content) : serveCopy q r contents =
      (.status 201 (ascii "201 Created"), Function.update contents r (some content)) := by
  unfold serveCopy
  rw [h]

theorem serveCopy_missing {contents : Bytes → Option Bytes} (h : contents q = none) :
    serveCopy q r contents = (.status 404 (ascii "404 Not Found"), contents) := by
  unfold serveCopy
  rw [h]

section SecondRequest
variable (hdest : blobstore.resource (blobstore.adminUrl dest) = some r)
  (hsrc : blobstore.resource (blobstore.adminUrl src) = some q)
  (hput : (blobstore.put dest []).run s =
    (.returned (.ok ()), ⟨Function.update s.contents r (some []), s.script.tail⟩))
include hdest hsrc hput

theorem copiesAtomically_of_served (hfate : s.script.tail.headD none = none) :
    blobstore.CopiesAtomically s src dest ↔
      if (serveCopy q r (Function.update s.contents r (some []))).1.success = true then
        (serveCopy q r (Function.update s.contents r (some []))).2 r = s.contents q
      else (serveCopy q r (Function.update s.contents r (some []))).2 r = s.contents r := by
  obtain ⟨result, hrun, hok⟩ := run_copy_put_ok hput hdest hsrc (run_request_served hfate)
  by_cases hsuccess :
      (serveCopy q r (Function.update s.contents r (some []))).1.success = true
  · rw [if_pos hsuccess]
    obtain rfl := hok.mpr hsuccess
    exact copiesAtomically_of_ok hdest hsrc hrun
  · rw [if_neg hsuccess]
    cases result with
    | ok u => exact absurd (hok.mp rfl) hsuccess
    | error e => exact copiesAtomically_of_error hdest hrun

theorem copiesAtomically_of_failed {failure : FailedRequest}
    (hfate : s.script.tail.headD none = some failure) :
    blobstore.CopiesAtomically s src dest ↔
      (if failure.applied then (serveCopy q r (Function.update s.contents r (some []))).2
        else Function.update s.contents r (some [])) r = s.contents r := by
  obtain ⟨result, hrun, hok⟩ := run_copy_put_ok hput hdest hsrc (run_request_failed hfate)
  cases result with
  | ok u =>
    have hsuccess := hok.mp rfl
    rw [failure.unsuccessful] at hsuccess
    cases hsuccess
  | error e => exact copiesAtomically_of_error hdest hrun

/-- The second request, when the first has put an empty blob in place. -/
theorem copiesAtomically_of_put : blobstore.CopiesAtomically s src dest ↔
      if q ≠ r ∧ s.contents q ≠ none then
        match s.script.tail.headD none with
        | none => True
        | some failure => s.contents r = if failure.applied then s.contents q else some []
      else s.contents r = some [] := by
  by_cases hsource : q ≠ r ∧ s.contents q ≠ none
  · obtain ⟨content, hcontent⟩ := Option.ne_none_iff_exists'.mp hsource.2
    have hserve := serveCopy_present (r := r)
      ((Function.update_of_ne hsource.1 (some []) s.contents).trans hcontent)
    rw [if_pos hsource]
    cases hfate : s.script.tail.headD none with
    | none =>
      rw [copiesAtomically_of_served hdest hsrc hput hfate, hserve]
      simp [Reply.success, hcontent]
    | some failure =>
      rw [copiesAtomically_of_failed hdest hsrc hput hfate, hserve, hcontent]
      by_cases happlied : failure.applied = true
      · simp [happlied, eq_comm]
      · simp [happlied, eq_comm]
  · rw [if_neg hsource]
    -- the source is the empty blob just put, or there is none: an empty blob is what is left
    have hserve : (serveCopy q r (Function.update s.contents r (some []))).2 r = some [] ∧
        ((serveCopy q r (Function.update s.contents r (some []))).1.success = true → q = r) := by
      by_cases hsame : q = r
      · subst hsame
        rw [serveCopy_present (Function.update_self q (some []) s.contents)]
        simp
      · have hmissing : s.contents q = none := by
          by_contra hpresent
          exact hsource ⟨hsame, hpresent⟩
        rw [serveCopy_missing ((Function.update_of_ne hsame (some []) s.contents).trans hmissing)]
        simp [Reply.success]
    cases hfate : s.script.tail.headD none with
    | none =>
      rw [copiesAtomically_of_served hdest hsrc hput hfate, hserve.1]
      by_cases hsuccess :
          (serveCopy q r (Function.update s.contents r (some []))).1.success = true
      · rw [if_pos hsuccess, hserve.2 hsuccess, eq_comm]
      · rw [if_neg hsuccess, eq_comm]
    | some failure =>
      rw [copiesAtomically_of_failed hdest hsrc hput hfate]
      by_cases happlied : failure.applied = true
      · rw [if_pos happlied, hserve.1, eq_comm]
      · rw [if_neg happlied, Function.update_self, eq_comm]

end SecondRequest

/-- **A copy is atomic exactly when** its requests leave the destination in one of these ways. -/
theorem copiesAtomically_iff (blobstore : WebDavBlobstore) (s : WebDavServer) (src dest : Bytes) :
    blobstore.CopiesAtomically s src dest ↔ blobstore.LeavesDestination s src dest := by
  unfold LeavesDestination
  cases hdest : blobstore.resource (blobstore.adminUrl dest) with
  | none =>
    obtain ⟨e, hpanic⟩ := run_copy_no_dest (s := s) hdest
    exact iff_of_true (copiesAtomically_of_panic hpanic) trivial
  | some r =>
    simp only
    cases hfate : s.script.headD none with
    | some failure =>
      obtain ⟨result, hput, hok⟩ := run_put [] hdest (run_request_failed hfate)
      have hfailed : result ≠ .ok () := by
        rw [ne_eq, hok, failure.unsuccessful]
        exact Bool.false_ne_true
      cases result with
      | ok u => exact absurd rfl hfailed
      | error e =>
        rw [copiesAtomically_of_error hdest (run_copy_put_failed hput)]
        by_cases happlied : failure.applied = true
        · simp [happlied, servePut, eq_comm]
        · simp [happlied]
    | none =>
      obtain ⟨result, hput, hok⟩ := run_put [] hdest (run_request_served hfate)
      obtain rfl : result = .ok () := hok.mpr rfl
      simp only
      cases hsrc : blobstore.resource (blobstore.adminUrl src) with
      | none =>
        obtain ⟨e, hpanic⟩ := run_copy_no_source hput hsrc
        exact iff_of_true (copiesAtomically_of_panic hpanic) trivial
      | some q => exact copiesAtomically_of_put hdest hsrc hput

end WebDavBlobstore

/-! ## The client that makes these requests -/

def Reply.toResponse : Reply → Result HttpResponse
  | .transport e => .error e
  | .status code text => .ok ⟨code, text, .whole []⟩

/-- What the server makes of a request to put or to copy, where it takes a URL to name the resource
`resourceOf`. -/
def WebDavServer.serveRequest (strict : Bool) (resourceOf : NetUrl → Bytes)
    (request : HttpRequest) (contents : Bytes → Option Bytes) : Reply × (Bytes → Option Bytes) :=
  if request.method = ascii "PUT" then servePut (resourceOf request.url) request.body contents
  else
    match request.destination.bind (NetUrl.parse strict) with
    | none => (.status 400 (ascii "400 Bad Request"), contents)
    | some dest => serveCopy (resourceOf request.url) (resourceOf dest) contents

def WebDavServer.httpClient (strict : Bool) (resourceOf : NetUrl → Bytes)
    (request : HttpRequest) : Prog GoError WebDavServer (Result HttpResponse) := do
  let reply ← WebDavServer.request (serveRequest strict resourceOf request)
  pure reply.toResponse

namespace WebDavClient
variable (client : WebDavClient WebDavServer) (resourceOf : NetUrl → Bytes)

/-- The blobstore as seen from the server. -/
def onServer : WebDavBlobstore where
  webdavPrivateEndpoint := client.webdavPrivateEndpoint
  resource urlStr := (NetUrl.parse client.strict urlStr).map resourceOf

theorem resource_onServer (path : Bytes) :
    (client.onServer resourceOf).resource ((client.onServer resourceOf).adminUrl path) =
      (NetUrl.parse client.strict (client.adminUrl path)).map resourceOf := rfl

variable {client resourceOf}
  (hclient : client.httpClient = WebDavServer.httpClient client.strict resourceOf)
include hclient

/-- A request is answered with a reply of the server. -/
theorem run_httpClient_onServer {request : HttpRequest}
    {serve : (Bytes → Option Bytes) → Reply × (Bytes → Option Bytes)}
    (hserve : WebDavServer.serveRequest client.strict resourceOf request = serve)
    (s : WebDavServer) :
    ∃ reply s', (WebDavServer.request serve).run s = (.returned reply, s') ∧
      (client.httpClient request).run s = (.returned reply.toResponse, s') := by
  obtain ⟨reply, s', hreply⟩ : ∃ reply s',
      (WebDavServer.request serve).run s = (.returned reply, s') := by
    cases hfate : s.script.headD none with
    | none => exact ⟨_, _, WebDavBlobstore.run_request_served hfate⟩
    | some failure => exact ⟨_, _, WebDavBlobstore.run_request_failed hfate⟩
  refine ⟨reply, s', hreply, ?_⟩
  rw [hclient, WebDavServer.httpClient, hserve]
  exact run_bind_returned hreply

/-- **The client puts** as the blobstore of its server does. -/
theorem put_eq_onServer (path src : Bytes) :
    client.put path src = (client.onServer resourceOf).put path src := by
  funext s
  show (client.put path src).run s = ((client.onServer resourceOf).put path src).run s
  unfold put WebDavBlobstore.put
  have hresource := client.resource_onServer resourceOf path
  cases hparse : NetUrl.parse client.strict (client.adminUrl path) with
  | none =>
    rw [hparse, Option.map_none] at hresource
    unfold WebDavBlobstore.newRequest
    rw [run_bind_panicked (run_newRequestWithBasicAuth_none "PUT" hparse src s), hresource]
    rfl
  | some u =>
    rw [hparse, Option.map_some] at hresource
    have hserve : WebDavServer.serveRequest client.strict resourceOf
        (client.authorized { request "PUT" u with body := src }) =
          WebDavServer.servePut (resourceOf u) src := by
      funext contents
      exact if_pos rfl
    obtain ⟨reply, s', hreply, hresponse⟩ := run_httpClient_onServer hclient hserve s
    rw [run_bind_returned (run_newRequestWithBasicAuth_some "PUT" hparse src s),
      run_bind_returned (WebDavBlobstore.run_newRequest_some hresource), run_bind_returned hreply,
      orReturn, run_bind_returned hresponse]
    cases reply with
    | transport e => rfl
    | status code text =>
      by_cases hcode : code < 200 ∨ code > 204
      · simp [Reply.toResponse, expectSuccess, hcode]
      · simp [Reply.toResponse, expectSuccess, hcode]

/-- The second request of a copy. -/
theorem run_copyOnto_onServer {dest : Bytes} {v : NetUrl} (u : NetUrl)
    (hdest : NetUrl.parse client.strict (client.adminUrl dest) = some v) (s : WebDavServer) :
    ∃ reply s', (WebDavServer.request
        (WebDavServer.serveCopy (resourceOf u) (resourceOf v))).run s = (.returned reply, s') ∧
      (client.httpClient (client.authorized
        { request "COPY" u with destination := some (client.adminUrl dest) })).run s =
          (.returned reply.toResponse, s') := by
  refine run_httpClient_onServer hclient ?_ s
  funext contents
  have hbind : (some (client.adminUrl dest)).bind (NetUrl.parse client.strict) = some v := hdest
  refine (if_neg (show ¬ ascii "COPY" = ascii "PUT" by decide)).trans ?_
  simp only [authorized, request, hbind]

/-- **The client copies** as the blobstore of its server does. -/
theorem copy_eq_onServer (src dest : Bytes) :
    client.copy src dest = (client.onServer resourceOf).copy src dest := by
  have hput : client.putOrRedirect dest [] =
      (client.onServer resourceOf).putOrRedirect dest [] := by
    unfold putOrRedirect WebDavBlobstore.putOrRedirect
    rw [put_eq_onServer hclient]
  have hdestResource := client.resource_onServer resourceOf dest
  have hsrcResource := client.resource_onServer resourceOf src
  unfold copy WebDavBlobstore.copy
  rw [hput]
  cases hdest : NetUrl.parse client.strict (client.adminUrl dest) with
  | none =>
    -- the blob that is put first cannot be asked for
    rw [hdest, Option.map_none] at hdestResource
    funext s
    obtain ⟨e, hpanic⟩ := WebDavBlobstore.run_newRequest_none (s := s) hdestResource
    have hpanicked : ((client.onServer resourceOf).putOrRedirect dest []).run s =
        (.panicked e, s) := run_bind_panicked (run_bind_panicked hpanic)
    exact (run_bind_panicked hpanicked).trans (run_bind_panicked hpanicked).symm
  | some v =>
    rw [hdest, Option.map_some] at hdestResource
    refine congrArg (orReturn _ id) (funext fun _ => funext fun s => ?_)
    show Prog.run _ s = Prog.run _ s
    cases hsrc : NetUrl.parse client.strict (client.adminUrl src) with
    | none =>
      rw [hsrc, Option.map_none] at hsrcResource
      rw [run_bind_panicked (run_newRequest_none "COPY" hsrc s)]
      unfold WebDavBlobstore.newRequest
      rw [hsrcResource]
      rfl
    | some u =>
      rw [hsrc, Option.map_some] at hsrcResource
      obtain ⟨reply, s', hreply, hresponse⟩ := run_copyOnto_onServer hclient u hdest s
      rw [run_bind_returned (run_newRequest_some "COPY" hsrc s), orReturn,
        run_bind_returned hresponse,
        run_bind_returned (WebDavBlobstore.run_newRequest_some hsrcResource),
        run_bind_returned (WebDavBlobstore.run_newRequest_some hdestResource),
        run_bind_returned hreply]
      cases reply with
      | transport e => rfl
      | status code text =>
        by_cases hmissing : code = 404
        · simp [Reply.toResponse, hmissing]
        · by_cases hcode : code < 200 ∨ code > 204
          · simp [Reply.toResponse, expectSuccess, hmissing, hcode]
          · simp [Reply.toResponse, expectSuccess, hmissing, hcode]

end WebDavClient

/-- A server that takes URLs as they are, with one blob. -/
def plainWebDav : WebDavBlobstore := ⟨ascii "https://blobs", some⟩

def serverWithOld : WebDavServer where
  contents := Function.update (fun _ => none) (plainWebDav.adminUrl (ascii "dest"))
    (some (ascii "old"))
  script := []

/-- The copy of a missing source, and that of a blob onto itself, leave an empty blob. -/
theorem not_copiesAtomically_dest :
    ¬ plainWebDav.CopiesAtomically serverWithOld (ascii "src") (ascii "dest") ∧
      ¬ plainWebDav.CopiesAtomically serverWithOld (ascii "dest") (ascii "dest") := by
  constructor
  · intro hcopies
    have hkeeps := (hcopies _ rfl _ _ rfl).1 (by decide)
    exact absurd hkeeps (by decide)
  · intro hcopies
    obtain ⟨q, hsrc, hcontent⟩ := (hcopies _ rfl _ _ rfl).2 rfl
    cases hsrc
    exact absurd hcontent (by decide)

end BitsService
