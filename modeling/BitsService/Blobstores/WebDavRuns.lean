import BitsService.Blobstores.WebDavClient

/-! # Runs against a WebDAV server

A server is how it answers a request after the earlier exchanges, so that every script of responses
is one. -/
namespace BitsService
open GoLib.Effect
set_option autoImplicit false

/-! ## Servers -/

abbrev Exchange := HttpRequest × Result HttpResponse

abbrev HttpServer := List Exchange → HttpRequest → Result HttpResponse

def HttpServer.serve (server : HttpServer) (request : HttpRequest) :
    Prog GoError (List Exchange) (Result HttpResponse) := fun history =>
  (.returned (server history request), history ++ [(request, server history request)])

/-- The exchanges, with this request as the last one. -/
def HttpServer.after (server : HttpServer) (history : List Exchange) (request : HttpRequest) :
    List Exchange := history ++ [(request, server history request)]

/-- A client of `server`. -/
structure ServedClient extends WebDavClient (List Exchange) where
  server : HttpServer
  serves : httpClient = server.serve

/-- The client, where it is `server` that it asks. -/
def WebDavClient.servedBy (client : WebDavClient (List Exchange)) (server : HttpServer) :
    ServedClient :=
  { client with
    httpClient := server.serve
    server := server
    serves := rfl }

/-- The client with which a server at `dav` is asked. -/
def davClient (server : HttpServer) : ServedClient where
  httpClient := server.serve
  webdavPrivateEndpoint := ascii "http://dav"
  webdavPublicEndpoint := ascii "http://blobs"
  webdavUsername := ascii "user"
  webdavPassword := ascii "secret"
  now _ := 0
  printer := plainPrinter
  strict := false
  server := server
  serves := rfl

def HttpServer.answering (code : ℕ) (status content : Bytes) : HttpServer := fun _ _ =>
  .ok ⟨code, status, .whole content⟩

namespace WebDavClient

/-! ## Requests -/

section Requests
variable {σ : Type} {client : WebDavClient σ} {urlStr : Bytes} {u : NetUrl} (method : String)

theorem run_newRequest_some (h : NetUrl.parse client.strict urlStr = some u) (s : σ) :
    (client.newRequest method urlStr).run s = (.returned (request method u), s) := by
  unfold newRequest
  rw [h]
  rfl

theorem run_newRequest_none (h : NetUrl.parse client.strict urlStr = none) (s : σ) :
    (client.newRequest method urlStr).run s =
      (.panicked (.sys (ascii "parse " ++ urlStr)), s) := by
  unfold newRequest
  rw [h]
  rfl

theorem run_newRequestWithBasicAuth_some (h : NetUrl.parse client.strict urlStr = some u)
    (body : Bytes) (s : σ) : (client.newRequestWithBasicAuth method urlStr body).run s =
      (.returned (client.authorized { request method u with body := body }), s) := by
  unfold newRequestWithBasicAuth
  rw [run_bind_returned (run_newRequest_some method h s)]
  rfl

theorem run_newRequestWithBasicAuth_none (h : NetUrl.parse client.strict urlStr = none)
    (body : Bytes) (s : σ) : (client.newRequestWithBasicAuth method urlStr body).run s =
      (.panicked (.sys (ascii "parse " ++ urlStr)), s) :=
  run_bind_panicked (run_newRequest_none method h s)

end Requests

end WebDavClient

namespace ServedClient
open WebDavClient
variable {client : ServedClient} {history : List Exchange} {path src dest : Bytes} {u : NetUrl}

theorem run_httpClient (request : HttpRequest) : (client.httpClient request).run history =
    (.returned (client.server history request), client.server.after history request) := by
  rw [client.serves]
  rfl

theorem run_orReturn_httpClient {α : Type} (request : HttpRequest) (onError : GoError → GoError)
    (k : HttpResponse → Prog GoError (List Exchange) (Result α)) :
    (orReturn (client.httpClient request) onError k).run history =
      match client.server history request with
      | .error e => (.returned (.error (onError e)), client.server.after history request)
      | .ok response => (k response).run (client.server.after history request) := by
  unfold orReturn
  rw [run_bind_returned (run_httpClient request)]
  cases client.server history request with
  | error e => rfl
  | ok response => rfl

/-- What an authorized request leads to. -/
theorem run_authorized_some {α : Type} (method : String) {urlStr : Bytes}
    (h : NetUrl.parse client.strict urlStr = some u) (body : Bytes) (onError : GoError → GoError)
    (k : HttpResponse → Prog GoError (List Exchange) (Result α)) :
    (do
      let request ← client.newRequestWithBasicAuth method urlStr body
      orReturn (client.httpClient request) onError k).run history =
    match client.server history (client.authorized { request method u with body := body }) with
    | .error e => (.returned (.error (onError e)),
        client.server.after history (client.authorized { request method u with body := body }))
    | .ok response => (k response).run
        (client.server.after history (client.authorized { request method u with body := body })) := by
  rw [run_bind_returned (run_newRequestWithBasicAuth_some method h body history),
    run_orReturn_httpClient]

theorem run_authorized_none {α : Type} (method : String) {urlStr : Bytes}
    (h : NetUrl.parse client.strict urlStr = none) (body : Bytes) (onError : GoError → GoError)
    (k : HttpResponse → Prog GoError (List Exchange) (Result α)) :
    (do
      let request ← client.newRequestWithBasicAuth method urlStr body
      orReturn (client.httpClient request) onError k).run history =
    (.panicked (.sys (ascii "parse " ++ urlStr)), history) :=
  run_bind_panicked (run_newRequestWithBasicAuth_none method h body history)

/-! ## The existence check -/

/-- The request of `Exists`. -/
def head (client : ServedClient) (u : NetUrl) : HttpRequest :=
  client.authorized (request "HEAD" u)

/-- What `Exists` makes of the response. -/
def existsAnswer (path : Bytes) : Result HttpResponse → Result Bool
  | .error e => .error (.wrapped (ascii "Error in Exists, path=" ++ path) e)
  | .ok response => .ok (response.statusCode = 200)

theorem run_existsBlob_some (h : NetUrl.parse client.strict (client.url path) = some u) :
    (client.existsBlob path).run history =
      (.returned (existsAnswer path (client.server history (client.head u))),
        client.server.after history (client.head u)) := by
  have hhead : client.authorized { request "HEAD" u with body := [] } = client.head u := rfl
  unfold existsBlob
  rw [run_authorized_some "HEAD" h, hhead]
  cases client.server history (client.head u) with
  | error e => rfl
  | ok response => rfl

theorem run_existsBlob_none (h : NetUrl.parse client.strict (client.url path) = none) :
    (client.existsBlob path).run history =
      (.panicked (.sys (ascii "parse " ++ client.url path)), history) :=
  run_authorized_none "HEAD" h _ _ _

/-- What is done only to blobs that there are. -/
def ifFound {α : Type} (client : ServedClient) (path : Bytes)
    (k : Prog GoError (List Exchange) (Result α)) : Prog GoError (List Exchange) (Result α) :=
  orReturn (client.existsBlob path) id fun found =>
    if found = false then pure (.error .newNotFoundError) else k

section IfFound
variable {α : Type} {k : Prog GoError (List Exchange) (Result α)}

theorem run_ifFound_none (h : NetUrl.parse client.strict (client.url path) = none) :
    (client.ifFound path k).run history =
      (.panicked (.sys (ascii "parse " ++ client.url path)), history) :=
  run_bind_panicked (run_existsBlob_none h)

theorem run_ifFound_some (h : NetUrl.parse client.strict (client.url path) = some u) :
    (client.ifFound path k).run history = match client.server history (client.head u) with
      | .error e => (.returned (.error (.wrapped (ascii "Error in Exists, path=" ++ path) e)),
          client.server.after history (client.head u))
      | .ok response =>
        if response.statusCode = 200 then k.run (client.server.after history (client.head u))
        else (.returned (.error .newNotFoundError),
          client.server.after history (client.head u)) := by
  have hexists : (client.existsBlob path).run history = _ := run_existsBlob_some h
  unfold ifFound
  cases hanswer : client.server history (client.head u) with
  | error e =>
    rw [hanswer] at hexists
    exact run_orReturn_error hexists
  | ok response =>
    rw [hanswer] at hexists
    rw [run_orReturn_ok hexists]
    by_cases hfound : response.statusCode = 200
    · simp [hfound]
    · simp [hfound]

end IfFound

/-- What `Get` makes of the second response. -/
def getAnswer : Result HttpResponse → Result Body
  | .error e => .error (.wrapped (ascii "path=%!v(MISSING)") e)
  | .ok response =>
    if response.statusCode ≠ 200 then
      .error (.sys (ascii "Unexpected status code " ++ response.status ++
        ascii ". Expected status OK"))
    else .ok response.body

/-- What `Get` does with a blob that was found. -/
def fetch (client : ServedClient) (path : Bytes) : Prog GoError (List Exchange) (Result Body) :=
  match NetUrl.parse client.strict (client.url path) with
  | none => pure (.error (.wrapped (ascii "path=%!v(MISSING)")
      (.sys (ascii "parse " ++ client.url path))))
  | some u =>
    orReturn (client.httpClient (request "GET" u)) (.wrapped (ascii "path=%!v(MISSING)"))
      fun response =>
        if response.statusCode ≠ 200 then
          pure (.error (.sys (ascii "Unexpected status code " ++ response.status ++
            ascii ". Expected status OK")))
        else pure (.ok response.body)

theorem get_eq (path : Bytes) : client.get path = client.ifFound path (client.fetch path) := rfl

theorem run_fetch_some (h : NetUrl.parse client.strict (client.url path) = some u) :
    (client.fetch path).run history =
      (.returned (getAnswer (client.server history (request "GET" u))),
        client.server.after history (request "GET" u)) := by
  unfold fetch
  rw [h]
  simp only
  rw [run_orReturn_httpClient]
  cases client.server history (request "GET" u) with
  | error e => rfl
  | ok response =>
    by_cases hok : response.statusCode = 200
    · simp [getAnswer, hok]
    · simp [getAnswer, hok]

/-! ## Signing -/

/-- The request for a signature. -/
def signing (client : ServedClient) (u : NetUrl) : HttpRequest :=
  client.authorized (request "GET" u)

/-- What `Sign` makes of the response. -/
def signed (client : ServedClient) : Result HttpResponse → Prog GoError (List Exchange) Bytes
  | .error e => pure (ascii "Error during signing. Error: " ++ e.text)
  | .ok response =>
    if response.statusCode ≠ 200 then
      pure (ascii "Error during signing. Error code: " ++ response.status)
    else match response.body.readAll with
      | .error e => pure (ascii "Error reading response body. Error: " ++ e.text)
      | .ok content => client.publicUrl content

section Sign
variable {resource method : Bytes} {expirationTime : Time}

theorem run_sign_some
    (h : NetUrl.parse client.strict (client.signUrl resource method expirationTime) = some u) :
    (client.sign resource method expirationTime).run history =
      (client.signed (client.server history (client.signing u))).run
        (client.server.after history (client.signing u)) := by
  have hsigning : client.authorized (request "GET" u) = client.signing u := rfl
  unfold sign
  rw [run_bind_returned (run_newRequest_some "GET" h history), hsigning,
    run_bind_returned (run_httpClient (client.signing u))]
  rfl

theorem run_sign_none
    (h : NetUrl.parse client.strict (client.signUrl resource method expirationTime) = none) :
    (client.sign resource method expirationTime).run history =
      (.panicked (.sys (ascii "parse " ++ client.signUrl resource method expirationTime)),
        history) :=
  run_bind_panicked (run_newRequest_none "GET" h history)

end Sign

/-- When a location for a blob expires. -/
def expiry (client : ServedClient) (history : List Exchange) : Time := client.now history + oneHour

/-- A location is asked for once the blob was found. -/
theorem getOrRedirect_eq (path : Bytes) :
    client.getOrRedirect path = client.ifFound path (do
      let s ← getState
      let signedUrl ← client.sign path (ascii "get") (client.expiry s)
      pure (.ok (none, signedUrl))) := rfl

/-! ## Modifying -/

/-- The request that puts a blob. -/
def putting (client : ServedClient) (body : Bytes) (u : NetUrl) : HttpRequest :=
  client.authorized { request "PUT" u with body := body }

/-- The request that deletes. -/
def deleting (client : ServedClient) (u : NetUrl) : HttpRequest :=
  client.authorized (request "DELETE" u)

/-- The request that copies a blob to `dest`. -/
def copying (client : ServedClient) (dest : Bytes) (u : NetUrl) : HttpRequest :=
  client.authorized { request "COPY" u with destination := some (client.adminUrl dest) }

/-- What is made of the response to a modification, which may be that there is nothing to modify. -/
def modified (missing : Bool) (context : Bytes) (message : String) :
    Result HttpResponse → Result Unit
  | .error e => .error (.wrapped context e)
  | .ok response =>
    if missing = true ∧ response.statusCode = 404 then .error .newNotFoundError
    else expectSuccess message response

section Modifying

theorem run_put_some (h : NetUrl.parse client.strict (client.adminUrl path) = some u)
    (body : Bytes) : (client.put path body).run history =
      (.returned (modified false (ascii "Request failed. path=" ++ path)
        "Expected StatusCreated, but got status code: "
        (client.server history (client.putting body u))),
        client.server.after history (client.putting body u)) := by
  have hputting : client.authorized { request "PUT" u with body := body } =
      client.putting body u := rfl
  unfold put
  rw [run_authorized_some "PUT" h, hputting]
  cases client.server history (client.putting body u) with
  | error e => rfl
  | ok response => simp [modified]

theorem run_put_none (h : NetUrl.parse client.strict (client.adminUrl path) = none)
    (body : Bytes) : (client.put path body).run history =
      (.panicked (.sys (ascii "parse " ++ client.adminUrl path)), history) :=
  run_authorized_none "PUT" h _ _ _

theorem run_delete_some (h : NetUrl.parse client.strict (client.adminUrl path) = some u) :
    (client.delete path).run history =
      (.returned (modified false (ascii "Request failed. path=" ++ path)
        "Expected HTTP status code 200-204, but got status code: "
        (client.server history (client.deleting u))),
        client.server.after history (client.deleting u)) := by
  have hdeleting : client.authorized { request "DELETE" u with body := [] } =
      client.deleting u := rfl
  unfold delete
  rw [run_authorized_some "DELETE" h, hdeleting]
  cases client.server history (client.deleting u) with
  | error e => rfl
  | ok response => simp [modified]

theorem run_delete_none (h : NetUrl.parse client.strict (client.adminUrl path) = none) :
    (client.delete path).run history =
      (.panicked (.sys (ascii "parse " ++ client.adminUrl path)), history) :=
  run_authorized_none "DELETE" h _ _ _

/-- The directory that `DeleteDir` asks to delete. -/
def dirPath (pre : Bytes) : Bytes := if pre ≠ [] then pre ++ ascii "/" else pre

theorem run_deleteDir_some {pre : Bytes}
    (h : NetUrl.parse client.strict (client.adminUrl (dirPath pre)) = some u) :
    (client.deleteDir pre).run history =
      (.returned (modified true (ascii "Request failed. prefix=" ++ dirPath pre)
        "Expected HTTP status code 200-204, but got status code: "
        (client.server history (client.deleting u))),
        client.server.after history (client.deleting u)) := by
  have hdeleting : client.authorized { request "DELETE" u with body := [] } =
      client.deleting u := rfl
  unfold deleteDir
  simp only
  rw [← dirPath, run_authorized_some "DELETE" h, hdeleting]
  cases client.server history (client.deleting u) with
  | error e => rfl
  | ok response =>
    by_cases hmissing : response.statusCode = 404
    · simp [modified, hmissing]
    · simp [modified, hmissing]

theorem run_deleteDir_none {pre : Bytes}
    (h : NetUrl.parse client.strict (client.adminUrl (dirPath pre)) = none) :
    (client.deleteDir pre).run history =
      (.panicked (.sys (ascii "parse " ++ client.adminUrl (dirPath pre))), history) :=
  run_authorized_none "DELETE" h _ _ _

/-- The request to copy, once the destination was put. -/
def copyOnto (client : ServedClient) (src dest : Bytes) :
    Prog GoError (List Exchange) (Result Unit) := do
  let request ← client.newRequest "COPY" (client.adminUrl src)
  orReturn (client.httpClient
      (client.authorized { request with destination := some (client.adminUrl dest) }))
    (.wrapped (ascii "Request failed. src=" ++ src ++ ascii ", dest=" ++ dest)) fun response =>
      if response.statusCode = 404 then pure (.error .newNotFoundError)
      else pure (expectSuccess "Expected HTTP status code 200-204, but got status code: " response)

theorem copy_eq (src dest : Bytes) : client.copy src dest =
    orReturn (client.putOrRedirect dest []) id fun _ => client.copyOnto src dest := rfl

theorem run_copyOnto_some (h : NetUrl.parse client.strict (client.adminUrl src) = some u) :
    (client.copyOnto src dest).run history =
      (.returned (modified true (ascii "Request failed. src=" ++ src ++ ascii ", dest=" ++ dest)
        "Expected HTTP status code 200-204, but got status code: "
        (client.server history (client.copying dest u))),
        client.server.after history (client.copying dest u)) := by
  have hcopying : client.authorized { request "COPY" u with
      destination := some (client.adminUrl dest) } = client.copying dest u := rfl
  unfold copyOnto
  rw [run_bind_returned (run_newRequest_some "COPY" h history), run_orReturn_httpClient, hcopying]
  cases client.server history (client.copying dest u) with
  | error e => rfl
  | ok response =>
    by_cases hmissing : response.statusCode = 404
    · simp [modified, hmissing]
    · simp [modified, hmissing]

theorem run_copyOnto_none (h : NetUrl.parse client.strict (client.adminUrl src) = none) :
    (client.copyOnto src dest).run history =
      (.panicked (.sys (ascii "parse " ++ client.adminUrl src)), history) :=
  run_bind_panicked (run_newRequest_none "COPY" h history)

theorem run_copy_of_put_error {e : GoError} {s : List Exchange}
    (h : (client.put dest []).run history = (.returned (.error e), s)) :
    (client.copy src dest).run history = (.returned (.error e), s) :=
  run_orReturn_error (run_orReturn_error h)

/-- A copy goes on once an empty blob is in place. -/
theorem run_copy_of_put_ok {s : List Exchange}
    (h : (client.put dest []).run history = (.returned (.ok ()), s)) :
    (client.copy src dest).run history = (client.copyOnto src dest).run s := by
  rw [copy_eq]
  exact run_orReturn_ok ((run_orReturn_ok h).trans rfl)

end Modifying

end ServedClient

end BitsService
