import BitsService.Blobstores.Interface
import BitsService.Foundations.Fmt
import BitsService.Foundations.NetUrl

/-! # The WebDAV client

The requests that each operation makes of a WebDAV server, and what it makes of the responses. A
URL is an endpoint with a path pasted to it; the URL of a signature comes back from the server. -/
namespace BitsService
open GoLib.Effect
set_option autoImplicit false

/-! ## Requests and responses -/

/-- `http.Request`, with the one header that is set. -/
structure HttpRequest where
  method : Bytes
  url : NetUrl
  destination : Option Bytes
  basicAuth : Option (Bytes × Bytes)
  body : Bytes
  deriving DecidableEq

structure HttpResponse where
  statusCode : ℕ
  status : Bytes
  body : Body
  deriving DecidableEq

/-- `httputil.MustParse`. -/
def mustParse {σ : Type} (strict : Bool) (rawUrl : Bytes) : Prog GoError σ NetUrl :=
  match NetUrl.parseRequestURI strict rawUrl with
  | none => raise (.sys (ascii "parse " ++ rawUrl))
  | some u => pure u

/-- `errors.Errorf` with the status for a part of its format. -/
def expectSuccess (message : String) (response : HttpResponse) : Result Unit :=
  if response.statusCode < 200 ∨ response.statusCode > 204 then
    .error (.sys (sprintf (ascii message ++ response.status) []))
  else .ok ()

/-! ## The client -/

/-- `webdav.Blobstore`, with the clock, the printing of operands and the version of the URL
parser. -/
structure WebDavClient (σ : Type) where
  httpClient : HttpRequest → Prog GoError σ (Result HttpResponse)
  webdavPrivateEndpoint : Bytes
  webdavPublicEndpoint : Bytes
  webdavUsername : Bytes
  webdavPassword : Bytes
  now : σ → Time
  printer : Printer
  strict : Bool

namespace WebDavClient
variable {σ : Type} (client : WebDavClient σ)

def url (path : Bytes) : Bytes := client.webdavPrivateEndpoint ++ ascii "/" ++ path

def adminUrl (path : Bytes) : Bytes := client.webdavPrivateEndpoint ++ ascii "/admin/" ++ path

/-- A request without authentication. -/
def request (method : String) (u : NetUrl) : HttpRequest := ⟨ascii method, u, none, none, []⟩

def authorized (request : HttpRequest) : HttpRequest :=
  { request with basicAuth := some (client.webdavUsername, client.webdavPassword) }

/-- `httputil.NewRequest` panics when the URL cannot be parsed. -/
def newRequest (method : String) (urlStr : Bytes) : Prog GoError σ HttpRequest :=
  match NetUrl.parse client.strict urlStr with
  | none => raise (.sys (ascii "parse " ++ urlStr))
  | some u => pure (request method u)

def newRequestWithBasicAuth (method : String) (urlStr body : Bytes) :
    Prog GoError σ HttpRequest := do
  let request ← client.newRequest method urlStr
  pure (client.authorized { request with body := body })

def existsBlob (path : Bytes) : Prog GoError σ (Result Bool) := do
  let request ← client.newRequestWithBasicAuth "HEAD" (client.url path) []
  orReturn (client.httpClient request) (.wrapped (ascii "Error in Exists, path=" ++ path))
    fun response => pure (.ok (response.statusCode = 200))

/-- The blob is asked for without the credentials. -/
def get (path : Bytes) : Prog GoError σ (Result Body) :=
  orReturn (client.existsBlob path) id fun found =>
    if found = false then pure (.error .newNotFoundError)
    else match NetUrl.parse client.strict (client.url path) with
    | none => pure (.error (.wrapped (ascii "path=%!v(MISSING)")
        (.sys (ascii "parse " ++ client.url path))))
    | some u =>
      orReturn (client.httpClient (request "GET" u)) (.wrapped (ascii "path=%!v(MISSING)"))
        fun response =>
          if response.statusCode ≠ 200 then
            pure (.error (.sys (ascii "Unexpected status code " ++ response.status ++
              ascii ". Expected status OK")))
          else pure (.ok response.body)

/-! ## Signing -/

/-- The format begins with the endpoint. A method that is neither has no URL. -/
def signUrl (resource method : Bytes) (expirationTime : Time) : Bytes :=
  if toLower method = ascii "put" then
    sprintf (client.webdavPrivateEndpoint ++ ascii "/sign_for_put?path=/%v&expires=%v")
      [client.printer.string resource, client.printer.int64 (unixSeconds expirationTime)]
  else if toLower method = ascii "get" then
    sprintf (client.webdavPrivateEndpoint ++ ascii "/sign?path=/%v&expires=%v")
      [client.printer.string resource, client.printer.int64 (unixSeconds expirationTime)]
  else []

/-- The URL with the host of the public endpoint. -/
def publicUrl (content : Bytes) : Prog GoError σ Bytes := do
  let signedUrl ← mustParse client.strict content
  let publicEndpoint ← mustParse client.strict client.webdavPublicEndpoint
  pure { signedUrl with host := publicEndpoint.host, scheme := ascii "http" }.text

/-- Errors are returned as if they were URLs. -/
def sign (resource method : Bytes) (expirationTime : Time) : Prog GoError σ Bytes := do
  let request ← client.newRequest "GET" (client.signUrl resource method expirationTime)
  match ← client.httpClient (client.authorized request) with
  | .error e => pure (ascii "Error during signing. Error: " ++ e.text)
  | .ok response =>
    if response.statusCode ≠ 200 then
      pure (ascii "Error during signing. Error code: " ++ response.status)
    else match response.body.readAll with
      | .error e => pure (ascii "Error reading response body. Error: " ++ e.text)
      | .ok content => client.publicUrl content

def getOrRedirect (path : Bytes) : Prog GoError σ (Result (Option Body × Bytes)) :=
  orReturn (client.existsBlob path) id fun found =>
    if found = false then pure (.error .newNotFoundError)
    else do
      let s ← getState
      let signedUrl ← client.sign path (ascii "get") (client.now s + oneHour)
      pure (.ok (none, signedUrl))

def headOrRedirectAsGet (path : Bytes) : Prog GoError σ (Result Bytes) :=
  orReturn (client.getOrRedirect path) id fun (_, redirectLocation) => pure (.ok redirectLocation)

/-! ## Modifying -/

def put (path src : Bytes) : Prog GoError σ (Result Unit) := do
  let request ← client.newRequestWithBasicAuth "PUT" (client.adminUrl path) src
  orReturn (client.httpClient request) (.wrapped (ascii "Request failed. path=" ++ path))
    fun response => pure (expectSuccess "Expected StatusCreated, but got status code: " response)

def putOrRedirect (path src : Bytes) : Prog GoError σ (Result Bytes) :=
  orReturn (client.put path src) id fun _ => pure (.ok [])

def copy (src dest : Bytes) : Prog GoError σ (Result Unit) :=
  orReturn (client.putOrRedirect dest []) id fun _ => do
    let request ← client.newRequest "COPY" (client.adminUrl src)
    orReturn (client.httpClient
        (client.authorized { request with destination := some (client.adminUrl dest) }))
      (.wrapped (ascii "Request failed. src=" ++ src ++ ascii ", dest=" ++ dest)) fun response =>
        if response.statusCode = 404 then pure (.error .newNotFoundError)
        else
          pure (expectSuccess "Expected HTTP status code 200-204, but got status code: " response)

def delete (path : Bytes) : Prog GoError σ (Result Unit) := do
  let request ← client.newRequestWithBasicAuth "DELETE" (client.adminUrl path) []
  orReturn (client.httpClient request) (.wrapped (ascii "Request failed. path=" ++ path))
    fun response =>
      pure (expectSuccess "Expected HTTP status code 200-204, but got status code: " response)

def deleteDir (pre : Bytes) : Prog GoError σ (Result Unit) := do
  let dir := if pre ≠ [] then pre ++ ascii "/" else pre
  let request ← client.newRequestWithBasicAuth "DELETE" (client.adminUrl dir) []
  orReturn (client.httpClient request) (.wrapped (ascii "Request failed. prefix=" ++ dir))
    fun response =>
      if response.statusCode = 404 then pure (.error .newNotFoundError)
      else pure (expectSuccess "Expected HTTP status code 200-204, but got status code: " response)

def toBlobstore : Blobstore σ where
  existsBlob := client.existsBlob
  get := client.get
  put := client.put
  delete := client.delete
  deleteDir := client.deleteDir
  headOrRedirectAsGet := client.headOrRedirectAsGet
  getOrRedirect := client.getOrRedirect
  copy := client.copy

def toResourceSigner : ResourceSigner σ := ⟨client.sign⟩

end WebDavClient

end BitsService
