import BitsService.Foundations.JsonText
import BitsService.Lib.OperationRuns
import BitsService.Resources.Handler
import BitsService.Server.BasicAuth
import BitsService.Server.UrlAuthority
import BitsService.Stash.AppStashHandler

/-! # The server

Every request passes the middlewares and then a router that tells the private host from the public
one. The private host has the resources, and signs URLs for whoever has credentials; the public host
has the resources behind the middleware that verifies signatures. -/
namespace BitsService
open GoLib.Effect GoLib.OperationRuns
set_option autoImplicit false

/-! ## Requests -/

/-- A request as it arrives; `form` is what parsing its body as a multipart form gives. -/
structure IncomingRequest where
  host : Bytes
  method : HttpMethod
  url : Url
  contentLength : ℤ
  header : Bytes → Bytes
  body : Body
  form : Result Form

namespace IncomingRequest
variable (request : IncomingRequest)

def isMultipart : Bool :=
  decide (ascii "multipart/form-data" <:+: request.header (ascii "Content-Type"))

def routed : RoutedRequest := ⟨request.method, request.url, request.isMultipart⟩

def toRequest : Request :=
  ⟨request.contentLength, request.header, parseQuery request.url.rawQuery, request.body,
    request.form⟩

end IncomingRequest

/-- A request, with the moment at which it is handled and the number that it is given. -/
structure Arrival where
  now : Time
  requestId : ℕ
  request : IncomingRequest

/-! ## Handlers by route -/

/-- The router library with its hosts, the target of its redirects, and what a router answers itself
that has these routes, none of which takes the request. -/
structure RootMux extends Mux where
  matchHost : Bytes → Bytes → Bool
  cleanLocation : Url → Bytes
  unmatched : List Template → RoutedRequest → Response

/-- `{resource}` of the first three templates is called an identifier here as well. -/
def setUpSignRoute : List (Template × (Bytes → SignedResource)) :=
  [(.identifier (ascii "/sign/packages/"), .package),
    (.anyIdentifier (ascii "/sign/droplets/"), .droplet),
    (.identifier (ascii "/sign/buildpacks/"), .buildpack),
    (.anyIdentifier (ascii "/sign/buildpack_cache/entries/"), .buildpackCache),
    (.path (ascii "/sign/app_stash/matches"), fun _ => .appStashMatches)]

/-- The resource whose URL is asked for. -/
def routeSign (mux : Mux) (request : RoutedRequest) : Option SignedResource :=
  if request.method = .get then
    setUpSignRoute.findSome? fun route => (mux.matchPath route.1 request.url.path).map route.2
  else none

variable {σ : Type}

def ResourceOperation.handle (formats : Formats) (handler : ResourceHandler σ) (request : Request)
    (identifier : Bytes) : ResourceOperation → Prog GoError (Env σ) Unit
  | addOrReplace => BitsService.addOrReplace formats handler request identifier
  | addOrReplaceWithDigestInHeader =>
    BitsService.addOrReplaceWithDigestInHeader formats handler request identifier
  | copySourceGuid => BitsService.copySourceGuid formats handler request identifier
  | headOrRedirectAsGet => BitsService.headOrRedirectAsGet formats handler identifier
  | get => getResource formats handler request identifier
  | delete => deleteResource formats handler identifier
  | deleteDir => BitsService.deleteDir formats handler identifier

/-- What `SetUpAllRoutes` is given. -/
structure Server (σ : Type) where
  mux : RootMux
  privateHost : Bytes
  publicHost : Bytes
  credentials : List Credential
  validator : PathSignerValidator
  signHandler : SignedResource → SignResourceHandler σ
  formats : Formats
  appStash : AppStashHandler σ
  resources : ResourceKind → ResourceHandler σ

def newBasicAuthMiddleWare (credentials : List Credential) : BasicAuthMiddleware σ :=
  ⟨credentials, none, none⟩

def respond (response : Response) : Prog GoError (Env σ) Unit :=
  modifyState fun w => { w with response := response }

namespace Server
variable (server : Server σ)

def handleEndpoint (request : Request) : Endpoint → Bytes → Prog GoError (Env σ) Unit
  | .postEntries, _ => postEntries server.formats server.appStash request
  | .postMatches, _ => postMatches server.formats server.appStash request
  | .postBundles, _ => postBundles server.formats server.appStash request
  | .resource kind operation, identifier =>
    operation.handle server.formats (server.resources kind) request identifier

/-- What a router does with a request for the resources, its own templates being `templates`. -/
def serveRoutes (templates : List Template) (request : IncomingRequest) :
    Prog GoError (Env σ) Unit :=
  match routeRequest server.mux.toMux request.routed with
  | some (endpoint, identifier) => server.handleEndpoint request.toRequest endpoint identifier
  | none => respond (server.mux.unmatched templates request.routed)

def internalRouter (now : Time) (request : IncomingRequest) : Prog GoError (Env σ) Unit :=
  match routeSign server.mux.toMux request.routed with
  | some resource =>
    (newBasicAuthMiddleWare server.credentials).serveHTTP request.toRequest fun request =>
      (server.signHandler resource).sign resource.identifier (request.queryGet (ascii "verb")) now
  | none =>
    server.serveRoutes (setUpSignRoute.map Prod.fst ++ publicRoutes.map Route.template) request

def publicRouter (now : Time) (request : IncomingRequest) : Prog GoError (Env σ) Unit :=
  signatureVerification server.validator now request.url
    (server.serveRoutes (publicRoutes.map Route.template) request)

/-- The handler of `SetUpAllRoutes`. -/
def rootRouter (now : Time) (request : IncomingRequest) : Prog GoError (Env σ) Unit :=
  if server.mux.redirects request.url.path then do
    setHeader (ascii "Location") (server.mux.cleanLocation request.url)
    writeHeader 301
  else if server.mux.matchHost server.privateHost request.host then
    server.internalRouter now request
  else if server.mux.matchHost server.publicHost request.host then
    server.publicRouter now request
  else do
    writeHeader 400
    fprintDescriptionAsJSON
      (ascii "Invalid host '%v'. External clients should use hostname '%v.'")
      [request.host, server.publicHost]

end Server

/-! ## Middlewares -/

def multipartMiddleware (request : IncomingRequest) (next : Prog GoError (Env σ) Unit) :
    Prog GoError (Env σ) Unit :=
  if request.isMultipart then
    match request.form with
    | .error _ => writeHeader 500
    | .ok _ => next
  else next

def internalServerErrorResponseBody (vcapRequestId : Bytes) (requestId : ℕ) : Bytes :=
  ascii "\x7b\"service\":\"Bits-Service\",\"error\":\"Internal Server Error\"," ++
    ascii "\"vcap-request-id\":" ++ quote vcapRequestId ++ ascii ",\"request-id\":" ++
    formatInt 10 requestId ++ ascii "\x7d"

def internalServerError (arrival : Arrival) : Prog GoError (Env σ) Unit := do
  writeHeader 500
  write (.raw (internalServerErrorResponseBody
    (arrival.request.header (ascii "X-Vcap-Request-Id")) arrival.requestId))

/-- It recovers from a panic, whose answer comes after what has been sent by then. -/
def panicMiddleware (arrival : Arrival) (next : Prog GoError (Env σ) Unit) :
    Prog GoError (Env σ) Unit := fun w =>
  match next.run w with
  | (.returned u, w') => (.returned u, w')
  | (.panicked _, w') => (internalServerError arrival).run w'

theorem run_panicMiddleware (arrival : Arrival) (m : Prog GoError (Env σ) Unit) (w : Env σ) :
    (panicMiddleware arrival m).run w = match m.run w with
      | (.returned u, w') => (.returned u, w')
      | (.panicked _, w') => (internalServerError arrival).run w' := rfl

theorem run_panicMiddleware_returned {arrival : Arrival} {m : Prog GoError (Env σ) Unit}
    {w w' : Env σ} {u : Unit} (h : m.run w = (.returned u, w')) :
    (panicMiddleware arrival m).run w = (.returned u, w') := by
  rw [run_panicMiddleware, h]

theorem run_panicMiddleware_panicked {arrival : Arrival} {m : Prog GoError (Env σ) Unit}
    {w w' : Env σ} {e : GoError} (h : m.run w = (.panicked e, w')) :
    (panicMiddleware arrival m).run w = (internalServerError arrival).run w' := by
  rw [run_panicMiddleware, h]

theorem run_multipartMiddleware_ok {request : IncomingRequest} {m : Prog GoError (Env σ) Unit}
    (h : (request.isMultipart && !request.form.isOk) = false) (w : Env σ) :
    (multipartMiddleware request m).run w = m.run w := by
  unfold multipartMiddleware
  cases hmultipart : request.isMultipart with
  | false => simp
  | true =>
    cases hform : request.form with
    | ok form => simp
    | error e => simp [hmultipart, hform] at h

/-- The metrics and the log that the first two middlewares write are left out. -/
def Server.serve (server : Server σ) (arrival : Arrival) : Prog GoError (Env σ) Unit :=
  multipartMiddleware arrival.request <|
    panicMiddleware arrival <| server.rootRouter arrival.now arrival.request

/-- A response as it is sent: without a status, it is a success. -/
def Response.sent (response : Response) : Response :=
  { response with status := some (response.status.getD 200) }

/-- The process between two requests, and the services that it uses. -/
abbrev Process (σ : Type) := Host × σ

/-- The answer to a request, and what it leaves behind. -/
def answer (m : Prog GoError (Env σ) Unit) (process : Process σ) : Response × Process σ :=
  let w := (m.run ⟨process.1, process.2, .empty⟩).2
  (w.response.sent, (w.host, w.ext))

/-- A program that only answers. -/
theorem answer_of_run {m : Prog GoError (Env σ) Unit} {process : Process σ}
    {response : Response}
    (h : m.run ⟨process.1, process.2, .empty⟩ =
      (.returned (), ⟨process.1, process.2, response⟩)) :
    answer m process = (response.sent, process) := by
  rw [answer, h]

def Server.step (server : Server σ) (arrival : Arrival) : Process σ → Response × Process σ :=
  answer (server.serve arrival)

end BitsService
