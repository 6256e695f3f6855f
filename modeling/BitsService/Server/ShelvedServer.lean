import BitsService.Resources.ShelvedResources
import BitsService.Server.Access

/-! # The server over maps

The whole server as a function from requests and blobs to responses and blobs. On a host without
faults it is what the server does, in every run: neither what temp files there are nor how many
retries there is time for makes a difference. -/
namespace BitsService
open GoLib.Effect GoLib.OperationRuns
set_option autoImplicit false

variable {σ : Type}

/-- A server whose blobs are on shelves, with signers of its own for the URLs of all resources. -/
structure ShelvedServer (σ : Type) where
  mux : RootMux
  privateHost : Bytes
  publicHost : Bytes
  credentials : List Credential
  validator : PathSignerValidator
  endpoint : Bytes
  formats : Formats
  appStash : ShelvedStash σ
  resources : ResourceKind → ShelvedResource σ

def ShelvedResource.ending (formats : Formats) (resource : ShelvedResource σ) (request : Request)
    (identifier : Bytes) : ResourceOperation → σ → Ending σ
  | .addOrReplace => resource.addOrReplaceEnding formats request identifier
  | .addOrReplaceWithDigestInHeader => resource.digestEnding request identifier
  | .copySourceGuid => resource.copyEnding formats request identifier
  | .headOrRedirectAsGet => resource.headEnding identifier
  | .get => resource.getEnding formats request identifier
  | .delete => resource.deleteEnding identifier
  | .deleteDir => resource.deleteDirEnding identifier

namespace ShelvedServer
variable (model : ShelvedServer σ)

def signer (r : SignedResource) : LocalResourceSigner :=
  ⟨model.validator, r.pathPrefix, model.endpoint⟩

def signHandler : SignedResource → SignResourceHandler σ
  | .appStashMatches => ⟨none, some (model.signer .appStashMatches).toResourceSigner⟩
  | r => newSignResourceHandler (model.signer r).toResourceSigner (model.signer r).toResourceSigner

def server : Server σ where
  mux := model.mux
  privateHost := model.privateHost
  publicHost := model.publicHost
  credentials := model.credentials
  validator := model.validator
  signHandler := model.signHandler
  formats := model.formats
  appStash := model.appStash.handler
  resources kind := (model.resources kind).handler

/-! ## What it makes of a request -/

def signedUrl (r : SignedResource) (now : Time) : Bytes :=
  model.endpoint ++ model.validator.sign r.path (now + oneHour)

/-- There is no URL to get the matches of the app stash. -/
def signResponse (r : SignedResource) (verb : Bytes) (now : Time) : Option Response :=
  let method := if verb = [] then ascii "get" else verb
  if method = ascii "get" then
    if r = .appStashMatches then none else some ⟨some 200, [], [.raw (model.signedUrl r now)]⟩
  else if method = ascii "put" ∨ method = ascii "post" then
    some ⟨some 200, [], [.raw (model.signedUrl r now)]⟩
  else some ⟨some 400, [], [.raw (ascii "Invalid verb: " ++ method)]⟩

def endpointEnding (request : Request) : Endpoint → Bytes → σ → Ending σ
  | .postEntries, _ => model.appStash.postEntriesEnding model.formats request
  | .postMatches, _ => model.appStash.postMatchesEnding model.formats request
  | .postBundles, _ => model.appStash.postBundlesEnding model.formats request
  | .resource kind operation, identifier =>
    (model.resources kind).ending model.formats request identifier operation

def routesEnding (templates : List Template) (request : IncomingRequest) (s : σ) : Ending σ :=
  match routeRequest model.mux.toMux request.routed with
  | some (endpoint, identifier) => model.endpointEnding request.toRequest endpoint identifier s
  | none => (some (model.mux.unmatched templates request.routed), s)

def internalEnding (now : Time) (request : IncomingRequest) (s : σ) : Ending σ :=
  match routeSign model.mux.toMux request.routed with
  | some r =>
    if model.server.lists request.toRequest then
      (model.signResponse r (request.toRequest.queryGet (ascii "verb")) now, s)
    else (some ⟨some 401, [], []⟩, s)
  | none =>
    model.routesEnding (setUpSignRoute.map Prod.fst ++ publicRoutes.map Route.template) request s

def publicEnding (now : Time) (request : IncomingRequest) (s : σ) : Ending σ :=
  if model.validator.admits now request.url then
    model.routesEnding (publicRoutes.map Route.template) request s
  else (some ⟨some 403, [], []⟩, s)

def rootEnding (now : Time) (request : IncomingRequest) (s : σ) : Ending σ :=
  if model.mux.redirects request.url.path then
    (some ⟨some 301, [(ascii "Location", model.mux.cleanLocation request.url)], []⟩, s)
  else if model.mux.matchHost model.privateHost request.host then
    model.internalEnding now request s
  else if model.mux.matchHost model.publicHost request.host then
    model.publicEnding now request s
  else (some ⟨some 400, [], [.description none
    (ascii "Invalid host '%v'. External clients should use hostname '%v.'")
    [request.host, model.publicHost]]⟩, s)

def internalServerErrorResponse (arrival : Arrival) : Response :=
  ⟨some 500, [], [.raw (internalServerErrorResponseBody
    (arrival.request.header (ascii "X-Vcap-Request-Id")) arrival.requestId)]⟩

/-- The answer to a request, and the state that it leaves. -/
def answerTo (arrival : Arrival) (s : σ) : Response × σ :=
  if arrival.request.isMultipart && !arrival.request.form.isOk then (⟨some 500, [], []⟩, s)
  else
    let ending := model.rootEnding arrival.now arrival.request s
    ((ending.1.getD (internalServerErrorResponse arrival)).sent, ending.2)

/-! ## That is what the server does -/

variable {model} {w : Env σ}

theorem ends_sign (hw : Idle w) (r : SignedResource) (verb : Bytes) (now : Time) :
    Ends ((model.signHandler r).sign r.identifier verb now) w
      (model.signResponse r verb now, w.ext) := by
  have hsigned : ∀ method, Ends (SignResourceHandler.respondWith
      (some (model.signer r).toResourceSigner) r.identifier method now) w
      (some ⟨some 200, [], [.raw (model.signedUrl r now)]⟩, w.ext) := fun _ => hw.ends_write _
  have hput : (model.signHandler r).putResourceSigner =
      some (model.signer r).toResourceSigner := by
    cases r <;> rfl
  unfold SignResourceHandler.sign signResponse
  rw [hput]
  generalize (if verb = [] then ascii "get" else verb) = method
  by_cases hmethod : method = ascii "get"
  · simp only [if_pos hmethod]
    cases r with
    | appStashMatches => exact Ends.raise hw _
    | _ => exact hsigned _
  by_cases hmethod' : method = ascii "put" ∨ method = ascii "post"
  · simp only [if_neg hmethod, if_pos hmethod']
    exact hsigned _
  · simp only [if_neg hmethod, if_neg hmethod']
    exact hw.ends_writeHeader_write 400 _

theorem ends_handle (hw : Idle w) (resource : ShelvedResource σ) (formats : Formats)
    (request : Request) (identifier : Bytes) (operation : ResourceOperation) :
    Ends (operation.handle formats resource.handler request identifier) w
      (resource.ending formats request identifier operation w.ext) := by
  cases operation with
  | addOrReplace => exact ShelvedResource.ends_addOrReplace formats hw request identifier
  | addOrReplaceWithDigestInHeader =>
    exact ShelvedResource.ends_addOrReplaceWithDigestInHeader formats hw request identifier
  | copySourceGuid => exact ShelvedResource.ends_copySourceGuid formats hw request identifier
  | headOrRedirectAsGet => exact ShelvedResource.ends_headOrRedirectAsGet formats hw identifier
  | get => exact ShelvedResource.ends_getResource formats hw request identifier
  | delete => exact ShelvedResource.ends_deleteResource formats hw identifier
  | deleteDir => exact ShelvedResource.ends_deleteDir formats hw identifier

theorem ends_serveRoutes (hw : Idle w) (templates : List Template) (request : IncomingRequest) :
    Ends (model.server.serveRoutes templates request) w
      (model.routesEnding templates request w.ext) := by
  unfold Server.serveRoutes routesEnding
  show Ends (match routeRequest model.mux.toMux request.routed with
    | some (endpoint, identifier) =>
      model.server.handleEndpoint request.toRequest endpoint identifier
    | none => respond (model.mux.unmatched templates request.routed)) w _
  cases routeRequest model.mux.toMux request.routed with
  | none => exact ⟨hw.faultless, rfl⟩
  | some routed =>
    obtain ⟨endpoint, identifier⟩ := routed
    cases endpoint with
    | postEntries => exact ShelvedStash.ends_postEntries model.formats hw _
    | postMatches => exact ShelvedStash.ends_postMatches model.formats hw _
    | postBundles => exact ShelvedStash.ends_postBundles model.formats hw _
    | resource kind operation => exact ends_handle hw _ _ _ _ _

theorem ends_internalRouter (hw : Idle w) (now : Time) (request : IncomingRequest) :
    Ends (model.server.internalRouter now request) w (model.internalEnding now request w.ext) := by
  unfold Server.internalRouter internalEnding
  show Ends (match routeSign model.mux.toMux request.routed with
    | some r => (newBasicAuthMiddleWare model.credentials).serveHTTP request.toRequest
        fun request =>
          (model.signHandler r).sign r.identifier (request.queryGet (ascii "verb")) now
    | none => model.server.serveRoutes
        (setUpSignRoute.map Prod.fst ++ publicRoutes.map Route.template) request) w _
  cases routeSign model.mux.toMux request.routed with
  | none => exact ends_serveRoutes hw _ request
  | some r =>
    simp only
    cases hlists : model.server.lists request.toRequest with
    | true =>
      have hserve := serveHTTP_of_lists model.server hlists
      rw [if_pos rfl, show model.credentials = model.server.credentials from rfl, hserve]
      exact ends_sign hw r _ now
    | false =>
      have hserve := serveHTTP_of_not_lists model.server hlists
      rw [if_neg Bool.false_ne_true, show model.credentials = model.server.credentials from rfl,
        hserve]
      exact hw.ends_writeHeader 401

theorem ends_publicRouter (hw : Idle w) (now : Time) (request : IncomingRequest) :
    Ends (model.server.publicRouter now request) w (model.publicEnding now request w.ext) := by
  unfold Server.publicRouter publicEnding
  show Ends (signatureVerification model.validator now request.url _) w _
  cases hadmits : model.validator.admits now request.url with
  | true =>
    rw [signatureVerification_of_admits hadmits, if_pos rfl]
    exact ends_serveRoutes hw _ request
  | false =>
    rw [signatureVerification_of_not_admits hadmits, if_neg Bool.false_ne_true]
    exact hw.ends_writeHeader 403

theorem ends_rootRouter (hw : Idle w) (now : Time) (request : IncomingRequest) :
    Ends (model.server.rootRouter now request) w (model.rootEnding now request w.ext) := by
  unfold Server.rootRouter rootEnding
  show Ends (if model.mux.redirects request.url.path then _
    else if model.mux.matchHost model.privateHost request.host then _
    else if model.mux.matchHost model.publicHost request.host then _ else _) w _
  by_cases hredirect : model.mux.redirects request.url.path = true
  · simp only [if_pos hredirect]
    obtain ⟨host, ext, response⟩ := w
    obtain rfl : response = .empty := hw.unanswered
    exact ⟨hw.faultless, rfl⟩
  simp only [if_neg hredirect]
  by_cases hprivate : model.mux.matchHost model.privateHost request.host = true
  · simp only [if_pos hprivate]
    exact ends_internalRouter hw now request
  simp only [if_neg hprivate]
  by_cases hpublic : model.mux.matchHost model.publicHost request.host = true
  · simp only [if_pos hpublic]
    exact ends_publicRouter hw now request
  · simp only [if_neg hpublic]
    exact hw.ends_writeHeader_write 400 _

variable (model) in
/-- **One request**: on a host without faults the server answers as the model does. -/
theorem step_server {host : Host} (hh : host.Faultless) (arrival : Arrival) (s : σ) :
    ∃ host', host'.Faultless ∧ model.server.step arrival (host, s) =
      ((model.answerTo arrival s).1, host', (model.answerTo arrival s).2) := by
  have hidle : Idle (⟨host, s, .empty⟩ : Env σ) := ⟨hh, rfl⟩
  unfold answerTo
  cases hform : arrival.request.isMultipart && !arrival.request.form.isOk with
  | true =>
    obtain ⟨hmultipart, herror⟩ := Bool.and_eq_true_iff.mp hform
    rw [if_pos rfl]
    refine ⟨host, hh, ?_⟩
    cases hparsed : arrival.request.form with
    | ok form => simp [hparsed] at herror
    | error e =>
      have hserve : model.server.serve arrival = writeHeader 500 := by
        simp only [Server.serve, multipartMiddleware, hmultipart, if_true, hparsed]
      rw [Server.step, hserve]
      rfl
  | false =>
    rw [if_neg Bool.false_ne_true]
    have hends : Ends (model.server.rootRouter arrival.now arrival.request) _ _ :=
      ends_rootRouter hidle arrival.now arrival.request
    rcases hrun : (model.server.rootRouter arrival.now arrival.request).run ⟨host, s, .empty⟩ with
      ⟨u | e, w'⟩
    · obtain ⟨hh', hending⟩ := hends.returned hrun
      refine ⟨w'.host, hh', ?_⟩
      rw [Server.step, answer, Server.serve, run_multipartMiddleware_ok hform,
        run_panicMiddleware_returned hrun, hending]
      rfl
    · obtain ⟨hw', hending⟩ := hends.panicked hrun
      refine ⟨w'.host, hw'.faultless, ?_⟩
      obtain ⟨host', ext, response⟩ := w'
      obtain rfl : response = .empty := hw'.unanswered
      rw [Server.step, answer, Server.serve, run_multipartMiddleware_ok hform,
        run_panicMiddleware_panicked hrun, hending]
      rfl

variable (model) in
/-- **The server is its model**: in every run of requests, on a host without faults. -/
theorem runAll_server {host : Host} (hh : host.Faultless) (arrivals : List Arrival) (s : σ) :
    ∃ host', host'.Faultless ∧ runAll model.server.step arrivals (host, s) =
      ((runAll model.answerTo arrivals s).1, host', (runAll model.answerTo arrivals s).2) := by
  induction arrivals generalizing host s with
  | nil => exact ⟨host, hh, rfl⟩
  | cons arrival arrivals ih =>
    obtain ⟨host₁, hh₁, hstep⟩ := model.step_server hh arrival s
    obtain ⟨host₂, hh₂, hrest⟩ := ih hh₁ (model.answerTo arrival s).2
    refine ⟨host₂, hh₂, ?_⟩
    simp only [runAll, hstep, hrest]

end ShelvedServer
end BitsService
