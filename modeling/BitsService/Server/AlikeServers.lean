import BitsService.Server.Access
import BitsService.Stash.AlikeStashes

/-! # Servers over services that answer alike

The same server over two implementations of its blobstores, updaters and signers, that answer alike
under the keys that the requests name: whatever requests come, it gives the same answers. -/
namespace BitsService
open GoLib.Effect GoLib.Coupling GoLib.Retry GoLib.OperationRuns
set_option autoImplicit false

variable {σ τ : Type}

/-! ## Services -/

/-- Two blobstores that answer alike under `keys`, and under `dirs` when a directory is deleted. -/
structure AlikeBlobstores (R : σ → τ → Prop) (keys dirs : Set Bytes) (store : Blobstore σ)
    (store' : Blobstore τ) : Prop extends
    AlikeStashes R keys store.toNoRedirectBlobstore store'.toNoRedirectBlobstore where
  delete : ∀ key ∈ keys, Alike R (store.delete key) (store'.delete key)
  deleteDir : ∀ pre ∈ dirs, Alike R (store.deleteDir pre) (store'.deleteDir pre)
  headOrRedirectAsGet : ∀ key ∈ keys,
    Alike R (store.headOrRedirectAsGet key) (store'.headOrRedirectAsGet key)
  getOrRedirect : ∀ key ∈ keys, Alike R (store.getOrRedirect key) (store'.getOrRedirect key)
  copy : ∀ src ∈ keys, ∀ dest ∈ keys, Alike R (store.copy src dest) (store'.copy src dest)

structure AlikeUpdaters (R : σ → τ → Prop) (updater : Updater σ) (updater' : Updater τ) : Prop where
  notifyProcessingUpload : ∀ guid,
    Alike R (updater.notifyProcessingUpload guid) (updater'.notifyProcessingUpload guid)
  notifyUploadSucceeded : ∀ guid sha1 sha256, Alike R
    (updater.notifyUploadSucceeded guid sha1 sha256)
    (updater'.notifyUploadSucceeded guid sha1 sha256)
  notifyUploadFailed : ∀ guid e,
    Alike R (updater.notifyUploadFailed guid e) (updater'.notifyUploadFailed guid e)

theorem alike_nullUpdater (R : σ → τ → Prop) : AlikeUpdaters R nullUpdater nullUpdater :=
  ⟨fun _ => Alike.pure _, fun _ _ _ => Alike.pure _, fun _ _ => Alike.pure _⟩

def AlikeSigners (R : σ → τ → Prop) (signer : ResourceSigner σ) (signer' : ResourceSigner τ) :
    Prop :=
  ∀ resource method expirationTime, Alike R (signer.sign resource method expirationTime)
    (signer'.sign resource method expirationTime)

structure AlikeSignHandlers (R : σ → τ → Prop) (handler : SignResourceHandler σ)
    (handler' : SignResourceHandler τ) : Prop where
  get : Option.Rel (AlikeSigners R) handler.getResourceSigner handler'.getResourceSigner
  put : Option.Rel (AlikeSigners R) handler.putResourceSigner handler'.putResourceSigner

theorem alike_sign {R : σ → τ → Prop} {handler : SignResourceHandler σ}
    {handler' : SignResourceHandler τ} (h : AlikeSignHandlers R handler handler')
    (resource verb : Bytes) (now : Time) :
    Alike (SameBut R) (handler.sign resource verb now) (handler'.sign resource verb now) := by
  have hrespond : ∀ {signer : Option (ResourceSigner σ)} {signer' : Option (ResourceSigner τ)},
      Option.Rel (AlikeSigners R) signer signer' → ∀ method,
        Alike (SameBut R) (SignResourceHandler.respondWith signer resource method now)
          (SignResourceHandler.respondWith signer' resource method now) := by
    intro signer signer' hsigner method
    cases hsigner with
    | none => exact Alike.raise _
    | some hsigner => exact Alike.bind (alike_onExt (hsigner _ _ _)) fun _ => alike_write _
  unfold SignResourceHandler.sign
  generalize (if verb = [] then ascii "get" else verb) = method
  simp only
  split
  · exact hrespond h.get _
  split
  · exact hrespond h.put _
  · exact alike_writeHeader_write _ _

theorem AlikeBlobstores.rewriting {R : σ → τ → Prop} {keys dirs : Set Bytes} {store : Blobstore σ}
    {store' : Blobstore τ} (h : AlikeBlobstores R keys dirs store store')
    (rewrite rewriteDir : Bytes → Bytes) :
    AlikeBlobstores R {key | rewrite key ∈ keys} {pre | rewriteDir pre ∈ dirs}
      (store.rewriting rewrite rewriteDir) (store'.rewriting rewrite rewriteDir) where
  existsBlob _ hkey := h.existsBlob _ hkey
  get _ hkey := h.get _ hkey
  put _ hkey := h.put _ hkey
  delete _ hkey := h.delete _ hkey
  deleteDir _ hpre := h.deleteDir _ hpre
  headOrRedirectAsGet _ hkey := h.headOrRedirectAsGet _ hkey
  getOrRedirect _ hkey := h.getOrRedirect _ hkey
  copy _ hsrc _ hdest := h.copy _ hsrc _ hdest

/-! ## The resource handlers -/

/-- The same handler over two blobstores, stashes and updaters. -/
structure AlikeHandlers (R : σ → τ → Prop) (keys dirs stashKeys : Set Bytes)
    (handler : ResourceHandler σ) (handler' : ResourceHandler τ) : Prop where
  blobstore : AlikeBlobstores R keys dirs handler.blobstore handler'.blobstore
  appStashBlobstore :
    AlikeStashes R stashKeys handler.appStashBlobstore handler'.appStashBlobstore
  updater : AlikeUpdaters R handler.updater handler'.updater
  resourceType : handler.resourceType = handler'.resourceType
  maxBodySizeLimit : handler.maxBodySizeLimit = handler'.maxBodySizeLimit
  minimumSize : handler.minimumSize = handler'.minimumSize
  maximumSize : handler.maximumSize = handler'.maximumSize

section Answers
variable {R : σ → τ → Prop}

theorem alike_writeResponseBasedOn (digests : Digests) (redirectLocation : Bytes)
    (e : Option GoError) (statusCode : ℕ) (body : Option Body) (jsonBody : Option ResponseBody)
    (ifNoneModify : Bytes) :
    Alike (SameBut R)
      (writeResponseBasedOn digests redirectLocation e statusCode body jsonBody ifNoneModify :
        Prog GoError (Env σ) Unit)
      (writeResponseBasedOn digests redirectLocation e statusCode body jsonBody ifNoneModify) := by
  unfold writeResponseBasedOn
  split
  · exact alike_writeHeader 404
  · exact alike_insufficientStorage
  · exact Alike.raise _
  · split
    · exact Alike.bind (alike_setHeader _ _) fun _ => alike_writeHeader 302
    · split
      · refine Alike.bind (alike_panicOnError _) fun content =>
          Alike.bind (alike_setHeader _ _) fun _ => ?_
        split
        · exact alike_writeHeader 304
        · exact alike_writeHeader_write _ _
      · exact alike_writeHeader_write _ _
      · exact alike_writeHeader statusCode

theorem alike_handleNotificationError (e : Result Unit) :
    Alike (SameBut R) (handleNotificationError e : Prog GoError (Env σ) Bool)
      (handleNotificationError e) := by
  unfold handleNotificationError
  split
  · exact Alike.bind (alike_writeHeader 400) fun _ => Alike.bind (alike_write _) fun _ =>
      Alike.pure _
  · exact Alike.bind (alike_writeHeader 404) fun _ => Alike.bind (alike_write _) fun _ =>
      Alike.pure _
  · exact Alike.raise _
  · exact Alike.pure _

end Answers

section Handlers
variable {R : σ → τ → Prop} {keys dirs stashKeys : Set Bytes} {formats : Formats}
  {handler : ResourceHandler σ} {handler' : ResourceHandler τ}
  (h : AlikeHandlers R keys dirs stashKeys handler handler')
  (hstash : ∀ content, formats.digests.key content ∈ stashKeys) {request : Request}
  {identifier : Bytes}
include h

theorem alike_uploadResource (hidentifier : identifier ∈ keys) (tempFilename : ℕ)
    (sha1Sum sha256Sum : Bytes) :
    Alike (SameBut R) (uploadResource handler tempFilename identifier sha1Sum sha256Sum)
      (uploadResource handler' tempFilename identifier sha1Sum sha256Sum) := by
  refine alike_removingTemp <| Alike.bind (alike_onHost _) fun budget =>
    Alike.bind (alike_retryNotify (fun _ => ?_) budget ()) fun r => ?_
  · refine Alike.bind (alike_onHost _) fun opened => ?_
    cases opened with
    | error e => exact Alike.pure _
    | ok src =>
      refine Alike.bind (alike_onExt (h.blobstore.put _ hidentifier src)) fun r => ?_
      cases r with
      | error e => exact Alike.pure _
      | ok u => exact Alike.pure _
  · obtain ⟨e, -⟩ := r
    cases e with
    | some e =>
      exact Alike.bind (Alike.bind (alike_onExt (h.updater.notifyUploadFailed _ e)) fun _ =>
        Alike.pure _) fun _ => Alike.pure _
    | none =>
      exact alike_orReturn (alike_onExt (h.updater.notifyUploadSucceeded _ _ _)) fun _ =>
        Alike.pure _

theorem alike_storeBits (hidentifier : identifier ∈ keys) (tempFilename : ℕ) :
    Alike (SameBut R) (storeBits formats handler request identifier tempFilename)
      (storeBits formats handler' request identifier tempFilename) := by
  refine Alike.bind (alike_onHost _) fun sums => Alike.bind (alike_panicOnError sums) fun sums =>
    Alike.bind (alike_onExt (h.updater.notifyProcessingUpload identifier)) fun e =>
    Alike.bind (alike_handleNotificationError e) fun answered => ?_
  cases answered with
  | true => exact Alike.pure _
  | false =>
    have hupload := alike_uploadResource h hidentifier tempFilename sums.1 sums.2
    simp only [Bool.false_eq_true, if_false]
    unfold uploadAndAnswer
    split
    · exact Alike.bind (alike_writeResponseBasedOn _ _ _ _ _ _ _) fun _ =>
        Alike.bind hupload fun _ => Alike.pure _
    · exact Alike.bind hupload fun e => alike_writeResponseBasedOn _ _ _ _ _ _ _

include hstash

theorem alike_receiveBits {file : Bytes}
    (hrequest : NamesOnly formats stashKeys (request.formValue (ascii "resources"))) :
    Alike (SameBut R) (receiveBits formats handler request file)
      (receiveBits formats handler' request file) := by
  unfold receiveBits
  rw [h.resourceType]
  split
  · refine Alike.bind ?_ fun r => ?_
    · unfold completePackageWithResources
      rw [h.minimumSize, h.maximumSize]
      cases hpayload : if request.formValue (ascii "resources") = [] then some [] else
          formats.json.unmarshal (request.formValue (ascii "resources")) with
      | none => exact Alike.pure _
      | some payload =>
        have hkeys : ∀ entry ∈ payload, entry.sha1 ∈ stashKeys := by
          split at hpayload
          · cases hpayload
            exact fun _ hmem => (List.not_mem_nil hmem).elim
          · exact hrequest payload hpayload
        simp only
        split
        · exact Alike.pure _
        · split
          · split
            · exact Alike.pure _
            · exact Alike.raise _
          · refine Alike.bind (alike_createTempZipFileFrom h.appStashBlobstore hstash _ _ _ hkeys
              _) fun r => ?_
            split
            · exact Alike.pure _
            · exact Alike.pure _
            · exact Alike.raise _
            · exact Alike.pure _
    · split
      · exact Alike.bind (alike_writeHeader 422) fun _ => Alike.bind (alike_write _) fun _ =>
          Alike.pure _
      · exact Alike.bind alike_insufficientStorage fun _ => Alike.pure _
      · exact Alike.raise _
      · exact Alike.pure _
  · exact Alike.bind (alike_onHost _) fun r => Alike.bind (alike_panicOnError r) fun _ =>
      Alike.pure _

theorem alike_addOrReplace (hidentifier : identifier ∈ keys)
    (hrequest : NamesOnly formats stashKeys (request.formValue (ascii "resources"))) :
    Alike (SameBut R) (addOrReplace formats handler request identifier)
      (addOrReplace formats handler' request identifier) := by
  unfold addOrReplace receiveUpload
  rw [h.maxBodySizeLimit, h.resourceType]
  refine Alike.bind (alike_handleBodySizeLimits (Alike.pure _) fun request' hlimited =>
    Alike.bind (alike_panicOnError _) fun file => ?_) fun r => ?_
  · cases file with
    | none => exact Alike.bind (alike_badRequest _ _) fun _ => Alike.pure _
    | some file =>
      refine Alike.bind (alike_receiveBits h hstash ?_) fun r => ?_
      · rw [eq_of_limited hlimited]
        exact hrequest
      · cases r with
        | none => exact Alike.pure _
        | some tempFilename => exact Alike.pure _
  · cases r with
    | none => exact Alike.pure _
    | some received =>
      obtain ⟨request', tempFilename⟩ := received
      exact alike_storeBits h hidentifier tempFilename

omit hstash

theorem alike_addOrReplaceWithDigestInHeader
    (hdigest : ∀ alg value, splitEquals (request.header (ascii "Digest")) = [alg, value] →
      identifier ++ slash :: value ∈ keys) :
    Alike (SameBut R) (addOrReplaceWithDigestInHeader formats handler request identifier)
      (addOrReplaceWithDigestInHeader formats handler' request identifier) := by
  unfold addOrReplaceWithDigestInHeader
  rw [h.maxBodySizeLimit]
  refine alike_handleBodySizeLimits (Alike.pure _) fun request' hlimited => ?_
  rw [eq_of_limited hlimited]
  simp only
  split
  · exact alike_badRequest _ _
  · split
    · rename_i alg value hsplit
      split
      · exact alike_badRequest _ _
      · split
        · exact alike_badRequest _ _
        · refine Alike.bind (alike_panicOnError _) fun content => Alike.bind (alike_onHost _)
            fun budget => Alike.bind (alike_retryNotify (fun _ => ?_) budget ()) fun r =>
            alike_writeResponseBasedOn _ _ _ _ _ _ _
          refine Alike.bind (alike_onExt (h.blobstore.put _ (hdigest alg value hsplit) content))
            fun r => ?_
          split
          · exact Alike.pure _
          · exact Alike.pure _
          · exact Alike.pure _
    · exact alike_badRequest _ _

theorem alike_copySourceGuid (hidentifier : identifier ∈ keys)
    (hsource : ∀ content sourceGuid, request.Sends content →
      formats.json.sourceGuid content = .ok sourceGuid → sourceGuid ≠ [] → sourceGuid ∈ keys) :
    Alike (SameBut R) (copySourceGuid formats handler request identifier)
      (copySourceGuid formats handler' request identifier) := by
  unfold copySourceGuid
  rw [h.maxBodySizeLimit]
  refine alike_handleBodySizeLimits (Alike.pure _) fun request' hlimited => ?_
  simp only [sourceGuidFrom, Prog.bind_assoc]
  refine alike_panicOnError_bind fun content hread => ?_
  cases hguid : formats.json.sourceGuid content with
  | error text =>
    simp only [Prog.bind_assoc]
    refine Alike.bind (alike_badRequest _ _) fun _ => Alike.pure_bind ?_
    rw [if_pos rfl, if_pos rfl]
    exact Alike.pure _
  | ok sourceGuid =>
    refine Alike.pure_bind ?_
    by_cases hempty : sourceGuid = []
    · rw [if_pos hempty, if_pos hempty]
      exact Alike.pure _
    · have hmem := hsource content sourceGuid (.body hlimited hread) hguid hempty
      rw [if_neg hempty, if_neg hempty]
      exact Alike.bind (alike_onExt (h.blobstore.copy _ hmem _ hidentifier)) fun e =>
        alike_writeResponseBasedOn _ _ _ _ _ _ _

theorem alike_deleteResource (hidentifier : identifier ∈ keys) :
    Alike (SameBut R) (deleteResource formats handler identifier)
      (deleteResource formats handler' identifier) := by
  refine Alike.bind (alike_onExt (h.blobstore.existsBlob _ hidentifier)) fun r =>
    Alike.bind (alike_panicOnError r) fun found => ?_
  split
  · exact Alike.bind (alike_onExt (h.blobstore.delete _ hidentifier)) fun e =>
      alike_writeResponseBasedOn _ _ _ _ _ _ _
  · exact alike_writeHeader 404

theorem alike_deleteDir (hidentifier : identifier ∈ dirs) :
    Alike (SameBut R) (deleteDir formats handler identifier)
      (deleteDir formats handler' identifier) := by
  refine Alike.bind (alike_onExt (h.blobstore.deleteDir _ hidentifier)) fun r => ?_
  split
  · exact alike_writeHeader 204
  · exact alike_writeResponseBasedOn _ _ _ _ _ _ _

end Handlers

/-- The keys and directories that an operation asks the blobstore for. -/
def ResourceOperation.AsksOnly (formats : Formats) (keys dirs : Set Bytes) (request : Request)
    (identifier : Bytes) : ResourceOperation → Prop
  | addOrReplaceWithDigestInHeader => ∀ alg value,
    splitEquals (request.header (ascii "Digest")) = [alg, value] →
      identifier ++ slash :: value ∈ keys
  | copySourceGuid => identifier ∈ keys ∧ ∀ content sourceGuid, request.Sends content →
    formats.json.sourceGuid content = .ok sourceGuid → sourceGuid ≠ [] → sourceGuid ∈ keys
  | deleteDir => identifier ∈ dirs
  | _ => identifier ∈ keys

theorem alike_handle {R : σ → τ → Prop} {keys dirs stashKeys : Set Bytes} {formats : Formats}
    {handler : ResourceHandler σ} {handler' : ResourceHandler τ}
    (h : AlikeHandlers R keys dirs stashKeys handler handler')
    (hstash : ∀ content, formats.digests.key content ∈ stashKeys) {request : Request}
    {identifier : Bytes} {operation : ResourceOperation}
    (hasks : operation.AsksOnly formats keys dirs request identifier)
    (hrequest : ∀ content, request.Sends content → NamesOnly formats stashKeys content) :
    Alike (SameBut R) (operation.handle formats handler request identifier)
      (operation.handle formats handler' request identifier) := by
  cases operation with
  | addOrReplace => exact alike_addOrReplace h hstash hasks (hrequest _ .value)
  | addOrReplaceWithDigestInHeader => exact alike_addOrReplaceWithDigestInHeader h hasks
  | copySourceGuid => exact alike_copySourceGuid h hasks.1 hasks.2
  | headOrRedirectAsGet =>
    exact Alike.bind (alike_onExt (h.blobstore.headOrRedirectAsGet _ hasks)) fun r =>
      alike_writeResponseBasedOn _ _ _ _ _ _ _
  | get =>
    exact Alike.bind (alike_onExt (h.blobstore.getOrRedirect _ hasks)) fun r =>
      alike_writeResponseBasedOn _ _ _ _ _ _ _
  | delete => exact alike_deleteResource h hasks
  | deleteDir => exact alike_deleteDir h hasks

/-! ## Servers -/

/-- The keys under which two servers answer alike, by kind of resource, and those of the stash. -/
structure SharedKeys where
  keys : ResourceKind → Set Bytes
  dirs : ResourceKind → Set Bytes
  stashKeys : Set Bytes

/-- The same routes over related services. -/
structure AlikeRoutes (R : σ → τ → Prop) (shared : SharedKeys) (server : Server σ)
    (server' : Server τ) : Prop where
  mux : server.mux = server'.mux
  formats : server.formats = server'.formats
  appStash : AlikeAppStashes R shared.stashKeys server.appStash server'.appStash
  resources : ∀ kind, AlikeHandlers R (shared.keys kind) (shared.dirs kind) shared.stashKeys
    (server.resources kind) (server'.resources kind)
  stashKeys : ∀ content, server.formats.digests.key content ∈ shared.stashKeys

structure AlikeServers (R : σ → τ → Prop) (shared : SharedKeys) (server : Server σ)
    (server' : Server τ) : Prop extends AlikeRoutes R shared server server' where
  privateHost : server.privateHost = server'.privateHost
  publicHost : server.publicHost = server'.publicHost
  credentials : server.credentials = server'.credentials
  validator : server.validator = server'.validator
  signHandler : ∀ resource,
    AlikeSignHandlers R (server.signHandler resource) (server'.signHandler resource)

/-- A request that the server asks its services nothing else for. -/
structure Server.AsksOnly (server : Server σ) (shared : SharedKeys) (request : IncomingRequest) :
    Prop where
  fingerprints : ∀ content, request.toRequest.Sends content →
    NamesOnly server.formats shared.stashKeys content
  resource : ∀ kind operation identifier,
    routeRequest server.mux.toMux request.routed = some (.resource kind operation, identifier) →
      operation.AsksOnly server.formats (shared.keys kind) (shared.dirs kind) request.toRequest
        identifier

theorem AlikeRoutes.serveRoutes {R : σ → τ → Prop} {shared : SharedKeys} {server : Server σ}
    {server' : Server τ} (h : AlikeRoutes R shared server server') {request : IncomingRequest}
    (hasks : server.AsksOnly shared request) (templates : List Template) :
    Alike (SameBut R) (server.serveRoutes templates request)
      (server'.serveRoutes templates request) := by
  unfold Server.serveRoutes
  rw [← h.mux]
  cases hroute : routeRequest server.mux.toMux request.routed with
  | none => exact alike_modifyResponse fun _ => server.mux.unmatched templates request.routed
  | some routed =>
    obtain ⟨endpoint, identifier⟩ := routed
    simp only
    unfold Server.handleEndpoint
    rw [← h.formats]
    cases endpoint with
    | postEntries => exact alike_postEntries h.appStash h.stashKeys _
    | postMatches => exact alike_postMatches h.appStash hasks.fingerprints
    | postBundles => exact alike_postBundles h.appStash h.stashKeys hasks.fingerprints
    | resource kind operation =>
      exact alike_handle (h.resources kind) h.stashKeys (hasks.resource _ _ _ hroute)
        hasks.fingerprints

namespace AlikeServers
variable {R : σ → τ → Prop} {shared : SharedKeys} {server : Server σ} {server' : Server τ}
  (h : AlikeServers R shared server server')
include h

theorem rootRouter {request : IncomingRequest} (hasks : server.AsksOnly shared request)
    (now : Time) :
    Alike (SameBut R) (server.rootRouter now request) (server'.rootRouter now request) := by
  unfold Server.rootRouter
  rw [← h.mux, ← h.privateHost, ← h.publicHost]
  split
  · exact Alike.bind (alike_setHeader _ _) fun _ => alike_writeHeader 301
  split
  · unfold Server.internalRouter
    rw [← h.mux]
    cases routeSign server.mux.toMux request.routed with
    | none => exact h.serveRoutes hasks _
    | some resource =>
      simp only
      have hsame : server'.lists request.toRequest = server.lists request.toRequest := by
        rw [Server.lists, Server.lists, h.credentials]
      cases hlists : server.lists request.toRequest with
      | true =>
        rw [serveHTTP_of_lists server hlists, serveHTTP_of_lists server' (hsame.trans hlists)]
        exact alike_sign (h.signHandler resource) _ _ _
      | false =>
        rw [serveHTTP_of_not_lists server hlists,
          serveHTTP_of_not_lists server' (hsame.trans hlists)]
        exact alike_writeHeader 401
  split
  · unfold Server.publicRouter signatureVerification
    rw [← h.validator]
    split
    · exact alike_writeHeader 403
    split
    · exact alike_writeHeader 403
    · exact h.serveRoutes hasks _
  · exact alike_writeHeader_write _ _

theorem serve {arrival : Arrival} (hasks : server.AsksOnly shared arrival.request) :
    Alike (SameBut R) (server.serve arrival) (server'.serve arrival) := by
  have hpanic : Alike (SameBut R)
      (panicMiddleware arrival (server.rootRouter arrival.now arrival.request))
      (panicMiddleware arrival (server'.rootRouter arrival.now arrival.request)) := by
    intro w v hR
    rcases hrun : (server.rootRouter arrival.now arrival.request).run w with ⟨u | e, w'⟩
    · obtain ⟨v', hrun', hR'⟩ := (h.rootRouter hasks arrival.now).of_run hR hrun
      rw [run_panicMiddleware_returned hrun, run_panicMiddleware_returned hrun']
      exact ⟨rfl, hR'⟩
    · obtain ⟨v', hrun', hR'⟩ := (h.rootRouter hasks arrival.now).of_run hR hrun
      rw [run_panicMiddleware_panicked hrun, run_panicMiddleware_panicked hrun']
      exact alike_writeHeader_write _ _ w' v' hR'
  unfold Server.serve multipartMiddleware
  split
  · split
    · exact alike_writeHeader 500
    · exact hpanic
  · exact hpanic

/-- The same host, over related services. -/
def SameProcess (R : σ → τ → Prop) (process : Process σ) (process' : Process τ) : Prop :=
  process.1 = process'.1 ∧ R process.2 process'.2

theorem step {arrival : Arrival} (hasks : server.AsksOnly shared arrival.request)
    {process : Process σ} {process' : Process τ} (hR : SameProcess R process process') :
    (server.step arrival process).1 = (server'.step arrival process').1 ∧
      SameProcess R (server.step arrival process).2 (server'.step arrival process').2 := by
  obtain ⟨-, hsame⟩ := h.serve hasks ⟨process.1, process.2, .empty⟩
    ⟨process'.1, process'.2, .empty⟩ ⟨hR.1, hR.2, rfl⟩
  exact ⟨congrArg Response.sent hsame.response, hsame.host, hsame.ext⟩

theorem runAll {arrivals : List Arrival}
    (hasks : ∀ arrival ∈ arrivals, server.AsksOnly shared arrival.request) {process : Process σ}
    {process' : Process τ} (hR : SameProcess R process process') :
    (runAll server.step arrivals process).1 = (runAll server'.step arrivals process').1 ∧
      SameProcess R (runAll server.step arrivals process).2
        (runAll server'.step arrivals process').2 :=
  runAll_alike (fun _ _ _ hasks hR => h.step hasks hR) hasks hR

end AlikeServers

/-! ## The server that `main` builds -/

def ResourceKind.storeSection : ResourceKind → StoreSection
  | package => .packages
  | droplet => .droplets
  | buildpack => .buildpacks
  | buildpackCache => .droplets

namespace Settings
variable (settings : Settings)

/-- What comes before the partitioned identifiers of a kind of resource. -/
def keyPrefix (kind : ResourceKind) : Bytes :=
  let config := settings.blobstoreConfig kind.storeSection
  match kind, config.blobstoreType with
  | .buildpackCache, .webDAV => config.directoryKey ++ ascii "/buildpack_cache/"
  | .buildpackCache, _ => ascii "buildpack_cache/"
  | _, .webDAV => config.directoryKey ++ ascii "/"
  | _, _ => []

def stashKeyPrefix : Bytes :=
  match (settings.blobstoreConfig .appStash).blobstoreType with
  | .webDAV => (settings.blobstoreConfig .appStash).directoryKey ++ ascii "/app_bits_cache/"
  | _ => ascii "app_bits_cache/"

/-- The keys that come to keys of the backends. -/
def sharedKeys (keys dirs : StoreSection → Set Bytes) : SharedKeys where
  keys kind := {key | settings.keyPrefix kind ++ pathFor key ∈ keys kind.storeSection}
  dirs kind := {pre | settings.keyPrefix kind ++ pathFor pre ∈ dirs kind.storeSection}
  stashKeys := {key | settings.stashKeyPrefix ++ pathFor key ∈ keys .appStash}

section Stores
variable (toSigner : LocalResourceSigner → ResourceSigner σ) (backend : StoreSection → Backend σ)

theorem partitioned_rewriting (store : Blobstore σ) (pre : Bytes) :
    forBlobstoreWithPathPartitioning (forBlobstoreWithPathPrefixing
        (forBlobstoreWithMetricsEmitter store) pre) =
      store.rewriting (fun key => pre ++ pathFor key) fun dir => pre ++ pathFor dir := by
  have hdir : (fun dir : Bytes => if dir = [] then dir else pathFor dir) = pathFor := by
    funext dir
    by_cases h : dir = []
    · rw [if_pos h, h, pathFor_nil]
    · rw [if_neg h]
  unfold forBlobstoreWithPathPartitioning
  rw [hdir]
  rfl

theorem createStore_blobstore (kind : ResourceKind) :
    (settings.createStore toSigner backend kind).1 =
      (backend kind.storeSection).blobstore.rewriting
        (fun key => settings.keyPrefix kind ++ pathFor key)
        fun dir => settings.keyPrefix kind ++ pathFor dir := by
  rw [← partitioned_rewriting]
  cases kind with
  | package =>
    simp only [createStore, keyPrefix, ResourceKind.storeSection]
    generalize settings.blobstoreConfig .packages = c
    obtain ⟨t, directoryKey⟩ := c
    cases t <;> rfl
  | droplet =>
    simp only [createStore, keyPrefix, ResourceKind.storeSection]
    generalize settings.blobstoreConfig .droplets = c
    obtain ⟨t, directoryKey⟩ := c
    cases t <;> rfl
  | buildpack =>
    simp only [createStore, keyPrefix, ResourceKind.storeSection]
    generalize settings.blobstoreConfig .buildpacks = c
    obtain ⟨t, directoryKey⟩ := c
    cases t <;> rfl
  | buildpackCache =>
    simp only [createStore, keyPrefix, ResourceKind.storeSection]
    generalize settings.blobstoreConfig .droplets = c
    obtain ⟨t, directoryKey⟩ := c
    cases t <;> rfl

theorem createAppStash_blobstore :
    (settings.createAppStash toSigner backend).1 =
      ((backend .appStash).blobstore.rewriting
        (fun key => settings.stashKeyPrefix ++ pathFor key)
        fun dir => settings.stashKeyPrefix ++ pathFor dir).toNoRedirectBlobstore := by
  rw [← partitioned_rewriting]
  rfl

end Stores

section Alike
variable {settings} {R : σ → τ → Prop} {keys dirs : StoreSection → Set Bytes}
  {toSigner : LocalResourceSigner → ResourceSigner σ}
  {toSigner' : LocalResourceSigner → ResourceSigner τ} {backend : StoreSection → Backend σ}
  {backend' : StoreSection → Backend τ} {updater : Updater σ} {updater' : Updater τ}
  (hstores : ∀ s, AlikeBlobstores R (keys s) (dirs s) (backend s).blobstore
    (backend' s).blobstore)
  (hupdater : AlikeUpdaters R updater updater')
  (hstash : ∀ content, settings.stashKeyPrefix ++
    pathFor (settings.formats.digests.key content) ∈ keys .appStash)
include hstores hupdater hstash

theorem alikeRoutes_newServerWith :
    AlikeRoutes R (settings.sharedKeys keys dirs) (settings.newServerWith toSigner backend updater)
      (settings.newServerWith toSigner' backend' updater') := by
  have happStash : AlikeStashes R (settings.sharedKeys keys dirs).stashKeys
      (settings.createAppStash toSigner backend).1
      (settings.createAppStash toSigner' backend').1 := by
    rw [createAppStash_blobstore, createAppStash_blobstore]
    exact ((hstores .appStash).rewriting _ _).toAlikeStashes
  have hresources : ∀ kind, AlikeBlobstores R ((settings.sharedKeys keys dirs).keys kind)
      ((settings.sharedKeys keys dirs).dirs kind) (settings.createStore toSigner backend kind).1
      (settings.createStore toSigner' backend' kind).1 := by
    intro kind
    rw [createStore_blobstore, createStore_blobstore]
    exact (hstores kind.storeSection).rewriting _ _
  refine ⟨rfl, rfl, ⟨happStash, rfl, rfl, rfl⟩, fun kind => ?_, hstash⟩
  have hstore := hresources kind
  cases kind with
  | package => exact ⟨hstore, happStash, hupdater, rfl, rfl, rfl, rfl⟩
  | droplet => exact ⟨hstore, happStash, alike_nullUpdater R, rfl, rfl, rfl, rfl⟩
  | buildpack => exact ⟨hstore, happStash, alike_nullUpdater R, rfl, rfl, rfl, rfl⟩
  | buildpackCache => exact ⟨hstore, happStash, alike_nullUpdater R, rfl, rfl, rfl, rfl⟩

variable (hlocal : ∀ signer, AlikeSigners R (toSigner signer) (toSigner' signer))
  (hbackend : ∀ s, AlikeSigners R (backend s).signer (backend' s).signer)
include hlocal hbackend

theorem alikeServers_newServerWith :
    AlikeServers R (settings.sharedKeys keys dirs) (settings.newServerWith toSigner backend updater)
      (settings.newServerWith toSigner' backend' updater') := by
  refine ⟨alikeRoutes_newServerWith hstores hupdater hstash, rfl, rfl, rfl, rfl, fun r => ?_⟩
  have hcreate : ∀ s localResourceSigner, AlikeSignHandlers R
      (createBlobstoreAndSignURLHandler (settings.blobstoreConfig s) (backend s)
        (toSigner localResourceSigner)).2
      (createBlobstoreAndSignURLHandler (settings.blobstoreConfig s) (backend' s)
        (toSigner' localResourceSigner)).2 := by
    intro s localResourceSigner
    generalize settings.blobstoreConfig s = c
    obtain ⟨t, directoryKey⟩ := c
    cases t with
    | localDir => exact ⟨.some (hlocal _), .some (hlocal _)⟩
    | _ => exact ⟨.some fun _ _ _ => hbackend s _ _ _, .some (hlocal _)⟩
  have hcache : ∀ localResourceSigner, AlikeSignHandlers R
      (createBuildpackCacheSignURLHandler (settings.blobstoreConfig .droplets) (backend .droplets)
        (toSigner localResourceSigner)).2
      (createBuildpackCacheSignURLHandler (settings.blobstoreConfig .droplets)
        (backend' .droplets) (toSigner' localResourceSigner)).2 := by
    intro localResourceSigner
    generalize settings.blobstoreConfig .droplets = c
    obtain ⟨t, directoryKey⟩ := c
    cases t with
    | localDir => exact ⟨.some (hlocal _), .some (hlocal _)⟩
    | _ => exact ⟨.some fun _ _ _ => hbackend .droplets _ _ _, .some (hlocal _)⟩
  cases r with
  | package i => exact hcreate _ _
  | droplet i => exact hcreate _ _
  | buildpack i => exact hcreate _ _
  | buildpackCache i => exact hcache _
  | appStashMatches => exact ⟨.none, .some (hlocal _)⟩

end Alike

end Settings

end BitsService
