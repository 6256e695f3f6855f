import BitsService.Server.Http
import BitsService.Stash.Bundle

/-! # The resource handler

Uploads, copies, downloads and deletions of one type of resource. An upload tells the updater that
it starts, puts the bits, and tells the updater how that went. -/
namespace BitsService
open GoLib.Effect GoLib.Retry
set_option autoImplicit false

structure Updater (σ : Type) where
  notifyProcessingUpload : Bytes → Prog GoError σ (Result Unit)
  notifyUploadSucceeded : Bytes → Bytes → Bytes → Prog GoError σ (Result Unit)
  notifyUploadFailed : Bytes → GoError → Prog GoError σ (Result Unit)

variable {σ : Type}

def nullUpdater : Updater σ where
  notifyProcessingUpload _ := pure (.ok ())
  notifyUploadSucceeded _ _ _ := pure (.ok ())
  notifyUploadFailed _ _ := pure (.ok ())

structure ResourceHandler (σ : Type) where
  blobstore : Blobstore σ
  appStashBlobstore : NoRedirectBlobstore σ
  resourceType : Bytes
  maxBodySizeLimit : ℕ
  updater : Updater σ
  minimumSize : ℕ
  maximumSize : ℕ

def newResourceHandlerWithUpdater (blobstore : Blobstore σ)
    (appStashBlobstore : NoRedirectBlobstore σ) (updater : Updater σ) (resourceType : Bytes)
    (maxBodySizeLimit : ℕ) : ResourceHandler σ :=
  ⟨blobstore, appStashBlobstore, resourceType, maxBodySizeLimit, updater, 0, 2 ^ 64 - 1⟩

def newResourceHandler (blobstore : Blobstore σ) (appStashBlobstore : NoRedirectBlobstore σ)
    (resourceType : Bytes) (maxBodySizeLimit : ℕ) : ResourceHandler σ :=
  newResourceHandlerWithUpdater blobstore appStashBlobstore nullUpdater resourceType
    maxBodySizeLimit

/-! ## Answers -/

def redirect (redirectLocation : Bytes) : Prog GoError (Env σ) Unit := do
  setHeader (ascii "Location") redirectLocation
  writeHeader 302

/-- The answer with a body: all of it is read before the first byte is sent. -/
def writeBody (digests : Digests) (statusCode : ℕ) (body : Body) (ifNoneModify : Bytes) :
    Prog GoError (Env σ) Unit := do
  let content ← panicOnError body.readAll
  let eTag := digests.key content
  setHeader (ascii "ETag") eTag
  if ifNoneModify = eTag then writeHeader 304
  else do
    writeHeader statusCode
    write (.raw content)

def writeResponseBasedOn (digests : Digests) (redirectLocation : Bytes) (e : Option GoError)
    (statusCode : ℕ) (body : Option Body) (jsonBody : Option ResponseBody) (ifNoneModify : Bytes) :
    Prog GoError (Env σ) Unit :=
  match e with
  | some (.notFound _ _) => writeHeader 404
  | some .noSpaceLeft => insufficientStorage
  | some e => raise e
  | none =>
    if redirectLocation ≠ [] then redirect redirectLocation
    else match body, jsonBody with
      | some body, _ => writeBody digests statusCode body ifNoneModify
      | none, some jsonBody => do
        writeHeader statusCode
        write (.resource jsonBody)
      | none, none => writeHeader statusCode

/-- The error of a result, as Go passes it on. -/
def errorOf {α : Type} : Result α → Option GoError
  | .error e => some e
  | .ok _ => none

def handleNotificationError (e : Result Unit) : Prog GoError (Env σ) Bool :=
  match e with
  | .error .stateForbidden => do
    writeHeader 400
    fprintDescriptionAndCodeAsJSON 290008 (ascii "Cannot update an existing package.") []
    pure true
  | .error (.notFound text _) => do
    writeHeader 404
    fprintDescriptionAndCodeAsJSON 10010 text []
    pure true
  | .error e => raise e
  | .ok () => pure false

theorem KeptByAnswers.writeResponseBasedOn {I : Env σ → Prop} (hI : KeptByAnswers I)
    (digests : Digests) (redirectLocation : Bytes) (e : Option GoError) (statusCode : ℕ)
    (body : Option Body) (jsonBody : Option ResponseBody)
    (hstatus : e = none → Keeps I (writeHeader statusCode))
    (hbody : ∀ resource, jsonBody = some resource → Keeps I (write (.resource resource)))
    (ifNoneModify : Bytes) :
    Keeps I (writeResponseBasedOn digests redirectLocation e statusCode body jsonBody
      ifNoneModify) := by
  rcases e with _ | e
  · by_cases hr : redirectLocation ≠ []
    · simp only [BitsService.writeResponseBasedOn, if_pos hr]
      exact Keeps.bind (hI.header _ _) fun _ => hI.status _ (by decide)
    · simp only [BitsService.writeResponseBasedOn, if_neg hr]
      cases body with
      | some body =>
        refine Keeps.bind (keeps_panicOnError I _) fun content => ?_
        refine Keeps.bind (hI.header _ _) fun _ => ?_
        by_cases hmatch : ifNoneModify = digests.key content
        · simp only [if_pos hmatch]
          exact hI.status _ (by decide)
        · simp only [if_neg hmatch]
          exact Keeps.bind (hstatus rfl) fun _ => hI.raw _
      | none =>
        cases jsonBody with
        | some resource => exact Keeps.bind (hstatus rfl) fun _ => hbody resource rfl
        | none => exact hstatus rfl
  · cases e with
    | notFound text missingKey => exact hI.status _ (by decide)
    | noSpaceLeft => exact hI.insufficientStorage
    | stateForbidden => exact Keeps.raise I _
    | input text => exact Keeps.raise I _
    | sys text => exact Keeps.raise I _
    | wrapped message cause => exact Keeps.raise I _
    | withStack cause => exact Keeps.raise I _

theorem wp_writeResponseBasedOn_done {digests : Digests} {statusCode : ℕ} {body : ResponseBody}
    {R : Unit → Env σ → Prop} {E : Env σ → Prop} {w : Env σ}
    (h : ∀ w', Answered statusCode w w' → R () w') :
    wp (writeResponseBasedOn digests [] none statusCode none (some body) []) R E w := by
  unfold writeResponseBasedOn
  rw [if_neg (by simp)]
  exact wp_writeHeader_write h

theorem KeptByAnswers.handleNotificationError {I : Env σ → Prop} (hI : KeptByAnswers I)
    (e : Result Unit) : Keeps I (handleNotificationError e) := by
  unfold BitsService.handleNotificationError
  split
  · exact Keeps.bind (hI.status 400 (by decide)) fun _ =>
      Keeps.bind (hI.description _ _ _) fun _ => Keeps.pure I _
  · exact Keeps.bind (hI.status 404 (by decide)) fun _ =>
      Keeps.bind (hI.description _ _ _) fun _ => Keeps.pure I _
  · exact Keeps.raise I _
  · exact Keeps.pure I _

theorem handleNotificationError_eq_false {e : Result Unit} {w w' : Env σ}
    (h : (handleNotificationError e).run w = (.returned false, w')) : e = .ok () ∧ w' = w := by
  unfold handleNotificationError at h
  split at h
  · cases h
  · cases h
  · cases h
  · cases h
    exact ⟨rfl, rfl⟩

/-! ## Receiving the bits -/

def tempName (name : ℕ) : Bytes := formatInt 10 name

/-- It returns an input error, or that there is no space left. -/
def completePackageWithResources (formats : Formats) (handler : ResourceHandler σ)
    (resources file : Bytes) : Prog GoError (Env σ) (Result ℕ) :=
  match if resources = [] then some [] else formats.json.unmarshal resources with
  | none => pure (.error (.input (ascii
      "The request is semantically invalid: JSON payload could not be parsed: '" ++ resources ++
      ascii "'")))
  | some bundlesPayload =>
    match anyKeyMissingIn bundlesPayload with
    | some key =>
      pure (.error (.input (ascii "The request is semantically invalid: key \"" ++ key ++
        ascii "\" missing or empty")))
    | none =>
      match formats.zip.decode file with
      | .error text =>
        if ascii "not a valid zip file" <:+: text then
          pure (.error (.input (ascii
            "The request is semantically invalid: bits uploaded is not a valid zip file")))
        else raise (.sys text)
      | .ok zipReader => do
        match ← createTempZipFileFrom formats.digests formats.zip handler.minimumSize
          handler.maximumSize handler.appStashBlobstore bundlesPayload (some zipReader) with
        | .error .noSpaceLeft => pure (.error .noSpaceLeft)
        | .error (.notFound _ missingKey) => pure (.error (.input (ascii
            "The request is semantically invalid: not all specified sha1s could be found in app-stash. Missing sha1: \""
            ++ missingKey ++ ascii "\"")))
        | .error e => raise e
        | .ok tempFilename => pure (.ok tempFilename)

def createTempFileWithContent (content : Bytes) : Prog GoError Host (Result ℕ) :=
  orReturn (createTemp (ascii "bits")) .withStack fun name =>
  orReturn (writeTemp name content) .withStack fun _ => pure (.ok name)

/-- The temp file with the bits to store, unless the request was answered. -/
def receiveBits (formats : Formats) (handler : ResourceHandler σ) (request : Request)
    (file : Bytes) : Prog GoError (Env σ) (Option ℕ) :=
  if handler.resourceType = ascii "package" then do
    match ← completePackageWithResources formats handler
      (request.formValue (ascii "resources")) file with
    | .error (.input text) => do
      writeHeader 422
      fprintDescriptionAsJSON text []
      pure none
    | .error .noSpaceLeft => do
      insufficientStorage
      pure none
    | .error e => raise e
    | .ok tempFilename => pure (some tempFilename)
  else do
    let r ← onHost (createTempFileWithContent file)
    let tempFilename ← panicOnError r
    pure (some tempFilename)

def shaSums (digests : Digests) (filename : ℕ) : Prog GoError Host (Result (Bytes × Bytes)) :=
  orReturn (openTemp filename) .withStack fun content =>
  orReturn (osCall .readTemp) .withStack fun _ =>
    pure (.ok (digests.sha1 content, digests.sha256 content))

/-! ## Storing them -/

def putFailure (tempFilename : ℕ) : GoError → Failure GoError
  | .noSpaceLeft => .permanent .noSpaceLeft
  | e => .transient (.wrapped
      (ascii "Could not upload temporary file to blobstore%!(EXTRA string=" ++
      tempName tempFilename ++ ascii ")") e)

/-- One attempt to put the temp file. -/
def uploadAttempt (handler : ResourceHandler σ) (tempFilename : ℕ) (identifier : Bytes) (_ : Unit) :
    Prog GoError (Env σ) (Option (Failure GoError) × Unit) := do
  match ← onHost (openTemp tempFilename) with
  | .error e => pure (some (.permanent (.wrapped (ascii "Could not open temporary file '" ++
      tempName tempFilename ++ ascii "'") e)), ())
  | .ok src =>
    match ← onExt (handler.blobstore.put identifier src) with
    | .error e => pure (some (putFailure tempFilename e), ())
    | .ok () => pure (none, ())

/-- An error of this notification is logged only. -/
def notifyUploadFailed (handler : ResourceHandler σ) (identifier : Bytes) (e : GoError) :
    Prog GoError (Env σ) Unit := do
  let _ ← onExt (handler.updater.notifyUploadFailed identifier e)
  pure ()

def uploadResource (handler : ResourceHandler σ) (tempFilename : ℕ) (identifier : Bytes)
    (sha1Sum sha256Sum : Bytes) : Prog GoError (Env σ) (Result Unit) :=
  removingTemp tempFilename do
    let budget ← onHost takeBudget
    let (e, _) ← retryNotify (uploadAttempt handler tempFilename identifier) budget ()
    match e with
    | some e => do
      notifyUploadFailed handler identifier e
      pure (.error e)
    | none =>
      orReturn (onExt (handler.updater.notifyUploadSucceeded identifier (hexEncode sha1Sum)
        (hexEncode sha256Sum)))
        (.wrap "Could not notify Cloud Controller about successful upload") fun _ => pure (.ok ())

def uploadBody (identifier : Bytes) (state : String) (sha1 sha256 : Bytes) : ResponseBody :=
  ⟨identifier, ascii state, ascii "bits", hexEncode sha1, hexEncode sha256⟩

/-- An upload once the updater knows of it. The goroutine of an asynchronous one shares nothing with
what is left of its handler, which is run first; where requests follow one another, it has ended
before the next one begins. -/
def uploadAndAnswer (formats : Formats) (handler : ResourceHandler σ) (request : Request)
    (identifier : Bytes) (tempFilename : ℕ) (sha1 sha256 : Bytes) : Prog GoError (Env σ) Unit :=
  if request.queryGet (ascii "async") = ascii "true" then do
    writeResponseBasedOn formats.digests [] none 202 none
      (some (uploadBody identifier "PROCESSING_UPLOAD" sha1 sha256)) []
    let _ ← uploadResource handler tempFilename identifier sha1 sha256
    pure ()
  else do
    let e ← uploadResource handler tempFilename identifier sha1 sha256
    writeResponseBasedOn formats.digests [] (errorOf e) 201 none
      (some (uploadBody identifier "READY" sha1 sha256)) []

/-- What an upload does once its bits are in a temp file. -/
def storeBits (formats : Formats) (handler : ResourceHandler σ) (request : Request)
    (identifier : Bytes) (tempFilename : ℕ) : Prog GoError (Env σ) Unit := do
  let sums ← onHost (shaSums formats.digests tempFilename)
  let (sha1, sha256) ← panicOnError sums
  let e ← onExt (handler.updater.notifyProcessingUpload identifier)
  if ← handleNotificationError e then pure ()
  else uploadAndAnswer formats handler request identifier tempFilename sha1 sha256

/-- The file under the name of the resource type or, when that is missing, under `bits`. -/
def uploadedFile (request : Request) (resourceType : Bytes) : Result (Option Bytes) :=
  match request.formFile resourceType with
  | .ok none => request.formFile (ascii "bits")
  | r => r

/-- What an upload does before its bits are in a temp file. It goes on with what it returns, unless
the request was answered. -/
def receiveUpload (formats : Formats) (handler : ResourceHandler σ) (request : Request) :
    Prog GoError (Env σ) (Option (Request × ℕ)) := do
  match ← handleBodySizeLimits request handler.maxBodySizeLimit with
  | none => pure none
  | some request =>
    match ← panicOnError (uploadedFile request handler.resourceType) with
    | none => do
      badRequest (ascii "Could not retrieve form parameter '%s' or 'bits") [handler.resourceType]
      pure none
    | some file =>
      match ← receiveBits formats handler request file with
      | none => pure none
      | some tempFilename => pure (some (request, tempFilename))

def addOrReplace (formats : Formats) (handler : ResourceHandler σ) (request : Request)
    (identifier : Bytes) : Prog GoError (Env σ) Unit := do
  match ← receiveUpload formats handler request with
  | none => pure ()
  | some (request, tempFilename) => storeBits formats handler request identifier tempFilename

/-! ## The other operations -/

/-- `strings.Split(digest, "=")`. -/
def splitEquals : Bytes → List Bytes
  | [] => [[]]
  | c :: s =>
    if c = 61 then [] :: splitEquals s
    else match splitEquals s with
      | [] => [[c]]
      | part :: parts => (c :: part) :: parts

def digestAttempt (handler : ResourceHandler σ) (identifier value content : Bytes) (_ : Unit) :
    Prog GoError (Env σ) (Option (Failure GoError) × Unit) := do
  match ← onExt (handler.blobstore.put (identifier ++ slash :: value) content) with
  | .error .noSpaceLeft => pure (some (.permanent .noSpaceLeft), ())
  | .error e => pure (some (.transient (e.wrap "Could not upload bits to blobstore")), ())
  | .ok () => pure (none, ())

def addOrReplaceWithDigestInHeader (formats : Formats) (handler : ResourceHandler σ)
    (request : Request) (identifier : Bytes) : Prog GoError (Env σ) Unit := do
  match ← handleBodySizeLimits request handler.maxBodySizeLimit with
  | none => pure ()
  | some request =>
    let digest := request.header (ascii "Digest")
    let malformed := ascii "Digest must have format sha256=value, but is " ++ digest
    if digest = [] then badRequest (ascii "No Digest header") []
    else match splitEquals digest with
      | [alg, value] =>
        if toLower alg ≠ ascii "sha256" then badRequest malformed []
        else if value = [] then
          badRequest (ascii "Digest must have format sha256=value. Value cannot be empty") []
        else do
          let content ← panicOnError request.body.readAll
          let budget ← onHost takeBudget
          let (e, _) ← retryNotify (digestAttempt handler identifier value content) budget ()
          writeResponseBasedOn formats.digests [] e 201 none
            (some ⟨identifier, ascii "READY", ascii "bits", [], []⟩) []
      | _ => badRequest malformed []

/-- The source of a copy, or the empty string when the request was answered. -/
def sourceGuidFrom (formats : Formats) (request : Request) : Prog GoError (Env σ) Bytes := do
  let content ← panicOnError request.body.readAll
  match formats.json.sourceGuid content with
  | .error text => do
    badRequest (ascii "Body must be valid JSON when request is not multipart/form-data. %+v") [text]
    pure []
  | .ok sourceGuid => pure sourceGuid

def copySourceGuid (formats : Formats) (handler : ResourceHandler σ) (request : Request)
    (identifier : Bytes) : Prog GoError (Env σ) Unit := do
  match ← handleBodySizeLimits request handler.maxBodySizeLimit with
  | none => pure ()
  | some request =>
    let sourceGuid ← sourceGuidFrom formats request
    if sourceGuid = [] then pure ()
    else do
      let e ← onExt (handler.blobstore.copy sourceGuid identifier)
      writeResponseBasedOn formats.digests [] (errorOf e) 201 none
        (some ⟨identifier, ascii "READY", ascii "bits", [], []⟩) []

def headOrRedirectAsGet (formats : Formats) (handler : ResourceHandler σ) (identifier : Bytes) :
    Prog GoError (Env σ) Unit := do
  let r ← onExt (handler.blobstore.headOrRedirectAsGet identifier)
  writeResponseBasedOn formats.digests (r.toOption.getD []) (errorOf r) 200 none none []

def getResource (formats : Formats) (handler : ResourceHandler σ) (request : Request)
    (identifier : Bytes) : Prog GoError (Env σ) Unit := do
  let r ← onExt (handler.blobstore.getOrRedirect identifier)
  let (body, redirectLocation) := r.toOption.getD (none, [])
  writeResponseBasedOn formats.digests redirectLocation (errorOf r) 200 body none
    (request.header (ascii "If-None-Modify"))

def deleteResource (formats : Formats) (handler : ResourceHandler σ) (identifier : Bytes) :
    Prog GoError (Env σ) Unit := do
  let r ← onExt (handler.blobstore.existsBlob identifier)
  let found ← panicOnError r
  if found then do
    let e ← onExt (handler.blobstore.delete identifier)
    writeResponseBasedOn formats.digests [] (errorOf e) 204 none none []
  else writeHeader 404

def deleteDir (formats : Formats) (handler : ResourceHandler σ) (identifier : Bytes) :
    Prog GoError (Env σ) Unit := do
  match ← onExt (handler.blobstore.deleteDir identifier) with
  | .error (.notFound _ _) => writeHeader 204
  | e => writeResponseBasedOn formats.digests [] (errorOf e) 204 none none []

end BitsService
