import BitsService.Resources.Handler
import BitsService.Stash.ShelvedStash

/-! # Resources over a map

What the resource handler makes of a request when its blobs and the app stash are on shelves, and
no updater is told. -/
namespace BitsService
open GoLib.Effect GoLib.Retry
set_option autoImplicit false

variable {σ : Type}

/-- A resource handler whose blobs are on a shelf, and those of the app stash on another. -/
structure ShelvedResource (σ : Type) where
  shelf : Shelf σ
  appStash : Shelf σ
  resourceType : Bytes
  maxBodySizeLimit : ℕ
  minimumSize : ℕ
  maximumSize : ℕ

namespace ShelvedResource
variable (formats : Formats) (resource : ShelvedResource σ)

def handler : ResourceHandler σ :=
  ⟨resource.shelf.toBlobstore, resource.appStash.toBlobstore.toNoRedirectBlobstore,
    resource.resourceType, resource.maxBodySizeLimit, nullUpdater, resource.minimumSize,
    resource.maximumSize⟩

def unprocessable (text : Bytes) : Response := ⟨some 422, [], [.description none text []]⟩

/-- The bits of a package, or the answer to a request that has none; this is none for a panic. -/
def packageBits (resources file : Bytes) (s : σ) : Except (Option Response) Bytes × σ :=
  match if resources = [] then some [] else formats.json.unmarshal resources with
  | none => (.error (some (unprocessable (ascii
      "The request is semantically invalid: JSON payload could not be parsed: '" ++ resources ++
      ascii "'"))), s)
  | some bundlesPayload =>
    match anyKeyMissingIn bundlesPayload with
    | some key => (.error (some (unprocessable
        (ascii "The request is semantically invalid: key \"" ++ key ++
          ascii "\" missing or empty"))), s)
    | none =>
      match formats.zip.decode file with
      | .error text =>
        if ascii "not a valid zip file" <:+: text then
          (.error (some (unprocessable (ascii
            "The request is semantically invalid: bits uploaded is not a valid zip file"))), s)
        else (.error none, s)
      | .ok zipReader =>
        match bundle formats.digests formats.zip resource.minimumSize resource.maximumSize
          resource.appStash bundlesPayload (some zipReader) s with
        | (.ok package, s) => (.ok package, s)
        | (.error (some key), s) => (.error (some (unprocessable (ascii
            "The request is semantically invalid: not all specified sha1s could be found in app-stash. Missing sha1: \""
            ++ key ++ ascii "\""))), s)
        | (.error none, s) => (.error none, s)

def receivedBits (request : Request) (file : Bytes) (s : σ) :
    Except (Option Response) Bytes × σ :=
  if resource.resourceType = ascii "package" then
    resource.packageBits formats (request.formValue (ascii "resources")) file s
  else (.ok file, s)

/-- The answer to an upload, which does not wait for the bits to be stored if it need not. -/
def uploadResponse (request : Request) (identifier bits : Bytes) : Response :=
  let sha1 := formats.digests.sha1 bits
  let sha256 := formats.digests.sha256 bits
  if request.queryGet (ascii "async") = ascii "true" then
    ⟨some 202, [], [.resource (uploadBody identifier "PROCESSING_UPLOAD" sha1 sha256)]⟩
  else ⟨some 201, [], [.resource (uploadBody identifier "READY" sha1 sha256)]⟩

def addOrReplaceEnding (request : Request) (identifier : Bytes) (s : σ) : Ending σ :=
  withinLimits request resource.maxBodySizeLimit (fun request =>
    orPanic (uploadedFile request resource.resourceType) (fun
      | none => (some (badRequestResponse
          (ascii "Could not retrieve form parameter '%s' or 'bits") [resource.resourceType]), s)
      | some file =>
        match resource.receivedBits formats request file s with
        | (.error response, s) => (response, s)
        | (.ok bits, s) => (some (uploadResponse formats request identifier bits),
            resource.shelf.store identifier (some bits) s)) s) s

/-- The answer to an upload whose digests are not told, or to a copy. -/
def readyResponse (identifier : Bytes) : Response :=
  ⟨some 201, [], [.resource ⟨identifier, ascii "READY", ascii "bits", [], []⟩]⟩

def digestEnding (request : Request) (identifier : Bytes) (s : σ) : Ending σ :=
  withinLimits request resource.maxBodySizeLimit (fun request =>
    let digest := request.header (ascii "Digest")
    let malformed := ascii "Digest must have format sha256=value, but is " ++ digest
    if digest = [] then (some (badRequestResponse (ascii "No Digest header") []), s)
    else match splitEquals digest with
      | [alg, value] =>
        if toLower alg ≠ ascii "sha256" then (some (badRequestResponse malformed []), s)
        else if value = [] then (some (badRequestResponse
          (ascii "Digest must have format sha256=value. Value cannot be empty") []), s)
        else orPanic request.body.readAll (fun content => (some (readyResponse identifier),
          resource.shelf.store (identifier ++ slash :: value) (some content) s)) s
      | _ => (some (badRequestResponse malformed []), s)) s

/-- A copy of nothing is answered with an empty success. -/
def copyEnding (request : Request) (identifier : Bytes) (s : σ) : Ending σ :=
  withinLimits request resource.maxBodySizeLimit (fun request =>
    orPanic request.body.readAll (fun content =>
      match formats.json.sourceGuid content with
      | .error text => (some (badRequestResponse
          (ascii "Body must be valid JSON when request is not multipart/form-data. %+v") [text]), s)
      | .ok sourceGuid =>
        if sourceGuid = [] then (some .empty, s)
        else match resource.shelf.blob s sourceGuid with
          | none => (some ⟨some 404, [], []⟩, s)
          | some content => (some (readyResponse identifier), resource.shelf.store identifier
              (some (resource.shelf.copied sourceGuid identifier content)) s)) s) s

def headEnding (identifier : Bytes) (s : σ) : Ending σ :=
  match resource.shelf.blob s identifier with
  | none => (some ⟨some 404, [], []⟩, s)
  | some _ => (some ⟨some 200, [], []⟩, s)

def contentResponse (request : Request) (content : Bytes) : Response :=
  let eTag := formats.digests.key content
  if request.header (ascii "If-None-Modify") = eTag then ⟨some 304, [(ascii "ETag", eTag)], []⟩
  else ⟨some 200, [(ascii "ETag", eTag)], [.raw content]⟩

def getEnding (request : Request) (identifier : Bytes) (s : σ) : Ending σ :=
  match resource.shelf.blob s identifier with
  | none => (some ⟨some 404, [], []⟩, s)
  | some content => (some (contentResponse formats request content), s)

def deleteEnding (identifier : Bytes) (s : σ) : Ending σ :=
  match resource.shelf.blob s identifier with
  | none => (some ⟨some 404, [], []⟩, s)
  | some _ => (some ⟨some 204, [], []⟩, resource.shelf.store identifier none s)

def deleteDirEnding (identifier : Bytes) (s : σ) : Ending σ :=
  (some ⟨some 204, [], []⟩, resource.shelf.clear identifier s)

/-! ## Answers -/

variable {resource} {w : Env σ}

theorem ends_found_none (hw : Idle w) (digests : Digests) (location : Bytes) (status : ℕ)
    (body : Option Body) (jsonBody : Option ResponseBody) (ifNoneModify : Bytes) :
    Ends (writeResponseBasedOn digests location (some .newNotFoundError) status body jsonBody
      ifNoneModify) w (some ⟨some 404, [], []⟩, w.ext) := hw.ends_writeHeader 404

theorem ends_done (hw : Idle w) (digests : Digests) (status : ℕ) :
    Ends (writeResponseBasedOn digests [] none status none none []) w
      (some ⟨some status, [], []⟩, w.ext) := hw.ends_writeHeader status

theorem ends_resource (hw : Idle w) (digests : Digests) (status : ℕ) (body : ResponseBody) :
    Ends (writeResponseBasedOn digests [] none status none (some body) []) w
      (some ⟨some status, [], [.resource body]⟩, w.ext) := hw.ends_writeHeader_write status _

theorem ends_content (hw : Idle w) (request : Request) (content : Bytes) :
    Ends (writeResponseBasedOn formats.digests [] none 200 (some (.whole content)) none
        (request.header (ascii "If-None-Modify"))) w
      (some (contentResponse formats request content), w.ext) := by
  obtain ⟨host, ext, response⟩ := w
  obtain rfl : response = .empty := hw.unanswered
  have hread : (Body.whole content).readAll = .ok content := by
    simp [Body.readAll, Body.whole, Body.delivered]
  show Ends (writeBody formats.digests 200 (.whole content) _) _ _
  unfold writeBody contentResponse
  rw [hread]
  refine Ends.after (run_panicOnError_ok content _) ?_
  by_cases hsame : request.header (ascii "If-None-Modify") = formats.digests.key content
  · simp only [if_pos hsame]
    exact ⟨hw.faultless, rfl⟩
  · simp only [if_neg hsame]
    exact ⟨hw.faultless, rfl⟩

/-! ## Operations without uploads -/

theorem ends_headOrRedirectAsGet (hw : Idle w) (identifier : Bytes) :
    Ends (headOrRedirectAsGet formats resource.handler identifier) w
      (resource.headEnding identifier w.ext) := by
  unfold headEnding
  have hrun : (onExt (resource.handler.blobstore.headOrRedirectAsGet identifier)).run w =
      (.returned (found ((resource.shelf.blob w.ext identifier).map fun _ => [])), w) := by
    rw [run_onExt]
    exact congrArg (fun r => (r.1, { w with ext := r.2 }))
      (resource.shelf.run_headOrRedirectAsGet identifier w.ext)
  refine Ends.after hrun ?_
  cases resource.shelf.blob w.ext identifier with
  | none => exact ends_found_none hw _ _ _ _ _ _
  | some content => exact ends_done hw _ 200

theorem ends_getResource (hw : Idle w) (request : Request) (identifier : Bytes) :
    Ends (getResource formats resource.handler request identifier) w
      (resource.getEnding formats request identifier w.ext) := by
  unfold getEnding
  have hrun : (onExt (resource.handler.blobstore.getOrRedirect identifier)).run w =
      (.returned (found ((resource.shelf.blob w.ext identifier).map fun content =>
        (some (.whole content), []))), w) := by
    rw [run_onExt]
    exact congrArg (fun r => (r.1, { w with ext := r.2 }))
      (resource.shelf.run_getOrRedirect identifier w.ext)
  refine Ends.after hrun ?_
  cases resource.shelf.blob w.ext identifier with
  | none => exact ends_found_none hw _ _ _ _ _ _
  | some content => exact ends_content formats hw request content

theorem ends_deleteResource (hw : Idle w) (identifier : Bytes) :
    Ends (deleteResource formats resource.handler identifier) w
      (resource.deleteEnding identifier w.ext) := by
  unfold deleteEnding
  have hrun : (onExt (resource.handler.blobstore.existsBlob identifier)).run w =
      (.returned (.ok (resource.shelf.blob w.ext identifier).isSome), w) := by
    rw [run_onExt]
    exact congrArg (fun r => (r.1, { w with ext := r.2 }))
      (resource.shelf.run_existsBlob identifier w.ext)
  refine Ends.after hrun (Ends.after (run_panicOnError_ok _ w) ?_)
  cases hblob : resource.shelf.blob w.ext identifier with
  | none => exact hw.ends_writeHeader 404
  | some content =>
    let w₁ : Env σ := { w with ext := resource.shelf.store identifier none w.ext }
    have hw₁ : Idle w₁ := ⟨hw.faultless, hw.unanswered⟩
    have hdelete : (onExt (resource.handler.blobstore.delete identifier)).run w =
        (.returned (.ok ()), w₁) := by
      rw [run_onExt]
      exact congrArg (fun r => (r.1, { w with ext := r.2 })) (resource.shelf.run_delete_some hblob)
    exact Ends.after hdelete (ends_done hw₁ _ 204)

theorem ends_deleteDir (hw : Idle w) (identifier : Bytes) :
    Ends (deleteDir formats resource.handler identifier) w
      (resource.deleteDirEnding identifier w.ext) := by
  let w₁ : Env σ := { w with ext := resource.shelf.clear identifier w.ext }
  have hw₁ : Idle w₁ := ⟨hw.faultless, hw.unanswered⟩
  have hdelete : (onExt (resource.handler.blobstore.deleteDir identifier)).run w =
      (.returned (.ok ()), w₁) := rfl
  exact Ends.after hdelete (ends_done hw₁ _ 204)

theorem ends_copySourceGuid (hw : Idle w) (request : Request) (identifier : Bytes) :
    Ends (copySourceGuid formats resource.handler request identifier) w
      (resource.copyEnding formats request identifier w.ext) := by
  refine Ends.withinLimits hw rfl fun request => ?_
  simp only [sourceGuidFrom, Prog.bind_assoc]
  refine Ends.panicOnError hw fun content => ?_
  cases formats.json.sourceGuid content with
  | error text =>
    simp only [Prog.bind_assoc]
    exact (hw.ends_badRequest _ _).last rfl
  | ok sourceGuid =>
    refine Ends.after (run_pure sourceGuid w) ?_
    by_cases hnone : sourceGuid = []
    · simp only [if_pos hnone]
      exact hw.ends_nothing
    · simp only [if_neg hnone]
      cases hsource : resource.shelf.blob w.ext sourceGuid with
      | none =>
        have hcopy : (onExt (resource.handler.blobstore.copy sourceGuid identifier)).run w =
            (.returned (.error .newNotFoundError), w) := by
          rw [run_onExt]
          exact congrArg (fun r => (r.1, { w with ext := r.2 }))
            (resource.shelf.run_copy_none hsource)
        exact Ends.after hcopy (ends_found_none hw _ _ _ _ _ _)
      | some content =>
        let copied := resource.shelf.copied sourceGuid identifier content
        let w₁ : Env σ :=
          { w with ext := resource.shelf.store identifier (some copied) w.ext }
        have hw₁ : Idle w₁ := ⟨hw.faultless, hw.unanswered⟩
        have hcopy : (onExt (resource.handler.blobstore.copy sourceGuid identifier)).run w =
            (.returned (.ok ()), w₁) := by
          rw [run_onExt]
          exact congrArg (fun r => (r.1, { w with ext := r.2 }))
            (resource.shelf.run_copy_some hsource)
        exact Ends.after hcopy (ends_resource hw₁ _ 201 _)

/-! ## Uploads -/

theorem ends_addOrReplaceWithDigestInHeader (hw : Idle w) (request : Request)
    (identifier : Bytes) :
    Ends (addOrReplaceWithDigestInHeader formats resource.handler request identifier) w
      (resource.digestEnding request identifier w.ext) := by
  refine Ends.withinLimits hw rfl fun request => ?_
  simp only
  by_cases hdigest : request.header (ascii "Digest") = []
  · simp only [if_pos hdigest]
    exact hw.ends_badRequest _ _
  simp only [if_neg hdigest]
  generalize splitEquals (request.header (ascii "Digest")) = parts
  rcases parts with _ | ⟨alg, _ | ⟨value, _ | ⟨part, parts⟩⟩⟩
  · exact hw.ends_badRequest _ _
  · exact hw.ends_badRequest _ _
  · simp only
    by_cases halg : toLower alg ≠ ascii "sha256"
    · simp only [if_pos halg]
      exact hw.ends_badRequest _ _
    simp only [if_neg halg]
    by_cases hvalue : value = []
    · simp only [if_pos hvalue]
      exact hw.ends_badRequest _ _
    simp only [if_neg hvalue]
    refine Ends.panicOnError hw fun content => ?_
    let w₁ : Env σ := { w with host := { w.host with budgets := w.host.budgets.tail } }
    let key := identifier ++ slash :: value
    let w₂ : Env σ := { w₁ with ext := resource.shelf.store key (some content) w.ext }
    have hw₂ : Idle w₂ := ⟨hw.faultless, hw.unanswered⟩
    have hattempt : (digestAttempt resource.handler identifier value content ()).run w₁ =
        (.returned (none, ()), w₂) := rfl
    have hbudget : (onHost takeBudget).run w = (.returned (w.host.budgets.headD 0), w₁) := rfl
    refine Ends.after hbudget ?_
    exact Ends.after (run_retryNotify_done _ hattempt) (ends_resource hw₂ _ 201 _)
  · exact hw.ends_badRequest _ _

variable (resource) in
/-- The bits are stored by the first attempt. -/
theorem run_uploadResource_shelved {name : ℕ} {bits : Bytes} (hh : w.host.Faultless)
    (htemp : w.host.temps name = some bits) (identifier sha1 sha256 : Bytes) :
    ∃ w', (uploadResource resource.handler name identifier sha1 sha256).run w =
        (.returned (.ok ()), w') ∧
      Reaches w (resource.shelf.store identifier (some bits) w.ext) w' := by
  let w₁ : Env σ := { w with host := { w.host with budgets := w.host.budgets.tail } }
  let w₂ : Env σ := { w₁ with ext := resource.shelf.store identifier (some bits) w.ext }
  have hh₁ : w₁.host.Faultless := hh
  have hattempt : (uploadAttempt resource.handler name identifier ()).run w₁ =
      (.returned (none, ()), w₂) := by
    unfold uploadAttempt
    rw [run_bind_returned (run_onHost_of (hh₁.run_openTemp htemp))]
    rfl
  refine ⟨{ w₂ with host := w₂.host.removeTemp name }, ?_, hh, rfl, rfl⟩
  unfold uploadResource
  refine run_removingTemp ?_
  rw [run_bind_returned (run_onHost_of (m := takeBudget) rfl),
    run_bind_returned (run_retryNotify_done _ hattempt)]
  rfl

theorem ends_uploadAndAnswer {name : ℕ} {bits : Bytes} (hw : Idle w)
    (htemp : w.host.temps name = some bits) (request : Request) (identifier : Bytes) :
    Ends (uploadAndAnswer formats resource.handler request identifier name
        (formats.digests.sha1 bits) (formats.digests.sha256 bits)) w
      (some (uploadResponse formats request identifier bits),
        resource.shelf.store identifier (some bits) w.ext) := by
  unfold uploadAndAnswer uploadResponse
  by_cases hasync : request.queryGet (ascii "async") = ascii "true"
  · obtain ⟨host, ext, response⟩ := w
    obtain rfl : response = .empty := hw.unanswered
    let sent : Response := ⟨some 202, [], [.resource (uploadBody identifier "PROCESSING_UPLOAD"
      (formats.digests.sha1 bits) (formats.digests.sha256 bits))]⟩
    let w₁ : Env σ := ⟨host, ext, sent⟩
    have hh₁ : w₁.host.Faultless := hw.faultless
    have htemp₁ : w₁.host.temps name = some bits := htemp
    obtain ⟨w₂, hrun, hw₂⟩ := run_uploadResource_shelved resource hh₁ htemp₁
      identifier (formats.digests.sha1 bits) (formats.digests.sha256 bits)
    have hends : Ends (pure ()) w₂ (some w₂.response, w₂.ext) :=
      Ends.of_returned (run_pure () w₂) hw₂.faultless
    rw [hw₂.response, hw₂.ext] at hends
    simp only [if_pos hasync]
    have hanswer : (writeResponseBasedOn formats.digests [] none 202 none (some (uploadBody
        identifier "PROCESSING_UPLOAD" (formats.digests.sha1 bits) (formats.digests.sha256 bits)))
          []).run ⟨host, ext, .empty⟩ = (.returned (), w₁) := rfl
    exact Ends.after hanswer (Ends.after hrun hends)
  · simp only [if_neg hasync]
    obtain ⟨w₁, hrun, hw₁⟩ := run_uploadResource_shelved resource hw.faultless htemp
      identifier (formats.digests.sha1 bits) (formats.digests.sha256 bits)
    refine Ends.after hrun ?_
    rw [← hw₁.ext]
    exact ends_resource (hw₁.idle hw) _ 201 _

/-- The updater that is told of nothing lets every upload go on. -/
theorem ends_storeBits {name : ℕ} {bits : Bytes} (hw : Idle w)
    (htemp : w.host.temps name = some bits) (request : Request) (identifier : Bytes) :
    Ends (storeBits formats resource.handler request identifier name) w
      (some (uploadResponse formats request identifier bits),
        resource.shelf.store identifier (some bits) w.ext) := by
  have hsums : (shaSums formats.digests name).run w.host =
      (.returned (.ok (formats.digests.sha1 bits, formats.digests.sha256 bits)), w.host) := by
    unfold shaSums
    rw [run_orReturn_ok (hw.faultless.run_openTemp htemp),
      run_orReturn_ok (hw.faultless.run_osCall .readTemp)]
    rfl
  have hnotified : (onExt (resource.handler.updater.notifyProcessingUpload identifier)).run w =
      (.returned (.ok ()), w) := rfl
  refine Ends.after (run_onHost_of hsums) (Ends.after (run_panicOnError_ok _ w) ?_)
  refine Ends.after hnotified (Ends.after (run_pure false w) ?_)
  exact ends_uploadAndAnswer formats hw htemp request identifier

/-- What a package upload makes of its resources and its file. -/
theorem ends_completePackageWithResources (hw : Idle w) (resources file : Bytes)
    {k : Result ℕ → Prog GoError (Env σ) Unit} {ending : Ending σ}
    (hrefused : ∀ text w', Idle w' →
      resource.packageBits formats resources file w.ext =
        (.error (some (unprocessable text)), w'.ext) → Ends (k (.error (.input text))) w' ending)
    (hpanicked : ∀ w', Idle w' → resource.packageBits formats resources file w.ext =
      (.error none, w'.ext) → ending = (none, w'.ext))
    (hmade : ∀ name bits w', Idle w' → w'.host.temps name = some bits →
      resource.packageBits formats resources file w.ext = (.ok bits, w'.ext) →
        Ends (k (.ok name)) w' ending) :
    Ends (completePackageWithResources formats resource.handler resources file >>= k) w ending := by
  unfold packageBits at hrefused hpanicked hmade
  unfold completePackageWithResources
  cases hpayload : (if resources = [] then some [] else formats.json.unmarshal resources) with
  | none =>
    simp only [hpayload] at hrefused ⊢
    exact Ends.after (run_pure _ w) (hrefused _ w hw rfl)
  | some payload =>
    simp only [hpayload] at hrefused hpanicked hmade ⊢
    cases hkeys : anyKeyMissingIn payload with
    | some key =>
      simp only [hkeys] at hrefused ⊢
      exact Ends.after (run_pure _ w) (hrefused _ w hw rfl)
    | none =>
      simp only [hkeys] at hrefused hpanicked hmade ⊢
      cases hzip : formats.zip.decode file with
      | error text =>
        simp only [hzip] at hrefused hpanicked ⊢
        by_cases hinvalid : ascii "not a valid zip file" <:+: text
        · simp only [if_pos hinvalid] at hrefused ⊢
          exact Ends.after (run_pure _ w) (hrefused _ w hw rfl)
        · simp only [if_neg hinvalid] at hpanicked ⊢
          rw [hpanicked w hw rfl]
          exact Ends.raise hw _
      | ok zipReader =>
        simp only [hzip] at hrefused hpanicked hmade ⊢
        rw [Prog.bind_assoc]
        have hfits : ∀ e ∈ (some zipReader).getD [], FitsZip e.header.name :=
          formats.zip.fits_of_decode hzip
        obtain ⟨r, w₁, hrun, hw₁, hr⟩ := run_createTempZipFileFrom_shelved formats.digests
          formats.zip resource.minimumSize resource.maximumSize resource.appStash hw.faultless
          payload hfits
        refine Ends.after hrun ?_
        have hidle := hw₁.idle hw
        rcases hbundle : bundle formats.digests formats.zip resource.minimumSize
          resource.maximumSize resource.appStash payload (some zipReader) w.ext with ⟨made, s⟩
        rw [hbundle] at hr hw₁ hrefused hpanicked hmade
        obtain rfl : w₁.ext = s := hw₁.ext
        cases made with
        | ok package =>
          obtain ⟨name, rfl, htemp⟩ := hr
          exact Ends.after (run_pure _ w₁) (hmade name package w₁ hidle htemp rfl)
        | error reason =>
          obtain ⟨e, rfl, hexplains⟩ := hr
          cases hexplains with
          | missing key => exact Ends.after (run_pure _ w₁) (hrefused _ w₁ hidle rfl)
          | refused message cause =>
            rw [hpanicked w₁ hidle rfl]
            exact Ends.raise hidle _

/-- A request goes on with the bits in a temp file, unless it was answered. -/
theorem ends_receiveBits (hw : Idle w) (request : Request) (file : Bytes)
    {k : Option ℕ → Prog GoError (Env σ) Unit} {ending : Ending σ} (hnone : k none = pure ())
    (hrefused : ∀ response s, resource.receivedBits formats request file w.ext =
      (.error response, s) → ending = (response, s))
    (hmade : ∀ name bits w', Idle w' → w'.host.temps name = some bits →
      resource.receivedBits formats request file w.ext = (.ok bits, w'.ext) →
        Ends (k (some name)) w' ending) :
    Ends (receiveBits formats resource.handler request file >>= k) w ending := by
  have hpure : (pure none >>= k : Prog GoError (Env σ) Unit) = pure () := hnone
  unfold receivedBits at hrefused hmade
  unfold receiveBits
  by_cases htype : resource.resourceType = ascii "package"
  · have htype' : resource.handler.resourceType = ascii "package" := htype
    simp only [if_pos htype] at hrefused hmade
    rw [if_pos htype', Prog.bind_assoc]
    refine ends_completePackageWithResources formats hw _ file (fun text w₁ hw₁ hbits => ?_)
      (fun w₁ hw₁ hbits => hrefused none w₁.ext hbits) fun name bits w₁ hw₁ htemp hbits => ?_
    · rw [hrefused _ _ hbits]
      have hanswer : Ends ((do writeHeader 422; write (.description none text [])) >>=
          fun _ => pure none >>= k) w₁ _ := (hw₁.ends_writeHeader_write 422 _).last hpure
      rw [Prog.bind_assoc] at hanswer
      simp only [Prog.bind_assoc]
      exact hanswer
    · exact Ends.after (run_pure _ w₁) (hmade name bits w₁ hw₁ htemp hbits)
  · have htype' : ¬ resource.handler.resourceType = ascii "package" := htype
    simp only [if_neg htype] at hrefused hmade
    rw [if_neg htype', Prog.bind_assoc]
    let w₁ : Env σ := { w with host := { w.host with
      temps := Function.update w.host.temps w.host.next (some []), next := w.host.next + 1 } }
    let w₂ : Env σ := { w₁ with host := { w₁.host with
      temps := Function.update w₁.host.temps w.host.next (some file) } }
    have hh₁ : w₁.host.Faultless := hw.faultless
    have hw₂ : Idle w₂ := ⟨hw.faultless, hw.unanswered⟩
    have hcreate : (createTempFileWithContent file).run w.host =
        (.returned (.ok w.host.next), w₂.host) := by
      unfold createTempFileWithContent
      rw [run_orReturn_ok (hw.faultless.run_createTemp (by decide)),
        run_orReturn_ok (hh₁.run_writeTemp w.host.next file)]
      rfl
    refine Ends.after (run_onHost_of hcreate) ?_
    rw [Prog.bind_assoc]
    refine Ends.after (run_panicOnError_ok _ w₂) ?_
    refine Ends.after (run_pure _ w₂) ?_
    exact hmade w.host.next file w₂ hw₂ (Function.update_self _ _ _) rfl

theorem ends_addOrReplace (hw : Idle w) (request : Request) (identifier : Bytes) :
    Ends (addOrReplace formats resource.handler request identifier) w
      (resource.addOrReplaceEnding formats request identifier w.ext) := by
  unfold addOrReplace receiveUpload
  rw [Prog.bind_assoc]
  refine Ends.withinLimits hw rfl fun request => ?_
  simp only [Prog.bind_assoc]
  refine Ends.panicOnError hw fun file => ?_
  cases file with
  | none =>
    simp only [Prog.bind_assoc]
    exact (hw.ends_badRequest _ _).last rfl
  | some file =>
    simp only [Prog.bind_assoc]
    refine ends_receiveBits formats hw request file rfl (fun response s hbits => ?_)
      fun name bits w₁ hw₁ htemp hbits => ?_
    · rw [hbits]
    · rw [hbits]
      exact Ends.after (run_pure _ w₁) (ends_storeBits formats hw₁ htemp request identifier)

end ShelvedResource
end BitsService
