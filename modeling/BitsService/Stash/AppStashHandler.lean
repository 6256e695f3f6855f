import BitsService.Foundations.Path
import BitsService.Server.Http
import BitsService.Stash.BundleInvariant

/-! # The app stash

Clients ask which of their files are in the stash, upload the entries of an archive to it one by
one, and have packages bundled from its contents. -/
namespace BitsService
open GoLib.Effect
set_option autoImplicit false

structure AppStashHandler (σ : Type) where
  blobstore : NoRedirectBlobstore σ
  maxBodySizeLimit : ℕ
  minimumSize : ℕ
  maximumSize : ℕ

variable {σ : Type} (formats : Formats) (handler : AppStashHandler σ)

/-! ## Matches -/

/-- The loop of `PostMatches`: the fingerprints that are in the stash and of the right size. -/
def matchedFingerprints : List Fingerprint → Prog GoError (Env σ) (List Fingerprint)
  | [] => pure []
  | entry :: fingerprints =>
    if entry.size < handler.minimumSize ∨ handler.maximumSize < entry.size then
      matchedFingerprints fingerprints
    else do
      let r ← onExt (handler.blobstore.existsBlob entry.sha1)
      let found ← panicOnError r
      let matched ← matchedFingerprints fingerprints
      pure (if found then entry :: matched else matched)

def postMatches (request : Request) : Prog GoError (Env σ) Unit := do
  match ← handleBodySizeLimits request handler.maxBodySizeLimit with
  | none => pure ()
  | some request =>
    let body ← panicOnError request.body.readAll
    match formats.json.unmarshal body with
    | none => do
      writeHeader 422
      write (.raw (ascii "Invalid body " ++ body))
    | some [] => do
      writeHeader 422
      fprintDescriptionAsJSON
        (ascii "The request is semantically invalid: must be a non-empty array.") []
    | some fingerprints => do
      let matched ← matchedFingerprints handler fingerprints
      write (.raw (formats.json.marshal matched))

/-! ## Entries -/

def copyCalculatingSha (digests : Digests) (writer : ℕ) (content : Bytes) :
    Prog GoError Host (Result Bytes) :=
  let errorCopying (e : GoError) : GoError := .sys (ascii "error copying. Caused by: " ++ e.text)
  orReturn (osCall .readEntry) errorCopying fun _ =>
  orReturn (writeTemp writer content) errorCopying fun _ => pure (.ok (digests.key content))

/-- An entry goes to a temp file first, where its key is found, and from there to the stash. -/
def copyTo (digests : Digests) (blobstore : NoRedirectBlobstore σ) (zipFileEntry : ZipEntry) :
    Prog GoError (Env σ) (Result Bytes) :=
  orReturn (onHost (osCall .openEntry)) .withStack fun _ =>
  orReturn (onHost (createTemp (filepathBase zipFileEntry.header.name))) .withStack
    fun tempZipEntryFile =>
  removingTemp tempZipEntryFile <|
  orReturn (onHost (copyCalculatingSha digests tempZipEntryFile zipFileEntry.content)) .withStack
    fun sha =>
  orReturn (onHost (openTemp tempZipEntryFile)) .withStack fun entryFileRead => do
    match ← onExt (blobstore.put sha entryFileRead) with
    | .error .noSpaceLeft => pure (.error .noSpaceLeft)
    | .error e => pure (.error (.withStack e))
    | .ok () => pure (.ok sha)

/-- The loop of `PostEntries`; there are no fingerprints when the request was answered. -/
def copyEntries : List ZipEntry → Prog GoError (Env σ) (Option (List Fingerprint))
  | [] => pure (some [])
  | zipFileEntry :: entries =>
    if isRegular zipFileEntry.header.mode then do
      match ← copyTo formats.digests handler.blobstore zipFileEntry with
      | .error .noSpaceLeft => do
        insufficientStorage
        pure none
      | .error e => raise e
      | .ok sha => do
        let fingerprints ← copyEntries entries
        pure (fingerprints.map (⟨zipFileEntry.header.name, sha, zipFileEntry.content.length,
          formatInt 8 zipFileEntry.header.mode.toNat⟩ :: ·))
    else copyEntries entries

def postUploadedEntries (tempZipFile : ℕ) : Prog GoError (Env σ) Unit := do
  let opened ← onHost (openTemp tempZipFile)
  match opened.toOption.bind fun content => (formats.zip.decode content).toOption with
  | none => badRequest (ascii "Bad Request: Not a valid zip file") []
  | some entries =>
    match ← copyEntries formats handler entries with
    | none => pure ()
    | some fingerprints => do
      writeHeader 201
      write (.raw (formats.json.marshal fingerprints))

def postEntries (request : Request) : Prog GoError (Env σ) Unit := do
  match ← handleBodySizeLimits request handler.maxBodySizeLimit with
  | none => pure ()
  | some request =>
    match request.formFile (ascii "application") with
    | .error _ => badRequest (ascii "Could not retrieve 'application' form parameter") []
    | .ok none => badRequest (ascii "Could not retrieve 'application' form parameter") []
    | .ok (some uploadedFile) => do
      let r ← onHost (createTemp [])
      let tempZipFile ← panicOnError r
      removingTemp tempZipFile do
        let r ← onHost (writeTemp tempZipFile uploadedFile)
        let _ ← panicOnError r
        postUploadedEntries formats handler tempZipFile

/-! ## Bundles -/

/-- The answer with a bundle that has been written to a temp file. -/
def sendBundle (tempZipFilename : ℕ) : Prog GoError (Env σ) Unit :=
  removingTemp tempZipFilename do
    let opened ← onHost (openTemp tempZipFilename)
    let content ← panicOnError opened
    let r ← onHost (osCall .readTemp)
    let _ ← panicOnError r
    write (.raw content)

def bundleAndSend (body : Bytes) (zipReader : Option (List ZipEntry)) :
    Prog GoError (Env σ) Unit :=
  match formats.json.unmarshal body with
  | none => do
    writeHeader 422
    fprintDescriptionAsJSON (ascii "Invalid body %s") [body]
  | some bundlesPayload =>
    match anyKeyMissingIn bundlesPayload with
    | some key => do
      writeHeader 422
      fprintDescriptionAsJSON
        (ascii "The request is semantically invalid: key `%v` missing or empty") [key]
    | none => do
      match ← createTempZipFileFrom formats.digests formats.zip handler.minimumSize
        handler.maximumSize handler.blobstore bundlesPayload zipReader with
      | .error (.notFound _ missingKey) => do
        writeHeader 404
        fprintDescriptionAsJSON (ascii "%v not found") [missingKey]
      | .error e => raise e
      | .ok tempZipFilename => sendBundle tempZipFilename

def postBundles (request : Request) : Prog GoError (Env σ) Unit := do
  match ← handleBodySizeLimits request handler.maxBodySizeLimit with
  | none => pure ()
  | some request =>
    if ascii "multipart/form-data" <:+: request.header (ascii "Content-Type") then do
      match ← panicOnError (request.formFile (ascii "resources")) with
      | none => badRequest (ascii "Could not retrieve form parameter 'resources") []
      | some resources =>
        match ← panicOnError (request.formFile (ascii "application")) with
        | none => badRequest (ascii "Could not retrieve form parameter 'application") []
        | some zipFile =>
          match formats.zip.decode zipFile with
          | .error text => raise (.sys text)
          | .ok zipReader => bundleAndSend formats handler resources (some zipReader)
    else do
      let body ← panicOnError request.body.readAll
      bundleAndSend formats handler body none

/-- The end of a request for a bundle, once its fingerprints are known. -/
def answerBundle (r : Result ℕ) : Prog GoError (Env σ) Unit :=
  match r with
  | .error (.notFound _ missingKey) => do
    writeHeader 404
    fprintDescriptionAsJSON (ascii "%v not found") [missingKey]
  | .error e => raise e
  | .ok tempZipFilename => sendBundle tempZipFilename

theorem bundleAndSend_eq {body : Bytes} {bundlesPayload : List Fingerprint}
    (hjson : formats.json.unmarshal body = some bundlesPayload)
    (hkeys : anyKeyMissingIn bundlesPayload = none) (zipReader : Option (List ZipEntry)) :
    bundleAndSend formats handler body zipReader =
      createTempZipFileFrom formats.digests formats.zip handler.minimumSize handler.maximumSize
        handler.blobstore bundlesPayload zipReader >>= answerBundle := by
  unfold bundleAndSend
  simp only [hjson, hkeys]
  rfl

/-- A form with both files, within the limits. -/
theorem run_postBundles_form {request : Request} {resources zipFile : Bytes}
    {zipReader : List ZipEntry} (hlimit : handler.maxBodySizeLimit = 0)
    (htype : ascii "multipart/form-data" <:+: request.header (ascii "Content-Type"))
    (hresources : request.formFile (ascii "resources") = .ok (some resources))
    (happlication : request.formFile (ascii "application") = .ok (some zipFile))
    (hzip : formats.zip.decode zipFile = .ok zipReader) (w : Env σ) :
    (postBundles formats handler request).run w =
      (bundleAndSend formats handler resources (some zipReader)).run w := by
  have hlimited : request.limited handler.maxBodySizeLimit = some request := if_pos hlimit
  unfold postBundles
  rw [run_bind_returned (run_handleBodySizeLimits hlimited w)]
  simp only [if_pos htype, hresources, happlication]
  rw [run_bind_returned (run_panicOnError_ok _ w)]
  simp only
  rw [run_bind_returned (run_panicOnError_ok _ w)]
  simp only [hzip]

/-! ## What the handlers leave alone -/

/-- An invariant of the services that the stash keeps when it is read, and when a content is put
under its own key. -/
structure KeptByStash (digests : Digests) (blobstore : NoRedirectBlobstore σ) (J : σ → Prop) :
    Prop where
  existsBlob : ∀ key, Keeps J (blobstore.existsBlob key)
  get : ∀ key, Keeps J (blobstore.get key)
  put : ∀ content, Keeps J (blobstore.put (digests.key content) content)

theorem keptByAnswers_ofExt (J : σ → Prop) : KeptByAnswers (OfExt J) :=
  keptByAnswers_of_blind fun _ _ h => h

theorem keeps_writeHeader_ofExt (J : σ → Prop) (status : ℕ) :
    Keeps (OfExt J) (writeHeader status) := fun _ h => h

theorem keeps_write_ofExt (J : σ → Prop) (d : Document) : Keeps (OfExt J) (write d) := fun _ h => h

theorem copyCalculatingSha_eq_ok {digests : Digests} {writer : ℕ} {content sha : Bytes}
    {h h' : Host}
    (hrun : (copyCalculatingSha digests writer content).run h = (.returned (.ok sha), h')) :
    sha = digests.key content ∧ h'.temps writer = some content := by
  obtain ⟨u, h₁, -, hrest⟩ := run_orReturn_eq_ok hrun
  obtain ⟨u, h₂, hwrite, hrest⟩ := run_orReturn_eq_ok hrest
  cases hrest
  exact ⟨rfl, writeTemp_eq_ok hwrite⟩

namespace KeptByStash
variable {formats : Formats} {handler : AppStashHandler σ} {digests : Digests}
  {blobstore : NoRedirectBlobstore σ} {J : σ → Prop}

theorem copyTo (hJ : KeptByStash digests blobstore J) (zipFileEntry : ZipEntry) :
    Keeps (OfExt J) (copyTo digests blobstore zipFileEntry) := by
  have hhost := fun {α : Type} (m : Prog GoError Host α) => (hostBlind_ofExt J).keeps_onHost m
  refine keeps_orReturn (hhost _) fun _ => keeps_orReturn (hhost _) fun tempZipEntryFile =>
    (hostBlind_ofExt J).keeps_removingTemp ?_
  intro w hw
  refine orReturn_leaves (fun e w₁ h => (hhost _).of_run h hw)
    (fun e w₁ h => (hhost _).of_run h hw) (fun sha w₁ hcopy => ?_)
  have hw₁ : OfExt J w₁ := (hhost _).of_run hcopy hw
  obtain ⟨rfl, htemp⟩ := copyCalculatingSha_eq_ok (run_onHost_eq_returned hcopy).1
  refine orReturn_leaves (fun e w₂ h => (hhost _).of_run h hw₁)
    (fun e w₂ h => (hhost _).of_run h hw₁) (fun src w₂ hopen => ?_)
  have hw₂ : OfExt J w₂ := (hhost _).of_run hopen hw₁
  -- what is put is what was hashed
  obtain ⟨r, h₂, hrun, -, hsrc⟩ := run_openTemp tempZipEntryFile w₁.host
  rw [(run_onHost_eq_returned hopen).1] at hrun
  cases hrun
  have hsrc : src = zipFileEntry.content := Option.some.inj ((hsrc src rfl).symm.trans htemp)
  subst hsrc
  refine Keeps.bind (keeps_onExt (hJ.put zipFileEntry.content)) (fun r => ?_) w₂ hw₂
  split
  · exact Keeps.pure _ _
  · exact Keeps.pure _ _
  · exact Keeps.pure _ _

variable (hJ : KeptByStash formats.digests handler.blobstore J)
include hJ

theorem copyEntries (entries : List ZipEntry) :
    Keeps (OfExt J) (copyEntries formats handler entries) := by
  induction entries with
  | nil => exact Keeps.pure _ _
  | cons zipFileEntry entries ih =>
    unfold BitsService.copyEntries
    by_cases hregular : isRegular zipFileEntry.header.mode = true
    · rw [if_pos hregular]
      refine Keeps.bind (hJ.copyTo zipFileEntry) fun r => ?_
      split
      · exact Keeps.bind (keptByAnswers_ofExt J).insufficientStorage fun _ => Keeps.pure _ _
      · exact Keeps.raise _ _
      · exact Keeps.bind ih fun _ => Keeps.pure _ _
    · rw [if_neg hregular]
      exact ih

theorem postEntries (request : Request) :
    Keeps (OfExt J) (postEntries formats handler request) := by
  have hhost := fun {α : Type} (m : Prog GoError Host α) => (hostBlind_ofExt J).keeps_onHost m
  have hbad := (keptByAnswers_ofExt J).badRequest
  refine Keeps.bind ((keptByAnswers_ofExt J).handleBodySizeLimits request _) fun r => ?_
  cases r with
  | none => exact Keeps.pure _ _
  | some request =>
    simp only
    split
    · exact hbad _ _
    · exact hbad _ _
    · refine Keeps.bind (hhost _) fun r => Keeps.bind (keeps_panicOnError _ r) fun tempZipFile => ?_
      refine (hostBlind_ofExt J).keeps_removingTemp (Keeps.bind (hhost _) fun r =>
        Keeps.bind (keeps_panicOnError _ r) fun _ => Keeps.bind (hhost _) fun opened => ?_)
      split
      · exact hbad _ _
      · refine Keeps.bind (hJ.copyEntries _) fun fingerprints => ?_
        cases fingerprints with
        | none => exact Keeps.pure _ _
        | some fingerprints =>
          exact Keeps.bind (keeps_writeHeader_ofExt J 201) fun _ => keeps_write_ofExt J _

theorem bundleAndSend (body : Bytes) (zipReader : Option (List ZipEntry)) :
    Keeps (OfExt J) (bundleAndSend formats handler body zipReader) := by
  have hhost := fun {α : Type} (m : Prog GoError Host α) => (hostBlind_ofExt J).keeps_onHost m
  unfold BitsService.bundleAndSend
  split
  · exact Keeps.bind (keeps_writeHeader_ofExt J 422) fun _ => keeps_write_ofExt J _
  split
  · exact Keeps.bind (keeps_writeHeader_ofExt J 422) fun _ => keeps_write_ofExt J _
  refine Keeps.bind (keeps_createTempZipFileFrom (hostBlind_ofExt J)
    (fun content => keeps_onExt (hJ.put content)) (fun key => keeps_onExt (hJ.get key))
    _ _ _ _ _) fun r => ?_
  split
  · exact Keeps.bind (keeps_writeHeader_ofExt J 404) fun _ => keeps_write_ofExt J _
  · exact Keeps.raise _ _
  · exact (hostBlind_ofExt J).keeps_removingTemp (Keeps.bind (hhost _) fun opened =>
      Keeps.bind (keeps_panicOnError _ opened) fun content => Keeps.bind (hhost _) fun r =>
        Keeps.bind (keeps_panicOnError _ r) fun _ => keeps_write_ofExt J _)

theorem postBundles (request : Request) :
    Keeps (OfExt J) (postBundles formats handler request) := by
  have hbad := (keptByAnswers_ofExt J).badRequest
  refine Keeps.bind ((keptByAnswers_ofExt J).handleBodySizeLimits request _) fun r => ?_
  cases r with
  | none => exact Keeps.pure _ _
  | some request =>
    simp only
    split
    · refine Keeps.bind (keeps_panicOnError _ _) fun resources => ?_
      cases resources with
      | none => exact hbad _ _
      | some resources =>
        refine Keeps.bind (keeps_panicOnError _ _) fun zipFile => ?_
        cases zipFile with
        | none => exact hbad _ _
        | some zipFile =>
          simp only
          split
          · exact Keeps.raise _ _
          · exact hJ.bundleAndSend _ _
    · exact Keeps.bind (keeps_panicOnError _ _) fun body => hJ.bundleAndSend _ _

theorem matchedFingerprints (fingerprints : List Fingerprint) :
    Keeps (OfExt J) (matchedFingerprints handler fingerprints) := by
  induction fingerprints with
  | nil => exact Keeps.pure _ _
  | cons entry fingerprints ih =>
    unfold BitsService.matchedFingerprints
    split
    · exact ih
    · exact Keeps.bind (keeps_onExt (hJ.existsBlob _)) fun r =>
        Keeps.bind (keeps_panicOnError _ r) fun _ => Keeps.bind ih fun _ => Keeps.pure _ _

theorem postMatches (request : Request) :
    Keeps (OfExt J) (postMatches formats handler request) := by
  refine Keeps.bind ((keptByAnswers_ofExt J).handleBodySizeLimits request _) fun r => ?_
  cases r with
  | none => exact Keeps.pure _ _
  | some request =>
    refine Keeps.bind (keeps_panicOnError _ _) fun body => ?_
    split
    · exact Keeps.bind (keeps_writeHeader_ofExt J 422) fun _ => keeps_write_ofExt J _
    · exact Keeps.bind (keeps_writeHeader_ofExt J 422) fun _ => keeps_write_ofExt J _
    · exact Keeps.bind (hJ.matchedFingerprints _) fun matched => keeps_write_ofExt J _

end KeptByStash

end BitsService
