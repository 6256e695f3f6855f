import BitsService.Lib.Coupling
import BitsService.Stash.AppStashHandler

/-! # Handlers over stashes that answer alike

A handler of the app stash is the same program whatever the stash is. Over two stashes that answer
alike under the keys it asks for, it gives the same answers, with the same temp files, faults and
retries. -/
namespace BitsService
open GoLib.Effect GoLib.Coupling GoLib.Retry
set_option autoImplicit false

variable {σ τ : Type}

/-! ## Around the services -/

/-- The same host and the same response so far, over related services. -/
structure SameBut (R : σ → τ → Prop) (w : Env σ) (v : Env τ) : Prop where
  host : w.host = v.host
  ext : R w.ext v.ext
  response : w.response = v.response

section Programs
variable {α β : Type} {R : σ → τ → Prop}

theorem alike_onExt {m : Prog GoError σ α} {m' : Prog GoError τ α} (h : Alike R m m') :
    Alike (SameBut R) (onExt m) (onExt m') :=
  Alike.zoom h (fun _ _ hR => hR.ext) fun _ _ _ _ hR hS => ⟨hR.host, hS, hR.response⟩

theorem alike_onHost (m : Prog GoError Host α) :
    Alike (SameBut R) (onHost m : Prog GoError (Env σ) α) (onHost m) := by
  intro w v hR
  rw [run_onHost, run_onHost, hR.host]
  exact ⟨rfl, rfl, hR.ext, hR.response⟩

theorem alike_removingTemp {name : ℕ} {m : Prog GoError (Env σ) α} {m' : Prog GoError (Env τ) α}
    (h : Alike (SameBut R) m m') :
    Alike (SameBut R) (removingTemp name m) (removingTemp name m') :=
  h.ensuring fun _ _ hR => ⟨by rw [hR.host], hR.ext, hR.response⟩

theorem alike_modifyResponse (f : Response → Response) :
    Alike (SameBut R)
      (modifyState fun w => { w with response := f w.response } : Prog GoError (Env σ) Unit)
      (modifyState fun w => { w with response := f w.response }) :=
  Alike.modifyState fun _ _ hR => ⟨hR.host, hR.ext, by rw [hR.response]⟩

theorem alike_writeHeader (status : ℕ) :
    Alike (SameBut R) (writeHeader status : Prog GoError (Env σ) Unit) (writeHeader status) :=
  alike_modifyResponse fun response =>
    { response with status := response.status.or (some status) }

theorem alike_write (d : Document) :
    Alike (SameBut R) (write d : Prog GoError (Env σ) Unit) (write d) :=
  alike_modifyResponse fun response =>
    { response with status := response.status.or (some 200), body := response.body ++ [d] }

theorem alike_setHeader (key value : Bytes) :
    Alike (SameBut R) (setHeader key value : Prog GoError (Env σ) Unit) (setHeader key value) :=
  alike_modifyResponse fun response =>
    { response with headers := response.headers ++ [(key, value)] }

theorem alike_writeHeader_write (status : ℕ) (d : Document) :
    Alike (SameBut R) (do writeHeader status; write d : Prog GoError (Env σ) Unit)
      (do writeHeader status; write d) :=
  Alike.bind (alike_writeHeader status) fun _ => alike_write d

theorem alike_badRequest (message : Bytes) (args : List Bytes) :
    Alike (SameBut R) (badRequest message args : Prog GoError (Env σ) Unit)
      (badRequest message args) := alike_writeHeader_write _ _

theorem alike_insufficientStorage :
    Alike (SameBut R) (insufficientStorage : Prog GoError (Env σ) Unit) insufficientStorage :=
  Alike.bind (alike_setHeader _ _) fun _ => Alike.bind (alike_setHeader _ _) fun _ =>
    alike_writeHeader_write _ _

end Programs

section Fallible
variable {W V α β : Type} {Q : W → V → Prop}

theorem alike_panicOnError (r : Result α) :
    Alike Q (panicOnError r : Prog GoError W α) (panicOnError r) := by
  cases r with
  | error e => exact Alike.raise e
  | ok a => exact Alike.pure a

theorem alike_panicOnError_bind {r : Result α} {k : α → Prog GoError W β}
    {k' : α → Prog GoError V β} (h : ∀ a, r = .ok a → Alike Q (k a) (k' a)) :
    Alike Q (panicOnError r >>= k) (panicOnError r >>= k') := by
  cases r with
  | error e => exact Alike.raise e
  | ok a => exact h a rfl

theorem alike_orReturn {m : Prog GoError W (Result α)} {m' : Prog GoError V (Result α)}
    {onError : GoError → GoError} {k : α → Prog GoError W (Result β)}
    {k' : α → Prog GoError V (Result β)} (hm : Alike Q m m') (hk : ∀ a, Alike Q (k a) (k' a)) :
    Alike Q (orReturn m onError k) (orReturn m' onError k') := by
  refine Alike.bind hm fun r => ?_
  cases r with
  | error e => exact Alike.pure _
  | ok a => exact hk a

end Fallible

/-- The rest of a request, with the body that it goes on with if it was not answered. -/
theorem alike_handleBodySizeLimits {α : Type} {R : σ → τ → Prop} {request : Request}
    {maxBodySizeLimit : ℕ} {k : Option Request → Prog GoError (Env σ) α}
    {k' : Option Request → Prog GoError (Env τ) α} (hnone : Alike (SameBut R) (k none) (k' none))
    (hsome : ∀ request', request.limited maxBodySizeLimit = some request' →
      Alike (SameBut R) (k (some request')) (k' (some request'))) :
    Alike (SameBut R) (handleBodySizeLimits request maxBodySizeLimit >>= k)
      (handleBodySizeLimits request maxBodySizeLimit >>= k') := by
  cases hlimited : request.limited maxBodySizeLimit with
  | some request' =>
    intro w v hR
    rw [run_bind_returned (run_handleBodySizeLimits hlimited w),
      run_bind_returned (run_handleBodySizeLimits hlimited v)]
    exact hsome request' hlimited w v hR
  | none =>
    have hanswer : ∀ {m : Prog GoError (Env σ) Unit} {m' : Prog GoError (Env τ) Unit},
        Alike (SameBut R) m m' → Alike (SameBut R) (m >>= fun _ => k none)
          (m' >>= fun _ => k' none) := fun hm => Alike.bind hm fun _ => hnone
    unfold Request.limited at hlimited
    unfold handleBodySizeLimits
    split at hlimited
    · cases hlimited
    · rename_i hlimit
      split at hlimited
      · rename_i hover
        rw [if_neg hlimit, if_neg hlimit]
        by_cases hmissing : request.contentLength = -1
        · rw [if_pos hmissing, if_pos hmissing]
          exact hanswer (alike_badRequest _ _)
        · rw [if_neg hmissing, if_neg hmissing, if_pos (hover.resolve_left hmissing),
            if_pos (hover.resolve_left hmissing)]
          exact hanswer (alike_writeHeader 413)
      · cases hlimited

/-! ## Stashes -/

/-- Two stashes that answer alike under `keys`, from related states. -/
structure AlikeStashes (R : σ → τ → Prop) (keys : Set Bytes) (stash : NoRedirectBlobstore σ)
    (stash' : NoRedirectBlobstore τ) : Prop where
  existsBlob : ∀ key ∈ keys, Alike R (stash.existsBlob key) (stash'.existsBlob key)
  get : ∀ key ∈ keys, Alike R (stash.get key) (stash'.get key)
  put : ∀ key ∈ keys, ∀ src, Alike R (stash.put key src) (stash'.put key src)

section Bundle
variable {R : σ → τ → Prop} {keys : Set Bytes} {stash : NoRedirectBlobstore σ}
  {stash' : NoRedirectBlobstore τ} {digests : Digests} (h : AlikeStashes R keys stash stash')
  (hkeys : ∀ content, digests.key content ∈ keys)
include h hkeys

theorem alike_stashAttempt (minimumSize maximumSize : ℕ) (content : Bytes)
    (tempFile : Option ℕ) :
    Alike (SameBut R) (stashAttempt digests minimumSize maximumSize stash content tempFile)
      (stashAttempt digests minimumSize maximumSize stash' content tempFile) := by
  cases tempFile with
  | none => exact Alike.raise _
  | some name =>
    rw [stashAttempt_some, stashAttempt_some]
    refine Alike.bind (alike_onHost _) fun r => ?_
    cases r with
    | error e => exact Alike.pure _
    | ok src =>
      simp only
      split
      · exact Alike.bind (alike_onExt (h.put _ (hkeys content) src)) fun _ => Alike.pure _
      · exact Alike.pure _

theorem alike_stashEntry (minimumSize maximumSize : ℕ) (content : Bytes) (tempFile : ℕ)
    (z : ZipWriter) :
    Alike (SameBut R) (stashEntry digests minimumSize maximumSize stash content tempFile z)
      (stashEntry digests minimumSize maximumSize stash' content tempFile z) := by
  refine Alike.bind (alike_onHost _) fun budget => Alike.bind (alike_retryNotify
    (alike_stashAttempt h hkeys minimumSize maximumSize content) budget _) fun r => ?_
  obtain ⟨r, tempFile⟩ := r
  cases r with
  | some e => exact Alike.pure _
  | none =>
    cases tempFile with
    | none => exact Alike.raise _
    | some name => exact Alike.bind (alike_onHost _) fun _ => Alike.pure _

theorem alike_bundleUploaded (minimumSize maximumSize : ℕ) (entries : List ZipEntry)
    (z : ZipWriter) :
    Alike (SameBut R) (bundleUploaded digests minimumSize maximumSize stash entries z)
      (bundleUploaded digests minimumSize maximumSize stash' entries z) := by
  induction entries generalizing z with
  | nil => exact Alike.pure _
  | cons entry entries ih =>
    unfold bundleUploaded
    split
    · refine alike_orReturn (alike_orReturn (alike_onHost _) fun z =>
        alike_orReturn (alike_onHost _) fun _ => alike_orReturn (alike_onHost _) fun tempFile =>
        alike_removingTemp <| alike_orReturn (alike_onHost _) fun z =>
        alike_orReturn (alike_onHost _) fun _ => alike_orReturn (alike_onHost _) fun _ => ?_) ih
      exact alike_stashEntry h hkeys minimumSize maximumSize entry.content tempFile z
    · exact ih z

omit hkeys in
theorem alike_payloadAttempt {entry : Fingerprint} (hentry : entry.sha1 ∈ keys) (z : ZipWriter) :
    Alike (SameBut R) (payloadAttempt stash entry z) (payloadAttempt stash' entry z) := by
  refine Alike.bind (alike_onExt (h.get _ hentry)) fun r => ?_
  split
  · exact Alike.pure _
  · exact Alike.pure _
  · refine Alike.bind (alike_onHost _) fun r => ?_
    obtain ⟨r, z'⟩ := r
    cases r with
    | error e => exact Alike.pure _
    | ok u => exact Alike.pure _

omit hkeys in
theorem alike_bundlePayload {payload : List Fingerprint}
    (hpayload : ∀ entry ∈ payload, entry.sha1 ∈ keys) (z : ZipWriter) :
    Alike (SameBut R) (bundlePayload stash payload z) (bundlePayload stash' payload z) := by
  induction payload generalizing z with
  | nil => exact Alike.pure _
  | cons entry payload ih =>
    obtain ⟨hentry, hrest⟩ := List.forall_mem_cons.mp hpayload
    refine alike_orReturn (alike_onHost _) fun z => Alike.bind (alike_onHost _) fun budget =>
      Alike.bind (alike_retryNotify (alike_payloadAttempt h hentry) budget z) fun r => ?_
    obtain ⟨r, z'⟩ := r
    cases r with
    | some e => exact Alike.pure _
    | none => exact ih hrest z'

theorem alike_createTempZipFileFrom (format : ZipFormat) (minimumSize maximumSize : ℕ)
    {payload : List Fingerprint} (hpayload : ∀ entry ∈ payload, entry.sha1 ∈ keys)
    (zipReader : Option (List ZipEntry)) :
    Alike (SameBut R)
      (createTempZipFileFrom digests format minimumSize maximumSize stash payload zipReader)
      (createTempZipFileFrom digests format minimumSize maximumSize stash' payload zipReader) := by
  refine alike_orReturn (alike_onHost _) fun tempZipFile => Alike.bind ?_ fun r => ?_
  · exact alike_orReturn (alike_bundleUploaded h hkeys minimumSize maximumSize _ _) fun z =>
      alike_orReturn (alike_bundlePayload h hpayload z) fun z =>
      Alike.bind (alike_onHost _) fun content =>
      Alike.bind (alike_onHost _) fun _ => Alike.pure _
  · cases r with
    | error e => exact Alike.bind (alike_onHost _) fun _ => Alike.pure _
    | ok u => exact Alike.pure _

end Bundle

/-! ## The handlers -/

/-- The texts that a handler may take for fingerprints or for the source of a copy. -/
inductive Request.Sends (request : Request) : Bytes → Prop
  | body {maxBodySizeLimit : ℕ} {request' : Request} {content : Bytes}
      (hlimited : request.limited maxBodySizeLimit = some request')
      (hread : request'.body.readAll = .ok content) : request.Sends content
  | file {content : Bytes} (hfile : request.formFile (ascii "resources") = .ok (some content)) :
      request.Sends content
  | value : request.Sends (request.formValue (ascii "resources"))

/-- The fingerprints in `content`, if there are any, are for `keys`. -/
def NamesOnly (formats : Formats) (keys : Set Bytes) (content : Bytes) : Prop :=
  ∀ fingerprints, formats.json.unmarshal content = some fingerprints →
    ∀ entry ∈ fingerprints, entry.sha1 ∈ keys

section Handlers
variable {R : σ → τ → Prop} {keys : Set Bytes} {formats : Formats}
  {handler : AppStashHandler σ} {handler' : AppStashHandler τ}

/-- The same handler over two stashes. -/
structure AlikeAppStashes (R : σ → τ → Prop) (keys : Set Bytes) (handler : AppStashHandler σ)
    (handler' : AppStashHandler τ) : Prop where
  blobstore : AlikeStashes R keys handler.blobstore handler'.blobstore
  maxBodySizeLimit : handler.maxBodySizeLimit = handler'.maxBodySizeLimit
  minimumSize : handler.minimumSize = handler'.minimumSize
  maximumSize : handler.maximumSize = handler'.maximumSize

variable (h : AlikeAppStashes R keys handler handler')
include h

theorem alike_matchedFingerprints {fingerprints : List Fingerprint}
    (hfingerprints : ∀ entry ∈ fingerprints, entry.sha1 ∈ keys) :
    Alike (SameBut R) (matchedFingerprints handler fingerprints)
      (matchedFingerprints handler' fingerprints) := by
  induction fingerprints with
  | nil => exact Alike.pure _
  | cons entry fingerprints ih =>
    obtain ⟨hentry, hrest⟩ := List.forall_mem_cons.mp hfingerprints
    unfold matchedFingerprints
    rw [h.minimumSize, h.maximumSize]
    split
    · exact ih hrest
    · exact Alike.bind (alike_onExt (h.blobstore.existsBlob _ hentry)) fun r =>
        Alike.bind (alike_panicOnError r) fun _ => Alike.bind (ih hrest) fun _ => Alike.pure _

theorem alike_postMatches {request : Request}
    (hrequest : ∀ content, request.Sends content → NamesOnly formats keys content) :
    Alike (SameBut R) (postMatches formats handler request)
      (postMatches formats handler' request) := by
  unfold postMatches
  rw [h.maxBodySizeLimit]
  refine alike_handleBodySizeLimits (Alike.pure _) fun request' hlimited =>
    alike_panicOnError_bind fun body hread => ?_
  have hnames := hrequest body (.body hlimited hread)
  cases hjson : formats.json.unmarshal body with
  | none => exact alike_writeHeader_write _ _
  | some fingerprints =>
    cases fingerprints with
    | nil => exact alike_writeHeader_write _ _
    | cons entry fingerprints =>
      exact Alike.bind (alike_matchedFingerprints h (hnames _ hjson)) fun _ => alike_write _

theorem alike_copyTo (hkeys : ∀ content, formats.digests.key content ∈ keys)
    (zipFileEntry : ZipEntry) :
    Alike (SameBut R) (copyTo formats.digests handler.blobstore zipFileEntry)
      (copyTo formats.digests handler'.blobstore zipFileEntry) := by
  refine alike_orReturn (alike_onHost _) fun _ => alike_orReturn (alike_onHost _) fun name =>
    alike_removingTemp ?_
  intro w v hR
  -- the key is that of the entry
  rcases hrun : (onHost (copyCalculatingSha formats.digests name zipFileEntry.content) :
      Prog GoError (Env σ) (Result Bytes)).run w with ⟨r | e, w₁⟩
  · obtain ⟨v₁, hrun', hR₁⟩ := (alike_onHost _).of_run hR hrun
    cases r with
    | error e =>
      rw [run_orReturn_error hrun, run_orReturn_error hrun']
      exact ⟨rfl, hR₁⟩
    | ok sha =>
      obtain ⟨rfl, -⟩ := copyCalculatingSha_eq_ok (run_onHost_eq_returned hrun).1
      rw [run_orReturn_ok hrun, run_orReturn_ok hrun']
      refine alike_orReturn (alike_onHost _) (fun src => ?_) w₁ v₁ hR₁
      refine Alike.bind (alike_onExt (h.blobstore.put _ (hkeys _) src)) fun r => ?_
      split
      · exact Alike.pure _
      · exact Alike.pure _
      · exact Alike.pure _
  · obtain ⟨v₁, hrun', hR₁⟩ := (alike_onHost _).of_run hR hrun
    rw [orReturn, orReturn, run_bind_panicked hrun, run_bind_panicked hrun']
    exact ⟨rfl, hR₁⟩

theorem alike_copyEntries (hkeys : ∀ content, formats.digests.key content ∈ keys)
    (entries : List ZipEntry) :
    Alike (SameBut R) (copyEntries formats handler entries)
      (copyEntries formats handler' entries) := by
  induction entries with
  | nil => exact Alike.pure _
  | cons zipFileEntry entries ih =>
    unfold copyEntries
    split
    · refine Alike.bind (alike_copyTo h hkeys zipFileEntry) fun r => ?_
      split
      · exact Alike.bind alike_insufficientStorage fun _ => Alike.pure _
      · exact Alike.raise _
      · exact Alike.bind ih fun _ => Alike.pure _
    · exact ih

theorem alike_postEntries (hkeys : ∀ content, formats.digests.key content ∈ keys)
    (request : Request) :
    Alike (SameBut R) (postEntries formats handler request)
      (postEntries formats handler' request) := by
  unfold postEntries
  rw [h.maxBodySizeLimit]
  refine alike_handleBodySizeLimits (Alike.pure _) fun request' _ => ?_
  simp only
  split
  · exact alike_badRequest _ _
  · exact alike_badRequest _ _
  · refine Alike.bind (alike_onHost _) fun r => Alike.bind (alike_panicOnError r) fun name =>
      alike_removingTemp <| Alike.bind (alike_onHost _) fun r =>
      Alike.bind (alike_panicOnError r) fun _ => Alike.bind (alike_onHost _) fun opened => ?_
    split
    · exact alike_badRequest _ _
    · refine Alike.bind (alike_copyEntries h hkeys _) fun fingerprints => ?_
      cases fingerprints with
      | none => exact Alike.pure _
      | some fingerprints => exact alike_writeHeader_write _ _

theorem alike_bundleAndSend (hkeys : ∀ content, formats.digests.key content ∈ keys)
    {body : Bytes} (hbody : NamesOnly formats keys body) (zipReader : Option (List ZipEntry)) :
    Alike (SameBut R) (bundleAndSend formats handler body zipReader)
      (bundleAndSend formats handler' body zipReader) := by
  unfold bundleAndSend
  rw [h.minimumSize, h.maximumSize]
  cases hjson : formats.json.unmarshal body with
  | none => exact alike_writeHeader_write _ _
  | some payload =>
    simp only
    split
    · exact alike_writeHeader_write _ _
    · refine Alike.bind (alike_createTempZipFileFrom h.blobstore hkeys _ _ _ (hbody _ hjson)
        zipReader) fun r => ?_
      split
      · exact alike_writeHeader_write _ _
      · exact Alike.raise _
      · exact alike_removingTemp <| Alike.bind (alike_onHost _) fun opened =>
          Alike.bind (alike_panicOnError opened) fun content => Alike.bind (alike_onHost _) fun r =>
          Alike.bind (alike_panicOnError r) fun _ => alike_write _

theorem alike_postBundles (hkeys : ∀ content, formats.digests.key content ∈ keys)
    {request : Request}
    (hrequest : ∀ content, request.Sends content → NamesOnly formats keys content) :
    Alike (SameBut R) (postBundles formats handler request)
      (postBundles formats handler' request) := by
  unfold postBundles
  rw [h.maxBodySizeLimit]
  refine alike_handleBodySizeLimits (Alike.pure _) fun request' hlimited => ?_
  simp only
  split
  · refine alike_panicOnError_bind fun resources hresources => ?_
    cases resources with
    | none => exact alike_badRequest _ _
    | some resources =>
      have hfile : request.formFile (ascii "resources") = .ok (some resources) := by
        rw [eq_of_limited hlimited] at hresources
        exact hresources
      refine Alike.bind (alike_panicOnError _) fun zipFile => ?_
      cases zipFile with
      | none => exact alike_badRequest _ _
      | some zipFile =>
        simp only
        split
        · exact Alike.raise _
        · exact alike_bundleAndSend h hkeys (hrequest _ (.file hfile)) _
  · exact alike_panicOnError_bind fun body hread =>
      alike_bundleAndSend h hkeys (hrequest _ (.body hlimited hread)) none

end Handlers

end BitsService
