import BitsService.Blobstores.BlobMaps
import BitsService.Server.Endings
import BitsService.Stash.Receipts

/-! # The app stash over a map

What its handlers make of a request, said of the blobs alone: no temp files, no retries, and nothing
that fails but what the request itself is the reason for. -/
namespace BitsService
open GoLib.Effect GoLib.Retry
set_option autoImplicit false

variable {σ : Type}

/-! ## Bundles -/

/-- Contents are stored, each under its own key. -/
def Shelf.stash (shelf : Shelf σ) (digests : Digests) (contents : List Bytes) (s : σ) : σ :=
  contents.foldl (fun s content => shelf.store (digests.key content) (some content) s) s

/-- The contents of the regular entries. -/
def regularContents (entries : List ZipEntry) : List Bytes :=
  (entries.filter fun e => isRegular e.header.mode).map ZipEntry.content

/-- The entries for fingerprints, or the first key that is missing; there is no key when an entry
is refused, for its name or for a content that is a directory's. -/
def entriesFor (blob : Bytes → Option Bytes) :
    List Fingerprint → Except (Option Bytes) (List ZipEntry)
  | [] => .ok []
  | f :: payload =>
    if FitsZip f.fn then
      match blob f.sha1 with
      | none => .error (some f.sha1)
      | some content =>
        if isDirName f.fn = true ∧ content ≠ [] then .error none
        else (entriesFor blob payload).map (⟨payloadHeader f, content⟩ :: ·)
    else .error none

section Bundle
variable (digests : Digests) (format : ZipFormat) (minimumSize maximumSize : ℕ) (shelf : Shelf σ)

/-- The uploaded contents that are stashed. -/
def stashedContents (entries : List ZipEntry) : List Bytes :=
  (regularContents entries).filter fun content =>
    decide (InRange minimumSize maximumSize content.length)

def bundle (payload : List Fingerprint) (zipReader : Option (List ZipEntry)) (s : σ) :
    Except (Option Bytes) Bytes × σ :=
  let s := shelf.stash digests (stashedContents minimumSize maximumSize (zipReader.getD [])) s
  ((entriesFor (shelf.blob s) payload).map fun entries =>
    format.encode ((regularEntries zipReader).map uploadedEntry ++ entries), s)

end Bundle

section Runs
variable (digests : Digests) (format : ZipFormat) (minimumSize maximumSize : ℕ) (shelf : Shelf σ)

/-- What is left when an uploaded content has been dealt with. -/
def Shelf.stashInRange (content : Bytes) (s : σ) : σ :=
  if InRange minimumSize maximumSize content.length then
    shelf.store (digests.key content) (some content) s else s

theorem stash_stashedContents_cons (entry : ZipEntry) (entries : List ZipEntry) (s : σ) :
    shelf.stash digests (stashedContents minimumSize maximumSize (entry :: entries)) s =
      shelf.stash digests (stashedContents minimumSize maximumSize entries)
        (if isRegular entry.header.mode = true then
          shelf.stashInRange digests minimumSize maximumSize entry.content s else s) := by
  unfold stashedContents regularContents Shelf.stashInRange
  by_cases hr : isRegular entry.header.mode = true
  · by_cases hsize : InRange minimumSize maximumSize entry.content.length
    · simp [hr, hsize, Shelf.stash]
    · simp [hr, hsize]
  · simp [hr]

variable {w : Env σ}

/-- A content in range is stashed by the first attempt. -/
theorem run_stashAttempt_shelved (hh : w.host.Faultless) {content : Bytes} {name : ℕ}
    (hc : w.host.temps name = some content) :
    ∃ w', (stashAttempt digests minimumSize maximumSize
        shelf.toBlobstore.toNoRedirectBlobstore content (some name)).run w =
        (.returned (none, some name), w') ∧
      Reaches w (shelf.stashInRange digests minimumSize maximumSize content w.ext) w' := by
  unfold Shelf.stashInRange
  rw [stashAttempt_some, run_bind_returned (run_onHost_of (hh.run_openTemp hc))]
  simp only
  by_cases hsize : minimumSize ≤ content.length ∧ content.length ≤ maximumSize
  · rw [if_pos hsize, if_pos (show InRange _ _ _ from hsize)]
    exact ⟨_, rfl, hh, rfl, rfl⟩
  · rw [if_neg hsize, if_neg (show ¬ InRange _ _ _ from hsize)]
    exact ⟨w, rfl, hh, rfl, rfl⟩

theorem run_stashEntry_shelved (hh : w.host.Faultless) {content : Bytes} {name : ℕ}
    (hc : w.host.temps name = some content) (z : ZipWriter) :
    ∃ w', (stashEntry digests minimumSize maximumSize
        shelf.toBlobstore.toNoRedirectBlobstore content name z).run w = (.returned (.ok z), w') ∧
      Reaches w (shelf.stashInRange digests minimumSize maximumSize content w.ext) w' := by
  let w₁ : Env σ := { w with host := { w.host with budgets := w.host.budgets.tail } }
  have hh₁ : w₁.host.Faultless := hh
  obtain ⟨w₂, hrun, hw₂⟩ :=
    run_stashAttempt_shelved digests minimumSize maximumSize shelf hh₁ hc
  unfold stashEntry
  rw [run_bind_returned (run_onHost_of (m := takeBudget) rfl),
    run_bind_returned (run_retryNotify_done _ hrun)]
  exact ⟨_, rfl, hw₂.faultless, hw₂.ext, hw₂.response⟩

theorem run_bundleUploadedEntry_shelved (hh : w.host.Faultless) {entry : ZipEntry}
    (hr : isRegular entry.header.mode = true) (hfits : FitsZip entry.header.name)
    (es : List ZipEntry) :
    ∃ w', (bundleUploadedEntry digests minimumSize maximumSize
        shelf.toBlobstore.toNoRedirectBlobstore entry ⟨es, none⟩).run w =
        (.returned (.ok ⟨es ++ [uploadedEntry entry], none⟩), w') ∧
      Reaches w (shelf.stashInRange digests minimumSize maximumSize entry.content w.ext) w' := by
  let header := ZipWriter.completeHeader (zipEntryHeader entry.header.name entry.header.mode)
  have hd : isDirName entry.header.name = false := isDirName_of_isRegular hr
  let w₁ : Env σ := { w with host := { w.host with
    temps := Function.update w.host.temps w.host.next (some []), next := w.host.next + 1 } }
  let w₂ : Env σ := { w₁ with host := { w₁.host with
    temps := Function.update w₁.host.temps w.host.next (some entry.content) } }
  have hh₁ : w₁.host.Faultless := hh
  have hh₂ : w₂.host.Faultless := hh
  obtain ⟨w₃, hstash, hw₃⟩ := run_stashEntry_shelved digests minimumSize maximumSize shelf hh₂
    (Function.update_self _ _ _) (ZipWriter.opened es header entry.content)
  refine ⟨{ w₃ with host := w₃.host.removeTemp w.host.next }, ?_, hw₃.faultless, hw₃.ext,
    hw₃.response⟩
  unfold bundleUploadedEntry
  rw [run_orReturn_ok (run_onHost_of (hh.run_createHeader es hfits _)),
    run_orReturn_ok (run_onHost_of (hh.run_osCall .openEntry)),
    run_orReturn_ok (run_onHost_of (hh.run_createTemp (by decide)))]
  refine run_removingTemp ?_
  refine (run_orReturn_ok (run_onHost_of (hh₁.run_copyEntry es header hd
    entry.content w.host.next))).trans ?_
  refine (run_orReturn_ok (run_onHost_of (hh₂.run_osCall .closeTemp))).trans ?_
  exact (run_orReturn_ok (run_onHost_of (hh₂.run_osCall .closeEntry))).trans hstash

theorem run_bundleUploaded_shelved (hh : w.host.Faultless) {entries : List ZipEntry}
    (hfits : ∀ e ∈ entries, FitsZip e.header.name) (es : List ZipEntry) :
    ∃ w', (bundleUploaded digests minimumSize maximumSize
        shelf.toBlobstore.toNoRedirectBlobstore entries ⟨es, none⟩).run w =
        (.returned (.ok ⟨es ++ (regularEntries (some entries)).map uploadedEntry, none⟩), w') ∧
      Reaches w (shelf.stash digests (stashedContents minimumSize maximumSize entries) w.ext)
        w' := by
  induction entries generalizing es w with
  | nil => exact ⟨w, by simp [bundleUploaded, regularEntries], hh, rfl, rfl⟩
  | cons entry entries ih =>
    obtain ⟨hname, hnames⟩ := List.forall_mem_cons.mp hfits
    unfold bundleUploaded
    rw [stash_stashedContents_cons]
    by_cases hr : isRegular entry.header.mode = true
    · obtain ⟨w₁, hentry, hw₁⟩ :=
        run_bundleUploadedEntry_shelved digests minimumSize maximumSize shelf hh hr hname es
      obtain ⟨w₂, hrest, hw₂⟩ := ih hw₁.faultless hnames (es ++ [uploadedEntry entry])
      rw [if_pos hr, if_pos hr, run_orReturn_ok hentry, hrest, ← hw₁.ext,
        regularEntries_cons_of_regular entries hr]
      exact ⟨w₂, by simp, hw₁.trans hw₂⟩
    · obtain ⟨w₁, hrest, hw₁⟩ := ih hh hnames es
      rw [if_neg hr, if_neg hr, hrest, regularEntries_cons_of_not_regular entries hr]
      exact ⟨w₁, rfl, hw₁⟩

/-! ## The payload -/

section Payload
variable {f : Fingerprint}

theorem run_payloadAttempt_missing (hmissing : shelf.blob w.ext f.sha1 = none) (z : ZipWriter) :
    (payloadAttempt shelf.toBlobstore.toNoRedirectBlobstore f z).run w =
      (.returned (some (.permanent (.newNotFoundErrorWithKey f.sha1)), z), w) := by
  have hget : (onExt (shelf.toBlobstore.get f.sha1)).run w =
      (.returned (.error .newNotFoundError), w) := by
    rw [run_onExt, Shelf.run_get, hmissing]
    rfl
  unfold payloadAttempt
  rw [run_bind_returned hget]
  rfl

variable {content : Bytes} (hstored : shelf.blob w.ext f.sha1 = some content)
  (hh : w.host.Faultless) (es : List ZipEntry)
include hstored hh

theorem run_payloadAttempt_stored (htaken : ¬ (isDirName f.fn = true ∧ content ≠ [])) :
    (payloadAttempt shelf.toBlobstore.toNoRedirectBlobstore f
        (.opened es (payloadHeader f) [])).run w =
      (.returned (none, .opened es (payloadHeader f) content), w) := by
  have hget : (onExt (shelf.toBlobstore.get f.sha1)).run w =
      (.returned (.ok (.whole content)), w) := by
    rw [run_onExt, Shelf.run_get, hstored]
    rfl
  have hdir : isDirName f.fn = true → content = [] := fun hd => by
    by_contra hne
    exact htaken ⟨hd, hne⟩
  obtain ⟨r, hcopy, hr⟩ := hh.run_copyFrom es (payloadHeader f) [] (.whole content)
  rw [Body.delivered_whole] at hcopy hr
  obtain rfl := hr.mpr ⟨rfl, hdir⟩
  rw [ZipWriter.taken_of_fits (payloadHeader f) hdir, List.nil_append] at hcopy
  unfold payloadAttempt
  rw [run_bind_returned hget]
  simp only
  rw [run_bind_returned (run_onHost_of hcopy)]
  rfl

/-- The content of a directory is refused by every attempt. -/
theorem run_payloadAttempt_refused (hd : isDirName f.fn = true) (hne : content ≠ []) :
    ∃ message cause, (payloadAttempt shelf.toBlobstore.toNoRedirectBlobstore f
        (.opened es (payloadHeader f) [])).run w =
      (.returned (some (.transient (.wrapped message cause)), .opened es (payloadHeader f) []),
        w) := by
  have hget : (onExt (shelf.toBlobstore.get f.sha1)).run w =
      (.returned (.ok (.whole content)), w) := by
    rw [run_onExt, Shelf.run_get, hstored]
    rfl
  obtain ⟨r, hcopy, hr⟩ := hh.run_copyFrom es (payloadHeader f) [] (.whole content)
  rw [Body.delivered_whole] at hcopy hr
  have htaken : ZipWriter.taken (payloadHeader f) content = [] := if_pos hd
  rw [htaken, List.append_nil] at hcopy
  unfold payloadAttempt
  rw [run_bind_returned hget]
  simp only
  rw [run_bind_returned (run_onHost_of hcopy)]
  cases r with
  | ok u => exact absurd ((hr.mp rfl).2 hd) hne
  | error e => exact ⟨_, _, rfl⟩

end Payload

/-- How the error of a bundle tells what was wrong. -/
inductive Explains : Option Bytes → GoError → Prop
  | missing (key : Bytes) : Explains (some key) (.newNotFoundErrorWithKey key)
  | refused (message : Bytes) (cause : GoError) : Explains none (.wrapped message cause)

theorem run_bundlePayload_shelved (hh : w.host.Faultless) (payload : List Fingerprint)
    (es : List ZipEntry) :
    ∃ r w', (bundlePayload shelf.toBlobstore.toNoRedirectBlobstore payload ⟨es, none⟩).run w =
        (.returned r, w') ∧ Reaches w w.ext w' ∧
      match entriesFor (shelf.blob w.ext) payload with
      | .ok entries => r = .ok ⟨es ++ entries, none⟩
      | .error reason => ∃ e, r = .error e ∧ Explains reason e := by
  induction payload generalizing es w with
  | nil => exact ⟨_, w, rfl, ⟨hh, rfl, rfl⟩, by simp [entriesFor]⟩
  | cons f payload ih =>
    let w₁ : Env σ := { w with host := { w.host with budgets := w.host.budgets.tail } }
    have hh₁ : w₁.host.Faultless := hh
    have hw₁ : Reaches w w.ext w₁ := ⟨hh, rfl, rfl⟩
    unfold bundlePayload
    rw [entriesFor]
    by_cases hname : FitsZip f.fn
    swap
    · rw [if_neg hname]
      have hlong := run_onHost_of (hh.run_createHeader_long es hname (fileModeFrom f.mode))
      exact ⟨_, w, run_orReturn_error hlong, ⟨hh, rfl, rfl⟩, _, rfl, .refused _ _⟩
    rw [run_orReturn_ok (run_onHost_of (hh.run_createHeader es hname _)),
      run_bind_returned (run_onHost_of (m := takeBudget) rfl), if_pos hname]
    cases hstored : shelf.blob w.ext f.sha1 with
    | none =>
      have hmissing : shelf.blob w₁.ext f.sha1 = none := hstored
      have hattempt := run_payloadAttempt_missing shelf hmissing (.opened es (payloadHeader f) [])
      have hretry : (retryNotify (payloadAttempt shelf.toBlobstore.toNoRedirectBlobstore f)
          (w.host.budgets.headD 0) (.opened es (payloadHeader f) [])).run w₁ = _ :=
        run_retryNotify_permanent hattempt
      exact ⟨_, w₁, run_bind_returned hretry, hw₁, _, rfl, .missing _⟩
    | some content =>
      have hstored₁ : shelf.blob w₁.ext f.sha1 = some content := hstored
      by_cases hrefused : isDirName f.fn = true ∧ content ≠ []
      · obtain ⟨message, cause, hattempt⟩ := run_payloadAttempt_refused shelf hstored₁
          hh₁ es hrefused.1 hrefused.2
        have hretry := run_retryNotify_stuck (w.host.budgets.headD 0) hattempt
        simp only [if_pos hrefused]
        exact ⟨_, w₁, run_bind_returned hretry, hw₁, _, rfl, .refused _ _⟩
      · have hretry := run_retryNotify_done (w.host.budgets.headD 0)
          (run_payloadAttempt_stored shelf hstored₁ hh₁ es hrefused)
        simp only [if_neg hrefused]
        obtain ⟨r, w₂, hrest, hw₂, hr⟩ := ih hh₁ (es ++ [⟨payloadHeader f, content⟩])
        refine ⟨r, w₂, (run_bind_returned hretry).trans hrest, hw₁.trans hw₂, ?_⟩
        cases hentries : entriesFor (shelf.blob w.ext) payload with
        | error reason =>
          rw [show shelf.blob w₁.ext = shelf.blob w.ext from rfl, hentries] at hr
          exact hr
        | ok entries =>
          rw [show shelf.blob w₁.ext = shelf.blob w.ext from rfl, hentries] at hr
          rw [hr, List.append_assoc]
          rfl

/-- **A bundle over a map**: the temp file has the archive, or the error says why there is none. -/
theorem run_createTempZipFileFrom_shelved (hh : w.host.Faultless) (payload : List Fingerprint)
    {zipReader : Option (List ZipEntry)} (hfits : ∀ e ∈ zipReader.getD [], FitsZip e.header.name) :
    ∃ r w', (createTempZipFileFrom digests format minimumSize maximumSize
        shelf.toBlobstore.toNoRedirectBlobstore payload zipReader).run w = (.returned r, w') ∧
      Reaches w (bundle digests format minimumSize maximumSize shelf payload zipReader w.ext).2
        w' ∧
      match (bundle digests format minimumSize maximumSize shelf payload zipReader w.ext).1 with
      | .ok file => ∃ name, r = .ok name ∧ w'.host.temps name = some file
      | .error reason => ∃ e, r = .error e ∧ Explains reason e := by
  let w₁ : Env σ := { w with host := { w.host with
    temps := Function.update w.host.temps w.host.next (some []), next := w.host.next + 1 } }
  have hh₁ : w₁.host.Faultless := hh
  obtain ⟨w₂, huploaded, hw₂⟩ := run_bundleUploaded_shelved digests minimumSize maximumSize shelf
    hh₁ hfits []
  obtain ⟨r, w₃, hbundled, hw₃, hr⟩ := run_bundlePayload_shelved shelf hw₂.faultless payload
    ([] ++ (regularEntries (some (zipReader.getD []))).map uploadedEntry)
  have hreaches : Reaches w (bundle digests format minimumSize maximumSize shelf payload
      zipReader w.ext).2 w₃ :=
    ⟨hw₃.faultless, hw₃.ext.trans hw₂.ext, hw₃.response.trans hw₂.response⟩
  unfold createTempZipFileFrom
  rw [run_orReturn_ok (run_onHost_of (hh.run_createTemp (by decide))), bundle]
  rw [show w₂.ext = _ from hw₂.ext] at hr
  simp only
  cases hentries : entriesFor (shelf.blob (shelf.stash digests
      (stashedContents minimumSize maximumSize (zipReader.getD [])) w.ext)) payload with
  | error reason =>
    rw [show w₁.ext = w.ext from rfl, hentries] at hr
    obtain ⟨e, rfl, hexplains⟩ := hr
    have hwrite : (writeBundle digests format minimumSize maximumSize
        shelf.toBlobstore.toNoRedirectBlobstore payload zipReader w.host.next).run w₁ =
        (.returned (.error e), w₃) :=
      (run_orReturn_ok huploaded).trans (run_orReturn_error hbundled)
    rw [run_bind_returned hwrite]
    exact ⟨.error e, { w₃ with host := w₃.host.removeTemp w.host.next }, rfl,
      ⟨hreaches.faultless, hreaches.ext, hreaches.response⟩, e, rfl, hexplains⟩
  | ok entries =>
    rw [show w₁.ext = w.ext from rfl, hentries] at hr
    subst hr
    let file := format.encode ((regularEntries zipReader).map uploadedEntry ++ entries)
    let w₄ : Env σ := { w₃ with host := { w₃.host with
      temps := Function.update w₃.host.temps w.host.next (some file) } }
    have hwrite : (writeBundle digests format minimumSize maximumSize
        shelf.toBlobstore.toNoRedirectBlobstore payload zipReader w.host.next).run w₁ =
        (.returned (.ok ()), w₄) := by
      refine (run_orReturn_ok huploaded).trans ((run_orReturn_ok hbundled).trans ?_)
      exact run_bind_returned (run_onHost_of (hw₃.faultless.run_close _ format))
    rw [run_bind_returned hwrite]
    exact ⟨.ok w.host.next, w₄, rfl, ⟨hreaches.faultless, hreaches.ext, hreaches.response⟩,
      w.host.next, rfl, Function.update_self _ _ _⟩

end Runs

/-! ## The handlers -/

/-- The regular entries before the first that no temp file can be named after. -/
def copiedEntries (entries : List ZipEntry) : List ZipEntry :=
  (regularEntries (some entries)).takeWhile fun e => NamesTemp (filepathBase e.header.name)

/-- An app stash handler whose blobs are on a shelf. -/
structure ShelvedStash (σ : Type) where
  shelf : Shelf σ
  maxBodySizeLimit : ℕ
  minimumSize : ℕ
  maximumSize : ℕ

namespace ShelvedStash
variable (formats : Formats) (stash : ShelvedStash σ)

def handler : AppStashHandler σ :=
  ⟨stash.shelf.toBlobstore.toNoRedirectBlobstore, stash.maxBodySizeLimit, stash.minimumSize,
    stash.maximumSize⟩

def matchesResponse (body : Bytes) (s : σ) : Response :=
  match formats.json.unmarshal body with
  | none => ⟨some 422, [], [.raw (ascii "Invalid body " ++ body)]⟩
  | some [] => ⟨some 422, [], [.description none
      (ascii "The request is semantically invalid: must be a non-empty array.") []]⟩
  | some fingerprints => ⟨some 200, [], [.raw (formats.json.marshal (fingerprints.filter
      (isMatch stash.minimumSize stash.maximumSize (stash.shelf.blob s))))]⟩

def postMatchesEnding (request : Request) (s : σ) : Ending σ :=
  withinLimits request stash.maxBodySizeLimit (fun request =>
    orPanic request.body.readAll (fun body => (some (stash.matchesResponse formats body s), s)) s) s

/-- What becomes of an uploaded archive: an entry that no temp file can be named after makes the
handler panic, when those before it have been copied. -/
def uploadEnding (file : Bytes) (s : σ) : Ending σ :=
  match formats.zip.decode file with
  | .error _ => (some (badRequestResponse (ascii "Bad Request: Not a valid zip file") []), s)
  | .ok entries =>
    (if EntriesNameTemps entries then some ⟨some 201, [], [.raw (receiptOf formats entries)]⟩
      else none,
      stash.shelf.stash formats.digests ((copiedEntries entries).map ZipEntry.content) s)

def postEntriesEnding (request : Request) (s : σ) : Ending σ :=
  withinLimits request stash.maxBodySizeLimit (fun request =>
    match request.formFile (ascii "application") with
    | .ok (some file) => stash.uploadEnding formats file s
    | _ => (some (badRequestResponse
        (ascii "Could not retrieve 'application' form parameter") []), s)) s

def bundleEnding (body : Bytes) (zipReader : Option (List ZipEntry)) (s : σ) : Ending σ :=
  match formats.json.unmarshal body with
  | none => (some ⟨some 422, [], [.description none (ascii "Invalid body %s") [body]]⟩, s)
  | some payload =>
    match anyKeyMissingIn payload with
    | some key => (some ⟨some 422, [], [.description none
        (ascii "The request is semantically invalid: key `%v` missing or empty") [key]]⟩, s)
    | none =>
      match bundle formats.digests formats.zip stash.minimumSize stash.maximumSize stash.shelf
        payload zipReader s with
      | (.ok file, s) => (some ⟨some 200, [], [.raw file]⟩, s)
      | (.error (some key), s) =>
        (some ⟨some 404, [], [.description none (ascii "%v not found") [key]]⟩, s)
      | (.error none, s) => (none, s)

def postBundlesEnding (request : Request) (s : σ) : Ending σ :=
  withinLimits request stash.maxBodySizeLimit (fun request =>
    if ascii "multipart/form-data" <:+: request.header (ascii "Content-Type") then
      orPanic (request.formFile (ascii "resources")) (fun
        | none => (some (badRequestResponse
            (ascii "Could not retrieve form parameter 'resources") []), s)
        | some resources =>
          orPanic (request.formFile (ascii "application")) (fun
            | none => (some (badRequestResponse
                (ascii "Could not retrieve form parameter 'application") []), s)
            | some zipFile =>
              match formats.zip.decode zipFile with
              | .error _ => (none, s)
              | .ok zipReader => stash.bundleEnding formats resources (some zipReader) s) s) s
    else
      orPanic request.body.readAll (fun body => stash.bundleEnding formats body none s) s) s

variable {stash} {w : Env σ}

theorem run_matchedFingerprints_shelved (w : Env σ) (fingerprints : List Fingerprint) :
    (matchedFingerprints stash.handler fingerprints).run w =
      (.returned (fingerprints.filter
        (isMatch stash.minimumSize stash.maximumSize (stash.shelf.blob w.ext))), w) := by
  have hfinds : ∀ key, (onExt (stash.handler.blobstore.existsBlob key)).run w =
      (.returned (.ok (stash.shelf.blob w.ext key).isSome), w) := by
    intro key
    rw [run_onExt]
    exact congrArg (fun r => (r.1, { w with ext := r.2 })) (stash.shelf.run_existsBlob key w.ext)
  induction fingerprints with
  | nil => rfl
  | cons f fingerprints ih =>
    have hskip : (f.size < stash.handler.minimumSize ∨ stash.handler.maximumSize < f.size) ↔
        ¬ InRange stash.minimumSize stash.maximumSize f.size := by
      simp only [InRange, handler]
      omega
    unfold matchedFingerprints
    by_cases hsize : InRange stash.minimumSize stash.maximumSize f.size
    · rw [if_neg fun h => hskip.mp h hsize, run_bind_returned (hfinds f.sha1),
        run_bind_returned (run_panicOnError_ok _ w), run_bind_returned ih]
      by_cases hfound : (stash.shelf.blob w.ext f.sha1).isSome = true <;>
        simp [isMatch, hsize, hfound]
    · rw [if_pos (hskip.mpr hsize), ih]
      simp [isMatch, hsize]

theorem ends_postMatches (hw : Idle w) (request : Request) :
    Ends (postMatches formats stash.handler request) w
      (stash.postMatchesEnding formats request w.ext) := by
  refine Ends.withinLimits hw rfl fun request => ?_
  refine Ends.panicOnError hw fun body => ?_
  unfold matchesResponse
  cases formats.json.unmarshal body with
  | none => exact hw.ends_writeHeader_write 422 _
  | some fingerprints =>
    cases fingerprints with
    | nil => exact hw.ends_writeHeader_write 422 _
    | cons f fingerprints =>
      exact Ends.after (run_matchedFingerprints_shelved w (f :: fingerprints))
        (hw.ends_write _)

theorem run_copyTo_shelved (hh : w.host.Faultless) {entry : ZipEntry}
    (hname : NamesTemp (filepathBase entry.header.name)) :
    ∃ w', (copyTo formats.digests stash.handler.blobstore entry).run w =
        (.returned (.ok (formats.digests.key entry.content)), w') ∧
      Reaches w (stash.shelf.store (formats.digests.key entry.content) (some entry.content) w.ext)
        w' := by
  let w₁ : Env σ := { w with host := { w.host with
    temps := Function.update w.host.temps w.host.next (some []), next := w.host.next + 1 } }
  let w₂ : Env σ := { w₁ with host := { w₁.host with
    temps := Function.update w₁.host.temps w.host.next (some entry.content) } }
  let w₃ : Env σ := { w₂ with
    ext := stash.shelf.store (formats.digests.key entry.content) (some entry.content) w.ext }
  have hh₁ : w₁.host.Faultless := hh
  have hh₂ : w₂.host.Faultless := hh
  have hput : (onExt (stash.handler.blobstore.put (formats.digests.key entry.content)
      entry.content)).run w₂ = (.returned (.ok ()), w₃) := rfl
  refine ⟨{ w₃ with host := w₃.host.removeTemp w.host.next }, ?_, hh, rfl, rfl⟩
  unfold copyTo
  rw [run_orReturn_ok (run_onHost_of (hh.run_osCall .openEntry)),
    run_orReturn_ok (run_onHost_of (hh.run_createTemp hname))]
  refine run_removingTemp ?_
  refine (run_orReturn_ok (run_onHost_of (hh₁.run_copyCalculatingSha formats.digests w.host.next
    entry.content))).trans ?_
  refine (run_orReturn_ok (run_onHost_of (hh₂.run_openTemp (Function.update_self _ _ _)))).trans ?_
  exact run_bind_returned hput

/-- How a run of `copyEntries` ends. -/
def CopiesEntries (formats : Formats) (entries : List ZipEntry) :
    Outcome GoError (Option (List Fingerprint)) → Prop
  | .returned r => EntriesNameTemps entries ∧
      r = some ((regularEntries (some entries)).map (ZipEntry.fingerprint formats.digests))
  | .panicked _ => ¬ EntriesNameTemps entries

theorem run_copyEntries_shelved (hh : w.host.Faultless) (entries : List ZipEntry) :
    ∃ o w', (copyEntries formats stash.handler entries).run w = (o, w') ∧
      Reaches w (stash.shelf.stash formats.digests ((copiedEntries entries).map ZipEntry.content)
        w.ext) w' ∧ CopiesEntries formats entries o := by
  induction entries generalizing w with
  | nil => exact ⟨_, w, rfl, ⟨hh, rfl, rfl⟩, by decide, rfl⟩
  | cons entry entries ih =>
    unfold copyEntries
    by_cases hr : isRegular entry.header.mode = true
    · have hcons := regularEntries_cons_of_regular entries hr
      rw [if_pos hr, copiedEntries, hcons]
      by_cases hname : NamesTemp (filepathBase entry.header.name)
      · obtain ⟨w₁, hcopy, hw₁⟩ := run_copyTo_shelved formats hh hname
        obtain ⟨o, w₂, hrest, hw₂, ho⟩ := ih hw₁.faultless
        rw [run_bind_returned hcopy, List.takeWhile_cons_of_pos (by simpa using hname)]
        rw [hw₁.ext] at hw₂
        have hnames : EntriesNameTemps (entry :: entries) ↔ EntriesNameTemps entries := by
          rw [EntriesNameTemps, hcons, List.forall_mem_cons]
          exact and_iff_right hname
        cases o with
        | panicked e =>
          exact ⟨.panicked e, w₂, run_bind_panicked hrest, ⟨hw₂.faultless, hw₂.ext,
            hw₂.response.trans hw₁.response⟩, fun h => ho (hnames.mp h)⟩
        | returned r =>
          obtain ⟨htemps, rfl⟩ := ho
          refine ⟨_, w₂, run_bind_returned hrest, ⟨hw₂.faultless, hw₂.ext,
            hw₂.response.trans hw₁.response⟩, hnames.mpr htemps, ?_⟩
          rw [hcons]
          rfl
      · obtain ⟨e, hcopy⟩ := run_copyTo_of_not_names formats stash.handler hname hh
        rw [run_bind_returned hcopy, List.takeWhile_cons_of_neg (by simpa using hname)]
        refine ⟨_, w, rfl, ⟨hh, rfl, rfl⟩, fun h => hname ?_⟩
        rw [EntriesNameTemps, hcons] at h
        exact h entry List.mem_cons_self
    · have hskip := regularEntries_cons_of_not_regular entries hr
      rw [if_neg hr, copiedEntries, hskip]
      obtain ⟨o, w₁, hrest, hw₁, ho⟩ := ih hh
      refine ⟨o, w₁, hrest, hw₁, ?_⟩
      unfold CopiesEntries EntriesNameTemps at ho ⊢
      rw [hskip]
      exact ho

/-- The upload once its archive is in a temp file. -/
theorem ends_postUploadedEntries (hw : Idle w) {name : ℕ} {file : Bytes}
    (htemp : w.host.temps name = some file) :
    Ends (postUploadedEntries formats stash.handler name) w
      (stash.uploadEnding formats file w.ext) := by
  refine Ends.after (run_onHost_of (hw.faultless.run_openTemp htemp)) ?_
  unfold uploadEnding
  simp only [Except.toOption, Option.bind_some]
  cases formats.zip.decode file with
  | error text => exact hw.ends_badRequest _ _
  | ok entries =>
    obtain ⟨o, w₁, hcopy, hw₁, ho⟩ :=
      @run_copyEntries_shelved σ formats stash w hw.faultless entries
    have hidle := hw₁.idle hw
    simp only [← hw₁.ext]
    cases o with
    | panicked e =>
      simp only [if_neg (show ¬ EntriesNameTemps entries from ho)]
      exact Ends.of_panicked (run_bind_panicked hcopy) hidle
    | returned r =>
      obtain ⟨hnames, rfl⟩ := ho
      simp only [if_pos hnames]
      exact Ends.after hcopy (hidle.ends_writeHeader_write 201 _)

theorem ends_postEntries (hw : Idle w) (request : Request) :
    Ends (postEntries formats stash.handler request) w
      (stash.postEntriesEnding formats request w.ext) := by
  refine Ends.withinLimits hw rfl fun request => ?_
  cases hform : request.formFile (ascii "application") with
  | error e =>
    simp only [hform]
    exact hw.ends_badRequest _ _
  | ok uploadedFile =>
    cases uploadedFile with
    | none =>
      simp only [hform]
      exact hw.ends_badRequest _ _
    | some file =>
      simp only [hform]
      let w₁ : Env σ := { w with host := { w.host with
        temps := Function.update w.host.temps w.host.next (some []), next := w.host.next + 1 } }
      let w₂ : Env σ := { w₁ with host := { w₁.host with
        temps := Function.update w₁.host.temps w.host.next (some file) } }
      have hh₁ : w₁.host.Faultless := hw.faultless
      have hw₂ : Idle w₂ := ⟨hw.faultless, hw.unanswered⟩
      refine Ends.after (run_onHost_of (hw.faultless.run_createTemp (by decide))) ?_
      refine Ends.after (run_panicOnError_ok _ w₁) (Ends.removingTemp ?_)
      refine Ends.after (run_onHost_of (hh₁.run_writeTemp w.host.next file)) ?_
      refine Ends.after (run_panicOnError_ok () w₂) ?_
      exact ends_postUploadedEntries formats hw₂ (Function.update_self _ _ _)

/-- An archive that has been written is sent. -/
theorem ends_sendBundle (hw : Idle w) {name : ℕ} {file : Bytes}
    (htemp : w.host.temps name = some file) :
    Ends (sendBundle name) w (some ⟨some 200, [], [.raw file]⟩, w.ext) := by
  have hsend := Ends.of_returned (run_sendBundle_of_temp hw.faultless htemp) hw.faultless
  rw [hw.unanswered] at hsend
  exact hsend

theorem ends_bundleAndSend (hw : Idle w) (body : Bytes) {zipReader : Option (List ZipEntry)}
    (hfits : ∀ e ∈ zipReader.getD [], FitsZip e.header.name) :
    Ends (bundleAndSend formats stash.handler body zipReader) w
      (stash.bundleEnding formats body zipReader w.ext) := by
  unfold bundleEnding
  cases hjson : formats.json.unmarshal body with
  | none =>
    unfold bundleAndSend
    simp only [hjson]
    exact hw.ends_writeHeader_write 422 _
  | some payload =>
    cases hkeys : anyKeyMissingIn payload with
    | some key =>
      unfold bundleAndSend
      simp only [hjson, hkeys]
      exact hw.ends_writeHeader_write 422 _
    | none =>
      rw [bundleAndSend_eq formats stash.handler hjson hkeys]
      obtain ⟨r, w₁, hrun, hw₁, hr⟩ := run_createTempZipFileFrom_shelved formats.digests formats.zip
        stash.minimumSize stash.maximumSize stash.shelf hw.faultless payload hfits
      refine Ends.after hrun ?_
      have hidle := hw₁.idle hw
      simp only [hkeys]
      rcases hbundle : bundle formats.digests formats.zip stash.minimumSize stash.maximumSize
        stash.shelf payload zipReader w.ext with ⟨made, s⟩
      rw [hbundle] at hr hw₁
      obtain rfl : w₁.ext = s := hw₁.ext
      cases made with
      | ok file =>
        obtain ⟨name, rfl, htemp⟩ := hr
        exact ends_sendBundle hidle htemp
      | error reason =>
        obtain ⟨e, rfl, hexplains⟩ := hr
        cases hexplains with
        | missing key => exact hidle.ends_writeHeader_write 404 _
        | refused message cause => exact Ends.raise hidle _

theorem ends_postBundles (hw : Idle w) (request : Request) :
    Ends (postBundles formats stash.handler request) w
      (stash.postBundlesEnding formats request w.ext) := by
  refine Ends.withinLimits hw rfl fun request => ?_
  by_cases htype : ascii "multipart/form-data" <:+: request.header (ascii "Content-Type")
  · simp only [if_pos htype]
    refine Ends.panicOnError hw fun resources => ?_
    cases resources with
    | none => exact hw.ends_badRequest _ _
    | some resources =>
      refine Ends.panicOnError hw fun zipFile => ?_
      cases zipFile with
      | none => exact hw.ends_badRequest _ _
      | some zipFile =>
        cases hzip : formats.zip.decode zipFile with
        | error text =>
          simp only [hzip]
          exact Ends.raise hw _
        | ok zipReader =>
          simp only [hzip]
          exact ends_bundleAndSend formats hw resources (formats.zip.fits_of_decode hzip)
  · simp only [if_neg htype]
    exact Ends.panicOnError hw fun body =>
      ends_bundleAndSend formats hw body (List.forall_mem_nil _)

end ShelvedStash
end BitsService
