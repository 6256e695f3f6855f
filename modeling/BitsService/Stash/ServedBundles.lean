import BitsService.Stash.BundleTemps
import BitsService.Stash.Matching

/-! # Bundles of what a stash serves

A host without faults, and a stash that always answers a read in the same way: a request for a
bundle is answered with the contents that it serves, or not with a bundle at all. -/
namespace BitsService
open GoLib.Effect GoLib.Retry
set_option autoImplicit false

/-! ## A host without faults stays as it is -/

namespace Host.Faultless
variable {h : Host} (hh : h.Faultless)
include hh

theorem keptByCalls : KeptByCalls (fun h' => h' = h) := by
  rintro c - h' rfl
  rw [hh.run_osCall]

theorem run_copyFrom (es : List ZipEntry) (header : FileHeader) (content : Bytes) (b : Body) :
    ∃ r, ((ZipWriter.opened es header content).copyFrom b).run h =
        (.returned (r, .opened es header (content ++ ZipWriter.taken header b.delivered)), h) ∧
      (r = .ok () ↔ b.failure = none ∧ (isDirName header.name = true → b.delivered = [])) := by
  obtain ⟨r, h', hrun, -, -, hr⟩ := ZipWriter.run_copyFrom es header content hh.takesZips b
  have hsame : h' = h :=
    (hh.keptByCalls.copyChunks b.failure b.chunks (.opened es header content)).of_run hrun rfl
  rw [hsame] at hrun
  exact ⟨r, hrun, hr⟩

theorem run_close (es : List ZipEntry) (format : ZipFormat) :
    (ZipWriter.close format ⟨es, none⟩).run h = (.returned (format.encode es), h) := by
  simp only [ZipWriter.close]
  exact run_bind_returned (hh.run_osCall .zipClose)

end Host.Faultless

/-! ## What is served -/

section Serving
variable {σ : Type} (blobstore : NoRedirectBlobstore σ) (I : σ → Prop) (view : Bytes → Result Body)

/-- In the states `I`, reading `key` gives `r`. -/
def Reads (key : Bytes) (r : Result Body) : Prop :=
  ∀ s, I s → ∃ s', (blobstore.get key).run s = (.returned r, s') ∧ I s'

/-- What is read under the key of a fingerprint can be the content of its entry. -/
def Served (f : Fingerprint) : Prop :=
  match view f.sha1 with
  | .error _ => False
  | .ok b => b.failure = none ∧ (isDirName f.fn = true → b.delivered = [])

def servedContent (f : Fingerprint) : Bytes :=
  match view f.sha1 with
  | .error _ => []
  | .ok b => b.delivered

def servedEntry (f : Fingerprint) : ZipEntry := ⟨payloadHeader f, servedContent view f⟩

def Steady (w : Env σ) : Prop := w.host.Faultless ∧ I w.ext

variable {blobstore I view} {f : Fingerprint} {w : Env σ}

theorem Steady.run_onExt_get (hw : Steady I w) {key : Bytes} {r : Result Body}
    (hread : Reads blobstore I key r) :
    ∃ w', (onExt (blobstore.get key)).run w = (.returned r, w') ∧ Steady I w' ∧
      w'.host = w.host := by
  obtain ⟨s, hrun, hs⟩ := hread w.ext hw.2
  refine ⟨{ w with ext := s }, ?_, ⟨hw.1, hs⟩, rfl⟩
  rw [run_onExt, hrun]

theorem run_payloadAttempt_of_reads (hread : Reads blobstore I f.sha1 (view f.sha1))
    (hw : Steady I w) (es : List ZipEntry) (content : Bytes) :
    ∃ r content' w', (payloadAttempt blobstore f (.opened es (payloadHeader f) content)).run w =
        (.returned (r, .opened es (payloadHeader f) content'), w') ∧ Steady I w' ∧
      (r = none ↔ Served view f) ∧
      (Served view f → content' = content ++ servedContent view f) := by
  obtain ⟨w₁, hget, hw₁, hhost⟩ := hw.run_onExt_get hread
  unfold payloadAttempt Served servedContent
  rw [run_bind_returned hget]
  cases hview : view f.sha1 with
  | error e =>
    cases e with
    | notFound t k => exact ⟨some _, content, w₁, rfl, hw₁, by simp, False.elim⟩
    | _ => exact ⟨some _, content, w₁, rfl, hw₁, by simp, False.elim⟩
  | ok b =>
    obtain ⟨r, hcopy, hr⟩ := hw₁.1.run_copyFrom es (payloadHeader f) content b
    simp only
    rw [run_bind_returned (run_onHost_of hcopy)]
    have hfits : (b.failure = none ∧ (isDirName f.fn = true → b.delivered = [])) →
        content ++ ZipWriter.taken (payloadHeader f) b.delivered = content ++ b.delivered :=
      fun h => by rw [ZipWriter.taken_of_fits (payloadHeader f) h.2]
    cases r with
    | error e =>
      have hnot : ¬ (b.failure = none ∧ (isDirName f.fn = true → b.delivered = [])) :=
        fun h => absurd (hr.mpr h) (by simp)
      exact ⟨some _, _, w₁, rfl, hw₁, ⟨by simp, fun h => absurd h hnot⟩, hfits⟩
    | ok u => exact ⟨none, _, w₁, rfl, hw₁, ⟨fun _ => hr.mp rfl, fun _ => rfl⟩, hfits⟩

theorem run_retryPayload_of_reads (hread : Reads blobstore I f.sha1 (view f.sha1))
    (hw : Steady I w) (es : List ZipEntry) (budget : ℕ) :
    ∃ r z w', (retryNotify (payloadAttempt blobstore f) budget
        (.opened es (payloadHeader f) [])).run w = (.returned (r, z), w') ∧ Steady I w' ∧
      (r = none ↔ Served view f) ∧
      (Served view f → z = .opened es (payloadHeader f) (servedContent view f)) := by
  -- a served fingerprint is written by the first attempt, onto an entry that is still empty
  let Inv : ZipWriter → Env σ → Prop := fun z w => Steady I w ∧
    ∃ content, z = .opened es (payloadHeader f) content ∧ (Served view f → content = [])
  let R : Option GoError × ZipWriter → Env σ → Prop := fun r w => Steady I w ∧
    (r.1 = none ↔ Served view f) ∧
    (Served view f → r.2 = .opened es (payloadHeader f) (servedContent view f))
  have hwp : wp (retryNotify (payloadAttempt blobstore f) budget (.opened es (payloadHeader f) []))
      R (fun _ => False) w := by
    refine wp_retryNotify Inv R (fun z w hInv => ?_) budget ⟨hw, [], rfl, fun _ => rfl⟩
    obtain ⟨hw, content, rfl, hcontent⟩ := hInv
    obtain ⟨r, content', w', hrun, hw', hr, hcontent'⟩ :=
      run_payloadAttempt_of_reads hread hw es content
    refine wp_of_returned hrun ⟨⟨hw', by rw [← hr]; simp, fun hserved => ?_⟩, fun e he => ?_⟩
    · rw [hcontent' hserved, hcontent hserved, List.nil_append]
    · refine ⟨hw', content', rfl, fun hserved => ?_⟩
      rw [hr.mpr hserved] at he
      cases he
  obtain ⟨⟨r, z⟩, w', hrun, hw', hr, hz⟩ := hwp.exists_returned
  exact ⟨r, z, w', hrun, hw', hr, hz⟩

/-! ## A bundle of fingerprints -/

theorem run_bundlePayload_of_reads {payload : List Fingerprint}
    (hreads : ∀ f ∈ payload, Reads blobstore I f.sha1 (view f.sha1)) (hw : Steady I w)
    (es : List ZipEntry) :
    ∃ r w', (bundlePayload blobstore payload ⟨es, none⟩).run w = (.returned r, w') ∧
      Steady I w' ∧ (r.isOk = true ↔ ∀ f ∈ payload, FitsZip f.fn ∧ Served view f) ∧
      ∀ z, r = .ok z → z = ⟨es ++ payload.map (servedEntry view), none⟩ := by
  induction payload generalizing es w with
  | nil => exact ⟨_, w, rfl, hw, by simp, by simp⟩
  | cons f payload ih =>
    let w₁ : Env σ := { w with host := { w.host with budgets := w.host.budgets.tail } }
    have hw₁ : Steady I w₁ := hw
    obtain ⟨r, z, w₂, hretry, hw₂, hr, hz⟩ := run_retryPayload_of_reads
      (hreads f List.mem_cons_self) hw₁ es (w.host.budgets.headD 0)
    unfold bundlePayload
    by_cases hfits : FitsZip f.fn
    swap
    · rw [run_orReturn_error (run_onHost_of (hw.1.run_createHeader_long es hfits _))]
      refine ⟨_, w, rfl, hw, ⟨by simp, fun h => ?_⟩, fun z h => absurd h (by simp)⟩
      exact absurd (h f List.mem_cons_self).1 hfits
    rw [run_orReturn_ok (run_onHost_of (hw.1.run_createHeader es hfits _)),
      run_bind_returned (run_onHost_of (m := takeBudget) rfl)]
    refine (run_bind_returned hretry).symm ▸ ?_
    cases r with
    | some e =>
      have hnot : ¬ Served view f := fun h => absurd (hr.mpr h) (by simp)
      refine ⟨.error e, w₂, rfl, hw₂, ⟨by simp, fun h => ?_⟩, fun z h => absurd h (by simp)⟩
      exact absurd (h f List.mem_cons_self).2 hnot
    | none =>
      have hserved : Served view f := hr.mp rfl
      rw [hz hserved]
      obtain ⟨r, w₃, hrun, hw₃, hr, hz⟩ := ih
        (fun f hf => hreads f (List.mem_cons_of_mem _ hf)) hw₂
        (es ++ [⟨payloadHeader f, servedContent view f⟩])
      refine ⟨r, w₃, hrun, hw₃, ?_, fun z h => ?_⟩
      · rw [hr, List.forall_mem_cons]
        exact ⟨fun h => ⟨⟨hfits, hserved⟩, h⟩, fun h => h.2⟩
      · rw [hz z h, List.append_assoc]
        rfl

theorem run_createTempZipFileFrom_of_reads (digests : Digests) (format : ZipFormat)
    (minimumSize maximumSize : ℕ) {payload : List Fingerprint}
    (hreads : ∀ f ∈ payload, Reads blobstore I f.sha1 (view f.sha1)) (hw : Steady I w) :
    ∃ r w', (createTempZipFileFrom digests format minimumSize maximumSize blobstore payload
        none).run w = (.returned r, w') ∧ Steady I w' ∧
      (r.isOk = true ↔ ∀ f ∈ payload, FitsZip f.fn ∧ Served view f) ∧
      ∀ name, r = .ok name →
        w'.host.temps name = some (format.encode (payload.map (servedEntry view))) := by
  let w₁ : Env σ := { w with host := { w.host with
    temps := Function.update w.host.temps w.host.next (some []), next := w.host.next + 1 } }
  have hw₁ : Steady I w₁ := hw
  obtain ⟨r, w₂, hbundle, hw₂, hr, hz⟩ := run_bundlePayload_of_reads hreads hw₁ []
  have huploaded : (bundleUploaded digests minimumSize maximumSize blobstore [] .new).run w₁ =
      (.returned (.ok ⟨[], none⟩), w₁) := rfl
  unfold createTempZipFileFrom
  rw [run_orReturn_ok (run_onHost_of (hw.1.run_createTemp (by decide)))]
  cases r with
  | error e =>
    have hwrite : (writeBundle digests format minimumSize maximumSize blobstore payload none
        w.host.next).run w₁ = (.returned (.error e), w₂) :=
      (run_orReturn_ok huploaded).trans (run_orReturn_error hbundle)
    rw [run_bind_returned hwrite]
    exact ⟨.error e, { w₂ with host := w₂.host.removeTemp w.host.next }, rfl, hw₂, hr,
      fun name h => absurd h (by simp)⟩
  | ok z =>
    let zip := format.encode (payload.map (servedEntry view))
    let w₃ : Env σ := { w₂ with host := { w₂.host with
      temps := Function.update w₂.host.temps w.host.next (some zip) } }
    have hwrite : (writeBundle digests format minimumSize maximumSize blobstore payload none
        w.host.next).run w₁ = (.returned (.ok ()), w₃) := by
      refine (run_orReturn_ok huploaded).trans ((run_orReturn_ok hbundle).trans ?_)
      rw [hz z rfl]
      exact run_bind_returned (run_onHost_of (hw₂.1.run_close _ format))
    rw [run_bind_returned hwrite]
    refine ⟨.ok w.host.next, w₃, rfl, hw₂, hr, fun name h => ?_⟩
    cases h
    exact Function.update_self _ _ _

/-! ## The request for a bundle -/

/-- The answer to a request from `w` is a file, with status 200. -/
def SendsFile (m : Prog GoError (Env σ) Unit) (w : Env σ) (file : Bytes) : Prop :=
  ∃ w', m.run { w with response := .empty } = (.returned (), w') ∧
    w'.response = ⟨some 200, [], [.raw file]⟩

variable {formats : Formats} {handler : AppStashHandler σ} {text : Bytes}
  {payload : List Fingerprint}

theorem run_postBundles_json
    (hlimit : handler.maxBodySizeLimit = 0 ∨ text.length ≤ handler.maxBodySizeLimit) (w : Env σ) :
    (postBundles formats handler (jsonRequest text)).run w =
      (bundleAndSend formats handler text none).run w := by
  have htype :
      ¬ ascii "multipart/form-data" <:+: (jsonRequest text).header (ascii "Content-Type") := by
    show ¬ ascii "multipart/form-data" <:+: []
    decide
  unfold postBundles
  rw [run_bind_returned (run_handleBodySizeLimits_json handler.maxBodySizeLimit hlimit w)]
  simp only [if_neg htype]
  exact run_bind_returned (run_readAll_json text w)

theorem run_sendBundle_of_temp {name : ℕ} {file : Bytes} (hw : w.host.Faultless)
    (htemp : w.host.temps name = some file) :
    (sendBundle name).run w = (.returned (), { w with
      host := w.host.removeTemp name
      response := { w.response with status := w.response.status.or (some 200)
                                    body := w.response.body ++ [.raw file] } }) := by
  let w₁ : Env σ := { w with
    response := { w.response with status := w.response.status.or (some 200)
                                  body := w.response.body ++ [.raw file] } }
  have hsend : ((do
      let opened ← onHost (openTemp name)
      let content ← panicOnError opened
      let r ← onHost (osCall .readTemp)
      let _ ← panicOnError r
      write (.raw content)) : Prog GoError (Env σ) Unit).run w = (.returned (), w₁) := by
    rw [run_bind_returned (run_onHost_of (hw.run_openTemp htemp)),
      run_bind_returned (run_panicOnError_ok file w),
      run_bind_returned (run_onHost_of (hw.run_osCall .readTemp)),
      run_bind_returned (run_panicOnError_ok () w)]
    rfl
  exact run_removingTemp hsend

variable (handler) in
/-- **A bundle of what is served**: it is sent if and only if no key is missing, an archive can hold
every name and everything is served to its end, and has one entry for each fingerprint. -/
theorem sendsFile_postBundles_iff
    (hlimit : handler.maxBodySizeLimit = 0 ∨ text.length ≤ handler.maxBodySizeLimit)
    (hjson : formats.json.unmarshal text = some payload)
    (hreads : ∀ f ∈ payload, Reads handler.blobstore I f.sha1 (view f.sha1)) (hw : Steady I w)
    (file : Bytes) :
    SendsFile (postBundles formats handler (jsonRequest text)) w file ↔
      anyKeyMissingIn payload = none ∧ (∀ f ∈ payload, FitsZip f.fn ∧ Served view f) ∧
        file = formats.zip.encode (payload.map (servedEntry view)) := by
  unfold SendsFile
  rw [run_postBundles_json hlimit]
  cases hkeys : anyKeyMissingIn payload with
  | some key =>
    refine ⟨?_, fun h => (absurd h.1 (by simp))⟩
    rintro ⟨w', hrun, hw'⟩
    unfold bundleAndSend at hrun
    simp only [hjson, hkeys] at hrun
    cases hrun
    cases hw'
  | none =>
    rw [bundleAndSend_eq formats handler hjson hkeys none]
    let w₀ : Env σ := { w with response := .empty }
    have hw₀ : Steady I w₀ := hw
    obtain ⟨r, w₁, hcreate, hw₁, hr, htemp⟩ :=
      run_createTempZipFileFrom_of_reads formats.digests formats.zip handler.minimumSize
        handler.maximumSize hreads hw₀
    have hresponse : w₁.response = .empty :=
      (keeps_createTempZipFileFrom (I := fun w : Env σ => w.response = .empty) (fun _ _ h => h)
        (fun _ _ h => h) (fun _ _ h => h) formats.zip handler.minimumSize handler.maximumSize
        payload none).of_run hcreate rfl
    rw [run_bind_returned hcreate]
    cases r with
    | error e =>
      have hnot : ¬ ∀ f ∈ payload, FitsZip f.fn ∧ Served view f :=
        fun h => absurd (hr.mpr h) (by simp)
      refine ⟨?_, fun h => absurd h.2.1 hnot⟩
      rintro ⟨w', hrun, hw'⟩
      unfold answerBundle at hrun
      cases e with
      | notFound t k =>
        cases hrun
        have hstatus := congrArg Response.status hw'
        simp [hresponse, Response.empty] at hstatus
      | _ => cases hrun
    | ok name =>
      have hserved : ∀ f ∈ payload, FitsZip f.fn ∧ Served view f := hr.mp rfl
      have hsend := run_sendBundle_of_temp hw₁.1 (htemp name rfl)
      rw [hresponse] at hsend
      constructor
      · rintro ⟨w', hrun, hw'⟩
        rw [answerBundle, hsend] at hrun
        cases hrun
        cases hw'
        exact ⟨rfl, hserved, rfl⟩
      · rintro ⟨-, -, rfl⟩
        exact ⟨_, hsend, rfl⟩

end Serving
end BitsService
