import BitsService.Stash.Bundle

/-! # What bundling does to the app stash

Bundling reads blobs, and puts contents under their own keys. An invariant of the stash that these
two keep is kept by the whole function, whatever fails on the way; and so is one of the host, up to
the closing of the archive, that every call to it keeps. -/
namespace BitsService
open GoLib.Effect GoLib.Retry
set_option autoImplicit false

/-! ## What bundling keeps of the host -/

namespace KeptByCalls
variable {σ : Type} {digests : Digests} {blobstore : NoRedirectBlobstore σ} {J : Host → Prop}
  {minimumSize maximumSize : ℕ} (hJ : KeptByCalls J)
include hJ

theorem onHost_osCall {c : OsCall} (hc : c ≠ .zipClose) :
    Keeps (OfHost J) (onHost (BitsService.osCall c) : Prog GoError (Env σ) (Result Unit)) :=
  keeps_onHost_ofHost (hJ c hc)

theorem stashAttempt (content : Bytes) (tempFile : Option ℕ) : Keeps (OfHost J)
    (stashAttempt digests minimumSize maximumSize blobstore content tempFile) := by
  cases tempFile with
  | none => exact Keeps.raise _ _
  | some name =>
    rw [stashAttempt_some]
    refine Keeps.bind (keeps_onHost_ofHost (hJ.openTemp name)) fun r => ?_
    cases r with
    | error e => exact Keeps.pure _ _
    | ok src =>
      simp only
      split
      · exact Keeps.bind (keeps_onExt_ofHost _ _) fun r => Keeps.pure _ _
      · exact Keeps.pure _ _

theorem retryStash (content : Bytes) (budget : ℕ) (tempFile : Option ℕ) : Keeps (OfHost J)
    (retryNotify (BitsService.stashAttempt digests minimumSize maximumSize blobstore content) budget
      tempFile) :=
  keeps_retryNotify (fun t (_ : True) => hJ.stashAttempt content t) (fun _ _ _ _ _ _ => trivial)
    budget trivial

theorem payloadAttempt (entry : Fingerprint) (z : ZipWriter) :
    Keeps (OfHost J) (payloadAttempt blobstore entry z) := by
  refine Keeps.bind (keeps_onExt_ofHost _ _) fun r => ?_
  split
  · exact Keeps.pure _ _
  · exact Keeps.pure _ _
  · refine Keeps.bind (keeps_onHost_ofHost (hJ.copyChunks _ _ z)) fun r => ?_
    obtain ⟨r, z'⟩ := r
    cases r with
    | error e => exact Keeps.pure _ _
    | ok u => exact Keeps.pure _ _

theorem retryPayload (entry : Fingerprint) (budget : ℕ) (z : ZipWriter) :
    Keeps (OfHost J) (retryNotify (BitsService.payloadAttempt blobstore entry) budget z) :=
  keeps_retryNotify (fun t (_ : True) => hJ.payloadAttempt entry t) (fun _ _ _ _ _ _ => trivial)
    budget trivial

variable (hbudget : Keeps J takeBudget)

include hbudget in
theorem bundlePayload (payload : List Fingerprint) (z : ZipWriter) :
    Keeps (OfHost J) (bundlePayload blobstore payload z) := by
  induction payload generalizing z with
  | nil => exact Keeps.pure _ _
  | cons entry payload ih =>
    refine keeps_orReturn (keeps_onHost_ofHost (hJ.createHeader z _)) fun z =>
      Keeps.bind (keeps_onHost_ofHost hbudget) fun budget =>
        Keeps.bind (hJ.retryPayload entry budget z) fun r => ?_
    obtain ⟨r, z'⟩ := r
    cases r with
    | some e => exact Keeps.pure _ _
    | none => exact ih z'

variable (htemps : IgnoresTemps J)
include htemps

theorem copyEntry (content : Bytes) (name : ℕ) (z : ZipWriter) :
    Keeps J (copyEntry content name z) := by
  refine keeps_orReturn (hJ _ (by decide)) fun _ => Keeps.bind (hJ.write z content) fun r => ?_
  obtain ⟨r, z'⟩ := r
  cases r with
  | error e => exact Keeps.pure _ _
  | ok u => exact keeps_orReturn (hJ.writeTemp htemps name content) fun _ => Keeps.pure _ _

include hbudget

theorem stashEntry (content : Bytes) (tempFile : ℕ) (z : ZipWriter) : Keeps (OfHost J)
    (stashEntry digests minimumSize maximumSize blobstore content tempFile z) := by
  refine Keeps.bind (keeps_onHost_ofHost hbudget) fun budget =>
    Keeps.bind (hJ.retryStash content budget _) fun r => ?_
  obtain ⟨r, t⟩ := r
  cases r with
  | some e => exact Keeps.pure _ _
  | none =>
    cases t with
    | none => exact Keeps.raise _ _
    | some name =>
      exact Keeps.bind (keeps_onHost_ofHost (Keeps.modifyState fun h => htemps h _ _)) fun _ =>
        Keeps.pure _ _

theorem bundleUploadedEntry (entry : ZipEntry) (z : ZipWriter) : Keeps (OfHost J)
    (bundleUploadedEntry digests minimumSize maximumSize blobstore entry z) := by
  refine keeps_orReturn (keeps_onHost_ofHost (hJ.createHeader z _)) fun z =>
    keeps_orReturn (hJ.onHost_osCall (by decide)) fun _ =>
      keeps_orReturn (keeps_onHost_ofHost (hJ.createTemp htemps _)) fun tempFile => ?_
  refine Keeps.ensuring ?_ (fun w => htemps w.host _ _)
  exact keeps_orReturn (keeps_onHost_ofHost (hJ.copyEntry htemps _ tempFile z)) fun z =>
    keeps_orReturn (hJ.onHost_osCall (by decide)) fun _ =>
      keeps_orReturn (hJ.onHost_osCall (by decide)) fun _ =>
        hJ.stashEntry hbudget htemps entry.content tempFile z

theorem bundleUploaded (entries : List ZipEntry) (z : ZipWriter) : Keeps (OfHost J)
    (bundleUploaded digests minimumSize maximumSize blobstore entries z) := by
  induction entries generalizing z with
  | nil => exact Keeps.pure _ _
  | cons entry entries ih =>
    unfold BitsService.bundleUploaded
    split
    · exact keeps_orReturn (hJ.bundleUploadedEntry hbudget htemps entry z) fun z => ih z
    · exact ih z

end KeptByCalls

/-! ## What bundling keeps of the stash -/

section Keeps
variable {σ : Type} {digests : Digests} {blobstore : NoRedirectBlobstore σ} {I : Env σ → Prop}

/-- `I`, and a temp file holds a content. -/
def TempHolds (I : Env σ → Prop) (name : ℕ) (content : Bytes) : Env σ → Prop := fun w =>
  I w ∧ w.host.temps name = some content

theorem copyEntry_eq_ok {content : Bytes} {name : ℕ} {z z' : ZipWriter} {h h' : Host}
    (hrun : (copyEntry content name z).run h = (.returned (.ok z'), h')) :
    h'.temps name = some content := by
  obtain ⟨u, h₁, -, hrest⟩ := run_orReturn_eq_ok hrun
  obtain ⟨⟨r, z₁⟩, h₂, -, hrest⟩ := run_bind_eq_returned hrest
  cases r with
  | error e => cases hrest
  | ok u =>
    obtain ⟨u, h₃, hwrite, hrest⟩ := run_orReturn_eq_ok hrest
    cases hrest
    exact writeTemp_eq_ok hwrite

theorem keeps_stashAttempt (hblind : HostBlind I)
    (hput : ∀ content, Keeps I (onExt (blobstore.put (digests.key content) content)))
    (minimumSize maximumSize : ℕ) (content : Bytes) (name : ℕ) :
    Keeps (TempHolds I name content)
      (stashAttempt digests minimumSize maximumSize blobstore content (some name)) := by
  intro w hw
  obtain ⟨r, h₁, hopen, htemps, hsrc⟩ := run_openTemp name w.host
  have hw₁ : TempHolds I name content { w with host := h₁ } :=
    ⟨hblind w h₁ hw.1, (congrFun htemps name).trans hw.2⟩
  rw [stashAttempt_some, run_bind, run_onHost, hopen]
  cases r with
  | error e => exact hw₁
  | ok src =>
    -- what is offered is what the temp file holds
    have hsrc : src = content := Option.some.inj ((hsrc src rfl).symm.trans hw.2)
    subst hsrc
    have hkeep : Keeps (TempHolds I name src) (onExt (blobstore.put (digests.key src) src)) :=
      fun w hw => ⟨hput src w hw.1, hw.2⟩
    simp only
    split
    · exact Keeps.bind hkeep (fun r => Keeps.pure _ _) _ hw₁
    · exact hw₁

theorem returns_stashAttempt (minimumSize maximumSize : ℕ) (content : Bytes) (name : ℕ) :
    Returns (fun r => r.2 = none ∨ r.2 = some name)
      (stashAttempt digests minimumSize maximumSize blobstore content (some name)) := by
  rw [stashAttempt_some]
  refine Returns.bind (fun r => ?_)
  split
  · exact Returns.pure (.inl rfl)
  · split
    · exact Returns.bind fun r => Returns.pure (.inr rfl)
    · exact Returns.pure (.inr rfl)

theorem leads_stashEntry (hblind : HostBlind I)
    (hput : ∀ content, Keeps I (onExt (blobstore.put (digests.key content) content)))
    (minimumSize maximumSize : ℕ) (content : Bytes) (name : ℕ) (z : ZipWriter) :
    Leads (TempHolds I name content) (I)
      (stashEntry digests minimumSize maximumSize blobstore content name z) := by
  have hkeep : ∀ t : Option ℕ, t = none ∨ t = some name → Keeps (TempHolds I name content)
      (stashAttempt digests minimumSize maximumSize blobstore content t) := by
    rintro t (rfl | rfl)
    · exact Keeps.raise _ _
    · exact keeps_stashAttempt hblind hput minimumSize maximumSize content name
  have hret : ∀ t : Option ℕ, t = none ∨ t = some name →
      Returns (fun r => r.2 = none ∨ r.2 = some name)
        (stashAttempt digests minimumSize maximumSize blobstore content t) := by
    rintro t (rfl | rfl)
    · exact Returns.raise _
    · exact returns_stashAttempt minimumSize maximumSize content name
  have hext : ∀ w : Env σ, TempHolds I name content w → I w := fun _ h => h.1
  refine Leads.bind (Q := TempHolds I name content) (fun w h => ⟨hblind w _ h.1, h.2⟩) hext
    (fun budget => ?_)
  refine Leads.bind (keeps_retryNotify hkeep hret budget (.inr rfl)) hext (fun r => ?_)
  obtain ⟨r, t⟩ := r
  cases r with
  | some e => exact hext
  | none =>
    cases t with
    | none => exact hext
    | some name =>
      exact fun w h => Keeps.bind (hblind.keeps_onHost _) (fun _ => Keeps.pure _ _) w h.1

theorem keeps_bundleUploadedEntry
    (hblind : HostBlind I)
    (hput : ∀ content, Keeps I (onExt (blobstore.put (digests.key content) content)))
    (minimumSize maximumSize : ℕ) (entry : ZipEntry) (z : ZipWriter) :
    Keeps (I) (bundleUploadedEntry digests minimumSize maximumSize blobstore entry z) := by
  refine keeps_orReturn (hblind.keeps_onHost _) (fun z =>
    keeps_orReturn (hblind.keeps_onHost _) (fun _ =>
      keeps_orReturn (hblind.keeps_onHost _) (fun tempFile => hblind.keeps_removingTemp ?_)))
  intro w hw
  have hcopied := hblind.keeps_onHost (copyEntry entry.content tempFile z) w hw
  refine orReturn_leaves (fun e w₁ h => by rw [h] at hcopied; exact hcopied)
    (fun e w₁ h => by rw [h] at hcopied; exact hcopied) (fun z₁ w₁ h => ?_)
  have hw₁ : TempHolds I tempFile entry.content w₁ := by
    rw [run_onHost] at h
    cases hcopy : (copyEntry entry.content tempFile z).run w.host with
    | mk o h₁ =>
      rw [hcopy] at h
      cases h
      exact ⟨hblind w h₁ hw, copyEntry_eq_ok hcopy⟩
  have hext : ∀ w : Env σ, TempHolds I tempFile entry.content w → I w := fun _ h => h.1
  have hcall : ∀ c, Keeps (TempHolds I tempFile entry.content)
      (onHost (osCall c) : Prog GoError (Env σ) (Result Unit)) :=
    fun c w h => ⟨hblind w _ h.1, (congrFun (osCall_temps rfl) _).trans h.2⟩
  exact leads_orReturn (hcall .closeTemp) hext (fun _ => leads_orReturn (hcall .closeEntry) hext
    (fun _ => leads_stashEntry hblind hput minimumSize maximumSize entry.content tempFile z₁)) w₁
    hw₁

theorem keeps_bundleUploaded
    (hblind : HostBlind I)
    (hput : ∀ content, Keeps I (onExt (blobstore.put (digests.key content) content)))
    (minimumSize maximumSize : ℕ) (entries : List ZipEntry) (z : ZipWriter) :
    Keeps (I) (bundleUploaded digests minimumSize maximumSize blobstore entries z) := by
  induction entries generalizing z with
  | nil => exact Keeps.pure _ _
  | cons entry entries ih =>
    unfold bundleUploaded
    split
    · exact keeps_orReturn (keeps_bundleUploadedEntry hblind hput minimumSize maximumSize entry z)
        (fun z => ih z)
    · exact ih z

theorem keeps_payloadAttempt (hblind : HostBlind I)
    (hget : ∀ key, Keeps I (onExt (blobstore.get key))) (entry : Fingerprint)
    (z : ZipWriter) : Keeps (I) (payloadAttempt blobstore entry z) := by
  refine Keeps.bind (hget entry.sha1) (fun r => ?_)
  split
  · exact Keeps.pure _ _
  · exact Keeps.pure _ _
  · refine Keeps.bind (hblind.keeps_onHost _) (fun r => ?_)
    obtain ⟨r, z'⟩ := r
    cases r with
    | error e => exact Keeps.pure _ _
    | ok u => exact Keeps.pure _ _

theorem keeps_bundlePayload (hblind : HostBlind I)
    (hget : ∀ key, Keeps I (onExt (blobstore.get key)))
    (payload : List Fingerprint) (z : ZipWriter) :
    Keeps (I) (bundlePayload blobstore payload z) := by
  induction payload generalizing z with
  | nil => exact Keeps.pure _ _
  | cons entry payload ih =>
    refine keeps_orReturn (hblind.keeps_onHost _) (fun z =>
      Keeps.bind (hblind.keeps_onHost _) (fun b => Keeps.bind
        (keeps_retryNotify (T := fun _ => True)
          (fun t _ => keeps_payloadAttempt hblind hget entry t) (fun _ _ _ _ _ _ => trivial) b
          trivial) (fun r => ?_)))
    obtain ⟨r, z'⟩ := r
    cases r with
    | some e => exact Keeps.pure _ _
    | none => exact ih z'

/-- **Bundling keeps the stash**: an invariant of the stash that every read keeps, and every put of
a content under its own key, is kept by `CreateTempZipFileFrom`, however it ends. -/
theorem keeps_createTempZipFileFrom
    (hblind : HostBlind I)
    (hput : ∀ content, Keeps I (onExt (blobstore.put (digests.key content) content)))
    (hget : ∀ key, Keeps I (onExt (blobstore.get key))) (format : ZipFormat)
    (minimumSize maximumSize : ℕ) (bundlesPayload : List Fingerprint)
    (zipReader : Option (List ZipEntry)) :
    Keeps (I) (createTempZipFileFrom digests format minimumSize maximumSize blobstore
      bundlesPayload zipReader) := by
  refine keeps_orReturn (hblind.keeps_onHost _) (fun tempZipFile => Keeps.bind ?_ (fun r => ?_))
  · refine keeps_orReturn (keeps_bundleUploaded hblind hput minimumSize maximumSize _ _) (fun z =>
      keeps_orReturn (keeps_bundlePayload hblind hget bundlesPayload z) (fun z =>
        Keeps.bind (hblind.keeps_onHost _) (fun content =>
          Keeps.bind (hblind.keeps_onHost _) (fun _ => Keeps.pure _ _))))
  · cases r with
    | error e => exact Keeps.bind (hblind.keeps_onHost _) (fun _ => Keeps.pure _ _)
    | ok u => exact Keeps.pure _ _

end Keeps

/-! ## A run that returns a name -/

theorem createTempZipFileFrom_stages {σ : Type} {digests : Digests} {format : ZipFormat}
    {minimumSize maximumSize : ℕ} {blobstore : NoRedirectBlobstore σ} {payload : List Fingerprint}
    {zipReader : Option (List ZipEntry)} {w w' : Env σ} {name : ℕ}
    (hrun : (createTempZipFileFrom digests format minimumSize maximumSize blobstore payload
      zipReader).run w = (.returned (.ok name), w')) :
    ∃ w₁ z₂ w₂ z₃ w₃ file host,
      (onHost (createTemp (ascii "bundles"))).run w = (.returned (.ok name), w₁) ∧
      (bundleUploaded digests minimumSize maximumSize blobstore (zipReader.getD []) .new).run w₁ =
        (.returned (.ok z₂), w₂) ∧
      (bundlePayload blobstore payload z₂).run w₂ = (.returned (.ok z₃), w₃) ∧
      (z₃.close format).run w₃.host = (.returned file, host) ∧
      w'.ext = w₃.ext ∧ w'.host.temps name = some file := by
  obtain ⟨tempZipFile, w₁, htemp, hrest⟩ := run_orReturn_eq_ok hrun
  obtain ⟨r, w₄, hwrite, hrest⟩ := run_bind_eq_returned hrest
  cases r with
  | error e => cases hrest
  | ok u =>
    cases hrest
    obtain ⟨z₂, w₂, huploaded, hrest⟩ := run_orReturn_eq_ok hwrite
    obtain ⟨z₃, w₃, hpayload, hrest⟩ := run_orReturn_eq_ok hrest
    obtain ⟨file, w₅, hclose, hrest⟩ := run_bind_eq_returned hrest
    obtain ⟨hclose, hext₅, -⟩ := run_onHost_eq_returned hclose
    obtain ⟨u, w₆, hset, hdone⟩ := run_bind_eq_returned hrest
    obtain ⟨hset, hext₆, -⟩ := run_onHost_eq_returned hset
    cases hdone
    obtain ⟨-, hhost⟩ := Prod.mk.inj hset
    refine ⟨w₁, z₂, w₂, z₃, w₃, file, w₅.host, htemp, huploaded, hpayload, hclose,
      hext₆.trans hext₅, ?_⟩
    rw [← hhost]
    exact Function.update_self _ _ _

end BitsService
