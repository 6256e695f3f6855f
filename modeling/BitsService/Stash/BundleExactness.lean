import BitsService.Blobstores.Scripted
import BitsService.Stash.BundleInvariant

/-! # What a bundle contains

Over a stash that fails by script, with all writes to the zip file succeeding, the entries of a
successful bundle are known exactly: those of the uploaded archive, and for each fingerprint
whatever the failed attempts delivered before the one that succeeded, followed by the blob. -/
namespace BitsService
open GoLib.Effect GoLib.Retry
set_option autoImplicit false

/-! ## The attempts on one fingerprint -/

def GetOutcome.delivers (content : Bytes) : GetOutcome → Bytes
  | .ok => content
  | .fails _ => []
  | .breaks delivered _ => content.take delivered

/-- What the attempts deliver before the first one that succeeds. -/
def deliveredBefore (content : Bytes) : List GetOutcome → Bytes
  | [] => []
  | .ok :: _ => []
  | o :: script => o.delivers content ++ deliveredBefore content script

def afterSuccess : List GetOutcome → List GetOutcome
  | [] => []
  | .ok :: script => script
  | _ :: script => afterSuccess script

theorem deliveredBefore_of_ok {content : Bytes} {script : List GetOutcome}
    (h : script.headD .ok = .ok) : deliveredBefore content script = [] := by
  cases script with
  | nil => rfl
  | cons o script =>
    rw [List.headD_cons] at h
    rw [h]
    rfl

theorem deliveredBefore_of_ne_ok {content : Bytes} {script : List GetOutcome}
    (h : script.headD .ok ≠ .ok) : deliveredBefore content script =
      (script.headD .ok).delivers content ++ deliveredBefore content script.tail := by
  cases script with
  | nil => exact absurd rfl h
  | cons o script =>
    cases o with
    | ok => exact absurd rfl h
    | fails e => rfl
    | breaks n e => rfl

theorem afterSuccess_of_ok {script : List GetOutcome} (h : script.headD .ok = .ok) :
    afterSuccess script = script.tail := by
  cases script with
  | nil => rfl
  | cons o script =>
    rw [List.headD_cons] at h
    rw [h]
    rfl

theorem afterSuccess_of_ne_ok {script : List GetOutcome} (h : script.headD .ok ≠ .ok) :
    afterSuccess script = afterSuccess script.tail := by
  cases script with
  | nil => exact absurd rfl h
  | cons o script =>
    cases o with
    | ok => exact absurd rfl h
    | fails e => rfl
    | breaks n e => rfl

section Attempt
variable (entry : Fingerprint) (es : List ZipEntry) (h : FileHeader)

theorem run_payloadAttempt_of_none {w : Env MapStore} (z : ZipWriter)
    (hc : w.ext.contents entry.sha1 = none) :
    ∃ f, (payloadAttempt mapBlobstore entry z).run w = (.returned (some f, z),
      { w with ext := { w.ext with getScript := w.ext.getScript.tail } }) := by
  simp only [payloadAttempt]
  rw [run_bind, run_onExt, run_mapBlobstore_get, hc]
  cases w.ext.getScript.headD .ok with
  | ok => exact ⟨_, rfl⟩
  | breaks n e => exact ⟨_, rfl⟩
  | fails e =>
    cases e with
    | notFound t k => exact ⟨_, rfl⟩
    | _ => exact ⟨_, rfl⟩

theorem run_payloadAttempt_of_body {σ : Type} {blobstore : NoRedirectBlobstore σ}
    {w w₁ : Env σ} {b : Body} (content : Bytes)
    (hget : (onExt (blobstore.get entry.sha1)).run w = (.returned (.ok b), w₁))
    (hh : w₁.host.TakesZips) :
    ∃ r w', (payloadAttempt blobstore entry (.opened es h content)).run w =
        (.returned (r, .opened es h (content ++ ZipWriter.taken h b.delivered)), w') ∧
      w'.host.TakesZips ∧ w'.ext = w₁.ext ∧
      (r = none ↔ b.failure = none ∧ (isDirName h.name = true → b.delivered = [])) := by
  obtain ⟨r, host', hrun, hh', -, hr⟩ := ZipWriter.run_copyFrom es h content hh b
  simp only [payloadAttempt]
  rw [run_bind_returned hget]
  have hcopy : (onHost ((ZipWriter.opened es h content).copyFrom b)).run w₁ =
      (.returned (r, .opened es h (content ++ ZipWriter.taken h b.delivered)),
        { w₁ with host := host' }) := by
    rw [run_onHost, hrun]
  simp only
  rw [run_bind_returned hcopy]
  cases r with
  | error e => exact ⟨some _, _, rfl, hh', rfl, by simpa using hr⟩
  | ok u => exact ⟨none, _, rfl, hh', rfl, by simpa using hr⟩

theorem run_payloadAttempt_of_some {w : Env MapStore} {stored : Bytes} (content : Bytes)
    (hc : w.ext.contents entry.sha1 = some stored) (hh : w.host.TakesZips) :
    ∃ r w', (payloadAttempt mapBlobstore entry (.opened es h content)).run w =
        (.returned (r, .opened es h
          (content ++ ZipWriter.taken h ((w.ext.getScript.headD .ok).delivers stored))), w') ∧
      w'.host.TakesZips ∧ w'.ext = { w.ext with getScript := w.ext.getScript.tail } ∧
      (r = none ↔ w.ext.getScript.headD .ok = .ok ∧ (isDirName h.name = true → stored = [])) := by
  let w₁ : Env MapStore := { w with ext := { w.ext with getScript := w.ext.getScript.tail } }
  have hget : (onExt (mapBlobstore.get entry.sha1)).run w =
      (.returned (MapStore.answer (some stored) (w.ext.getScript.headD .ok)), w₁) := by
    rw [run_onExt, run_mapBlobstore_get, hc]
  cases ho : w.ext.getScript.headD .ok with
  | fails e =>
    have hnil : content ++ ZipWriter.taken h ((GetOutcome.fails e).delivers stored) = content := by
      simp [GetOutcome.delivers, ZipWriter.taken]
    rw [ho] at hget
    simp only [payloadAttempt]
    rw [hnil, run_bind_returned hget]
    cases e with
    | notFound t k => exact ⟨_, _, rfl, hh, rfl, by simp⟩
    | _ => exact ⟨_, _, rfl, hh, rfl, by simp⟩
  | breaks n e =>
    rw [ho] at hget
    obtain ⟨r, w', hrun, hh', hext, hr⟩ := run_payloadAttempt_of_body entry es h content hget hh
    have hdel : (⟨[stored.take n], some e⟩ : Body).delivered = stored.take n := by
      simp [Body.delivered]
    rw [hdel] at hrun
    exact ⟨r, w', hrun, hh', hext, by simpa using hr⟩
  | ok =>
    rw [ho] at hget
    obtain ⟨r, w', hrun, hh', hext, hr⟩ := run_payloadAttempt_of_body entry es h content hget hh
    rw [Body.delivered_whole] at hrun hr
    exact ⟨r, w', hrun, hh', hext, by simpa [Body.whole] using hr⟩

/-- Without a content no attempt succeeds. -/
theorem wp_retryPayload_of_none (budget : ℕ) (z : ZipWriter) {w : Env MapStore}
    (hc : w.ext.contents entry.sha1 = none) :
    wp (retryNotify (payloadAttempt mapBlobstore entry) budget z) (fun r _ => r.1 ≠ none)
      (fun _ => True) w := by
  refine wp_retryNotify (fun _ w => w.ext.contents entry.sha1 = none) _ (fun z w hc => ?_) budget hc
  obtain ⟨f, hrun⟩ := run_payloadAttempt_of_none entry z hc
  exact wp_of_returned hrun ⟨by simp, fun _ _ => hc⟩

/-- Before each attempt the open entry holds what the failed ones delivered: with what the rest of
the script `script` delivers before it succeeds, that is what all of it does. -/
def Delivering (stored : Bytes) (s : MapStore) (z : ZipWriter) (w : Env MapStore) : Prop :=
  ∃ content, z = .opened es h content ∧ w.host.TakesZips ∧
    w.ext = { s with getScript := w.ext.getScript } ∧
    ((isDirName h.name = true → stored = []) →
      content ++ ZipWriter.taken h (deliveredBefore stored w.ext.getScript) =
        ZipWriter.taken h (deliveredBefore stored s.getScript) ∧
      afterSuccess w.ext.getScript = afterSuccess s.getScript)

theorem wp_payloadAttempt_delivering {stored : Bytes} {s : MapStore} {z : ZipWriter}
    {w : Env MapStore} (hc : s.contents entry.sha1 = some stored)
    (hw : Delivering es h stored s z w) :
    wp (payloadAttempt mapBlobstore entry z) (fun r w' =>
      (r.1 = none → (isDirName h.name = true → stored = []) ∧
        r.2 = .opened es h (ZipWriter.taken h (deliveredBefore stored s.getScript) ++ stored) ∧
        w'.ext = { s with getScript := afterSuccess s.getScript } ∧ w'.host.TakesZips) ∧
      (r.1 ≠ none → Delivering es h stored s r.2 w')) (fun _ => True) w := by
  obtain ⟨content, rfl, hh, hext, hleft⟩ := hw
  have hc : w.ext.contents entry.sha1 = some stored := by
    rw [hext]
    exact hc
  obtain ⟨r, w', hrun, hh', hext', hr⟩ := run_payloadAttempt_of_some entry es h content hc hh
  refine wp_of_returned hrun ⟨fun hnone => ?_, fun hsome => ⟨_, rfl, hh', ?_, fun hdir => ?_⟩⟩
  · obtain ⟨hok, hdir⟩ := hr.mp hnone
    obtain ⟨hdelivered, hafter⟩ := hleft hdir
    rw [deliveredBefore_of_ok hok, ZipWriter.taken_nil, List.append_nil] at hdelivered
    rw [afterSuccess_of_ok hok] at hafter
    refine ⟨hdir, ?_, ?_, hh'⟩
    · rw [hok, hdelivered]
      simp only [GetOutcome.delivers, ZipWriter.taken_of_fits h hdir]
    · rw [hext', hext, hafter]
  · rw [hext', hext]
  · have hne : w.ext.getScript.headD .ok ≠ .ok := fun hok => hsome (hr.mpr ⟨hok, hdir⟩)
    obtain ⟨hdelivered, hafter⟩ := hleft hdir
    rw [deliveredBefore_of_ne_ok hne, ZipWriter.taken_append, ← List.append_assoc] at hdelivered
    rw [afterSuccess_of_ne_ok hne] at hafter
    rw [hext']
    exact ⟨hdelivered, hafter⟩

/-- **The retry loop of one fingerprint**: when it succeeds, the open entry holds everything that
the failed attempts delivered, and then the blob. -/
theorem retry_payload_eq_none {w w' : Env MapStore} {z' : ZipWriter} (hh : w.host.TakesZips)
    (budget : ℕ)
    (hrun : (retryNotify (payloadAttempt mapBlobstore entry) budget (.opened es h [])).run w =
      (.returned (none, z'), w')) :
    ∃ stored, w.ext.contents entry.sha1 = some stored ∧
      (isDirName h.name = true → stored = []) ∧
      z' = .opened es h
        (ZipWriter.taken h (deliveredBefore stored w.ext.getScript) ++ stored) ∧
      w'.ext = { w.ext with getScript := afterSuccess w.ext.getScript } ∧ w'.host.TakesZips := by
  cases hc : w.ext.contents entry.sha1 with
  | none => exact absurd rfl ((wp_retryPayload_of_none entry budget _ hc).returned hrun)
  | some stored =>
    have hstart : Delivering es h stored w.ext (.opened es h []) w :=
      ⟨[], rfl, hh, rfl, fun _ => ⟨rfl, rfl⟩⟩
    have hloop := wp_retryNotify (Delivering es h stored w.ext) (fun r w' => r.1 = none →
      (isDirName h.name = true → stored = []) ∧
        r.2 = .opened es h
          (ZipWriter.taken h (deliveredBefore stored w.ext.getScript) ++ stored) ∧
        w'.ext = { w.ext with getScript := afterSuccess w.ext.getScript } ∧ w'.host.TakesZips)
      (fun z w₁ hw => (wp_payloadAttempt_delivering entry es h hc hw).mono
        (fun r w₂ hr => ⟨fun hnone => hr.1 (Option.map_eq_none_iff.mp hnone), fun e he =>
          hr.2 (by rw [he]; simp)⟩) (fun _ h => h)) budget hstart
    exact ⟨stored, rfl, hloop.returned hrun rfl⟩

end Attempt

/-! ## The payload loop -/

def payloadHeader (entry : Fingerprint) : FileHeader :=
  ZipWriter.completeHeader (zipEntryHeader entry.fn (fileModeFrom entry.mode))

def payloadEntries (contents : Bytes → Option Bytes) :
    List GetOutcome → List Fingerprint → List ZipEntry
  | _, [] => []
  | script, entry :: payload =>
    let stored := (contents entry.sha1).getD []
    ⟨payloadHeader entry,
      ZipWriter.taken (payloadHeader entry) (deliveredBefore stored script) ++ stored⟩ ::
      payloadEntries contents (afterSuccess script) payload

theorem payloadEntries_headers (contents : Bytes → Option Bytes) (script : List GetOutcome)
    (payload : List Fingerprint) :
    (payloadEntries contents script payload).map ZipEntry.header = payload.map payloadHeader := by
  induction payload generalizing script with
  | nil => rfl
  | cons entry payload ih => rw [payloadEntries, List.map_cons, ih, List.map_cons]

theorem bundlePayload_eq_ok (payload : List Fingerprint) {es : List ZipEntry}
    {w w' : Env MapStore} {z' : ZipWriter} (hh : w.host.TakesZips)
    (hrun : (bundlePayload mapBlobstore payload ⟨es, none⟩).run w = (.returned (.ok z'), w')) :
    z' = ⟨es ++ payloadEntries w.ext.contents w.ext.getScript payload, none⟩ ∧
      (∀ f ∈ payload, (w.ext.contents f.sha1).isSome) ∧
      w'.ext.contents = w.ext.contents ∧ w'.host.TakesZips := by
  induction payload generalizing es w with
  | nil =>
    cases hrun
    exact ⟨by simp [payloadEntries], by simp, rfl, hh⟩
  | cons entry payload ih =>
    obtain ⟨z₁, w₁, hheader, hrest⟩ := run_orReturn_eq_ok hrun
    obtain ⟨hopened, hext₁, -⟩ := run_onHost_eq_returned hheader
    obtain ⟨-, rfl⟩ := ZipWriter.createHeader_eq_ok _ hopened
    have hh₁ : w₁.host.TakesZips := (keptByCalls_takesZips.createHeader _ _).of_run hopened hh
    obtain ⟨b, w₂, hbudget, hrest⟩ := run_bind_eq_returned hrest
    obtain ⟨⟨r, z₃⟩, w₃, hretry, hrest⟩ := run_bind_eq_returned hrest
    obtain ⟨htake, hext₂, -⟩ := run_onHost_eq_returned hbudget
    have hh₂ : w₂.host.TakesZips := keeps_takesZips_takeBudget.of_run htake hh₁
    cases r with
    | some e => cases hrest
    | none =>
      obtain ⟨stored, hstored, hdir, hz₃, hext, hh₃⟩ :=
        retry_payload_eq_none entry es (payloadHeader entry) hh₂ b hretry
      rw [hext₂, hext₁] at hstored hz₃ hext
      rw [hz₃] at hrest
      obtain ⟨hz', hall, hcontents, hh'⟩ := ih hh₃ hrest
      simp only [hext] at hz' hall hcontents
      refine ⟨?_, ?_, hcontents, hh'⟩
      · rw [hz']
        simp only [payloadEntries, hstored, Option.getD_some, List.append_assoc,
          List.singleton_append]
      · intro f hf
        rcases List.mem_cons.mp hf with rfl | hf
        · rw [hstored, Option.isSome_some]
        · exact hall f hf

/-! ## The loop over the uploaded archive -/

section Uploaded
variable {σ : Type} (digests : Digests) (minimumSize maximumSize : ℕ)
  (blobstore : NoRedirectBlobstore σ)

/-- A regular entry, as it is written again. -/
def uploadedEntry (entry : ZipEntry) : ZipEntry :=
  ⟨ZipWriter.completeHeader (zipEntryHeader entry.header.name entry.header.mode), entry.content⟩

theorem returns_stashEntry (content : Bytes) (tempFile : ℕ) (z : ZipWriter) :
    Returns (fun r => ∀ z', r = .ok z' → z' = z)
      (stashEntry digests minimumSize maximumSize blobstore content tempFile z) := by
  refine Returns.bind (fun b => Returns.bind (fun r => ?_))
  obtain ⟨r, t⟩ := r
  cases r with
  | some e => exact Returns.pure (fun z' h => by cases h)
  | none =>
    cases t with
    | none => exact Returns.raise _
    | some name =>
      exact Returns.bind (fun _ => Returns.pure (fun z' h => by cases h; rfl))

theorem copyEntry_opened_eq_ok {content : Bytes} {name : ℕ} {es : List ZipEntry} {h : FileHeader}
    {z' : ZipWriter} {host host' : Host}
    (hrun : (copyEntry content name (.opened es h [])).run host = (.returned (.ok z'), host')) :
    z' = .opened es h content := by
  obtain ⟨u, h₁, -, hrest⟩ := run_orReturn_eq_ok hrun
  obtain ⟨⟨r, z₁⟩, h₂, hwrite, hrest⟩ := run_bind_eq_returned hrest
  cases r with
  | error e => cases hrest
  | ok u =>
    obtain ⟨u, h₃, -, hrest⟩ := run_orReturn_eq_ok hrest
    cases hrest
    exact ZipWriter.write_eq_ok es h [] hwrite

theorem isDirName_of_isRegular {h : FileHeader} (hr : isRegular h.mode = true) :
    isDirName h.name = false := by
  by_contra hd
  have hdir : isDirName h.name = true := by simpa using hd
  have hmode : h.mode &&& modeType = 0 := by simpa [isRegular] using hr
  unfold FileHeader.mode at hmode
  simp only [hdir, if_true] at hmode
  rw [and_or_right] at hmode
  exact absurd (UInt32.or_eq_zero_iff.mp hmode).2 (by decide)

theorem bundleUploadedEntry_eq_ok {entry : ZipEntry} {z z' : ZipWriter} {w w' : Env σ}
    (hrun : (bundleUploadedEntry digests minimumSize maximumSize blobstore entry z).run w =
      (.returned (.ok z'), w')) :
    z' = ⟨z.entries ++ [uploadedEntry entry], none⟩ ∧
      ∃ name w₁, w₁.ext = w.ext ∧ w₁.host.temps name = some entry.content ∧
        ∃ w₂, w₂.ext = w'.ext ∧ (stashEntry digests minimumSize maximumSize blobstore entry.content
          name z').run w₁ = (.returned (.ok z'), w₂) := by
  obtain ⟨z₁, w₁, hheader, hrest⟩ := run_orReturn_eq_ok hrun
  obtain ⟨hopened, hext₁, -⟩ := run_onHost_eq_returned hheader
  obtain ⟨-, rfl⟩ := ZipWriter.createHeader_eq_ok _ hopened
  obtain ⟨u, w₂, hopen, hrest⟩ := run_orReturn_eq_ok hrest
  obtain ⟨-, hext₂, -⟩ := run_onHost_eq_returned hopen
  obtain ⟨tempFile, w₃, htemp, hrest⟩ := run_orReturn_eq_ok hrest
  obtain ⟨-, hext₃, -⟩ := run_onHost_eq_returned htemp
  obtain ⟨w₄, hbody, rfl⟩ := run_removingTemp_eq_returned hrest
  obtain ⟨z₅, w₅, hcopy, hrest⟩ := run_orReturn_eq_ok hbody
  obtain ⟨hcopy, hext₅, -⟩ := run_onHost_eq_returned hcopy
  have hcontent := copyEntry_eq_ok hcopy
  obtain rfl := copyEntry_opened_eq_ok hcopy
  obtain ⟨u, w₆, hcloseTemp, hrest⟩ := run_orReturn_eq_ok hrest
  obtain ⟨hcloseTemp, hext₆, -⟩ := run_onHost_eq_returned hcloseTemp
  obtain ⟨u, w₇, hcloseEntry, hstash⟩ := run_orReturn_eq_ok hrest
  obtain ⟨hcloseEntry, hext₇, -⟩ := run_onHost_eq_returned hcloseEntry
  have hz := returns_stashEntry digests minimumSize maximumSize blobstore entry.content
    tempFile _ _ _ _ hstash z' rfl
  have hext : w₇.ext = w.ext := by rw [hext₇, hext₆, hext₅, hext₃, hext₂, hext₁]
  have hcontent₇ : w₇.host.temps tempFile = some entry.content := by
    rw [osCall_temps hcloseEntry, osCall_temps hcloseTemp, hcontent]
  refine ⟨hz, tempFile, w₇, hext, hcontent₇, w₄, rfl, ?_⟩
  rw [hz] at hstash ⊢
  exact hstash

theorem bundleUploaded_eq_ok (entries : List ZipEntry) {es : List ZipEntry} {w w' : Env σ}
    {z' : ZipWriter}
    (hrun : (bundleUploaded digests minimumSize maximumSize blobstore entries ⟨es, none⟩).run w =
      (.returned (.ok z'), w')) :
    z' = ⟨es ++ (entries.filter fun e => isRegular e.header.mode).map uploadedEntry, none⟩ := by
  induction entries generalizing es w with
  | nil =>
    cases hrun
    simp
  | cons entry entries ih =>
    unfold bundleUploaded at hrun
    by_cases hr : isRegular entry.header.mode = true
    · rw [if_pos hr] at hrun
      obtain ⟨z₁, w₁, hentry, hrest⟩ := run_orReturn_eq_ok hrun
      obtain ⟨rfl, -⟩ := bundleUploadedEntry_eq_ok digests minimumSize maximumSize blobstore hentry
      rw [ih hrest]
      simp [hr]
    · rw [if_neg hr] at hrun
      rw [ih hrun]
      simp [hr]

theorem keeps_takesZips_bundleUploaded (entries : List ZipEntry) (z : ZipWriter) :
    Keeps (OfHost Host.TakesZips)
      (bundleUploaded digests minimumSize maximumSize blobstore entries z) :=
  keptByCalls_takesZips.bundleUploaded keeps_takesZips_takeBudget ignoresTemps_takesZips entries z

end Uploaded

/-! ## What the stash holds afterwards -/

section Stashed
variable (digests : Digests) (minimumSize maximumSize : ℕ)

def InRange (minimumSize maximumSize : ℕ) (size : ℕ) : Prop :=
  minimumSize ≤ size ∧ size ≤ maximumSize

instance (size : ℕ) : Decidable (InRange minimumSize maximumSize size) :=
  inferInstanceAs (Decidable (_ ∧ _))

/-- A stash with a content of the right size under its key. -/
def stashContent (contents : Bytes → Option Bytes) (content : Bytes) : Bytes → Option Bytes :=
  if InRange minimumSize maximumSize content.length then
    Function.update contents (digests.key content) (some content)
  else contents

def stashUploads (contents : Bytes → Option Bytes) (entries : List ZipEntry) :
    Bytes → Option Bytes :=
  ((entries.filter fun e => isRegular e.header.mode).map ZipEntry.content).foldl
    (stashContent digests minimumSize maximumSize) contents

theorem run_stashAttempt_eq_none {content : Bytes} {name : ℕ} {w w' : Env MapStore}
    {t : Option ℕ} (hw : w.host.temps name = some content)
    (hrun : (stashAttempt digests minimumSize maximumSize mapBlobstore content (some name)).run w =
      (.returned (none, t), w')) :
    w'.ext.contents = stashContent digests minimumSize maximumSize w.ext.contents content := by
  obtain ⟨r, h₁, hopen, -, hsrc⟩ := run_openTemp name w.host
  rw [stashAttempt_some, run_bind, run_onHost, hopen] at hrun
  cases r with
  | error e => cases hrun
  | ok src =>
    have hsrc : src = content := Option.some.inj ((hsrc src rfl).symm.trans hw)
    subst hsrc
    by_cases hsize : minimumSize ≤ src.length ∧ src.length ≤ maximumSize
    · have hstash : stashContent digests minimumSize maximumSize w.ext.contents src =
          Function.update w.ext.contents (digests.key src) (some src) := if_pos hsize
      simp only [if_pos hsize] at hrun
      obtain ⟨r, w₂, hput, hrest⟩ := run_bind_eq_returned hrun
      rw [run_onExt] at hput
      cases hscript : w.ext.putScript.headD (.ok ()) with
      | error e =>
        rw [run_mapBlobstore_put_error hscript] at hput
        cases hput
        have hnone := congrArg (fun o => o.1) hrest
        simp [stashPutFailure_eq_none_iff] at hnone
      | ok u =>
        rw [run_mapBlobstore_put_ok hscript] at hput
        cases hput
        cases hrest
        exact hstash.symm
    · have hstash : stashContent digests minimumSize maximumSize w.ext.contents src =
          w.ext.contents := if_neg hsize
      simp only [if_neg hsize] at hrun
      cases hrun
      exact hstash.symm

theorem run_stashAttempt_eq_some {content : Bytes} {name : ℕ} {w w' : Env MapStore}
    {f : Failure GoError} {t : Option ℕ}
    (hrun : (stashAttempt digests minimumSize maximumSize mapBlobstore content (some name)).run w =
      (.returned (some f, t), w')) :
    w'.ext.contents = w.ext.contents ∧ w'.host.temps = w.host.temps := by
  obtain ⟨r, h₁, hopen, htemps, -⟩ := run_openTemp name w.host
  rw [stashAttempt_some, run_bind, run_onHost, hopen] at hrun
  cases r with
  | error e =>
    cases hrun
    exact ⟨rfl, htemps⟩
  | ok src =>
    by_cases hsize : minimumSize ≤ content.length ∧ content.length ≤ maximumSize
    · simp only [if_pos hsize] at hrun
      obtain ⟨r, w₂, hput, hrest⟩ := run_bind_eq_returned hrun
      rw [run_onExt] at hput
      cases hscript : w.ext.putScript.headD (.ok ()) with
      | error e =>
        rw [run_mapBlobstore_put_error hscript] at hput
        cases hput
        obtain ⟨-, rfl⟩ := Prod.mk.inj hrest
        exact ⟨rfl, htemps⟩
      | ok u =>
        rw [run_mapBlobstore_put_ok hscript] at hput
        cases hput
        cases hrest
    · simp only [if_neg hsize] at hrun
      cases hrun

/-- What stays until an attempt succeeds. A failing `os.Open` leaves no temp file. -/
structure Unstashed (name : ℕ) (before : Env MapStore) (tempFile : Option ℕ) (w : Env MapStore) :
    Prop where
  tempFile : tempFile = none ∨ tempFile = some name
  contents : w.ext.contents = before.ext.contents
  temps : w.host.temps = before.host.temps

theorem wp_stashAttempt_unstashed {content : Bytes} {name : ℕ} {before w : Env MapStore}
    {t : Option ℕ} (hbefore : before.host.temps name = some content)
    (hw : Unstashed name before t w) :
    wp (stashAttempt digests minimumSize maximumSize mapBlobstore content t)
      (fun r w' => (r.1.map Failure.error = none →
          w'.ext.contents = stashContent digests minimumSize maximumSize before.ext.contents
            content) ∧
        ∀ e, r.1 = some (.transient e) → Unstashed name before r.2 w')
      (fun _ => True) w := by
  obtain ⟨rfl | rfl, hcontents, htemps⟩ := hw
  · trivial
  · refine wp_of_run (fun r w' hrun => ⟨fun hnone => ?_, fun e he => ?_⟩) fun _ _ _ => trivial
    · obtain ⟨r₁, t'⟩ := r
      obtain rfl : r₁ = none := Option.map_eq_none_iff.mp hnone
      rw [← hcontents]
      exact run_stashAttempt_eq_none digests minimumSize maximumSize
        ((congrFun htemps name).trans hbefore) hrun
    · obtain ⟨r₁, t'⟩ := r
      obtain rfl : r₁ = some (.transient e) := he
      obtain ⟨hcontents', htemps'⟩ :=
        run_stashAttempt_eq_some digests minimumSize maximumSize hrun
      exact ⟨returns_stashAttempt minimumSize maximumSize content name _ _ _ hrun,
        hcontents'.trans hcontents, htemps'.trans htemps⟩

theorem stashEntry_eq_ok {content : Bytes} {name : ℕ} {z z' : ZipWriter} {w w' : Env MapStore}
    (hw : w.host.temps name = some content)
    (hrun : (stashEntry digests minimumSize maximumSize mapBlobstore content name z).run w =
      (.returned (.ok z'), w')) :
    w'.ext.contents = stashContent digests minimumSize maximumSize w.ext.contents content := by
  obtain ⟨budget, w₁, hbudget, hrest⟩ := run_bind_eq_returned hrun
  obtain ⟨htake, hext₁, -⟩ := run_onHost_eq_returned hbudget
  have htemps₁ : w₁.host.temps = w.host.temps := by
    obtain ⟨-, hhost⟩ := Prod.mk.inj htake
    rw [← hhost]
  obtain ⟨⟨r, t⟩, w₂, hretry, hrest⟩ := run_bind_eq_returned hrest
  have hloop := wp_retryNotify (Unstashed name w) (fun r w' => r.1 = none →
      w'.ext.contents = stashContent digests minimumSize maximumSize w.ext.contents content)
    (fun t w₁ ht => wp_stashAttempt_unstashed digests minimumSize maximumSize hw ht) budget
    ⟨.inr rfl, congrArg MapStore.contents hext₁, htemps₁⟩
  cases r with
  | some e => cases hrest
  | none =>
    cases t with
    | none => cases hrest
    | some name' =>
      cases hrest
      have hstashed := hloop.returned hretry
      exact hstashed rfl

theorem bundleUploaded_eq_ok_contents (entries : List ZipEntry) {es : List ZipEntry}
    {w w' : Env MapStore} {z' : ZipWriter}
    (hrun : (bundleUploaded digests minimumSize maximumSize mapBlobstore entries ⟨es, none⟩).run w =
      (.returned (.ok z'), w')) :
    w'.ext.contents = stashUploads digests minimumSize maximumSize w.ext.contents entries := by
  induction entries generalizing es w with
  | nil =>
    cases hrun
    rfl
  | cons entry entries ih =>
    unfold bundleUploaded at hrun
    by_cases hr : isRegular entry.header.mode = true
    · rw [if_pos hr] at hrun
      obtain ⟨z₁, w₁, hentry, hrest⟩ := run_orReturn_eq_ok hrun
      obtain ⟨rfl, name, w₂, hext₂, htemp, w₃, hext₃, hstash⟩ :=
        bundleUploadedEntry_eq_ok digests minimumSize maximumSize mapBlobstore hentry
      have hentry' := stashEntry_eq_ok digests minimumSize maximumSize htemp hstash
      rw [hext₂, hext₃] at hentry'
      rw [ih hrest, hentry']
      simp [stashUploads, hr]
    · rw [if_neg hr] at hrun
      rw [ih hrun]
      simp [stashUploads, hr]

end Stashed

/-! ## The bundle -/

section Bundle
variable (digests : Digests) (format : ZipFormat) (minimumSize maximumSize : ℕ)

def regularEntries (zipReader : Option (List ZipEntry)) : List ZipEntry :=
  (zipReader.getD []).filter fun e => isRegular e.header.mode

theorem regularEntries_cons_of_regular {entry : ZipEntry} (entries : List ZipEntry)
    (hregular : isRegular entry.header.mode = true) :
    regularEntries (some (entry :: entries)) = entry :: regularEntries (some entries) := by
  simp [regularEntries, hregular]

theorem regularEntries_cons_of_not_regular {entry : ZipEntry} (entries : List ZipEntry)
    (hregular : ¬ isRegular entry.header.mode = true) :
    regularEntries (some (entry :: entries)) = regularEntries (some entries) := by
  simp [regularEntries, hregular]

/-- Names that an archive cannot hold make bundling fail. -/
theorem bundleUploaded_fits {σ : Type} {blobstore : NoRedirectBlobstore σ}
    (entries : List ZipEntry) {z z' : ZipWriter} {w w' : Env σ}
    (hrun : (bundleUploaded digests minimumSize maximumSize blobstore entries z).run w =
      (.returned (.ok z'), w')) :
    ∀ e ∈ regularEntries (some entries), FitsZip e.header.name := by
  induction entries generalizing z w with
  | nil => simp [regularEntries]
  | cons entry entries ih =>
    unfold bundleUploaded at hrun
    by_cases hr : isRegular entry.header.mode = true
    · rw [if_pos hr] at hrun
      obtain ⟨z₁, w₁, hentry, hrest⟩ := run_orReturn_eq_ok hrun
      obtain ⟨z₂, w₂, hheader, -⟩ := run_orReturn_eq_ok hentry
      have hfits := (ZipWriter.createHeader_eq_ok _ (run_onHost_eq_returned hheader).1).1
      rw [regularEntries_cons_of_regular entries hr]
      exact List.forall_mem_cons.mpr ⟨hfits, ih hrest⟩
    · rw [if_neg hr] at hrun
      rw [regularEntries_cons_of_not_regular entries hr]
      exact ih hrun

theorem bundlePayload_fits {σ : Type} {blobstore : NoRedirectBlobstore σ}
    (payload : List Fingerprint) {z z' : ZipWriter} {w w' : Env σ}
    (hrun : (bundlePayload blobstore payload z).run w = (.returned (.ok z'), w')) :
    ∀ f ∈ payload, FitsZip f.fn := by
  induction payload generalizing z w with
  | nil => exact List.forall_mem_nil _
  | cons entry payload ih =>
    obtain ⟨z₁, w₁, hheader, hrest⟩ := run_orReturn_eq_ok hrun
    have hfits := (ZipWriter.createHeader_eq_ok _ (run_onHost_eq_returned hheader).1).1
    obtain ⟨budget, w₂, -, hrest⟩ := run_bind_eq_returned hrest
    obtain ⟨⟨r, z₃⟩, w₃, -, hrest⟩ := run_bind_eq_returned hrest
    cases r with
    | some e => cases hrest
    | none => exact List.forall_mem_cons.mpr ⟨hfits, ih hrest⟩

/-- An archive can hold what has been bundled. -/
theorem createTempZipFileFrom_fits {σ : Type} {blobstore : NoRedirectBlobstore σ}
    {payload : List Fingerprint} {zipReader : Option (List ZipEntry)} {w w' : Env σ} {name : ℕ}
    (hrun : (createTempZipFileFrom digests format minimumSize maximumSize blobstore payload
      zipReader).run w = (.returned (.ok name), w')) {es : List ZipEntry}
    (hheaders : es.map ZipEntry.header = (regularEntries zipReader).map
      (fun e => (uploadedEntry e).header) ++ payload.map payloadHeader) :
    ∀ e ∈ es, FitsZip e.header.name := by
  obtain ⟨w₁, z₂, w₂, z₃, w₃, file, host, -, huploaded, hpayload, -, -, -⟩ :=
    createTempZipFileFrom_stages hrun
  have huploads := bundleUploaded_fits digests minimumSize maximumSize _ huploaded
  have hall : ∀ h ∈ es.map ZipEntry.header, FitsZip h.name := by
    rw [hheaders, List.forall_mem_append, List.forall_mem_map, List.forall_mem_map]
    exact ⟨huploads, bundlePayload_fits payload hpayload⟩
  exact fun e he => hall e.header (List.mem_map_of_mem he)

/-- **A successful bundle**: the regular entries of the archive, then one entry for each
fingerprint; and the stash holds the regular entries of the right size. -/
theorem createTempZipFileFrom_eq_ok {payload : List Fingerprint}
    {zipReader : Option (List ZipEntry)} {w w' : Env MapStore} {name : ℕ} (hh : w.host.TakesZips)
    (hrun : (createTempZipFileFrom digests format minimumSize maximumSize mapBlobstore payload
      zipReader).run w = (.returned (.ok name), w')) :
    w'.ext.contents =
        stashUploads digests minimumSize maximumSize w.ext.contents (zipReader.getD []) ∧
      w'.host.temps name = some (format.encode ((regularEntries zipReader).map uploadedEntry ++
        payloadEntries w'.ext.contents w.ext.getScript payload)) ∧
      ∀ f ∈ payload, (w'.ext.contents f.sha1).isSome := by
  obtain ⟨w₁, z₂, w₂, z₃, w₃, file, host, htemp, huploaded, hpayload, hclose, hext, hfile⟩ :=
    createTempZipFileFrom_stages hrun
  obtain ⟨htemp, hext₁, -⟩ := run_onHost_eq_returned htemp
  have hh₁ : w₁.host.TakesZips :=
    (keptByCalls_takesZips.createTemp ignoresTemps_takesZips _).of_run htemp hh
  have hkeep : Keeps (OfExt fun s : MapStore => s.getScript = w.ext.getScript)
      (bundleUploaded digests minimumSize maximumSize mapBlobstore (zipReader.getD []) .new) :=
    keeps_bundleUploaded (hostBlind_ofExt _)
      (fun content => keeps_onExt (keeps_put_getScript _ _ _)) minimumSize maximumSize _ _
  have hscript : w₂.ext.getScript = w.ext.getScript :=
    hkeep.of_run huploaded (congrArg MapStore.getScript hext₁)
  have hstash := bundleUploaded_eq_ok_contents digests minimumSize maximumSize _ huploaded
  have hh₂ : w₂.host.TakesZips :=
    (keeps_takesZips_bundleUploaded digests minimumSize maximumSize _ _ _).of_run huploaded hh₁
  obtain rfl := bundleUploaded_eq_ok digests minimumSize maximumSize mapBlobstore _ huploaded
  obtain ⟨rfl, hall, hcontents, hh₃⟩ := bundlePayload_eq_ok payload hh₂ hpayload
  have hclosed := ZipWriter.close_eq_encode rfl hh₃.flushes hclose
  have hcontents' : w'.ext.contents = w₂.ext.contents := by rw [hext, hcontents]
  refine ⟨?_, ?_, fun f hf => ?_⟩
  · rw [hcontents', hstash, hext₁]
  · rw [hfile, hclosed, hcontents', ← hscript]
    simp only [regularEntries, List.nil_append]
  · rw [hcontents']
    exact hall f hf

end Bundle

/-! ## Exactness under failing reads -/

section Exactness
variable (digests : Digests) (format : ZipFormat) (minimumSize maximumSize : ℕ)

/-- The archive has one entry for each regular entry of the uploaded one, and then one for each
fingerprint with what the stash holds under its SHA-1. -/
def BundleExact (contents : Bytes → Option Bytes) (payload : List Fingerprint)
    (zipReader : Option (List ZipEntry)) (file : Option Bytes) : Prop :=
  ∃ zipFile es, file = some zipFile ∧ format.decode zipFile = .ok es ∧
    es.map (fun e => (e.header.name, some e.content)) =
      (regularEntries zipReader).map (fun e => (e.header.name, some e.content)) ++
        payload.map (fun f => (f.fn, contents f.sha1))

/-- No attempt that fails before the first one that succeeds delivers a byte, for any fingerprint
that names a file. -/
def ReadsUndisturbed (contents : Bytes → Option Bytes) :
    List GetOutcome → List Fingerprint → Prop
  | _, [] => True
  | script, entry :: payload =>
    (isDirName entry.fn = false →
      deliveredBefore ((contents entry.sha1).getD []) script = []) ∧
    ReadsUndisturbed contents (afterSuccess script) payload

theorem payloadEntries_exact_iff {contents : Bytes → Option Bytes} {payload : List Fingerprint}
    (hall : ∀ f ∈ payload, (contents f.sha1).isSome) (script : List GetOutcome) :
    (payloadEntries contents script payload).map (fun e => (e.header.name, some e.content)) =
        payload.map (fun f => (f.fn, contents f.sha1)) ↔
      ReadsUndisturbed contents script payload := by
  induction payload generalizing script with
  | nil => simp [payloadEntries, ReadsUndisturbed]
  | cons entry payload ih =>
    obtain ⟨stored, hstored⟩ := Option.isSome_iff_exists.mp (hall entry List.mem_cons_self)
    have htaken : ZipWriter.taken (payloadHeader entry) (deliveredBefore stored script) ++ stored =
        stored ↔ (isDirName entry.fn = false → deliveredBefore stored script = []) := by
      rw [List.append_left_eq_self]
      have hname : (payloadHeader entry).name = entry.fn := rfl
      by_cases hd : isDirName entry.fn = true <;> simp [ZipWriter.taken, hname, hd]
    have hrest := ih (fun f hf => hall f (List.mem_cons_of_mem _ hf)) (afterSuccess script)
    have hname : (payloadHeader entry).name = entry.fn := rfl
    simp only [payloadEntries, ReadsUndisturbed, List.map_cons, List.cons.injEq, hstored,
      Option.getD_some, Prod.mk.injEq, hname, true_and, Option.some.injEq, htaken, hrest]

/-- **Exactness**: a successful bundle is exact if and only if no failed read delivered a byte of
the blob it was reading, since a retried read starts over behind what is already written. -/
theorem bundleExact_iff {payload : List Fingerprint} {zipReader : Option (List ZipEntry)}
    {w w' : Env MapStore} {name : ℕ} (hh : w.host.TakesZips)
    (hrun : (createTempZipFileFrom digests format minimumSize maximumSize mapBlobstore payload
      zipReader).run w = (.returned (.ok name), w')) :
    BundleExact format w'.ext.contents payload zipReader (w'.host.temps name) ↔
      ReadsUndisturbed
        (stashUploads digests minimumSize maximumSize w.ext.contents (zipReader.getD []))
        w.ext.getScript payload := by
  obtain ⟨hstash, hfile, hall⟩ :=
    createTempZipFileFrom_eq_ok digests format minimumSize maximumSize hh hrun
  rw [← hstash, ← payloadEntries_exact_iff hall]
  have huploaded : ((regularEntries zipReader).map uploadedEntry).map
      (fun e => (e.header.name, some e.content)) =
      (regularEntries zipReader).map (fun e => (e.header.name, some e.content)) := by
    rw [List.map_map]
    rfl
  have hfits : ∀ e ∈ (regularEntries zipReader).map uploadedEntry ++
      payloadEntries w'.ext.contents w.ext.getScript payload, FitsZip e.header.name := by
    refine createTempZipFileFrom_fits digests format minimumSize maximumSize hrun ?_
    rw [List.map_append, List.map_map, payloadEntries_headers]
    rfl
  constructor
  · rintro ⟨zipFile, es, hzip, hdecode, hes⟩
    rw [hfile] at hzip
    cases hzip
    rw [format.decode_encode hfits] at hdecode
    cases hdecode
    rw [List.map_append, huploaded] at hes
    exact List.append_cancel_left hes
  · intro hes
    refine ⟨_, _, hfile, format.decode_encode hfits, ?_⟩
    rw [List.map_append, huploaded, hes]

end Exactness

/-- A stash that holds `hello` under its SHA-1, and a script for its reads. -/
def helloStash (script : List GetOutcome) : Env MapStore where
  host := ⟨fun _ => [], fun _ => none, 0, [3]⟩
  ext :=
    { contents := fun k =>
        if k = helloDigests.key (ascii "hello") then some (ascii "hello") else none
      getScript := script
      putScript := [] }
  response := .empty

def helloFingerprint : Fingerprint :=
  ⟨ascii "greeting.txt", helloDigests.key (ascii "hello"), 5, ascii "644"⟩

/-- A read that fails before it delivers anything is retried without a trace. -/
theorem bundleExact_iff_hello :
    (helloStash [.fails (.sys []), .ok]).host.TakesZips ∧
      (BundleExact plainFormat
          ((createTempZipFileFrom helloDigests plainFormat 0 100 mapBlobstore [helloFingerprint]
            none).run (helloStash [.fails (.sys []), .ok])).2.ext.contents [helloFingerprint] none
          (((createTempZipFileFrom helloDigests plainFormat 0 100 mapBlobstore [helloFingerprint]
            none).run (helloStash [.fails (.sys []), .ok])).2.host.temps 0) ↔
        ReadsUndisturbed (stashUploads helloDigests 0 100
          (helloStash [.fails (.sys []), .ok]).ext.contents []) [.fails (.sys []), .ok]
          [helloFingerprint]) := by
  have hh : (helloStash [.fails (.sys []), .ok]).host.TakesZips := by
    constructor <;> intro r hr <;> cases hr
  exact ⟨hh, bundleExact_iff helloDigests plainFormat 0 100 hh rfl⟩

/-- A read that fails after one byte leaves that byte in front of the blob: `hhello`. -/
theorem not_bundleExact_hello :
    ∃ w', (createTempZipFileFrom helloDigests plainFormat 0 100 mapBlobstore [helloFingerprint]
        none).run (helloStash [.breaks 1 (.sys []), .ok]) = (.returned (.ok 0), w') ∧
      ¬ BundleExact plainFormat w'.ext.contents [helloFingerprint] none (w'.host.temps 0) := by
  refine ⟨_, rfl, ?_⟩
  rintro ⟨zipFile, es, hzip, hdecode, hes⟩
  have hfile : some zipFile = some (plainFormat.encode
      [⟨payloadHeader helloFingerprint, ascii "hhello"⟩]) := by
    rw [← hzip]
    rfl
  cases hfile
  rw [plainFormat.decode_encode (by decide)] at hdecode
  cases hdecode
  exact absurd hes (by decide)

end BitsService
