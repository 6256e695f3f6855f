import BitsService.Stash.BundleExactness

/-! # When bundling succeeds

On a host and over a stash without faults, a bundle is made as long as the stash has every
fingerprint by the time it is read. -/
namespace BitsService
open GoLib.Effect GoLib.Retry
set_option autoImplicit false

/-! ## A host without faults -/

namespace Host.Faultless
variable {h : Host} (hh : h.Faultless)
include hh

theorem takesZips : h.TakesZips :=
  ⟨fun r hr => by simp [hh OsCall.zipWrite] at hr, fun r hr => by simp [hh OsCall.zipClose] at hr⟩

theorem run_osCall (c : OsCall) : (osCall c).run h = (.returned (.ok ()), h) := by
  have hfaults : Function.update h.faults c (h.faults c).tail = h.faults := by
    rw [hh c, List.tail_nil, ← hh c, Function.update_eq_self]
  rw [BitsService.run_osCall, hfaults, hh c]
  rfl

theorem run_createTemp {pre : Bytes} (hpre : NamesTemp pre) :
    (createTemp pre).run h = (.returned (.ok h.next),
      { h with temps := Function.update h.temps h.next (some []), next := h.next + 1 }) := by
  rw [createTemp_of_names hpre]
  exact run_orReturn_ok (hh.run_osCall .tempFile)

theorem run_openTemp {name : ℕ} {content : Bytes} (hc : h.temps name = some content) :
    (openTemp name).run h = (.returned (.ok content), h) := by
  refine (run_orReturn_ok (hh.run_osCall .openTemp)).trans ?_
  rw [run_bind_returned (run_getState h), hc]
  rfl

theorem run_writeTemp (name : ℕ) (content : Bytes) : (writeTemp name content).run h =
    (.returned (.ok ()), { h with temps := Function.update h.temps name (some content) }) :=
  run_orReturn_ok (hh.run_osCall .writeTemp)

theorem run_createHeader (es : List ZipEntry) {name : Bytes} (hfits : FitsZip name)
    (mode : FileMode) :
    ((⟨es, none⟩ : ZipWriter).createHeader (zipEntryHeader name mode)).run h = (.returned (.ok
      (.opened es (ZipWriter.completeHeader (zipEntryHeader name mode)) [])), h) := by
  refine (run_orReturn_ok (hh.run_osCall .zipHeader)).trans ?_
  rw [if_pos (show FitsZip (zipEntryHeader name mode).name from hfits)]
  rfl

theorem run_createHeader_long (es : List ZipEntry) {name : Bytes} (hlong : ¬ FitsZip name)
    (mode : FileMode) :
    ((⟨es, none⟩ : ZipWriter).createHeader (zipEntryHeader name mode)).run h =
      (.returned (.error ZipWriter.errLongName), h) := by
  refine (run_orReturn_ok (hh.run_osCall .zipHeader)).trans ?_
  rw [if_neg (show ¬ FitsZip (zipEntryHeader name mode).name from hlong)]
  rfl

theorem run_write (es : List ZipEntry) {header : FileHeader} (hd : isDirName header.name = false)
    (content chunk : Bytes) : ((ZipWriter.opened es header content).write chunk).run h =
      (.returned (.ok (), .opened es header (content ++ chunk)), h) := by
  by_cases hc : chunk = []
  · subst hc
    simp [ZipWriter.write]
  · simp only [ZipWriter.write, if_neg hc, ZipWriter.opened_inDirectory, hd, Bool.false_eq_true,
      if_false, ZipWriter.opened_broken]
    rw [run_bind_returned (hh.run_osCall .zipWrite), ZipWriter.opened_append]
    rfl

theorem run_copyEntry (es : List ZipEntry) (header : FileHeader)
    (hd : isDirName header.name = false) (content : Bytes) (name : ℕ) :
    (copyEntry content name (.opened es header [])).run h =
      (.returned (.ok (.opened es header content)),
        { h with temps := Function.update h.temps name (some content) }) := by
  refine (run_orReturn_ok (hh.run_osCall .readEntry)).trans ?_
  rw [run_bind_returned (hh.run_write es hd [] content)]
  exact run_orReturn_ok (hh.run_writeTemp name content)

end Host.Faultless

/-! ## A process without faults -/

def Smooth (w : Env MapStore) : Prop := w.host.Faultless ∧ w.ext.Faultless

section Success
variable (digests : Digests) (minimumSize maximumSize : ℕ)

theorem run_onHost_of {σ α : Type} {m : Prog GoError Host α} {w : Env σ} {o : Outcome GoError α}
    {h : Host} (hrun : m.run w.host = (o, h)) :
    (onHost m).run w = (o, { w with host := h }) := by
  rw [run_onHost, hrun]

theorem run_stashAttempt_of_smooth {w : Env MapStore} (hw : Smooth w) {content : Bytes} {name : ℕ}
    (hc : w.host.temps name = some content) :
    ∃ w', (stashAttempt digests minimumSize maximumSize mapBlobstore content (some name)).run w =
      (.returned (none, some name), w') ∧ Smooth w' := by
  rw [stashAttempt_some, run_bind_returned (run_onHost_of (hw.1.run_openTemp hc))]
  simp only
  by_cases hsize : minimumSize ≤ content.length ∧ content.length ≤ maximumSize
  · simp only [if_pos hsize]
    have hput := run_mapBlobstore_put_ok (s := w.ext) (by rw [hw.2.2]; rfl) (digests.key content)
      content
    rw [run_bind, run_onExt, hput]
    exact ⟨_, rfl, hw.1, hw.2.1, by rw [hw.2.2]; rfl⟩
  · simp only [if_neg hsize]
    exact ⟨w, rfl, hw⟩

theorem run_stashEntry_of_smooth {w : Env MapStore} (hw : Smooth w) {content : Bytes} {name : ℕ}
    (hc : w.host.temps name = some content) (z : ZipWriter) :
    ∃ w', (stashEntry digests minimumSize maximumSize mapBlobstore content name z).run w =
      (.returned (.ok z), w') ∧ Smooth w' := by
  let w₁ : Env MapStore := { w with host := { w.host with budgets := w.host.budgets.tail } }
  have hw₁ : Smooth w₁ := hw
  obtain ⟨w₂, hrun, hw₂⟩ :=
    run_stashAttempt_of_smooth digests minimumSize maximumSize hw₁ hc
  unfold stashEntry
  rw [run_bind_returned (run_onHost_of (m := takeBudget) rfl),
    run_bind_returned (run_retryNotify_done _ hrun)]
  exact ⟨_, rfl, hw₂⟩

theorem run_bundleUploadedEntry_of_smooth {entry : ZipEntry}
    (hr : isRegular entry.header.mode = true) (hfits : FitsZip entry.header.name)
    (es : List ZipEntry) {w : Env MapStore} (hw : Smooth w) : ∃ z w',
      (bundleUploadedEntry digests minimumSize maximumSize mapBlobstore entry ⟨es, none⟩).run w =
        (.returned (.ok z), w') ∧ Smooth w' := by
  let header := ZipWriter.completeHeader (zipEntryHeader entry.header.name entry.header.mode)
  let z := ZipWriter.opened es header entry.content
  have hd : isDirName entry.header.name = false := isDirName_of_isRegular hr
  let w₁ : Env MapStore := { w with host := { w.host with
    temps := Function.update w.host.temps w.host.next (some []), next := w.host.next + 1 } }
  let w₂ : Env MapStore := { w₁ with host := { w₁.host with
    temps := Function.update w₁.host.temps w.host.next (some entry.content) } }
  have hw₁ : Smooth w₁ := hw
  have hw₂ : Smooth w₂ := hw
  obtain ⟨w₃, hstash, hw₃⟩ := run_stashEntry_of_smooth digests minimumSize maximumSize hw₂
    (Function.update_self _ _ _) z
  refine ⟨z, { w₃ with host := w₃.host.removeTemp w.host.next }, ?_, hw₃⟩
  unfold bundleUploadedEntry
  rw [run_orReturn_ok (run_onHost_of (hw.1.run_createHeader es hfits _)),
    run_orReturn_ok (run_onHost_of (hw.1.run_osCall .openEntry)),
    run_orReturn_ok (run_onHost_of (hw.1.run_createTemp (by decide)))]
  refine run_removingTemp ?_
  refine (run_orReturn_ok (run_onHost_of (hw₁.1.run_copyEntry es header hd
    entry.content w.host.next))).trans ?_
  refine (run_orReturn_ok (run_onHost_of (hw₂.1.run_osCall .closeTemp))).trans ?_
  exact (run_orReturn_ok (run_onHost_of (hw₂.1.run_osCall .closeEntry))).trans hstash

theorem run_bundleUploaded_of_smooth {entries : List ZipEntry}
    (hfits : ∀ e ∈ entries, FitsZip e.header.name) (es : List ZipEntry) {w : Env MapStore}
    (hw : Smooth w) : ∃ z w', (bundleUploaded digests minimumSize maximumSize mapBlobstore entries
      ⟨es, none⟩).run w = (.returned (.ok z), w') ∧ Smooth w' := by
  induction entries generalizing es w with
  | nil => exact ⟨_, w, rfl, hw⟩
  | cons entry entries ih =>
    obtain ⟨hentryFits, hrestFits⟩ := List.forall_mem_cons.mp hfits
    unfold bundleUploaded
    by_cases hr : isRegular entry.header.mode = true
    · rw [if_pos hr]
      obtain ⟨z, w₁, hentry, hw₁⟩ :=
        run_bundleUploadedEntry_of_smooth digests minimumSize maximumSize hr hentryFits es hw
      obtain ⟨rfl, -⟩ :=
        bundleUploadedEntry_eq_ok digests minimumSize maximumSize mapBlobstore hentry
      rw [run_orReturn_ok hentry]
      exact ih hrestFits _ hw₁
    · rw [if_neg hr]
      exact ih hrestFits es hw

theorem run_payloadAttempt_of_smooth {entry : Fingerprint} {stored : Bytes} (header : FileHeader)
    (hd : isDirName header.name = false) (es : List ZipEntry) {w : Env MapStore} (hw : Smooth w)
    (hc : w.ext.contents entry.sha1 = some stored) :
    (payloadAttempt mapBlobstore entry (.opened es header [])).run w =
      (.returned (none, .opened es header stored), w) := by
  have hget : (onExt (mapBlobstore.get entry.sha1)).run w =
      (.returned (.ok (.whole stored)), w) := by
    have hscript : ({ w.ext with getScript := w.ext.getScript.tail } : MapStore) = w.ext := by
      rw [hw.2.1, List.tail_nil, ← hw.2.1]
    rw [run_onExt, run_mapBlobstore_get, hscript, hw.2.1, hc]
    rfl
  have hwrite := hw.1.run_write es hd [] stored
  unfold payloadAttempt
  rw [run_bind_returned hget]
  simp only
  have hcopy : ((ZipWriter.opened es header []).copyFrom (.whole stored)).run w.host =
      (.returned (.ok (), .opened es header stored), w.host) := by
    simp only [ZipWriter.copyFrom, Body.whole, ZipWriter.copyChunks]
    rw [run_bind_returned hwrite]
    rfl
  rw [run_bind_returned (run_onHost_of hcopy)]
  rfl

theorem run_bundlePayload_of_smooth {payload : List Fingerprint} {contents : Bytes → Option Bytes}
    (hpayload : ∀ f ∈ payload,
      (contents f.sha1).isSome = true ∧ isDirName f.fn = false ∧ FitsZip f.fn)
    (es : List ZipEntry) {w : Env MapStore} (hw : Smooth w) (hc : w.ext.contents = contents) :
    ∃ z w', (bundlePayload mapBlobstore payload ⟨es, none⟩).run w = (.returned (.ok z), w') ∧
      z.broken = none ∧ Smooth w' := by
  induction payload generalizing es w with
  | nil => exact ⟨_, w, rfl, rfl, hw⟩
  | cons entry payload ih =>
    obtain ⟨hsome, hd, hfits⟩ := hpayload entry List.mem_cons_self
    obtain ⟨stored, hstored⟩ := Option.isSome_iff_exists.mp hsome
    let w₁ : Env MapStore := { w with host := { w.host with budgets := w.host.budgets.tail } }
    have hw₁ : Smooth w₁ := hw
    have hattempt := run_payloadAttempt_of_smooth (payloadHeader entry) hd es hw₁
      ((congrFun hc _).trans hstored)
    unfold bundlePayload
    rw [run_orReturn_ok (run_onHost_of (hw.1.run_createHeader es hfits _)),
      run_bind_returned (run_onHost_of (m := takeBudget) rfl)]
    have hretry := run_retryNotify_done (w.host.budgets.headD 0) hattempt
    refine (run_bind_returned hretry).symm ▸ ?_
    exact ih (fun f hf => hpayload f (List.mem_cons_of_mem _ hf)) _ hw₁ hc

/-- **Bundling succeeds**: nothing fails, and every fingerprint is in the stash once the uploaded
entries are. -/
theorem run_createTempZipFileFrom_of_smooth (format : ZipFormat) (payload : List Fingerprint)
    (zipReader : Option (List ZipEntry)) {w : Env MapStore} (hw : Smooth w)
    (hfits : ∀ e ∈ zipReader.getD [], FitsZip e.header.name)
    (hpayload : ∀ f ∈ payload,
      (stashUploads digests minimumSize maximumSize w.ext.contents (zipReader.getD [])
        f.sha1).isSome = true ∧ isDirName f.fn = false ∧ FitsZip f.fn) :
    ∃ name w', (createTempZipFileFrom digests format minimumSize maximumSize mapBlobstore payload
      zipReader).run w = (.returned (.ok name), w') ∧ Smooth w' := by
  let w₁ : Env MapStore := { w with host := { w.host with
    temps := Function.update w.host.temps w.host.next (some []), next := w.host.next + 1 } }
  have hw₁ : Smooth w₁ := hw
  obtain ⟨z₂, w₂, huploaded, hw₂⟩ :=
    run_bundleUploaded_of_smooth digests minimumSize maximumSize hfits [] hw₁
  have hcontents := bundleUploaded_eq_ok_contents digests minimumSize maximumSize _ huploaded
  obtain rfl := bundleUploaded_eq_ok digests minimumSize maximumSize mapBlobstore _ huploaded
  let es := [] ++ ((zipReader.getD []).filter fun e => isRegular e.header.mode).map uploadedEntry
  obtain ⟨z₃, w₃, hbundled, -, hw₃⟩ := run_bundlePayload_of_smooth
    (fun f hf => hcontents ▸ hpayload f hf) es hw₂ rfl
  obtain ⟨rfl, -⟩ := bundlePayload_eq_ok payload hw₂.1.takesZips hbundled
  let es' := es ++ payloadEntries w₂.ext.contents w₂.ext.getScript payload
  obtain ⟨h₄, hclose, -⟩ := ZipWriter.run_close es' hw₃.1.takesZips format
  have hh₄ : h₄ = w₃.host := by
    simp only [ZipWriter.close] at hclose
    rw [run_bind_returned (hw₃.1.run_osCall .zipClose)] at hclose
    exact (Prod.mk.inj hclose).2.symm
  subst hh₄
  let w₄ : Env MapStore := { w₃ with host := { w₃.host with
    temps := Function.update w₃.host.temps w.host.next (some (format.encode es')) } }
  have hwrite : (writeBundle digests format minimumSize maximumSize mapBlobstore payload zipReader
      w.host.next).run w₁ = (.returned (.ok ()), w₄) := by
    unfold writeBundle
    refine (run_orReturn_ok huploaded).trans ((run_orReturn_ok hbundled).trans ?_)
    exact run_bind_returned (run_onHost_of hclose)
  refine ⟨w.host.next, w₄, ?_, hw₃⟩
  unfold createTempZipFileFrom
  rw [run_orReturn_ok (run_onHost_of (hw.1.run_createTemp (by decide)))]
  exact run_bind_returned hwrite

end Success
end BitsService
