import BitsService.Stash.BundleExactness

/-! # Bundling onto a disk that fills up

A write to the zip file that fails fails the attempt it belongs to, and is remembered: no later
attempt that has something to write succeeds. What the last flush says is not looked at. -/
namespace BitsService
open GoLib.Effect GoLib.Retry
set_option autoImplicit false

/-! ## The last entry of the writer, on any host -/

/-- After a copy of some bytes to the last entry: which entry it still is, that a failure is
remembered from a write and not from nothing, and what is known once all went through. -/
structure AfterCopy (es : List ZipEntry) (h : FileHeader) (content copied : Bytes) (z : ZipWriter)
    (r : Result Unit × ZipWriter) : Prop where
  stays : ∃ content', r.2.entries = es ++ [⟨h, content'⟩]
  idle : copied = [] → r.2.broken = z.broken
  done : r.1 = .ok () →
    r.2.entries = es ++ [⟨h, content ++ copied⟩] ∧ (copied ≠ [] → r.2.broken = none)

section Copy
variable {es : List ZipEntry} {h : FileHeader} {content : Bytes} {z : ZipWriter}

theorem AfterCopy.nothing (hz : z.entries = es ++ [⟨h, content⟩]) (r : Result Unit) :
    AfterCopy es h content [] z (r, z) where
  stays := ⟨content, hz⟩
  idle _ := rfl
  done _ := ⟨by rw [hz, List.append_nil], fun hne => absurd rfl hne⟩

theorem AfterCopy.append {chunk rest : Bytes} {z₁ : ZipWriter} {r : Result Unit × ZipWriter}
    (hchunk : AfterCopy es h content chunk z (.ok (), z₁))
    (hrest : AfterCopy es h (content ++ chunk) rest z₁ r) :
    AfterCopy es h content (chunk ++ rest) z r where
  stays := hrest.stays
  idle hnil := by
    obtain ⟨hchunk', hrest'⟩ := List.append_eq_nil_iff.mp hnil
    exact (hrest.idle hrest').trans (hchunk.idle hchunk')
  done hok := by
    obtain ⟨hentries, hbroken⟩ := hrest.done hok
    refine ⟨by rw [hentries, List.append_assoc], fun hne => ?_⟩
    by_cases hrest' : rest = []
    · have hchunk' : chunk ≠ [] := fun hc => hne (by rw [hc, hrest', List.append_nil])
      exact (hrest.idle hrest').trans ((hchunk.done rfl).2 hchunk')
    · exact hbroken hrest'

/-- A copy that fails at its first chunk. -/
theorem AfterCopy.stop {chunk : Bytes} (rest : Bytes) {z₁ : ZipWriter} {e : GoError}
    (hchunk : AfterCopy es h content chunk z (.error e, z₁)) :
    AfterCopy es h content (chunk ++ rest) z (.error e, z₁) where
  stays := hchunk.stays
  idle hnil := hchunk.idle (List.append_eq_nil_iff.mp hnil).1
  done hok := absurd hok (by simp)

theorem afterCopy_write (hz : z.entries = es ++ [⟨h, content⟩]) (chunk : Bytes) :
    Returns (AfterCopy es h content chunk z) (z.write chunk) := by
  have hstays : ∃ content', z.entries = es ++ [⟨h, content'⟩] := ⟨content, hz⟩
  unfold ZipWriter.write
  by_cases hc : chunk = []
  · rw [if_pos hc, hc]
    exact Returns.pure (AfterCopy.nothing hz _)
  rw [if_neg hc]
  split
  · exact Returns.pure ⟨hstays, fun hnil => absurd hnil hc, by simp⟩
  cases hb : z.broken with
  | some e => exact Returns.pure ⟨hstays, fun hnil => absurd hnil hc, by simp⟩
  | none =>
    refine Returns.bind fun r => ?_
    cases r with
    | error e => exact Returns.pure ⟨hstays, fun hnil => absurd hnil hc, by simp⟩
    | ok u =>
      have hopened : z = .opened es h content := by
        rw [ZipWriter.opened, ← hz, ← hb]
      have happend : z.append chunk = .opened es h (content ++ chunk) := by
        rw [hopened, ZipWriter.opened_append]
      refine Returns.pure ⟨⟨content ++ chunk, ?_⟩, fun hnil => absurd hnil hc, fun _ => ⟨?_, ?_⟩⟩
      · rw [happend, ZipWriter.opened_entries]
      · rw [happend, ZipWriter.opened_entries]
      · rw [happend]
        exact fun _ => rfl

theorem afterCopy_copyChunks (hz : z.entries = es ++ [⟨h, content⟩]) (failure : Option GoError)
    (chunks : List Bytes) :
    Returns (fun r => AfterCopy es h content chunks.flatten z r ∧ (r.1 = .ok () → failure = none))
      (ZipWriter.copyChunks failure chunks z) := by
  induction chunks generalizing z content with
  | nil =>
    refine Returns.pure ⟨AfterCopy.nothing hz _, fun hok => ?_⟩
    cases failure with
    | none => rfl
    | some e => cases hok
  | cons chunk chunks ih =>
    intro host r host' hrun
    obtain ⟨⟨r₁, z₁⟩, host₁, hwrite, hrest⟩ := run_bind_eq_returned hrun
    have hchunk := afterCopy_write hz chunk _ _ _ hwrite
    cases r₁ with
    | error e =>
      cases hrest
      exact ⟨hchunk.stop _, by simp⟩
    | ok u =>
      obtain ⟨hcopied, hfailure⟩ := ih (hchunk.done rfl).1 _ _ _ hrest
      exact ⟨hchunk.append hcopied, hfailure⟩

end Copy

/-! ## The attempts on one fingerprint -/

section Attempt
variable (entry : Fingerprint) {es : List ZipEntry} {h : FileHeader}

/-- The stash has not changed, the entry is still open, and nothing has failed to be written unless
the blob has bytes. -/
def StillOpen (contents : Bytes → Option Bytes) (es : List ZipEntry) (h : FileHeader)
    (z : ZipWriter) (w : Env MapStore) : Prop :=
  w.ext.contents = contents ∧ (∃ content, z.entries = es ++ [⟨h, content⟩]) ∧
    (contents entry.sha1 = some [] → z.broken = none)

/-- The entry ends with the blob, and everything so far has been written. -/
def WholeBlob (contents : Bytes → Option Bytes) (es : List ZipEntry) (h : FileHeader)
    (z : ZipWriter) : Prop :=
  ∃ stored content, contents entry.sha1 = some stored ∧ stored <:+ content ∧
    z = ⟨es ++ [⟨h, content⟩], none⟩

theorem wp_payloadAttempt_stillOpen {contents : Bytes → Option Bytes} {z : ZipWriter}
    {w : Env MapStore} (hw : StillOpen entry contents es h z w) :
    wp (payloadAttempt mapBlobstore entry z)
      (fun r w' => StillOpen entry contents es h r.2 w' ∧
        (r.1 = none → WholeBlob entry contents es h r.2)) (fun _ => True) w := by
  obtain ⟨rfl, ⟨content, hz⟩, hbroken⟩ := hw
  let w₁ : Env MapStore := { w with ext := { w.ext with getScript := w.ext.getScript.tail } }
  have hget : (onExt (mapBlobstore.get entry.sha1)).run w = (.returned
      (MapStore.answer (w.ext.contents entry.sha1) (w.ext.getScript.headD .ok)), w₁) := rfl
  have hsame : StillOpen entry w.ext.contents es h z w₁ := ⟨rfl, ⟨content, hz⟩, hbroken⟩
  unfold payloadAttempt
  refine wp_bind.mpr (wp_of_returned hget ?_)
  cases hanswer : MapStore.answer (w.ext.contents entry.sha1) (w.ext.getScript.headD .ok) with
  | error e =>
    cases e with
    | notFound text missingKey => exact ⟨hsame, by simp⟩
    | _ => exact ⟨hsame, by simp⟩
  | ok b =>
    obtain ⟨stored, hstored, hdelivered, hwhole⟩ := MapStore.answer_eq_ok hanswer
    refine wp_bind.mpr (wp_of_run (fun r w₂ hrun => ?_) (fun _ _ _ => trivial))
    obtain ⟨hrun, hext, -⟩ := run_onHost_eq_returned hrun
    obtain ⟨hcopied, hfailure⟩ := afterCopy_copyChunks hz b.failure b.chunks _ _ _ hrun
    obtain ⟨r, z'⟩ := r
    have hopen : StillOpen entry w.ext.contents es h z' w₂ := by
      refine ⟨by rw [hext], hcopied.stays, fun hempty => ?_⟩
      have hnil : stored = [] := Option.some.inj (hstored.symm.trans hempty)
      exact (hcopied.idle (hdelivered hnil)).trans (hbroken hempty)
    cases r with
    | error e => exact ⟨hopen, by simp⟩
    | ok u =>
      refine ⟨hopen, fun _ => ⟨stored, content ++ stored, hstored, List.suffix_append _ _, ?_⟩⟩
      have hall : b.chunks.flatten = stored := hwhole (hfailure rfl)
      obtain ⟨hentries, hwritten⟩ := hcopied.done rfl
      have hunbroken : z'.broken = none := by
        by_cases hnil : stored = []
        · exact hopen.2.2 (hnil ▸ hstored)
        · exact hwritten (hall ▸ hnil)
      rw [hall] at hentries
      rw [← hentries, ← hunbroken]

/-- **No failed write is lost in the retries**: when an attempt succeeds in the end, the entry ends
with the whole blob, and nothing that was written before has failed. -/
theorem wp_retryPayload_wholeBlob {contents : Bytes → Option Bytes} (budget : ℕ) {z : ZipWriter}
    {w : Env MapStore} (hw : StillOpen entry contents es h z w) :
    wp (retryNotify (payloadAttempt mapBlobstore entry) budget z)
      (fun r w' => w'.ext.contents = contents ∧ (r.1 = none → WholeBlob entry contents es h r.2))
      (fun _ => True) w := by
  refine wp_retryNotify (StillOpen entry contents es h) _ (fun z w hw => ?_) budget hw
  refine (wp_payloadAttempt_stillOpen entry hw).mono (fun r w' hr => ?_) (fun _ h => h)
  obtain ⟨hopen, hwhole⟩ := hr
  refine ⟨⟨hopen.1, fun hnone => hwhole ?_⟩, fun _ _ => hopen⟩
  cases hr : r.1 with
  | none => rfl
  | some f =>
    rw [hr] at hnone
    cases hnone

end Attempt

/-! ## The payload loop -/

/-- The entry of a fingerprint, with every byte of its blob at its end. -/
def EndsWithBlob (contents : Bytes → Option Bytes) (f : Fingerprint) (e : ZipEntry) : Prop :=
  e.header = payloadHeader f ∧ ∃ stored, contents f.sha1 = some stored ∧ stored <:+ e.content

theorem headers_of_endsWithBlobs {contents : Bytes → Option Bytes} {payload : List Fingerprint}
    {blobs : List ZipEntry} (h : List.Forall₂ (EndsWithBlob contents) payload blobs) :
    blobs.map ZipEntry.header = payload.map payloadHeader := by
  induction h with
  | nil => rfl
  | cons hentry _ ih => rw [List.map_cons, List.map_cons, ih, hentry.1]

theorem bundlePayload_endsWithBlobs (payload : List Fingerprint) {es : List ZipEntry}
    {w w' : Env MapStore} {z' : ZipWriter}
    (hrun : (bundlePayload mapBlobstore payload ⟨es, none⟩).run w = (.returned (.ok z'), w')) :
    ∃ blobs, z' = ⟨es ++ blobs, none⟩ ∧
      List.Forall₂ (EndsWithBlob w.ext.contents) payload blobs ∧
      w'.ext.contents = w.ext.contents := by
  induction payload generalizing es w with
  | nil =>
    cases hrun
    exact ⟨[], by rw [List.append_nil], .nil, rfl⟩
  | cons entry payload ih =>
    obtain ⟨z₁, w₁, hheader, hrest⟩ := run_orReturn_eq_ok hrun
    obtain ⟨hopened, hext₁, -⟩ := run_onHost_eq_returned hheader
    obtain ⟨-, rfl⟩ := ZipWriter.createHeader_eq_ok _ hopened
    obtain ⟨budget, w₂, hbudget, hrest⟩ := run_bind_eq_returned hrest
    obtain ⟨-, hext₂, -⟩ := run_onHost_eq_returned hbudget
    obtain ⟨⟨r, z₃⟩, w₃, hretry, hrest⟩ := run_bind_eq_returned hrest
    have hopen : StillOpen entry w.ext.contents es (payloadHeader entry)
        (.opened es (payloadHeader entry) []) w₂ := by
      refine ⟨?_, ⟨[], rfl⟩, fun _ => rfl⟩
      rw [hext₂, hext₁]
    obtain ⟨hcontents, hwhole⟩ := (wp_retryPayload_wholeBlob entry budget hopen).returned hretry
    cases r with
    | some e => cases hrest
    | none =>
      obtain ⟨stored, content, hstored, hends, hz₃⟩ := hwhole rfl
      have hz₃ : z₃ = ⟨es ++ [⟨payloadHeader entry, content⟩], none⟩ := hz₃
      subst hz₃
      obtain ⟨blobs, hz', hblobs, hcontents'⟩ := ih hrest
      rw [hcontents] at hblobs hcontents'
      refine ⟨⟨payloadHeader entry, content⟩ :: blobs, ?_, ?_, hcontents'⟩
      · rw [hz', List.append_assoc]
        rfl
      · exact .cons ⟨rfl, stored, hstored, hends⟩ hblobs

/-! ## Complete bundles -/

section Bundle
variable (digests : Digests) (format : ZipFormat) (minimumSize maximumSize : ℕ)

/-- The file is an archive of the regular entries of the uploaded one, with all their bytes, and of
one entry for each fingerprint, with all the bytes of its blob. -/
def CompleteBundle (contents : Bytes → Option Bytes) (payload : List Fingerprint)
    (zipReader : Option (List ZipEntry)) (file : Option Bytes) : Prop :=
  ∃ zipFile blobs, file = some zipFile ∧
    format.decode zipFile = .ok ((regularEntries zipReader).map uploadedEntry ++ blobs) ∧
    List.Forall₂ (EndsWithBlob contents) payload blobs

/-- **A disk that fills up**: the file that is returned is a complete archive if and only if the
last flush goes through, whatever the writes before it did. -/
theorem completeBundle_iff (hcut : format.RefusesTruncated) {payload : List Fingerprint}
    {zipReader : Option (List ZipEntry)} {w w' : Env MapStore} {name : ℕ}
    (hrun : (createTempZipFileFrom digests format minimumSize maximumSize mapBlobstore payload
      zipReader).run w = (.returned (.ok name), w')) :
    CompleteBundle format w'.ext.contents payload zipReader (w'.host.temps name) ↔
      w.host.Flushes := by
  obtain ⟨w₁, z₂, w₂, z₃, w₃, file, host, htemp, huploaded, hpayload, hclose, hext, hfile⟩ :=
    createTempZipFileFrom_stages hrun
  -- what is scripted for the last flush is still there when the writer is closed
  have hcalls := keptByCalls_zipClose (w.host.faults .zipClose)
  have hscript₁ : w₁.host.faults .zipClose = w.host.faults .zipClose :=
    (keeps_onHost_ofHost (hcalls.createTemp (fun _ _ _ h => h) _)).of_run htemp rfl
  have hscript₂ : w₂.host.faults .zipClose = w.host.faults .zipClose :=
    (hcalls.bundleUploaded (fun _ h => h) (fun _ _ _ h => h) _ _).of_run huploaded hscript₁
  have hscript₃ : w₃.host.faults .zipClose = w.host.faults .zipClose :=
    (hcalls.bundlePayload (fun _ h => h) payload _).of_run hpayload hscript₂
  have hflushes : w₃.host.Flushes ↔ w.host.Flushes := by
    rw [Host.Flushes, Host.Flushes, hscript₃]
  obtain rfl := bundleUploaded_eq_ok digests minimumSize maximumSize mapBlobstore _ huploaded
  obtain ⟨blobs, rfl, hblobs, hcontents⟩ := bundlePayload_endsWithBlobs payload hpayload
  rw [hext, hcontents, hfile, ← hflushes]
  constructor
  · rintro ⟨zipFile, blobs', hzip, hdecode, -⟩
    by_contra hno
    cases hzip
    rw [ZipWriter.close_eq_truncated (fun h => hno h.2) hclose] at hdecode
    exact hcut _ _ hdecode
  · intro hflush
    refine ⟨file, blobs, rfl, ?_, hblobs⟩
    have hheaders := headers_of_endsWithBlobs hblobs
    have hfits : ∀ e ∈ (regularEntries zipReader).map uploadedEntry ++ blobs,
        FitsZip e.header.name := by
      refine createTempZipFileFrom_fits digests format minimumSize maximumSize hrun ?_
      rw [List.map_append, List.map_map, hheaders]
      rfl
    rw [ZipWriter.close_eq_encode rfl hflush hclose, List.nil_append]
    exact format.decode_encode hfits

end Bundle

/-- A host on which the last flush of the writer fails. -/
def fullDisk : Env MapStore :=
  let w := helloStash []
  { w with host := { w.host with
      faults := Function.update w.host.faults .zipClose
        [.error (.sys (ascii "no space left on device"))] } }

/-- A disk that takes everything. -/
theorem completeBundle_iff_hello :
    plainFormat.RefusesTruncated ∧
      ∃ w', (createTempZipFileFrom helloDigests plainFormat 0 100 mapBlobstore [helloFingerprint]
          none).run (helloStash []) = (.returned (.ok 0), w') ∧
        (CompleteBundle plainFormat w'.ext.contents [helloFingerprint] none (w'.host.temps 0) ↔
          (helloStash []).host.Flushes) := by
  have hrun : (createTempZipFileFrom helloDigests plainFormat 0 100 mapBlobstore
    [helloFingerprint] none).run (helloStash []) = (.returned (.ok 0), _) := rfl
  exact ⟨plainFormat_refusesTruncated, _, hrun,
    completeBundle_iff helloDigests plainFormat 0 100 plainFormat_refusesTruncated hrun⟩

/-- The last flush fails, and a name is returned for what was cut off. -/
theorem not_completeBundle_fullDisk :
    ∃ w', (createTempZipFileFrom helloDigests plainFormat 0 100 mapBlobstore [helloFingerprint]
        none).run fullDisk = (.returned (.ok 0), w') ∧
      ¬ CompleteBundle plainFormat w'.ext.contents [helloFingerprint] none (w'.host.temps 0) := by
  refine ⟨_, rfl, ?_⟩
  rintro ⟨zipFile, blobs, hzip, hdecode, -⟩
  have hcut : some zipFile = some (plainFormat.truncated []) := hzip.symm
  cases hcut
  cases hdecode

end BitsService
