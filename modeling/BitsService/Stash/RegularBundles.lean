import BitsService.Stash.BundleExactness

/-! # What kinds of files a bundle contains

The entries of an uploaded archive are filtered by their kind. Those of the fingerprints are not:
their modes come as octal numbers from the client, and their names may be names of directories. -/
namespace BitsService
open GoLib.Effect GoLib.Retry
set_option autoImplicit false

/-! ## Headers as they are read back -/

theorem isRegular_zipEntryHeader (name : Bytes) (mode : FileMode) :
    isRegular (ZipWriter.completeHeader (zipEntryHeader name mode)).mode = true ↔
      isDirName name = false ∧ mode &&& modeType ∉ typeModes := by
  have htype : isRegular (unixModeToFileMode (fileModeToUnixMode mode)) = true ↔
      mode &&& modeType ∉ typeModes := by
    rw [isRegular_unixMode, fileModeToUnixMode_type]
  rw [mode_completeHeader_zipEntryHeader]
  by_cases hd : isDirName name = true
  · rw [if_pos hd, isRegular_or, show isRegular modeDir = false from rfl, Bool.and_false]
    simp [hd]
  · rw [if_neg hd, htype]
    simp [hd]

theorem isRegular_uploadedEntry {entry : ZipEntry} (h : isRegular entry.header.mode = true) :
    isRegular (uploadedEntry entry).header.mode = true := by
  have hzero : entry.header.mode &&& modeType = 0 := by simpa [isRegular] using h
  refine (isRegular_zipEntryHeader _ _).mpr ⟨isDirName_of_isRegular h, ?_⟩
  rw [hzero]
  decide

/-! ## Fingerprints that name other files than regular ones -/

/-- The name is one of a directory, or the mode is a number that has just one of the bits for the
other types of file. -/
def Fingerprint.NamesSpecialFile (f : Fingerprint) : Prop :=
  isDirName f.fn = true ∨
    ∃ mode, parseInt f.mode 8 32 = some mode ∧ UInt32.ofInt mode &&& modeType ∈ typeModes

theorem isRegular_payloadHeader (f : Fingerprint) :
    isRegular (payloadHeader f).mode = true ↔ ¬ f.NamesSpecialFile := by
  have hmode : fileModeFrom f.mode &&& modeType ∈ typeModes ↔
      ∃ mode, parseInt f.mode 8 32 = some mode ∧ UInt32.ofInt mode &&& modeType ∈ typeModes := by
    unfold fileModeFrom
    cases parseInt f.mode 8 32 with
    | none => simp +decide
    | some mode => simp
  rw [payloadHeader, isRegular_zipEntryHeader, hmode, Fingerprint.NamesSpecialFile, not_or,
    Bool.not_eq_true]

/-! ## The headers of a bundle -/

section Headers
variable {σ : Type} {blobstore : NoRedirectBlobstore σ}

theorem returns_payloadAttempt_headers (entry : Fingerprint) (z : ZipWriter) :
    Returns (fun r => r.2.headers = z.headers) (payloadAttempt blobstore entry z) := by
  refine Returns.bind fun r => ?_
  split
  · exact Returns.pure rfl
  · exact Returns.pure rfl
  · next b =>
    intro w r w' hrun
    obtain ⟨⟨r₁, z₁⟩, w₁, hcopy, hrest⟩ := run_bind_eq_returned hrun
    obtain ⟨hcopy, -, -⟩ := run_onHost_eq_returned hcopy
    have hz₁ : z₁.headers = z.headers :=
      ZipWriter.returns_copyChunks_headers b.failure b.chunks z _ _ _ hcopy
    cases r₁ with
    | error e =>
      cases hrest
      exact hz₁
    | ok u =>
      cases hrest
      exact hz₁

theorem returns_retryPayload_headers (entry : Fingerprint) (budget : ℕ) (z : ZipWriter) :
    Returns (fun r => r.2.headers = z.headers)
      (retryNotify (payloadAttempt blobstore entry) budget z) :=
  returns_retryNotify (T := fun t : ZipWriter => t.headers = z.headers)
    (fun t ht w r w' h => (returns_payloadAttempt_headers entry t w r w' h).trans ht) budget rfl

theorem bundlePayload_headers (payload : List Fingerprint) {z z' : ZipWriter} {w w' : Env σ}
    (hrun : (bundlePayload blobstore payload z).run w = (.returned (.ok z'), w')) :
    z'.headers = z.headers ++ payload.map payloadHeader := by
  induction payload generalizing z w with
  | nil =>
    cases hrun
    simp
  | cons entry payload ih =>
    obtain ⟨z₁, w₁, hheader, hrest⟩ := run_orReturn_eq_ok hrun
    obtain ⟨hopened, -, -⟩ := run_onHost_eq_returned hheader
    obtain ⟨-, rfl⟩ := ZipWriter.createHeader_eq_ok _ hopened
    obtain ⟨budget, w₂, -, hrest⟩ := run_bind_eq_returned hrest
    obtain ⟨⟨r, z₃⟩, w₃, hretry, hrest⟩ := run_bind_eq_returned hrest
    have hz₃ : z₃.headers = z.headers ++ [payloadHeader entry] :=
      (returns_retryPayload_headers entry budget _ _ _ _ hretry).trans
        (ZipWriter.headers_opened _ _ _)
    cases r with
    | some e => cases hrest
    | none =>
      rw [ih hrest, hz₃, List.map_cons, List.append_assoc]
      rfl

variable {digests : Digests} {format : ZipFormat} {minimumSize maximumSize : ℕ}

/-- The file that a name is returned for is the archive of the regular entries of the uploaded one
and of one entry for each fingerprint, as far as their headers go, or it was cut off. -/
theorem createTempZipFileFrom_headers {payload : List Fingerprint}
    {zipReader : Option (List ZipEntry)} {w w' : Env σ} {name : ℕ}
    (hrun : (createTempZipFileFrom digests format minimumSize maximumSize blobstore payload
      zipReader).run w = (.returned (.ok name), w')) :
    ∃ es, (w'.host.temps name = some (format.encode es) ∨
        w'.host.temps name = some (format.truncated es)) ∧
      es.map ZipEntry.header =
        (regularEntries zipReader).map (fun e => (uploadedEntry e).header) ++
          payload.map payloadHeader := by
  obtain ⟨w₁, z₂, w₂, z₃, w₃, file, host, -, huploaded, hpayload, hclose, -, hfile⟩ :=
    createTempZipFileFrom_stages hrun
  obtain rfl := bundleUploaded_eq_ok digests minimumSize maximumSize blobstore _ huploaded
  have hheaders := bundlePayload_headers payload hpayload
  refine ⟨z₃.entries, ?_, ?_⟩
  · rw [hfile]
    by_cases hz : z₃.broken = none ∧ w₃.host.Flushes
    · exact .inl (congrArg some (ZipWriter.close_eq_encode hz.1 hz.2 hclose))
    · exact .inr (congrArg some (ZipWriter.close_eq_truncated hz hclose))
  · refine hheaders.trans ?_
    simp [ZipWriter.headers, regularEntries]

/-! ## Only regular files -/

def OnlyRegular (format : ZipFormat) (file : Option Bytes) : Prop :=
  ∀ zipFile es, file = some zipFile → format.decode zipFile = .ok es →
    ∀ e ∈ es, isRegular e.header.mode = true

variable (digests minimumSize maximumSize blobstore) in
/-- **Kinds of files in a bundle**: an archive that is returned contains only regular files if and
only if no fingerprint names another kind of file. -/
theorem onlyRegular_iff (hcut : format.RefusesTruncated) {payload : List Fingerprint}
    {zipReader : Option (List ZipEntry)} {w w' : Env σ} {name : ℕ}
    (hrun : (createTempZipFileFrom digests format minimumSize maximumSize blobstore payload
      zipReader).run w = (.returned (.ok name), w'))
    (hread : ∃ zipFile es, w'.host.temps name = some zipFile ∧ format.decode zipFile = .ok es) :
    OnlyRegular format (w'.host.temps name) ↔ ∀ f ∈ payload, ¬ f.NamesSpecialFile := by
  obtain ⟨zipFile, es', hzip, hdecode⟩ := hread
  obtain ⟨es, hfile, hheaders⟩ := createTempZipFileFrom_headers hrun
  have hfile : w'.host.temps name = some (format.encode es) := by
    rcases hfile with hfile | hfile
    · exact hfile
    · rw [hzip] at hfile
      cases hfile
      exact absurd hdecode (hcut es es')
  have hfits := createTempZipFileFrom_fits digests format minimumSize maximumSize hrun hheaders
  have hall : OnlyRegular format (w'.host.temps name) ↔
      ∀ h ∈ es.map ZipEntry.header, isRegular h.mode = true := by
    rw [List.forall_mem_map]
    constructor
    · intro h
      exact h _ es hfile (format.decode_encode hfits)
    · intro h zipFile' es'' hzip' hdecode'
      rw [hfile] at hzip'
      cases hzip'
      rw [format.decode_encode hfits] at hdecode'
      cases hdecode'
      exact h
  have huploaded : ∀ e ∈ regularEntries zipReader,
      isRegular (uploadedEntry e).header.mode = true := fun e he =>
    isRegular_uploadedEntry (List.mem_filter.mp he).2
  rw [hall, hheaders, List.forall_mem_append, List.forall_mem_map, List.forall_mem_map]
  constructor
  · rintro ⟨-, h⟩ f hf
    exact (isRegular_payloadHeader f).mp (h f hf)
  · intro h
    exact ⟨huploaded, fun f hf => (isRegular_payloadHeader f).mpr (h f hf)⟩

end Headers

/-- A fingerprint with the permissions of a regular file. -/
theorem onlyRegular_iff_hello :
    plainFormat.RefusesTruncated ∧
      ∃ w', (createTempZipFileFrom helloDigests plainFormat 0 100 mapBlobstore [helloFingerprint]
          none).run (helloStash []) = (.returned (.ok 0), w') ∧
        (OnlyRegular plainFormat (w'.host.temps 0) ↔
          ∀ f ∈ [helloFingerprint], ¬ f.NamesSpecialFile) := by
  have hrun : (createTempZipFileFrom helloDigests plainFormat 0 100 mapBlobstore
    [helloFingerprint] none).run (helloStash []) = (.returned (.ok 0), _) := rfl
  exact ⟨plainFormat_refusesTruncated, _, hrun, onlyRegular_iff mapBlobstore helloDigests 0 100
    plainFormat_refusesTruncated hrun ⟨_, _, rfl, plainFormat.decode_encode (by decide)⟩⟩

/-- An octal number that has the bit for symbolic links. -/
def linkFingerprint : Fingerprint := { helloFingerprint with mode := ascii "1000000000" }

theorem not_onlyRegular_symlink :
    ∃ w', (createTempZipFileFrom helloDigests plainFormat 0 100 mapBlobstore [linkFingerprint]
        none).run (helloStash []) = (.returned (.ok 0), w') ∧
      ¬ OnlyRegular plainFormat (w'.host.temps 0) := by
  refine ⟨_, rfl, fun h => ?_⟩
  have hlink := h _ [⟨payloadHeader linkFingerprint, ascii "hello"⟩] rfl
    (plainFormat.decode_encode (by decide)) _ List.mem_cons_self
  exact absurd hlink (by decide)

end BitsService
