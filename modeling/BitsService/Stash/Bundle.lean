import BitsService.Foundations.ZipWriter
import BitsService.Stash.Fingerprint

/-! # Bundling a package

`CreateTempZipFileFrom` writes the regular entries of an uploaded archive, stashing those of the
right size, and then one entry for each fingerprint, read from the app stash. Both loops retry; what
a retried closure captures and assigns is the argument of its attempts. -/
namespace BitsService
open GoLib.Effect GoLib.Retry
set_option autoImplicit false

/-- SHA-1, of which its length is used, and SHA-256. -/
structure Digests where
  sha1 : Bytes → Bytes
  sha256 : Bytes → Bytes
  sha1_length : ∀ b, (sha1 b).length = 20

def Digests.key (digests : Digests) (content : Bytes) : Bytes := hexEncode (digests.sha1 content)

def helloDigests : Digests where
  sha1 b := if b = ascii "hello" then
      [0xaa, 0xf4, 0xc6, 0x1d, 0xdc, 0xc5, 0xe8, 0xa2, 0xda, 0xbe, 0xde, 0x0f, 0x3b, 0x48, 0x2c, 0xd9,
        0xae, 0xa9, 0x43, 0x4d]
    else List.replicate 20 0
  sha256 b := if b = ascii "hello" then
      [0x2c, 0xf2, 0x4d, 0xba, 0x5f, 0xb0, 0xa3, 0x0e, 0x26, 0xe8, 0x3b, 0x2a, 0xc5, 0xb9, 0xe2, 0x9e,
        0x1b, 0x16, 0x1e, 0x5c, 0x1f, 0xa7, 0x42, 0x5e, 0x73, 0x04, 0x33, 0x62, 0x93, 0x8b, 0x98, 0x24]
    else List.replicate 32 0
  sha1_length b := by split <;> rfl

/-- The formats and digests that come from the standard library. -/
structure Formats where
  digests : Digests
  zip : ZipFormat
  json : JsonFormat

def plainFormats : Formats := ⟨helloDigests, plainFormat, plainJson⟩

def fileModeFrom (s : Bytes) : FileMode :=
  match parseInt s 8 32 with
  | none => 0o744
  | some mode => UInt32.ofInt mode

def zipEntryHeader (name : Bytes) (mode : FileMode) : FileHeader :=
  (⟨name, methodDeflate, 0, 0⟩ : FileHeader).setMode mode

/-- The mode that is read back from a header that `CreateHeader` has completed. -/
theorem mode_completeHeader_zipEntryHeader (name : Bytes) (mode : FileMode) :
    (ZipWriter.completeHeader (zipEntryHeader name mode)).mode =
      if isDirName name = true then unixModeToFileMode (fileModeToUnixMode mode) ||| modeDir
      else unixModeToFileMode (fileModeToUnixMode mode) := by
  have hhost : (ZipWriter.completeHeader (zipEntryHeader name mode)).creatorVersion >>> 8 =
      creatorUnix := by
    simp only [ZipWriter.completeHeader, zipEntryHeader, FileHeader.setMode]
    decide
  have hattrs : (ZipWriter.completeHeader (zipEntryHeader name mode)).externalAttrs >>> 16 =
      fileModeToUnixMode mode := setMode_externalAttrs ⟨name, methodDeflate, 0, 0⟩ mode
  have hname : (ZipWriter.completeHeader (zipEntryHeader name mode)).name = name := rfl
  simp only [FileHeader.mode, hhost, hattrs, hname, true_or, if_true]

/-! ## The two loops -/

section Bundle
variable {σ : Type} (digests : Digests) (format : ZipFormat) (minimumSize maximumSize : ℕ)
  (blobstore : NoRedirectBlobstore σ)

/-- One attempt to stash an uploaded entry. It assigns the captured `tempFile`, which a failing
`os.Open` makes nil, and begins by asking it for its name. -/
def stashAttempt (content : Bytes) (tempFile : Option ℕ) :
    Prog GoError (Env σ) (Option (Failure GoError) × Option ℕ) :=
  match tempFile with
  | none => raise .nilDereference
  | some name => do
    match ← onHost (openTemp name) with
    | .error e => pure (some (.transient (e.wrap "Could not open temp file for reading")), none)
    | .ok src =>
      if minimumSize ≤ content.length ∧ content.length ≤ maximumSize then
        match ← onExt (blobstore.put (digests.key content) src) with
        | .error .noSpaceLeft => pure (some (.permanent .noSpaceLeft), some name)
        | .error e => pure (some (.transient (.wrapped
            (ascii "Could not upload file to blobstore. SHA: '" ++ digests.key content ++
              ascii "'") e)), some name)
        | .ok () => pure (none, some name)
      else pure (none, some name)

/-- `io.Copy` from an entry to the zip writer and the temp file, which hashes on the way. -/
def copyEntry (content : Bytes) (tempFile : ℕ) (z : ZipWriter) :
    Prog GoError Host (Result ZipWriter) :=
  orReturn (osCall .readEntry) id fun _ => do
    let (r, z) ← z.write content
    match r with
    | .error e => pure (.error e)
    | .ok () => orReturn (writeTemp tempFile content) id fun _ => pure (.ok z)

/-- The retry loop of an entry and what follows it. -/
def stashEntry (content : Bytes) (tempFile : ℕ) (z : ZipWriter) :
    Prog GoError (Env σ) (Result ZipWriter) := do
  let budget ← onHost takeBudget
  let (r, tempFile) ← retryNotify (stashAttempt digests minimumSize maximumSize blobstore content)
    budget (some tempFile)
  match r, tempFile with
  | some e, _ => pure (.error e)
  | none, none => raise .nilDereference
  | none, some name => do
    onHost (modifyState (Host.removeTemp name))
    pure (.ok z)

def bundleUploadedEntry (entry : ZipEntry) (z : ZipWriter) :
    Prog GoError (Env σ) (Result ZipWriter) :=
  orReturn (onHost (z.createHeader (zipEntryHeader entry.header.name entry.header.mode)))
    (.wrap "Could not create header in zip file") fun z =>
  orReturn (onHost (osCall .openEntry)) (.wrap "Could not open zip file entry") fun _ =>
  orReturn (onHost (createTemp (ascii "app-stash"))) (.wrap "Could not create tempfile")
    fun tempFile =>
  removingTemp tempFile <|
  orReturn (onHost (copyEntry entry.content tempFile z))
    (.wrap "Could not copy content from zip entry") fun z =>
  orReturn (onHost (osCall .closeTemp)) (.wrap "Could not close temp file") fun _ =>
  orReturn (onHost (osCall .closeEntry)) (.wrap "Could not close zip entry reader") fun _ =>
  stashEntry digests minimumSize maximumSize blobstore entry.content tempFile z

def bundleUploaded : List ZipEntry → ZipWriter → Prog GoError (Env σ) (Result ZipWriter)
  | [], z => pure (.ok z)
  | entry :: entries, z =>
    if isRegular entry.header.mode then
      orReturn (bundleUploadedEntry digests minimumSize maximumSize blobstore entry z) id fun z =>
        bundleUploaded entries z
    else bundleUploaded entries z

/-- One attempt to copy a stashed blob into the open entry. What it wrote before it failed stays
there. -/
def payloadAttempt (entry : Fingerprint) (zipEntry : ZipWriter) :
    Prog GoError (Env σ) (Option (Failure GoError) × ZipWriter) := do
  match ← onExt (blobstore.get entry.sha1) with
  | .error (.notFound _ _) =>
    pure (some (.permanent (.newNotFoundErrorWithKey entry.sha1)), zipEntry)
  | .error e => pure (some (.transient (.wrapped
      (ascii "Could not get file from blobstore. SHA: '" ++ entry.sha1 ++ ascii "'") e)), zipEntry)
  | .ok b => do
    let (r, zipEntry) ← onHost (zipEntry.copyFrom b)
    match r with
    | .error e => pure (some (.transient (.wrapped
        (ascii "Could not copy file to zip entry. SHA:%!(EXTRA string=" ++ entry.sha1 ++ ascii ")")
        e)), zipEntry)
    | .ok () => pure (none, zipEntry)

def bundlePayload : List Fingerprint → ZipWriter → Prog GoError (Env σ) (Result ZipWriter)
  | [], z => pure (.ok z)
  | entry :: payload, z =>
    orReturn (onHost (z.createHeader (zipEntryHeader entry.fn (fileModeFrom entry.mode))))
      (.wrap "Could create header in zip file") fun z => do
    let budget ← onHost takeBudget
    let (r, z) ← retryNotify (payloadAttempt blobstore entry) budget z
    match r with
    | some e => pure (.error e)
    | none => bundlePayload payload z

/-- What is written before the temp zip file is left: its writer is closed without a look at the
error. -/
def writeBundle (bundlesPayload : List Fingerprint) (zipReader : Option (List ZipEntry))
    (tempZipFile : ℕ) : Prog GoError (Env σ) (Result Unit) :=
  orReturn (bundleUploaded digests minimumSize maximumSize blobstore (zipReader.getD []) .new) id
    fun z =>
  orReturn (bundlePayload blobstore bundlesPayload z) id fun z => do
    let content ← onHost (z.close format)
    onHost (setTemp tempZipFile (some content))
    pure (.ok ())

/-- The temp zip file is removed when an error is returned, and stays when the function panics. -/
def createTempZipFileFrom (bundlesPayload : List Fingerprint) (zipReader : Option (List ZipEntry)) :
    Prog GoError (Env σ) (Result ℕ) :=
  orReturn (onHost (createTemp (ascii "bundles"))) (.wrap "Could not create temp file")
    fun tempZipFile => do
    match ← writeBundle digests format minimumSize maximumSize blobstore bundlesPayload zipReader
      tempZipFile with
    | .error e => do
      onHost (modifyState (Host.removeTemp tempZipFile))
      pure (.error e)
    | .ok () => pure (.ok tempZipFile)

end Bundle

/-! ## What an attempt does -/

/-- How an attempt fails on what `Put` says. -/
def stashPutFailure (digests : Digests) (content : Bytes) : Result Unit → Option (Failure GoError)
  | .error .noSpaceLeft => some (.permanent .noSpaceLeft)
  | .error e => some (.transient (.wrapped
      (ascii "Could not upload file to blobstore. SHA: '" ++ digests.key content ++ ascii "'") e))
  | .ok () => none

theorem stashPutFailure_eq_none_iff (digests : Digests) (content : Bytes) (r : Result Unit) :
    stashPutFailure digests content r = none ↔ r = .ok () := by
  cases r with
  | ok u => exact iff_of_true rfl rfl
  | error e => cases e <;> simp [stashPutFailure]

/-- An attempt with a file: open it, and put its content if the size is in range. -/
theorem stashAttempt_some {σ : Type} (digests : Digests) (minimumSize maximumSize : ℕ)
    (blobstore : NoRedirectBlobstore σ) (content : Bytes) (name : ℕ) :
    stashAttempt digests minimumSize maximumSize blobstore content (some name) =
      onHost (openTemp name) >>= fun r => match r with
        | .error e =>
          pure (some (.transient (e.wrap "Could not open temp file for reading")), none)
        | .ok src =>
          if minimumSize ≤ content.length ∧ content.length ≤ maximumSize then
            onExt (blobstore.put (digests.key content) src) >>= fun r =>
              pure (stashPutFailure digests content r, some name)
          else pure (none, some name) := by
  refine Prog.bind_congr _ fun r => ?_
  cases r with
  | error e => rfl
  | ok src =>
    refine if_congr Iff.rfl (Prog.bind_congr _ fun r => ?_) rfl
    cases r with
    | ok u => rfl
    | error e => cases e <;> rfl

end BitsService
