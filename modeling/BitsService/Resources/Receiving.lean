import BitsService.Resources.Handler
import BitsService.Stash.BundleInvariant

/-! # What an upload leaves alone

Until its bits are in a temp file, an upload touches the app stash, the host, and the response if it
is rejected. After that it touches the blobstore, the updater and the host. -/
namespace BitsService
open GoLib.Effect GoLib.Retry
set_option autoImplicit false

/-- The invariants that an upload keeps until its bits are in a temp file. -/
structure KeptWhileReceiving {σ : Type} (formats : Formats) (handler : ResourceHandler σ)
    (I : Env σ → Prop) : Prop where
  blind : HostBlind I
  answers : KeptByAnswers I
  stashPut : ∀ content,
    Keeps I (onExt (handler.appStashBlobstore.put (formats.digests.key content) content))
  stashGet : ∀ key, Keeps I (onExt (handler.appStashBlobstore.get key))

namespace KeptWhileReceiving
variable {σ : Type} {formats : Formats} {handler : ResourceHandler σ} {I : Env σ → Prop}
  (hI : KeptWhileReceiving formats handler I)
include hI

theorem completePackageWithResources (resources file : Bytes) :
    Keeps I (completePackageWithResources formats handler resources file) := by
  unfold BitsService.completePackageWithResources
  cases if resources = [] then some [] else formats.json.unmarshal resources with
  | none => exact Keeps.pure I _
  | some bundlesPayload =>
    cases hmissing : anyKeyMissingIn bundlesPayload with
    | some key => simp only [hmissing]; exact Keeps.pure I _
    | none =>
      simp only [hmissing]
      cases formats.zip.decode file with
      | error text =>
        by_cases hzip : ascii "not a valid zip file" <:+: text
        · simp only [if_pos hzip]
          exact Keeps.pure I _
        · simp only [if_neg hzip]
          exact Keeps.raise I _
      | ok zipReader =>
        refine Keeps.bind (keeps_createTempZipFileFrom hI.blind hI.stashPut
          hI.stashGet _ _ _ _ _) fun r => ?_
        split
        · exact Keeps.pure I _
        · exact Keeps.pure I _
        · exact Keeps.raise I _
        · exact Keeps.pure I _

theorem receiveBits (request : Request) (file : Bytes) :
    Keeps I (receiveBits formats handler request file) := by
  unfold BitsService.receiveBits
  by_cases hpackage : handler.resourceType = ascii "package"
  · rw [if_pos hpackage]
    refine Keeps.bind (hI.completePackageWithResources _ _) fun r => ?_
    split
    · exact Keeps.bind (hI.answers.status 422 (by decide)) fun _ =>
        Keeps.bind (hI.answers.description _ _ _) fun _ => Keeps.pure I _
    · exact Keeps.bind hI.answers.insufficientStorage fun _ => Keeps.pure I _
    · exact Keeps.raise I _
    · exact Keeps.pure I _
  · rw [if_neg hpackage]
    exact Keeps.bind (hI.blind.keeps_onHost _) fun _ => Keeps.bind (keeps_panicOnError I _) fun _ =>
      Keeps.pure I _

theorem receiveUpload (request : Request) :
    Keeps I (receiveUpload formats handler request) := by
  refine Keeps.bind (hI.answers.handleBodySizeLimits request _) fun r => ?_
  cases r with
  | none => exact Keeps.pure I _
  | some request =>
    refine Keeps.bind (keeps_panicOnError I _) fun file => ?_
    cases file with
    | none => exact Keeps.bind (hI.answers.badRequest _ _) fun _ => Keeps.pure I _
    | some file =>
      refine Keeps.bind (hI.receiveBits request file) fun r => ?_
      cases r with
      | none => exact Keeps.pure I _
      | some tempFilename => exact Keeps.pure I _

end KeptWhileReceiving

/-- What there is to bundle of a package: its fingerprints and the entries of its archive. -/
def packageContents (formats : Formats) (resources file : Bytes) :
    Option (List Fingerprint × List ZipEntry) :=
  (if resources = [] then some [] else formats.json.unmarshal resources).bind fun bundlesPayload =>
    match anyKeyMissingIn bundlesPayload with
    | some _ => none
    | none => (formats.zip.decode file).toOption.map fun zipReader => (bundlesPayload, zipReader)

section Package
variable {σ : Type} {formats : Formats} {handler : ResourceHandler σ} {resources file : Bytes}
  {R : Result ℕ → Env σ → Prop} {E : Env σ → Prop} {w : Env σ}

/-- A package is refused or panics before it is bundled, or ends as its bundling does. -/
theorem wp_completePackageWithResources
    (hinput : packageContents formats resources file = none → ∀ text, R (.error (.input text)) w)
    (hpanic : packageContents formats resources file = none → E w)
    (hbundle : ∀ bundlesPayload zipReader,
      packageContents formats resources file = some (bundlesPayload, zipReader) →
      wp (createTempZipFileFrom formats.digests formats.zip handler.minimumSize handler.maximumSize
        handler.appStashBlobstore bundlesPayload (some zipReader)) (fun r w' => match r with
          | .error .noSpaceLeft => R (.error .noSpaceLeft) w'
          | .error (.notFound _ _) => ∀ text, R (.error (.input text)) w'
          | .error _ => E w'
          | .ok tempFilename => R (.ok tempFilename) w') E w) :
    wp (completePackageWithResources formats handler resources file) R E w := by
  unfold packageContents at hinput hpanic hbundle
  unfold completePackageWithResources
  cases hjson : if resources = [] then some [] else formats.json.unmarshal resources with
  | none =>
    rw [hjson] at hinput
    exact hinput rfl _
  | some bundlesPayload =>
    rw [hjson] at hinput hpanic hbundle
    simp only [Option.bind_some] at hinput hpanic hbundle
    simp only
    cases hkeys : anyKeyMissingIn bundlesPayload with
    | some key =>
      rw [hkeys] at hinput
      exact hinput rfl _
    | none =>
      rw [hkeys] at hinput hpanic hbundle
      cases hzip : formats.zip.decode file with
      | error text =>
        rw [hzip] at hinput hpanic
        by_cases hinvalid : ascii "not a valid zip file" <:+: text
        · simp only [if_pos hinvalid]
          exact hinput rfl _
        · simp only [if_neg hinvalid]
          exact hpanic rfl
      | ok zipReader =>
        rw [hzip] at hbundle
        refine (hbundle bundlesPayload zipReader rfl).bind (fun r w' h => ?_) (fun _ h => h)
        cases r with
        | ok tempFilename => exact h
        | error e =>
          cases e with
          | notFound text missingKey => exact h _
          | noSpaceLeft => exact h
          | stateForbidden => exact h
          | input text => exact h
          | sys text => exact h
          | wrapped message cause => exact h
          | withStack cause => exact h

end Package

/-- The invariants that an upload keeps while it stores its bits. -/
structure KeptWhileStoring {σ : Type} (handler : ResourceHandler σ) (I : Env σ → Prop) : Prop where
  blind : HostBlind I
  put : ∀ path src, Keeps I (onExt (handler.blobstore.put path src))
  notifyUploadSucceeded : ∀ guid sha1 sha256,
    Keeps I (onExt (handler.updater.notifyUploadSucceeded guid sha1 sha256))
  notifyUploadFailed : ∀ guid e, Keeps I (onExt (handler.updater.notifyUploadFailed guid e))

theorem keeps_uploadLoop {σ : Type} (handler : ResourceHandler σ) {I : Env σ → Prop}
    {tempFilename : ℕ} (hopen : Keeps I (onHost (openTemp tempFilename)))
    (hput : ∀ path src, Keeps I (onExt (handler.blobstore.put path src)))
    (identifier : Bytes) (budget : ℕ) :
    Keeps I (retryNotify (uploadAttempt handler tempFilename identifier) budget ()) := by
  refine keeps_retryNotify (T := fun _ => True) (fun _ _ => ?_) (fun _ _ _ _ _ _ => trivial) budget
    trivial
  refine Keeps.bind hopen fun r => ?_
  cases r with
  | error e => exact Keeps.pure I _
  | ok src =>
    refine Keeps.bind (hput identifier src) fun r => ?_
    cases r with
    | error e => exact Keeps.pure I _
    | ok u => exact Keeps.pure I _

theorem KeptWhileStoring.uploadResource {σ : Type} {handler : ResourceHandler σ} {I : Env σ → Prop}
    (hI : KeptWhileStoring handler I) (tempFilename : ℕ) (identifier sha1Sum sha256Sum : Bytes) :
    Keeps I (uploadResource handler tempFilename identifier sha1Sum sha256Sum) := by
  refine hI.blind.keeps_removingTemp (Keeps.bind (hI.blind.keeps_onHost _) fun budget =>
    Keeps.bind (keeps_uploadLoop handler (hI.blind.keeps_onHost _) hI.put identifier budget)
      fun r => ?_)
  obtain ⟨e, u⟩ := r
  cases e with
  | some e =>
    exact Keeps.bind (Keeps.bind (hI.notifyUploadFailed _ _) fun _ => Keeps.pure I _) fun _ =>
      Keeps.pure I _
  | none => exact keeps_orReturn (hI.notifyUploadSucceeded _ _ _) fun _ => Keeps.pure I _

end BitsService
