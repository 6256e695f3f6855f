import BitsService.Blobstores.AzureErrors
import BitsService.Resources.Modifications

/-! # Copies on Azure, as they are answered

A copy that is asked for is answered 201 when the blobstore returns no error, and Azure's never
returns one. -/
namespace BitsService
open GoLib.Effect
set_option autoImplicit false

variable {σ : Type} {formats : Formats} {handler : ResourceHandler σ} {request : Request}

/-! ## What a copy request does -/

theorem run_copySourceGuid_of_source {guid : Bytes}
    (hsource : copySource formats handler request = some guid) (hne : guid ≠ [])
    (identifier : Bytes) (w : Env σ) :
    (copySourceGuid formats handler request identifier).run w = (do
      let e ← onExt (handler.blobstore.copy guid identifier)
      writeResponseBasedOn formats.digests [] (errorOf e) 201 none
        (some ⟨identifier, ascii "READY", ascii "bits", [], []⟩) []).run w := by
  obtain ⟨request', hlimited, hsource⟩ := Option.bind_eq_some_iff.mp hsource
  obtain ⟨content, hread, hguid⟩ := Option.bind_eq_some_iff.mp hsource
  have hfrom : (sourceGuidFrom formats request').run w = (.returned guid, w) := by
    unfold sourceGuidFrom
    rw [eq_ok_of_toOption hread, run_bind_returned (run_panicOnError_ok content w)]
    simp only [eq_ok_of_toOption hguid]
    rfl
  unfold copySourceGuid
  rw [run_bind_returned (run_handleBodySizeLimits hlimited w)]
  simp only
  rw [run_bind_returned hfrom, if_neg hne]

/-- Without a source there is no 201. -/
theorem clientStatus_of_no_source
    (hsource : ∀ guid, copySource formats handler request = some guid → guid = [])
    (identifier : Bytes) {w : Env σ} (hw : w.response = .empty) :
    clientStatus ((copySourceGuid formats handler request identifier).run w) ≠ 201 := by
  have hanswered : ∀ {status : ℕ} {w' : Env σ}, Answered status w w' → status ≠ 201 →
      ∀ d, w'.response.status.getD d ≠ 201 := by
    intro status w' h hne d
    rw [h.status, hw]
    exact hne
  refine clientStatus_of_wp (p := (· ≠ 201)) (wp_bind.mpr (wp_handleBodySizeLimits
    (fun request' hlimited => ?_) (fun status w' _ hstatus h => hanswered h (by omega) 200)))
  refine wp_bind.mpr (wp_bind.mpr (wp_panicOnError.mpr ?_))
  cases hread : request'.body.readAll with
  | error e =>
    show w.response.status.getD 500 ≠ 201
    rw [hw]
    decide
  | ok content =>
    cases hguid : formats.json.sourceGuid content with
    | error text =>
      simp only [hguid]
      exact wp_bind.mpr (wp_badRequest fun w' h => hanswered h (by decide) 200)
    | ok guid =>
      have hnil : guid = [] := hsource guid (by
        simp [copySource, hlimited, hread, hguid, Except.toOption])
      simp only [hguid, wp_pure, hnil, if_true]
      show w.response.status.getD 200 ≠ 201
      rw [hw]
      decide

/-! ## On Azure -/

namespace Azure

/-- A handler whose blobstore reads and copies as Azure's does. -/
def handlerOn (handler : ResourceHandler AzureService) : ResourceHandler AzureService :=
  { handler with
    blobstore := { handler.blobstore with
      get := getBlob
      copy := copyBlob } }

/-- A 201 is answered for a copy that the service performed. -/
def AnswersCopyTruthfully (formats : Formats) (handler : ResourceHandler AzureService)
    (request : Request) (identifier : Bytes) (host : Host) (s : AzureService) : Prop :=
  let run := (copySourceGuid formats (handlerOn handler) request identifier).run
    ⟨host, s, .empty⟩
  clientStatus run = 201 → ∃ guid, copySource formats (handlerOn handler) request = some guid ∧
    run.2.ext.performed = s.performed ++ [.copy guid identifier]

section Copies
variable {handler : ResourceHandler AzureService} {s : AzureService}

/-- With a source the answer is 201, whatever becomes of the copy. -/
theorem run_copySourceGuid_of_source {guid : Bytes}
    (hsource : copySource formats (handlerOn handler) request = some guid) (hne : guid ≠ [])
    (identifier : Bytes) (host : Host) (s : AzureService) :
    let run := (copySourceGuid formats (handlerOn handler) request identifier).run
      ⟨host, s, .empty⟩
    clientStatus run = 201 ∧ run.2.ext = ((copyBlob guid identifier).run s).2 := by
  have hcopy : ((copyBlob guid identifier).run s).1 = .returned (.ok ()) := by
    cases h : s.blobOutcomes.headD none with
    | none => rw [run_copyBlob_ok h]
    | some e =>
      obtain ⟨s', hrun, -⟩ := run_copyBlob_failed h guid identifier
      rw [hrun]
  have hext : (onExt ((handlerOn handler).blobstore.copy guid identifier)).run
      ⟨host, s, .empty⟩ =
        (.returned (.ok ()), ⟨host, ((copyBlob guid identifier).run s).2, .empty⟩) := by
    rw [run_onExt]
    exact Prod.ext hcopy rfl
  intro run
  have hrun : run = _ := BitsService.run_copySourceGuid_of_source hsource hne identifier _
  rw [run_bind_returned hext] at hrun
  rw [hrun]
  exact ⟨rfl, rfl⟩

theorem answersCopyTruthfully_iff (formats : Formats) (handler : ResourceHandler AzureService)
    (request : Request) (identifier : Bytes) (host : Host) (s : AzureService) :
    AnswersCopyTruthfully formats handler request identifier host s ↔
      ∀ guid, copySource formats (handlerOn handler) request = some guid → guid ≠ [] →
        s.blobOutcomes.headD none = none := by
  unfold AnswersCopyTruthfully
  by_cases hasked : ∃ guid, copySource formats (handlerOn handler) request = some guid ∧ guid ≠ []
  · obtain ⟨guid, hsource, hne⟩ := hasked
    obtain ⟨hstatus, hext⟩ := run_copySourceGuid_of_source hsource hne identifier host s
    constructor
    · intro h _ _ _
      obtain ⟨guid', hguid, hperformed⟩ := h hstatus
      obtain rfl := Option.some.inj (hsource.symm.trans hguid)
      rw [hext] at hperformed
      by_contra hfailed
      obtain ⟨e, he⟩ := Option.ne_none_iff_exists'.mp hfailed
      obtain ⟨s', hrun, hsame⟩ := run_copyBlob_failed he guid identifier
      rw [hrun, hsame] at hperformed
      exact performed_ne _ _ hperformed
    · intro h run _
      refine ⟨guid, hsource, ?_⟩
      show run.2.ext.performed = _
      rw [hext, run_copyBlob_ok (h guid hsource hne)]
  · have hsource : ∀ guid, copySource formats (handlerOn handler) request = some guid →
        guid = [] := fun guid hguid => by_contra fun hne => hasked ⟨guid, hguid, hne⟩
    refine iff_of_true (fun h => ?_) (fun guid hguid hne => absurd (hsource guid hguid) hne)
    exact absurd h (clientStatus_of_no_source hsource identifier rfl)

end Copies

/-- **Azure classifies failures, except those of copies**: `Get` always does, `Copy` exactly when
the service performs it, and a copy is answered truthfully exactly then. -/
theorem classifies_iff (formats : Formats) (handler : ResourceHandler AzureService) :
    (∀ path s, Classifies (.get path) s ((getBlob path).run s)) ∧
    (∀ src dest s, Classifies (.copy src dest) s ((copyBlob src dest).run s) ↔
      s.blobOutcomes.headD none = none) ∧
    (∀ request identifier host s,
      AnswersCopyTruthfully formats handler request identifier host s ↔
        ∀ guid, copySource formats (handlerOn handler) request = some guid → guid ≠ [] →
          s.blobOutcomes.headD none = none) :=
  ⟨fun path s => classifies_getBlob s path, fun src dest s => classifies_copyBlob_iff s src dest,
    answersCopyTruthfully_iff formats handler⟩

/-! ## A missing source -/

/-- The service answers 404 to the next call on a blob, and has the container. -/
def missingSource : AzureService where
  containerName := ascii "packages"
  bodies _ := .whole []
  blobOutcomes := [some (.service 404 (ascii "BlobNotFound"))]
  containerOutcomes := []
  performed := []

def copyOfMissing : Request where
  contentLength := 25
  header _ := []
  query := []
  body := .whole (ascii "\x7b\"source_guid\":\"missing\"\x7d")
  form := .error (.sys (ascii "request Content-Type isn't multipart/form-data"))

/-- What is not under test answers that there is nothing. -/
def restOfAzure : Blobstore AzureService where
  existsBlob _ := pure (.ok false)
  get := getBlob
  put _ _ := pure (.ok ())
  delete _ := pure (.error .newNotFoundError)
  deleteDir _ := pure (.ok ())
  headOrRedirectAsGet _ := pure (.error .newNotFoundError)
  getOrRedirect _ := pure (.error .newNotFoundError)
  copy := copyBlob

def packagesOnAzure : ResourceHandler AzureService :=
  newResourceHandler restOfAzure restOfAzure.toNoRedirectBlobstore (ascii "package") 0

/-- `Copy` returns no error, and the request is answered 201. -/
theorem not_classifies_missing_source :
    ¬ Classifies (.copy (ascii "missing") (ascii "guid")) missingSource
      ((copyBlob (ascii "missing") (ascii "guid")).run missingSource) ∧
    ¬ AnswersCopyTruthfully ⟨helloDigests, plainFormat, guidJson⟩ packagesOnAzure copyOfMissing
      (ascii "guid") idleHost missingSource := by
  constructor
  · rw [classifies_copyBlob_iff]
    simp [missingSource]
  · rw [answersCopyTruthfully_iff]
    intro h
    exact absurd (h (ascii "missing") (by decide) (by decide)) (by decide)

end Azure

end BitsService
