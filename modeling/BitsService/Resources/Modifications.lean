import BitsService.Resources.UploadAnswers
import BitsService.Resources.UploadProtocol

/-! # A success means that the modification happened -/
namespace BitsService
open GoLib.Effect StoreCall
set_option autoImplicit false

inductive Modification where
  | addOrReplaceWithDigestInHeader
  | addOrReplace
  | copySourceGuid
  | deleteResource
  deriving DecidableEq

namespace Modification
variable {σ : Type} (formats : Formats) (handler : ResourceHandler σ) (request : Request)
  (identifier : Bytes)

def handle : Modification → Prog GoError (Env σ) Unit
  | addOrReplaceWithDigestInHeader =>
    BitsService.addOrReplaceWithDigestInHeader formats handler request identifier
  | addOrReplace => BitsService.addOrReplace formats handler request identifier
  | copySourceGuid => BitsService.copySourceGuid formats handler request identifier
  | deleteResource => BitsService.deleteResource formats handler identifier

/-- The calls that make the modification happen: they come last, and succeed. -/
def success : Modification → List StoreCall
  | addOrReplaceWithDigestInHeader => [.put (identifier ++ slash :: digestValue request) succeeded]
  | addOrReplace => uploadCalls identifier
  | copySourceGuid => [.copy ((copySource formats handler request).getD []) identifier succeeded]
  | deleteResource => [.delete identifier succeeded]

/-- The status is one of success if and only if the modification happened, and one of failure
otherwise. -/
def AnswersTruthfully (m : Modification) (host : Host) (s : σ) : Prop :=
  let run := (m.handle formats handler.noting request identifier).run (begun host s)
  (200 ≤ finalStatus run ∧ finalStatus run < 300 ↔
    m.success formats handler request identifier <:+ run.2.ext.2) ∧
  (¬ (200 ≤ finalStatus run ∧ finalStatus run < 300) →
    400 ≤ finalStatus run ∧ finalStatus run < 600)

variable {formats handler request identifier}

theorem wp_handle {m : Modification} {host : Host} {s : σ}
    (hsync : m = addOrReplace → request.queryGet (ascii "async") ≠ ascii "true")
    (hsource : ¬ (m = copySourceGuid ∧ copySource formats handler request = some [])) :
    wp (m.handle formats handler.noting request identifier)
      (fun _ => Judged handler.updater.ReportsFailures
        (m.success formats handler request identifier) 200)
      (Judged handler.updater.ReportsFailures (m.success formats handler request identifier) 500)
      (begun host s) := by
  have hfresh : OnLedger Fresh (begun host s) := ⟨rfl, rfl⟩
  cases m with
  | addOrReplaceWithDigestInHeader => exact wp_addOrReplaceWithDigestInHeader hfresh
  | addOrReplace =>
    exact wp_addOrReplace_sync (hsync rfl) ⟨fun c hc => absurd hc List.not_mem_nil, rfl⟩
  | copySourceGuid => exact wp_copySourceGuid (fun h => hsource ⟨rfl, h⟩) hfresh
  | deleteResource => exact wp_deleteResource hfresh

variable (identifier) in
/-- A copy of nothing is answered with the status of a success. -/
theorem not_answersTruthfully_of_empty (hsource : copySource formats handler request = some [])
    (host : Host) (s : σ) :
    ¬ AnswersTruthfully formats handler request identifier copySourceGuid host s := by
  have hrun : (handle formats handler.noting request identifier copySourceGuid).run
      (begun host s) = (.returned (), begun host s) :=
    run_copySourceGuid_of_empty hsource
  intro h
  unfold AnswersTruthfully at h
  rw [hrun] at h
  have hdone := h.1.mp ⟨le_refl 200, by show 200 < 300; omega⟩
  cases List.suffix_nil.mp hdone

variable (formats handler request identifier) in
/-- **A success is a modification, save for a copy of nothing**: an upload, with its digest in the
header or not, a copy and a deletion are answered with the status of a success exactly when they
happened, except for a copy whose request names the empty source. -/
theorem answersTruthfully_iff (m : Modification) (host : Host) (s : σ)
    (hsync : m = addOrReplace → request.queryGet (ascii "async") ≠ ascii "true") :
    AnswersTruthfully formats handler request identifier m host s ↔
      ¬ (m = copySourceGuid ∧ copySource formats handler request = some []) := by
  constructor
  · rintro h ⟨rfl, hsource⟩
    exact not_answersTruthfully_of_empty identifier hsource host s h
  · intro hsource
    have hwp : wp (m.handle formats handler.noting request identifier)
        (fun _ => Judged handler.updater.ReportsFailures
          (m.success formats handler request identifier) 200)
        (Judged handler.updater.ReportsFailures
          (m.success formats handler request identifier) 500) (begun host s) :=
      wp_handle hsync hsource
    have hverdict := finalStatus_of_wp (p := Verdict handler.updater.ReportsFailures
      (m.success formats handler request identifier)) hwp
    unfold AnswersTruthfully
    cases hverdict with
    | done hdone _ hstatus => exact ⟨⟨fun _ => hdone, fun _ => hstatus⟩, fun h => absurd hstatus h⟩
    | refused hundone _ hstatus =>
      refine ⟨⟨fun hsuccess => ?_, fun hdone => absurd hdone hundone⟩, fun _ => hstatus⟩
      exact absurd hsuccess.2 (by omega)

end Modification

/-! ## A copy of nothing -/

/-- The object that is one member, or none, and holds no escapes. -/
def guidJson : JsonFormat :=
  { plainJson with
    sourceGuid := fun b =>
      let opening := ascii "\x7b\"source_guid\":\""
      let closing := ascii "\"\x7d"
      if b = ascii "\x7b\x7d" then .ok []
      else if opening <+: b ∧ closing <:+ b ∧ opening.length + closing.length ≤ b.length then
        .ok ((b.drop opening.length).take (b.length - opening.length - closing.length))
      else .error (ascii "invalid character") }

def emptyObjectCopy : Request where
  contentLength := 2
  header _ := []
  query := []
  body := .whole (ascii "\x7b\x7d")
  form := .error (.sys (ascii "request Content-Type isn't multipart/form-data"))

def idleHost : Host := ⟨fun _ => [], fun _ => none, 0, []⟩

def emptyMapStore : MapStore := ⟨fun _ => none, [], []⟩

theorem answersTruthfully_hello :
    Modification.AnswersTruthfully plainFormats buildpacks helloUpload (ascii "ruby") .addOrReplace
      idleHost emptyMapStore :=
  (Modification.answersTruthfully_iff plainFormats buildpacks helloUpload (ascii "ruby")
    .addOrReplace idleHost emptyMapStore (fun _ => by decide)).mpr fun h => nomatch h.1

theorem not_answersTruthfully_empty_object :
    ¬ Modification.AnswersTruthfully ⟨helloDigests, plainFormat, guidJson⟩ buildpacks
      emptyObjectCopy (ascii "ruby") .copySourceGuid idleHost emptyMapStore :=
  Modification.not_answersTruthfully_of_empty (ascii "ruby") (by decide) idleHost emptyMapStore

end BitsService
