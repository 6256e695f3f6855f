import BitsService.Blobstores.AzureUpload

/-! # What Azure's failures become

A failed call is passed to `handleError`, which asks whether the container is there when the service
answered 404. `Get` returns what becomes of the error; `Copy` drops it. -/
namespace BitsService
open GoLib.Effect
set_option autoImplicit false

/-- An error of the storage client: one that the service answered with, or any other. -/
inductive AzureError where
  | service (statusCode : ℕ) (text : Bytes)
  | other (text : Bytes)
  deriving DecidableEq

def AzureError.toGoError : AzureError → GoError
  | service _ text => .sys text
  | other text => .sys text

def AzureError.IsNotFound (e : AzureError) : Prop := ∃ text, e = .service 404 text

inductive BlobCall where
  | get (path : Bytes)
  | copy (src dest : Bytes)
  deriving DecidableEq

/-- The service: what reading a blob delivers, the outcomes of the coming calls on blobs and of the
coming lookups of the container, which succeed once these have run out, and the calls that it has
performed. -/
structure AzureService where
  containerName : Bytes
  bodies : Bytes → Body
  blobOutcomes : List (Option AzureError)
  containerOutcomes : List (Except AzureError Bool)
  performed : List BlobCall

namespace AzureService

def performCall (call : BlobCall) : Prog GoError AzureService (Except AzureError Unit) := fun s =>
  match s.blobOutcomes.headD none with
  | some e => (.returned (.error e), { s with blobOutcomes := s.blobOutcomes.tail })
  | none => (.returned (.ok ()), { s with blobOutcomes := s.blobOutcomes.tail
                                          performed := s.performed ++ [call] })

def containerExists : Prog GoError AzureService (Except AzureError Bool) := fun s =>
  (.returned (s.containerOutcomes.headD (.ok true)),
    { s with containerOutcomes := s.containerOutcomes.tail })

theorem run_performCall_ok {s : AzureService} (h : s.blobOutcomes.headD none = none)
    (call : BlobCall) :
    (performCall call).run s = (.returned (.ok ()), { s with
      blobOutcomes := s.blobOutcomes.tail
      performed := s.performed ++ [call] }) := by
  unfold performCall Prog.run
  simp only [h]

theorem run_performCall_failed {s : AzureService} {e : AzureError}
    (h : s.blobOutcomes.headD none = some e) (call : BlobCall) :
    (performCall call).run s =
      (.returned (.error e), { s with blobOutcomes := s.blobOutcomes.tail }) := by
  unfold performCall Prog.run
  simp only [h]

theorem run_containerExists (s : AzureService) :
    containerExists.run s = (.returned (s.containerOutcomes.headD (.ok true)),
      { s with containerOutcomes := s.containerOutcomes.tail }) := rfl

end AzureService

namespace Azure
open AzureService

def handleError (e : AzureError) (context : Bytes) : Prog GoError AzureService GoError :=
  match e with
  | .service 404 _ => do
    match ← containerExists with
    | .error e => pure (.wrapped context e.toGoError)
    | .ok false => do
      let s ← getState
      pure (.sys (ascii "Container does not exist '" ++ s.containerName))
    | .ok true => pure .newNotFoundError
  | e => pure (.wrapped context e.toGoError)

def getBlob (path : Bytes) : Prog GoError AzureService (Result Body) := do
  let s ← getState
  match ← performCall (.get path) with
  | .error e => do
    let e ← handleError e (ascii "Path " ++ path)
    pure (.error e)
  | .ok () => pure (.ok (s.bodies path))

/-- What `handleError` returns is dropped. -/
def copyBlob (src dest : Bytes) : Prog GoError AzureService (Result Unit) := do
  let s ← getState
  match ← performCall (.copy src dest) with
  | .error e => do
    let _ ← handleError e (ascii "Error while trying to copy src " ++ src ++ ascii " to dest " ++
      dest ++ ascii " in bucket " ++ s.containerName)
    pure (.ok ())
  | .ok () => pure (.ok ())

/-! ## Classification -/

/-- The blob call failed with 404, and the container is there. -/
def MissingBlob (s : AzureService) : Prop :=
  (∃ e, s.blobOutcomes.headD none = some e ∧ e.IsNotFound) ∧
    s.containerOutcomes.headD (.ok true) = .ok true

/-- What a run from `s` returned: no error exactly when the call was performed, and a not-found
error exactly for a missing blob; what remains is another error. -/
structure Classifies {α : Type} (call : BlobCall) (s : AzureService)
    (run : Outcome GoError (Result α) × AzureService) : Prop where
  total : ∃ r, run.1 = .returned r
  performed : (∃ a, run.1 = .returned (.ok a)) ↔ run.2.performed = s.performed ++ [call]
  notFound : (∃ text key, run.1 = .returned (.error (.notFound text key))) ↔ MissingBlob s

theorem missingBlob_iff {s : AzureService} {e : AzureError}
    (h : s.blobOutcomes.headD none = some e) :
    MissingBlob s ↔ e.IsNotFound ∧ s.containerOutcomes.headD (.ok true) = .ok true := by
  unfold MissingBlob
  rw [h]
  simp

theorem not_missingBlob {s : AzureService} (h : s.blobOutcomes.headD none = none) :
    ¬ MissingBlob s := by
  rintro ⟨⟨e, he, -⟩, -⟩
  rw [h] at he
  cases he

/-- What becomes of an error: it is another one, or a not-found error if the container is there. -/
theorem run_handleError (e : AzureError) (context : Bytes) (s : AzureService) :
    ∃ e' s', (handleError e context).run s = (.returned e', s') ∧ s'.performed = s.performed ∧
      ((∃ text key, e' = .notFound text key) ↔
        e.IsNotFound ∧ s.containerOutcomes.headD (.ok true) = .ok true) := by
  by_cases h404 : e.IsNotFound
  · obtain ⟨text, rfl⟩ := h404
    unfold handleError
    simp only
    rw [run_bind_returned (run_containerExists s)]
    cases hfound : s.containerOutcomes.headD (.ok true) with
    | error e => exact ⟨_, _, rfl, rfl, by simp⟩
    | ok found =>
      cases found with
      | false => exact ⟨_, _, rfl, rfl, by simp⟩
      | true => exact ⟨_, _, rfl, rfl, by simp [GoError.newNotFoundError, AzureError.IsNotFound]⟩
  · have hother : handleError e context = pure (.wrapped context e.toGoError) := by
      unfold handleError
      split
      · rename_i text
        exact absurd ⟨text, rfl⟩ h404
      · rfl
    rw [hother]
    exact ⟨_, _, rfl, rfl, by simp [h404]⟩

/-- The lookup of the container in the model of the uploads is this one. -/
theorem run_handleError_eq_notFoundError {c : AzureContainer} {s : AzureService}
    (hname : s.containerName = c.name)
    (hfound : c.found = (s.containerOutcomes.headD (.ok true)).mapError AzureError.toGoError)
    (text path : Bytes) :
    ((handleError (.service 404 text) (ascii "Path " ++ path)).run s).1 =
      .returned (notFoundError c path) := by
  unfold handleError notFoundError
  simp only
  rw [run_bind_returned (run_containerExists s), hfound]
  cases s.containerOutcomes.headD (.ok true) with
  | error e => rfl
  | ok found =>
    cases found with
    | false =>
      rw [← hname]
      rfl
    | true => rfl

section Operations
variable {s : AzureService}

theorem run_getBlob_ok (h : s.blobOutcomes.headD none = none) (path : Bytes) :
    (getBlob path).run s = (.returned (.ok (s.bodies path)), { s with
      blobOutcomes := s.blobOutcomes.tail
      performed := s.performed ++ [.get path] }) := by
  unfold getBlob
  rw [run_bind_returned (run_getState s), run_bind_returned (run_performCall_ok h (.get path))]
  rfl

theorem run_getBlob_failed {e : AzureError} (h : s.blobOutcomes.headD none = some e)
    (path : Bytes) :
    ∃ e' s', (getBlob path).run s = (.returned (.error e'), s') ∧ s'.performed = s.performed ∧
      ((∃ text key, e' = .notFound text key) ↔ MissingBlob s) := by
  obtain ⟨e', s', hrun, hperformed, hnotFound⟩ := run_handleError e (ascii "Path " ++ path)
    { s with blobOutcomes := s.blobOutcomes.tail }
  refine ⟨e', s', ?_, hperformed, ?_⟩
  · unfold getBlob
    rw [run_bind_returned (run_getState s), run_bind_returned (run_performCall_failed h (.get path))]
    simp only
    rw [run_bind_returned hrun]
    rfl
  · rw [hnotFound, missingBlob_iff h]

theorem run_copyBlob_ok (h : s.blobOutcomes.headD none = none) (src dest : Bytes) :
    (copyBlob src dest).run s = (.returned (.ok ()), { s with
      blobOutcomes := s.blobOutcomes.tail
      performed := s.performed ++ [.copy src dest] }) := by
  unfold copyBlob
  rw [run_bind_returned (run_getState s), run_bind_returned (run_performCall_ok h (.copy src dest))]
  rfl

/-- A copy that fails is reported as one that succeeded. -/
theorem run_copyBlob_failed {e : AzureError} (h : s.blobOutcomes.headD none = some e)
    (src dest : Bytes) :
    ∃ s', (copyBlob src dest).run s = (.returned (.ok ()), s') ∧ s'.performed = s.performed := by
  obtain ⟨e', s', hrun, hperformed, -⟩ := run_handleError e
    (ascii "Error while trying to copy src " ++ src ++ ascii " to dest " ++ dest ++
      ascii " in bucket " ++ s.containerName) { s with blobOutcomes := s.blobOutcomes.tail }
  refine ⟨s', ?_, hperformed⟩
  unfold copyBlob
  rw [run_bind_returned (run_getState s),
    run_bind_returned (run_performCall_failed h (.copy src dest))]
  simp only
  rw [run_bind_returned hrun]
  rfl

theorem performed_ne (performed : List BlobCall) (call : BlobCall) :
    performed ≠ performed ++ [call] := by
  intro h
  simpa using congrArg List.length h

variable (s) in
theorem classifies_getBlob (path : Bytes) : Classifies (.get path) s ((getBlob path).run s) := by
  cases h : s.blobOutcomes.headD none with
  | none =>
    rw [run_getBlob_ok h]
    exact ⟨⟨_, rfl⟩, iff_of_true ⟨_, rfl⟩ rfl, iff_of_false (by simp) (not_missingBlob h)⟩
  | some e =>
    obtain ⟨e', s', hrun, hperformed, hnotFound⟩ := run_getBlob_failed h path
    rw [hrun]
    refine ⟨⟨_, rfl⟩, iff_of_false (by simp) ?_, ?_⟩
    · rw [hperformed]
      exact performed_ne _ _
    · simpa using hnotFound

variable (s) in
theorem classifies_copyBlob_iff (src dest : Bytes) :
    Classifies (.copy src dest) s ((copyBlob src dest).run s) ↔
      s.blobOutcomes.headD none = none := by
  cases h : s.blobOutcomes.headD none with
  | none =>
    refine iff_of_true ?_ rfl
    rw [run_copyBlob_ok h]
    exact ⟨⟨_, rfl⟩, iff_of_true ⟨_, rfl⟩ rfl, iff_of_false (by simp) (not_missingBlob h)⟩
  | some e =>
    obtain ⟨s', hrun, hperformed⟩ := run_copyBlob_failed h src dest
    refine iff_of_false (fun hclassifies => ?_) (by simp)
    have hlog := hclassifies.performed.mp ⟨(), by rw [hrun]⟩
    rw [hrun, hperformed] at hlog
    exact performed_ne _ _ hlog

end Operations

end Azure

end BitsService
