import BitsService.Resources.Handler
import Mathlib.Data.List.DropRight

/-! # The Cloud Controller

Each notification is one HTTP request. Of the answers, only 404, 422 and a failing transport are
errors to the updater. -/
namespace BitsService
open GoLib.Effect
set_option autoImplicit false

/-! ## The updater -/

/-- What is marshalled as the body of a notification. -/
structure CCPayload where
  state : Bytes
  checksums : List (Bytes × Bytes)
  error : Bytes
  deriving DecidableEq

def processingUploadPayload (state : Bytes) : CCPayload := ⟨state, [], []⟩

def successPayload (state : Bytes) (checksums : List (Bytes × Bytes)) : CCPayload :=
  ⟨state, checksums, []⟩

def failurePayload (state error : Bytes) : CCPayload := ⟨state, [], error⟩

structure CCRequest where
  method : Bytes
  url : Bytes
  payload : CCPayload
  deriving DecidableEq

structure HttpClient (σ : Type) where
  send : CCRequest → Prog GoError σ (Result ℕ)

/-- `newRequest` says whether `http.NewRequest` makes a request of a method and a URL. -/
structure CCUpdater (σ : Type) where
  httpClient : HttpClient σ
  endpoint : Bytes
  method : Bytes
  newRequest : Bytes → Bytes → Bool

variable {σ : Type}

def Updater.zoom {τ : Type} (l : Part τ σ) (updater : Updater σ) : Updater τ where
  notifyProcessingUpload guid := GoLib.Effect.zoom l (updater.notifyProcessingUpload guid)
  notifyUploadSucceeded guid sha1 sha256 :=
    GoLib.Effect.zoom l (updater.notifyUploadSucceeded guid sha1 sha256)
  notifyUploadFailed guid e := GoLib.Effect.zoom l (updater.notifyUploadFailed guid e)

namespace CCUpdater
variable (updater : CCUpdater σ)

/-- `strings.TrimRight(endpoint, "/") + "/" + guid`. -/
def url (guid : Bytes) : Bytes := updater.endpoint.rdropWhile (· == slash) ++ slash :: guid

/-- A request that cannot be made ends the process. -/
def update (guid : Bytes) (p : CCPayload) : Prog GoError σ (Result Unit) :=
  if updater.newRequest updater.method (updater.url guid) then do
    match ← updater.httpClient.send ⟨updater.method, updater.url guid, p⟩ with
    | .error e => pure (.error (.wrapped (ascii "Could not make request against CC (GUID: \"" ++
        guid ++ ascii "\")") e))
    | .ok statusCode =>
      if statusCode = 404 then pure (.error .newNotFoundError)
      else if statusCode = 422 then pure (.error .stateForbidden)
      else pure (.ok ())
  else raise (.sys (ascii "exit status 1"))

def notifyProcessingUpload (guid : Bytes) : Prog GoError σ (Result Unit) :=
  updater.update guid (processingUploadPayload (ascii "PROCESSING_UPLOAD"))

def notifyUploadSucceeded (guid sha1 sha256 : Bytes) : Prog GoError σ (Result Unit) :=
  updater.update guid (successPayload (ascii "READY")
    [(ascii "sha1", sha1), (ascii "sha256", sha256)])

def notifyUploadFailed (guid : Bytes) (e : GoError) : Prog GoError σ (Result Unit) :=
  updater.update guid (failurePayload (ascii "FAILED") e.text)

def toUpdater : Updater σ where
  notifyProcessingUpload := updater.notifyProcessingUpload
  notifyUploadSucceeded := updater.notifyUploadSucceeded
  notifyUploadFailed := updater.notifyUploadFailed

end CCUpdater

theorem total_update {updater : CCUpdater σ} {guid : Bytes} {p : CCPayload}
    (hsend : ∀ request, Total (updater.httpClient.send request))
    (hnew : updater.newRequest updater.method (updater.url guid) = true) :
    Total (updater.update guid p) := by
  rw [CCUpdater.update, if_pos hnew]
  refine Total.bind (hsend _) fun r => ?_
  split
  · exact Total.pure _
  · split
    · exact Total.pure _
    · split
      · exact Total.pure _
      · exact Total.pure _

/-! ## A Cloud Controller that answers by script -/

/-- The answers to come, and the exchanges so far. -/
structure CloudController where
  answers : List (Result ℕ)
  exchanges : List (CCRequest × Result ℕ)

/-- Once the script has run out, the answer is 200. -/
def CloudController.answer (c : CloudController) : Result ℕ := c.answers.headD (.ok 200)

def scriptedClient : HttpClient CloudController where
  send request := fun c =>
    (.returned c.answer, ⟨c.answers.tail, c.exchanges ++ [(request, c.answer)]⟩)

/-- The response to the notification of `state` was no HTTP error. -/
def CloudController.Accepted (c : CloudController) (state : String) : Prop :=
  ∃ request statusCode, (request, .ok statusCode) ∈ c.exchanges ∧
    request.payload.state = ascii state ∧ statusCode < 400

section Update
variable {updater : CCUpdater CloudController} (hclient : updater.httpClient = scriptedClient)
  {guid : Bytes} {p : CCPayload}
include hclient

theorem run_update {c : CloudController} {statusCode : ℕ}
    (hnew : updater.newRequest updater.method (updater.url guid) = true)
    (hanswer : c.answer = .ok statusCode) (h404 : statusCode ≠ 404) (h422 : statusCode ≠ 422) :
    (updater.update guid p).run c = (.returned (.ok ()), ⟨c.answers.tail, c.exchanges ++
      [(⟨updater.method, updater.url guid, p⟩, .ok statusCode)]⟩) := by
  have hsend : (scriptedClient.send ⟨updater.method, updater.url guid, p⟩).run c =
      (.returned (.ok statusCode), ⟨c.answers.tail, c.exchanges ++
        [(⟨updater.method, updater.url guid, p⟩, .ok statusCode)]⟩) := by
    rw [← hanswer]
    rfl
  rw [CCUpdater.update, if_pos hnew, hclient, run_bind_returned hsend]
  simp only [if_neg h404, if_neg h422]
  rfl

theorem update_eq_ok {c c' : CloudController}
    (h : (updater.update guid p).run c = (.returned (.ok ()), c')) :
    ∃ request statusCode, request.payload = p ∧ c.answer = .ok statusCode ∧ statusCode ≠ 404 ∧
      statusCode ≠ 422 ∧ c' = ⟨c.answers.tail, c.exchanges ++ [(request, .ok statusCode)]⟩ := by
  rw [CCUpdater.update, hclient] at h
  by_cases hnew : updater.newRequest updater.method (updater.url guid) = true
  · rw [if_pos hnew] at h
    obtain ⟨answer, c₁, hsend, hrest⟩ := run_bind_eq_returned h
    cases hsend
    cases hanswer : c.answer with
    | error e =>
      rw [hanswer] at hrest
      cases hrest
    | ok statusCode =>
      rw [hanswer] at hrest
      simp only at hrest
      by_cases h404 : statusCode = 404
      · rw [if_pos h404] at hrest
        cases hrest
      rw [if_neg h404] at hrest
      by_cases h422 : statusCode = 422
      · rw [if_pos h422] at hrest
        cases hrest
      rw [if_neg h422] at hrest
      cases hrest
      exact ⟨_, statusCode, rfl, rfl, h404, h422, rfl⟩
  · rw [if_neg hnew] at h
    cases h

theorem keeps_update {J : CloudController → Prop}
    (hJ : ∀ c request, request.payload = p → J c →
      J ⟨c.answers.tail, c.exchanges ++ [(request, c.answer)]⟩) :
    Keeps J (updater.update guid p) := by
  rw [CCUpdater.update, hclient]
  split
  · refine Keeps.bind (fun c hc => hJ c _ rfl hc) fun r => ?_
    split
    · exact Keeps.pure _ _
    · split
      · exact Keeps.pure _ _
      · split
        · exact Keeps.pure _ _
        · exact Keeps.pure _ _
  · exact Keeps.raise _ _

theorem total_send (request : CCRequest) : Total (updater.httpClient.send request) := by
  rw [hclient]
  exact fun c => ⟨_, _, rfl⟩

theorem keeps_accepted_update (state : String) :
    Keeps (fun c : CloudController => c.Accepted state) (updater.update guid p) := by
  refine keeps_update hclient fun c request _ hc => ?_
  obtain ⟨request', statusCode, hmem, hstate⟩ := hc
  exact ⟨request', statusCode, List.mem_append_left _ hmem, hstate⟩

theorem keeps_not_accepted_update {state : String} (hstate : p.state ≠ ascii state) :
    Keeps (fun c : CloudController => ¬ c.Accepted state) (updater.update guid p) := by
  refine keeps_update hclient fun c request hpayload hc => ?_
  rintro ⟨request', statusCode, hmem, hstate', hlt⟩
  rcases List.mem_append.mp hmem with hold | hnew
  · exact hc ⟨request', statusCode, hold, hstate', hlt⟩
  · obtain ⟨rfl, -⟩ := Prod.mk.inj (List.mem_singleton.mp hnew)
    rw [hpayload] at hstate'
    exact hstate hstate'

end Update

/-- The handler with a `CCUpdater` for its updater, next to the Cloud Controller. -/
def ResourceHandler.updatingCC (handler : ResourceHandler σ) (updater : CCUpdater CloudController) :
    ResourceHandler (σ × CloudController) :=
  { handler with
    blobstore := handler.blobstore.zoom (fstPart σ CloudController)
    appStashBlobstore := handler.appStashBlobstore.zoom (fstPart σ CloudController)
    updater := updater.toUpdater.zoom (sndPart σ CloudController) }

end BitsService
