import BitsService.Resources.CCUpdater
import BitsService.Resources.UploadProtocol

/-! # Agreement with the Cloud Controller

Bits are written, and an upload is answered 201, only with the consent of the Cloud Controller, if
the updater takes each of its errors for one. -/
namespace BitsService
open GoLib.Effect GoLib.Retry
set_option autoImplicit false

variable {σ : Type}

/-- Bits are written, and an upload is answered 201, only with the consent of the Cloud
Controller. -/
structure Agrees (w : Env ((σ × CloudController) × List ServiceCall)) : Prop where
  bits : ∀ path src r, .put path src r ∈ w.ext.2 → w.ext.1.2.Accepted "PROCESSING_UPLOAD"
  ready : w.response.status = some 201 →
    w.ext.1.2.Accepted "PROCESSING_UPLOAD" ∧ w.ext.1.2.Accepted "READY"

/-- With these answers the two sides agree on every upload of a package. -/
def AlwaysAgrees (answers : List (Result ℕ)) : Prop :=
  ∀ (σ : Type) (formats : Formats) (handler : ResourceHandler σ)
    (updater : CCUpdater CloudController) (request : Request) (identifier : Bytes) (host : Host)
    (services : σ), handler.resourceType = ascii "package" → updater.httpClient = scriptedClient →
    Agrees ((addOrReplace formats (handler.updatingCC updater).recording request identifier).run
      ⟨host, ((services, ⟨answers, []⟩), []), .empty⟩).2

def Noticed : Result ℕ → Prop
  | .error _ => True
  | .ok statusCode => 400 ≤ statusCode → statusCode = 404 ∨ statusCode = 422

def Accepts : Result ℕ → Prop
  | .error _ => False
  | .ok statusCode => statusCode < 400

def ErrorsNoticed (answers : List (Result ℕ)) : Prop :=
  Noticed (answers.headD (.ok 200)) ∧
    (Accepts (answers.headD (.ok 200)) → Noticed (answers.tail.headD (.ok 200)))

/-- The upload was accepted, and is not answered 201. -/
def Underway (w : Env ((σ × CloudController) × List ServiceCall)) : Prop :=
  w.ext.1.2.Accepted "PROCESSING_UPLOAD" ∧ w.response.status ≠ some 201

theorem Underway.agrees {w : Env ((σ × CloudController) × List ServiceCall)} (h : Underway w) :
    Agrees w := ⟨fun _ _ _ _ => h.1, fun hready => absurd hready h.2⟩

theorem sent_ne_created {sent : Option ℕ} {status : ℕ} (h : sent ≠ some 201)
    (hstatus : status ≠ 201) : sent.or (some status) ≠ some 201 := by
  cases sent with
  | none => simpa using hstatus
  | some sent => simpa using h

theorem keptByAnswers_not_created {J : (σ × CloudController) × List ServiceCall → Prop} :
    KeptByAnswers fun w => J w.ext ∧ w.response.status ≠ some 201 where
  header _ _ _ hw := hw
  status _ hstatus _ hw := ⟨hw.1, sent_ne_created hw.2 (by omega)⟩
  raw _ _ hw := ⟨hw.1, sent_ne_created hw.2 (by decide)⟩
  description _ _ _ _ hw := ⟨hw.1, sent_ne_created hw.2 (by decide)⟩

section Agreement
variable {handler : ResourceHandler σ} {updater : CCUpdater CloudController}

theorem keeps_recorded_zoom_fst {α : Type} {J : CloudController → Prop} {call : α → ServiceCall}
    {m : Prog GoError σ α} :
    Keeps (fun ext => J ext.1.2) (recorded call (zoom (fstPart σ CloudController) m)) :=
  Keeps.recorded (I := fun s : σ × CloudController => J s.2)
    (m := zoom (fstPart σ CloudController) m) (fun _ h => h)

theorem keeps_recorded_zoom_snd {α : Type} {J : CloudController → Prop} {call : α → ServiceCall}
    {m : Prog GoError CloudController α} (hm : Keeps J m) :
    Keeps (fun ext => J ext.1.2) (recorded call (zoom (sndPart σ CloudController) m)) :=
  Keeps.recorded (I := fun s : σ × CloudController => J s.2)
    (m := zoom (sndPart σ CloudController) m) (fun s h => hm s.2 h)

theorem keptWhileStoring_updatingCC {J : CloudController → Prop} {K : Response → Prop}
    (hJ : ∀ guid p, Keeps J (updater.update guid p)) :
    KeptWhileStoring (handler.updatingCC updater).recording
      fun w => J w.ext.1.2 ∧ K w.response where
  blind _ _ hw := hw
  put _ _ w hw := ⟨keeps_recorded_zoom_fst w.ext hw.1, hw.2⟩
  notifyUploadSucceeded _ _ _ w hw := ⟨keeps_recorded_zoom_snd (hJ _ _) w.ext hw.1, hw.2⟩
  notifyUploadFailed _ _ w hw := ⟨keeps_recorded_zoom_snd (hJ _ _) w.ext hw.1, hw.2⟩

theorem keeps_uploadLoop_updatingCC (c : CloudController) (tempFilename : ℕ) (identifier : Bytes)
    (budget : ℕ) :
    Keeps (fun w => w.ext.1.2 = c)
      (retryNotify (uploadAttempt (handler.updatingCC updater).recording tempFilename identifier)
        budget ()) :=
  keeps_uploadLoop (handler.updatingCC updater).recording (fun _ hw => hw)
    (fun _ _ w hw => keeps_recorded_zoom_fst (J := fun c' => c' = c) w.ext hw) identifier budget

theorem run_notify_eq_returned {α : Type} {call : α → ServiceCall}
    {m : Prog GoError CloudController α} {w w' : Env ((σ × CloudController) × List ServiceCall)}
    {a : α} (h : (onExt (recorded call (zoom (sndPart σ CloudController) m))).run w =
      (.returned a, w')) :
    m.run w.ext.1.2 = (.returned a, w'.ext.1.2) ∧ w'.ext.2 = w.ext.2 ++ [call a] ∧
      w'.response = w.response := by
  rw [run_onExt] at h
  obtain ⟨hout, rfl⟩ := Prod.mk.inj h
  obtain ⟨hrun, hcalls⟩ := run_recorded_eq_returned (Prod.ext hout rfl)
  rw [run_zoom] at hrun
  obtain ⟨hout', hext⟩ := Prod.mk.inj hrun
  refine ⟨Prod.ext hout' ?_, hcalls, rfl⟩
  rw [← hext]
  rfl

theorem run_notify_returned {α : Type} (call : α → ServiceCall) {m : Prog GoError CloudController α}
    {w : Env ((σ × CloudController) × List ServiceCall)} {a : α} {c : CloudController}
    (h : m.run w.ext.1.2 = (.returned a, c)) :
    (onExt (recorded call (zoom (sndPart σ CloudController) m))).run w =
      (.returned a, { w with ext := ((w.ext.1.1, c), w.ext.2 ++ [call a]) }) := by
  have hzoom : (zoom (sndPart σ CloudController) m).run w.ext.1 =
      (.returned a, (w.ext.1.1, c)) := by
    rw [run_zoom]
    have h' : m.run ((sndPart σ CloudController).get w.ext.1) = (.returned a, c) := h
    rw [h']
    rfl
  have hrec : (recorded call (zoom (sndPart σ CloudController) m)).run w.ext =
      (.returned a, ((w.ext.1.1, c), w.ext.2 ++ [call a])) := run_recorded_returned hzoom
  rw [run_onExt, hrec]

variable (hclient : updater.httpClient = scriptedClient)
include hclient

theorem uploadResource_eq_ok {tempFilename : ℕ} {identifier sha1Sum sha256Sum : Bytes}
    {w w' : Env ((σ × CloudController) × List ServiceCall)}
    (h : (uploadResource (handler.updatingCC updater).recording tempFilename identifier sha1Sum
      sha256Sum).run w = (.returned (.ok ()), w')) :
    ∃ request statusCode, request.payload.state = ascii "READY" ∧
      w.ext.1.2.answer = .ok statusCode ∧ statusCode ≠ 404 ∧ statusCode ≠ 422 ∧
      w'.ext.1.2.exchanges = w.ext.1.2.exchanges ++ [(request, .ok statusCode)] := by
  obtain ⟨w₁, hbody, rfl⟩ := run_removingTemp_eq_returned h
  obtain ⟨budget, w₂, hbudget, hrest⟩ := run_bind_eq_returned hbody
  obtain ⟨-, hext₂, -⟩ := run_onHost_eq_returned hbudget
  obtain ⟨⟨e, u⟩, w₃, hloop, hrest⟩ := run_bind_eq_returned hrest
  have hc₃ : w₃.ext.1.2 = w.ext.1.2 :=
    (keeps_uploadLoop_updatingCC _ tempFilename identifier budget).of_run hloop (by rw [hext₂])
  cases e with
  | some e =>
    obtain ⟨v, w₄, -, hfailed⟩ := run_bind_eq_returned hrest
    cases hfailed
  | none =>
    obtain ⟨u', w₄, hnotify, hrest⟩ := run_orReturn_eq_ok hrest
    cases hrest
    obtain ⟨hrun, -, -⟩ := run_notify_eq_returned hnotify
    obtain ⟨request, statusCode, hpayload, hanswer, h404, h422, hc₁⟩ := update_eq_ok hclient hrun
    rw [hc₃] at hanswer hc₁
    refine ⟨request, statusCode, by rw [hpayload]; rfl, hanswer, h404, h422, ?_⟩
    have hexchanges := congrArg CloudController.exchanges hc₁
    exact hexchanges

theorem keeps_underway_uploadResource (tempFilename : ℕ) (identifier sha1Sum sha256Sum : Bytes) :
    Keeps Underway (uploadResource (handler.updatingCC updater).recording tempFilename identifier
      sha1Sum sha256Sum) :=
  (keptWhileStoring_updatingCC (K := fun response => response.status ≠ some 201)
    (fun _ _ => keeps_accepted_update hclient _)).uploadResource tempFilename identifier sha1Sum
    sha256Sum

theorem uploadAndAnswer_agrees (formats : Formats) (request : Request) (identifier : Bytes)
    (tempFilename : ℕ) (sha1 sha256 : Bytes)
    {w : Env ((σ × CloudController) × List ServiceCall)} (hw : Underway w)
    (hnoticed : Noticed w.ext.1.2.answer) :
    Agrees ((uploadAndAnswer formats (handler.updatingCC updater).recording request identifier
      tempFilename sha1 sha256).run w).2 := by
  have hresource : ∀ resource,
      Keeps (Underway (σ := σ)) (write (.resource resource)) :=
    fun _ w hw => ⟨hw.1, sent_ne_created hw.2 (by decide)⟩
  have hanswers : KeptByAnswers (Underway (σ := σ)) :=
    keptByAnswers_not_created (J := fun ext => ext.1.2.Accepted "PROCESSING_UPLOAD")
  unfold uploadAndAnswer
  by_cases hasync : request.queryGet (ascii "async") = ascii "true"
  · rw [if_pos hasync]
    refine Underway.agrees (Keeps.bind (hanswers.writeResponseBasedOn _ _ _ _ _ _ (fun _ w hw => ?_)
      (fun resource _ => hresource resource) _) (fun _ => Keeps.bind
        (keeps_underway_uploadResource hclient _ _ _ _) fun _ => Keeps.pure _ _) w hw)
    exact ⟨hw.1, sent_ne_created hw.2 (by decide)⟩
  · rw [if_neg hasync]
    have hkeeps : Keeps Underway (uploadResource (handler.updatingCC updater).recording tempFilename
        identifier sha1 sha256) := keeps_underway_uploadResource hclient _ _ _ _
    refine bind_leaves (fun e w₁ h => (hkeeps.of_run h hw).agrees) (fun r w₁ h => ?_)
    have hw₁ := hkeeps.of_run h hw
    cases r with
    | error e =>
      exact Underway.agrees (hanswers.writeResponseBasedOn formats.digests [] (some e) 201 none _
        (fun h => by cases h) (fun resource _ => hresource resource) [] w₁ hw₁)
    | ok u =>
      obtain ⟨request, statusCode, hstate, hanswer, h404, h422, hexchanges⟩ :=
        uploadResource_eq_ok hclient h
      have hready : w₁.ext.1.2.Accepted "READY" := by
        refine ⟨request, statusCode, by simp [hexchanges], hstate, ?_⟩
        rw [hanswer] at hnoticed
        by_contra hge
        rcases hnoticed (by omega) with h | h
        · exact h404 h
        · exact h422 h
      have hboth := (keptByAnswers_of_blind (I := OfExt fun ext : (σ × CloudController) ×
        List ServiceCall => ext.1.2.Accepted "PROCESSING_UPLOAD" ∧ ext.1.2.Accepted "READY")
          fun _ _ h => h).writeResponseBasedOn formats.digests [] none 201 none
            (some (uploadBody identifier "READY" sha1 sha256)) (fun _ _ h => h)
            (fun _ _ _ h => h) [] w₁ ⟨hw₁.1, hready⟩
      exact ⟨fun _ _ _ _ => hboth.1, fun _ => hboth⟩

def Quiet (w : Env ((σ × CloudController) × List ServiceCall)) : Prop :=
  (∀ path src r, .put path src r ∉ w.ext.2) ∧ w.response.status ≠ some 201

omit hclient in
theorem Quiet.agrees {w : Env ((σ × CloudController) × List ServiceCall)} (h : Quiet w) :
    Agrees w :=
  ⟨fun path src r hmem => absurd hmem (h.1 path src r), fun hready => absurd hready h.2⟩

/-- No call was made, and nothing was exchanged with the Cloud Controller yet. -/
def Untold (answers : List (Result ℕ))
    (w : Env ((σ × CloudController) × List ServiceCall)) : Prop :=
  (w.ext.2 = [] ∧ w.ext.1.2 = ⟨answers, []⟩) ∧ w.response.status ≠ some 201

omit hclient in
theorem Untold.quiet {answers : List (Result ℕ)}
    {w : Env ((σ × CloudController) × List ServiceCall)} (h : Untold answers w) : Quiet w := by
  refine ⟨fun path src r hmem => ?_, h.2⟩
  rw [h.1.1] at hmem
  cases hmem

omit hclient in
theorem keeps_quiet_notifyProcessingUpload (identifier : Bytes) :
    Keeps Quiet (onExt
      ((handler.updatingCC updater).recording.updater.notifyProcessingUpload identifier)) := by
  intro w hw
  refine ⟨?_, hw.2⟩
  exact keeps_recorded_calls (C := fun calls => ∀ path src r, .put path src r ∉ calls)
    (.notifyProcessingUpload identifier)
    (fun calls r hcalls path src r' hmem => hcalls path src r' (by simpa using hmem)) w.ext hw.1

theorem underway_of_notified {identifier : Bytes} {answers : List (Result ℕ)}
    (hanswers : ErrorsNoticed answers) {w w' : Env ((σ × CloudController) × List ServiceCall)}
    (hw : Untold answers w)
    (h : (onExt
      ((handler.updatingCC updater).recording.updater.notifyProcessingUpload identifier)).run w =
      (.returned (.ok ()), w')) : Underway w' ∧ Noticed w'.ext.1.2.answer := by
  obtain ⟨hrun, -, hresponse⟩ := run_notify_eq_returned h
  obtain ⟨request, statusCode, hpayload, hanswer, h404, h422, hc⟩ := update_eq_ok hclient hrun
  rw [hw.1.2] at hanswer hc
  obtain ⟨hfirst, hsecond⟩ := hanswers
  have hlt : statusCode < 400 := by
    have hnoticed : Noticed (.ok statusCode) := hanswer ▸ hfirst
    by_contra hge
    rcases hnoticed (by omega) with h | h
    · exact h404 h
    · exact h422 h
  have haccepts : Accepts (answers.headD (.ok 200)) := by
    have hhead : answers.headD (.ok 200) = .ok statusCode := hanswer
    rw [hhead]
    exact hlt
  rw [hc]
  refine ⟨⟨⟨request, statusCode, ?_, by rw [hpayload]; rfl, hlt⟩, ?_⟩, hsecond haccepts⟩
  · rw [hc]
    exact List.mem_append_right _ List.mem_cons_self
  · rw [hresponse]
    exact hw.2

theorem storeBits_agrees (formats : Formats) (request : Request) (identifier : Bytes)
    (tempFilename : ℕ) {answers : List (Result ℕ)} (hanswers : ErrorsNoticed answers)
    {w : Env ((σ × CloudController) × List ServiceCall)} (hw : Untold answers w) :
    Agrees ((storeBits formats (handler.updatingCC updater).recording request identifier
      tempFilename).run w).2 := by
  have hhost : Keeps (Untold answers)
      (onHost (shaSums formats.digests tempFilename) : Prog GoError
        (Env ((σ × CloudController) × List ServiceCall)) _) := fun _ h => h
  refine bind_leaves (fun e w₁ h => (hhost.of_run h hw).quiet.agrees) (fun sums w₁ h => ?_)
  have hw₁ := hhost.of_run h hw
  refine bind_leaves (fun e w₂ h₂ => ?_) (fun sums' w₂ h₂ => ?_)
  · exact (Untold.quiet ((keeps_panicOnError _ _).of_run h₂ hw₁)).agrees
  have hw₂ : Untold answers w₂ := (keeps_panicOnError _ _).of_run h₂ hw₁
  obtain ⟨sha1, sha256⟩ := sums'
  have hnotify : Keeps Quiet (onExt ((handler.updatingCC updater).recording.updater
      |>.notifyProcessingUpload identifier)) := keeps_quiet_notifyProcessingUpload identifier
  refine bind_leaves (fun e w₃ h₃ => (hnotify.of_run h₃ hw₂.quiet).agrees) (fun r w₃ h₃ => ?_)
  cases r with
  | error e =>
    have hquiet : Keeps Quiet (handleNotificationError (.error e) : Prog GoError
        (Env ((σ × CloudController) × List ServiceCall)) Bool) :=
      (keptByAnswers_not_created (J := fun ext => ∀ path src r, .put path src r ∉
        ext.2)).handleNotificationError _
    have hw₃ := hnotify.of_run h₃ hw₂.quiet
    refine bind_leaves (fun e' w₄ h₄ => (hquiet.of_run h₄ hw₃).agrees) (fun handled w₄ h₄ => ?_)
    cases handled with
    | true => exact (hquiet.of_run h₄ hw₃).agrees
    | false => cases (handleNotificationError_eq_false h₄).1
  | ok u =>
    obtain ⟨hunderway, hnoticed⟩ := underway_of_notified hclient hanswers hw₂ h₃
    exact uploadAndAnswer_agrees hclient formats request identifier tempFilename sha1 sha256
      hunderway hnoticed

omit hclient in
theorem keptWhileReceiving_untold (formats : Formats) (answers : List (Result ℕ)) :
    KeptWhileReceiving formats (handler.updatingCC updater).recording (Untold answers) where
  blind _ _ hw := hw
  answers := keptByAnswers_not_created (J := fun ext => ext.2 = [] ∧ ext.1.2 = ⟨answers, []⟩)
  stashPut _ _ hw := hw
  stashGet _ _ hw := hw

theorem alwaysAgrees_of_errorsNoticed {answers : List (Result ℕ)} (hanswers : ErrorsNoticed answers)
    (formats : Formats) (request : Request) (identifier : Bytes) (host : Host) (services : σ) :
    Agrees ((addOrReplace formats (handler.updatingCC updater).recording request identifier).run
      ⟨host, ((services, ⟨answers, []⟩), []), .empty⟩).2 := by
  have hstart : Untold answers (⟨host, ((services, ⟨answers, []⟩), []), .empty⟩ :
    Env ((σ × CloudController) × List ServiceCall)) := ⟨⟨rfl, rfl⟩, by simp [Response.empty]⟩
  have hstarted : KeptWhileReceiving formats (handler.updatingCC updater).recording
      (Untold answers) := keptWhileReceiving_untold formats answers
  have hkept := hstarted.receiveUpload request
  refine bind_leaves (fun e w h => (hkept.of_run h hstart).quiet.agrees) (fun received w h => ?_)
  have hw := hkept.of_run h hstart
  rcases received with _ | ⟨request', tempFilename⟩
  · exact hw.quiet.agrees
  · exact storeBits_agrees hclient formats request' identifier tempFilename hanswers hw

end Agreement

/-! ## An answer that goes unnoticed

The upload of an empty package to an empty store, over a host without failures. -/

def stagingUpdater : CCUpdater CloudController :=
  ⟨scriptedClient, ascii "https://api.internal/", ascii "PATCH", fun _ _ => true⟩

def packageUploads : ResourceHandler ((MapStore × CloudController) × List ServiceCall) :=
  ((newResourceHandler inmemoryBlobstore mapBlobstore (ascii "package") 0).updatingCC
    stagingUpdater).recording

def emptyPackage : Request where
  contentLength := 0
  header _ := []
  query := []
  body := ⟨[], none⟩
  form := .ok ⟨[], [(ascii "bits", plainFormat.encode [])]⟩

def beforeUpload (answers : List (Result ℕ)) :
    Env ((MapStore × CloudController) × List ServiceCall) :=
  ⟨⟨fun _ => [], fun _ => none, 0, []⟩, ((⟨fun _ => none, [], []⟩, ⟨answers, []⟩), []), .empty⟩

def afterSums (answers : List (Result ℕ)) : Env ((MapStore × CloudController) × List ServiceCall) :=
  ((onHost (shaSums helloDigests 0)).run
    ((receiveUpload plainFormats packageUploads emptyPackage).run (beforeUpload answers)).2).2

def afterNotified (answers : List (Result ℕ)) (statusCode : ℕ) :
    Env ((MapStore × CloudController) × List ServiceCall) :=
  { afterSums answers with
    ext := (((afterSums answers).ext.1.1, ⟨answers.tail,
      [(⟨ascii "PATCH", stagingUpdater.url (ascii "app"),
        processingUploadPayload (ascii "PROCESSING_UPLOAD")⟩, .ok statusCode)]⟩),
      [.notifyProcessingUpload (ascii "app") (.ok ())]) }

section Unnoticed
variable {answers : List (Result ℕ)} {statusCode : ℕ}

theorem not_noticed {statusCode : ℕ} (h : ¬ Noticed (.ok statusCode)) :
    400 ≤ statusCode ∧ statusCode ≠ 404 ∧ statusCode ≠ 422 := by
  unfold Noticed at h
  push Not at h
  exact h

theorem run_addOrReplace_emptyPackage
    (hfirst : (⟨answers, []⟩ : CloudController).answer = .ok statusCode) (h404 : statusCode ≠ 404)
    (h422 : statusCode ≠ 422) :
    (addOrReplace plainFormats packageUploads emptyPackage (ascii "app")).run
        (beforeUpload answers) =
      (uploadAndAnswer plainFormats packageUploads emptyPackage (ascii "app") 0
        (helloDigests.sha1 (plainFormat.encode []))
        (helloDigests.sha256 (plainFormat.encode []))).run (afterNotified answers statusCode) := by
  have hreceive : (receiveUpload plainFormats packageUploads emptyPackage).run
      (beforeUpload answers) = (.returned (some (emptyPackage, 0)),
        ((receiveUpload plainFormats packageUploads emptyPackage).run (beforeUpload answers)).2) :=
    rfl
  have hsums : (onHost (shaSums plainFormats.digests 0)).run
      ((receiveUpload plainFormats packageUploads emptyPackage).run (beforeUpload answers)).2 =
        (.returned (.ok (helloDigests.sha1 (plainFormat.encode []),
          helloDigests.sha256 (plainFormat.encode []))), afterSums answers) := rfl
  have hupdate := @run_update stagingUpdater rfl (ascii "app")
    (processingUploadPayload (ascii "PROCESSING_UPLOAD")) ⟨answers, []⟩ _ rfl hfirst h404 h422
  have hnotify := run_notify_returned (w := afterSums answers)
    (.notifyProcessingUpload (ascii "app")) hupdate
  unfold addOrReplace
  rw [run_bind_returned hreceive]
  show (storeBits plainFormats packageUploads emptyPackage (ascii "app") 0).run _ = _
  unfold storeBits
  rw [run_bind_returned hsums, run_bind_returned (run_panicOnError_ok _ _)]
  exact run_bind_returned hnotify

def afterStored (answers : List (Result ℕ)) (statusCode : ℕ) :
    Env ((MapStore × CloudController) × List ServiceCall) :=
  ((uploadAttempt packageUploads 0 (ascii "app") ()).run
    ((onHost takeBudget).run (afterNotified answers statusCode)).2).2

theorem run_takeBudget_afterNotified :
    (onHost takeBudget).run (afterNotified answers statusCode) =
      (.returned 0, ((onHost takeBudget).run (afterNotified answers statusCode)).2) := rfl

theorem run_uploadLoop_afterNotified :
    (retryNotify (uploadAttempt packageUploads 0 (ascii "app")) 0 ()).run
        ((onHost takeBudget).run (afterNotified answers statusCode)).2 =
      (.returned (none, ()), afterStored answers statusCode) :=
  run_retryNotify_done _ rfl

theorem afterStored_calls : (afterStored answers statusCode).ext.2 =
    [.notifyProcessingUpload (ascii "app") (.ok ()),
      .put (ascii "app") (plainFormat.encode []) (.ok ())] := rfl

theorem afterStored_cloudController : (afterStored answers statusCode).ext.1.2 =
    ⟨answers.tail, [(⟨ascii "PATCH", stagingUpdater.url (ascii "app"),
      processingUploadPayload (ascii "PROCESSING_UPLOAD")⟩, .ok statusCode)]⟩ := rfl

theorem not_agrees_of_first (hfirst : (⟨answers, []⟩ : CloudController).answer = .ok statusCode)
    (h : ¬ Noticed (.ok statusCode)) :
    ¬ Agrees ((addOrReplace plainFormats packageUploads emptyPackage (ascii "app")).run
      (beforeUpload answers)).2 := by
  obtain ⟨hge, h404, h422⟩ := not_noticed h
  rw [run_addOrReplace_emptyPackage hfirst h404 h422]
  let I : Env ((MapStore × CloudController) × List ServiceCall) → Prop := OfExt fun ext =>
    .put (ascii "app") (plainFormat.encode []) (.ok ()) ∈ ext.2 ∧
      ¬ ext.1.2.Accepted "PROCESSING_UPLOAD"
  have hstored : I (afterStored answers statusCode) := by
    refine ⟨by rw [afterStored_calls]; simp, ?_⟩
    rw [afterStored_cloudController]
    rintro ⟨request, statusCode', hmem, -, hlt⟩
    obtain ⟨-, hstatus⟩ := Prod.mk.inj (List.mem_singleton.mp hmem)
    cases hstatus
    omega
  -- what follows the put neither undoes it nor makes up for the consent
  have hnotify : ∀ sha1 sha256,
      Keeps I (onExt (packageUploads.updater.notifyUploadSucceeded (ascii "app") sha1 sha256)) := by
    intro sha1 sha256 w hw
    have hstate : ascii "READY" ≠ ascii "PROCESSING_UPLOAD" := by decide
    refine ⟨?_, keeps_recorded_zoom_snd (keeps_not_accepted_update rfl
      hstate) w.ext hw.2⟩
    exact keeps_recorded_calls
      (C := fun calls => .put (ascii "app") (plainFormat.encode []) (.ok ()) ∈ calls)
      (.notifyUploadSucceeded (ascii "app") sha1 sha256)
      (fun calls a hmem => List.mem_append_left _ hmem) w.ext hw.1
  have hupload : I ((uploadResource packageUploads 0 (ascii "app")
      (helloDigests.sha1 (plainFormat.encode [])) (helloDigests.sha256 (plainFormat.encode []))).run
      (afterNotified answers statusCode)).2 := by
    have hblind : HostBlind I := hostBlind_ofExt _
    have hkept : Keeps I (orReturn (onExt (packageUploads.updater.notifyUploadSucceeded
        (ascii "app") (hexEncode (helloDigests.sha1 (plainFormat.encode [])))
        (hexEncode (helloDigests.sha256 (plainFormat.encode [])))))
        (.wrap "Could not notify Cloud Controller about successful upload")
        fun _ => pure (.ok ())) := keeps_orReturn (hnotify _ _) (fun _ => Keeps.pure I _)
    unfold uploadResource removingTemp
    rw [run_ensuring, run_bind_returned run_takeBudget_afterNotified,
      run_bind_returned run_uploadLoop_afterNotified]
    exact hblind _ _ (hkept _ hstored)
  have hanswer : I ((uploadAndAnswer plainFormats packageUploads emptyPackage (ascii "app") 0
      (helloDigests.sha1 (plainFormat.encode [])) (helloDigests.sha256 (plainFormat.encode []))).run
      (afterNotified answers statusCode)).2 := by
    unfold uploadAndAnswer
    rw [if_neg (by decide)]
    refine bind_leaves (fun e w h => ?_) (fun r w h => ?_)
    · rw [h] at hupload
      exact hupload
    · rw [h] at hupload
      exact (keptByAnswers_of_blind (I := I) fun _ _ h => h).writeResponseBasedOn _ _ _ _ _ _
        (fun _ _ h => h) (fun _ _ _ h => h) _ w hupload
  exact fun hagrees => hanswer.2 (hagrees.bits _ _ _ hanswer.1)

theorem not_agrees_of_second {statusCode' : ℕ}
    (hfirst : (⟨answers, []⟩ : CloudController).answer = .ok statusCode)
    (hlt : statusCode < 400)
    (hsecond : (⟨answers.tail, []⟩ : CloudController).answer = .ok statusCode')
    (h : ¬ Noticed (.ok statusCode')) :
    ¬ Agrees ((addOrReplace plainFormats packageUploads emptyPackage (ascii "app")).run
      (beforeUpload answers)).2 := by
  obtain ⟨hge, h404, h422⟩ := not_noticed h
  rw [run_addOrReplace_emptyPackage hfirst (by omega) (by omega)]
  have hupdate := @run_update stagingUpdater rfl (ascii "app")
    (successPayload (ascii "READY")
      [(ascii "sha1", hexEncode (helloDigests.sha1 (plainFormat.encode []))),
        (ascii "sha256", hexEncode (helloDigests.sha256 (plainFormat.encode [])))])
    (afterStored answers statusCode).ext.1.2 _ rfl hsecond h404 h422
  have hnotify := run_notify_returned (w := afterStored answers statusCode)
    (.notifyUploadSucceeded (ascii "app")
      (hexEncode (helloDigests.sha1 (plainFormat.encode [])))
      (hexEncode (helloDigests.sha256 (plainFormat.encode [])))) hupdate
  have hupload : (uploadResource packageUploads 0 (ascii "app")
      (helloDigests.sha1 (plainFormat.encode [])) (helloDigests.sha256 (plainFormat.encode []))).run
      (afterNotified answers statusCode) = (.returned (.ok ()), _) :=
    run_removingTemp ((run_bind_returned run_takeBudget_afterNotified).trans
      ((run_bind_returned run_uploadLoop_afterNotified).trans (run_orReturn_ok hnotify)))
  unfold uploadAndAnswer
  rw [if_neg (by decide), run_bind_returned hupload]
  intro hagrees
  obtain ⟨-, request, readyCode, hmem, hstate, haccepted⟩ := hagrees.ready rfl
  rcases List.mem_append.mp hmem with hold | hnew
  · obtain ⟨rfl, -⟩ := Prod.mk.inj (List.mem_singleton.mp hold)
    exact absurd hstate (by decide)
  · obtain ⟨-, hstatus⟩ := Prod.mk.inj (List.mem_singleton.mp hnew)
    cases hstatus
    omega

end Unnoticed

/-- **When the two sides agree**: when the Cloud Controller reports no HTTP error that the updater
does not take for one. -/
theorem alwaysAgrees_iff (answers : List (Result ℕ)) :
    AlwaysAgrees answers ↔ ErrorsNoticed answers := by
  constructor
  · intro h
    have hrun : Agrees ((addOrReplace plainFormats packageUploads emptyPackage (ascii "app")).run
        (beforeUpload answers)).2 :=
      h MapStore plainFormats
        (newResourceHandler inmemoryBlobstore mapBlobstore (ascii "package") 0) stagingUpdater
        emptyPackage (ascii "app") _ _ rfl rfl
    by_contra hnot
    by_cases hfirst : Noticed (answers.headD (.ok 200))
    · have hsecond :
          ¬ (Accepts (answers.headD (.ok 200)) → Noticed (answers.tail.headD (.ok 200))) :=
        fun hs => hnot ⟨hfirst, hs⟩
      push Not at hsecond
      cases ha : answers.headD (.ok 200) with
      | error e =>
        rw [ha] at hsecond
        exact hsecond.1
      | ok statusCode =>
        rw [ha] at hsecond
        cases hb : answers.tail.headD (.ok 200) with
        | error e =>
          rw [hb] at hsecond
          exact hsecond.2 trivial
        | ok statusCode' =>
          rw [hb] at hsecond
          exact not_agrees_of_second ha hsecond.1 hb hsecond.2 hrun
    · cases ha : answers.headD (.ok 200) with
      | error e =>
        rw [ha] at hfirst
        exact hfirst trivial
      | ok statusCode =>
        rw [ha] at hfirst
        exact not_agrees_of_first ha hfirst hrun
  · intro hanswers σ formats handler updater request identifier host services _ hclient
    exact alwaysAgrees_of_errorsNoticed hclient hanswers formats request identifier host services

/-- The Cloud Controller fails on every request, and the upload is stored and answered 201. -/
theorem not_alwaysAgrees_internal_error : ¬ AlwaysAgrees [.ok 500, .ok 500] := by
  intro h
  have hrun : Agrees ((addOrReplace plainFormats packageUploads emptyPackage (ascii "app")).run
      (beforeUpload [.ok 500, .ok 500])).2 :=
    h MapStore plainFormats (newResourceHandler inmemoryBlobstore mapBlobstore (ascii "package") 0)
      stagingUpdater emptyPackage (ascii "app") _ _ rfl rfl
  have hunnoticed : ¬ Noticed (.ok 500) := by simp [Noticed]
  exact not_agrees_of_first rfl hunnoticed hrun

end BitsService
