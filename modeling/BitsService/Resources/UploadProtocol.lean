import BitsService.Blobstores.Scripted
import BitsService.Resources.Receiving

/-! # What an upload calls

The services of a handler are recorded: every call to its blobstore and to its updater, with what it
returned. Whatever these return, an upload calls them in one order. -/
namespace BitsService
open GoLib.Effect GoLib.Retry
set_option autoImplicit false

variable {σ : Type}

/-! ## Recording -/

/-- A call of a handler to its services, with what came of it. -/
inductive ServiceCall where
  | notifyProcessingUpload (guid : Bytes) (r : Result Unit)
  | put (path src : Bytes) (r : Result Unit)
  | notifyUploadSucceeded (guid sha1 sha256 : Bytes) (r : Result Unit)
  | notifyUploadFailed (guid : Bytes) (e : GoError) (r : Result Unit)
  | other (path : Bytes)

open ServiceCall

def Blobstore.recording (blobstore : Blobstore σ) : Blobstore (σ × List ServiceCall) where
  existsBlob path := recorded (fun _ => .other path) (blobstore.existsBlob path)
  get path := recorded (fun _ => .other path) (blobstore.get path)
  put path src := recorded (.put path src) (blobstore.put path src)
  delete path := recorded (fun _ => .other path) (blobstore.delete path)
  deleteDir pre := recorded (fun _ => .other pre) (blobstore.deleteDir pre)
  headOrRedirectAsGet path := recorded (fun _ => .other path) (blobstore.headOrRedirectAsGet path)
  getOrRedirect path := recorded (fun _ => .other path) (blobstore.getOrRedirect path)
  copy src dest := recorded (fun _ => .other dest) (blobstore.copy src dest)

def Updater.recording (updater : Updater σ) : Updater (σ × List ServiceCall) where
  notifyProcessingUpload guid :=
    recorded (.notifyProcessingUpload guid) (updater.notifyProcessingUpload guid)
  notifyUploadSucceeded guid sha1 sha256 :=
    recorded (.notifyUploadSucceeded guid sha1 sha256)
      (updater.notifyUploadSucceeded guid sha1 sha256)
  notifyUploadFailed guid e :=
    recorded (.notifyUploadFailed guid e) (updater.notifyUploadFailed guid e)

/-- The handler with its blobstore and its updater recorded. The app stash serves the bundling of
every package, and is not. -/
def ResourceHandler.recording (handler : ResourceHandler σ) :
    ResourceHandler (σ × List ServiceCall) :=
  { handler with
    blobstore := handler.blobstore.recording
    appStashBlobstore := handler.appStashBlobstore.zoom (fstPart σ (List ServiceCall))
    updater := handler.updater.recording }

structure ResourceHandler.CallsReturn (handler : ResourceHandler σ) : Prop where
  put : ∀ path src, Total (handler.blobstore.put path src)
  notifyProcessingUpload : ∀ guid, Total (handler.updater.notifyProcessingUpload guid)
  notifyUploadSucceeded : ∀ guid sha1 sha256,
    Total (handler.updater.notifyUploadSucceeded guid sha1 sha256)
  notifyUploadFailed : ∀ guid e, Total (handler.updater.notifyUploadFailed guid e)

/-! ## The protocol -/

/-- The calls of failing puts of the bits. -/
def failingPuts (identifier content : Bytes) (failures : List GoError) : List ServiceCall :=
  failures.map fun e => .put identifier content (.error e)

/-- The calls that store `content`, once the updater knows of it: failing puts, and either one that
succeeds or none. -/
inductive StoreTrace (digests : Digests) (identifier content : Bytes) :
    List ServiceCall → Prop where
  | succeeded (failures : List GoError) (r : Result Unit) (hspace : .noSpaceLeft ∉ failures) :
      StoreTrace digests identifier content
        (failingPuts identifier content failures ++
          [.put identifier content (.ok ()),
            .notifyUploadSucceeded identifier (hexEncode (digests.sha1 content))
              (hexEncode (digests.sha256 content)) r])
  | failed (failures : List GoError) (e : GoError) (r : Result Unit)
      (hspace : .noSpaceLeft ∉ failures.dropLast) :
      StoreTrace digests identifier content
        (failingPuts identifier content failures ++
          [.notifyUploadFailed identifier e r])

/-- The calls of an upload of `content`. -/
inductive UploadTrace (digests : Digests) (identifier content : Bytes) :
    List ServiceCall → Prop where
  | nothing : UploadTrace digests identifier content []
  | refused (e : GoError) :
      UploadTrace digests identifier content [.notifyProcessingUpload identifier (.error e)]
  | stored (calls : List ServiceCall) (h : StoreTrace digests identifier content calls) :
      UploadTrace digests identifier content (.notifyProcessingUpload identifier (.ok ()) :: calls)

/-- The content of the temp file from which an upload goes on. -/
def uploadedBits (formats : Formats) (handler : ResourceHandler σ) (request : Request) (w : Env σ) :
    Option Bytes :=
  match (receiveUpload formats handler request).run w with
  | (.returned (some (_, tempFilename)), w') => w'.host.temps tempFilename
  | _ => none

def AnswersDigestsOf (digests : Digests) (content : Bytes) (response : Response) : Prop :=
  ∀ body, .resource body ∈ response.body →
    body.sha1 = hexEncode (digests.sha1 content) ∧ body.sha256 = hexEncode (digests.sha256 content)

/-- The calls made follow the protocol for the bits of the temp file, and the answer has their
digests. -/
def FollowsProtocol (digests : Digests) (identifier : Bytes) (bits : Option Bytes)
    (w : Env (σ × List ServiceCall)) : Prop :=
  match bits with
  | none => w.ext.2 = [] ∧ ∀ body, .resource body ∉ w.response.body
  | some content =>
    UploadTrace digests identifier content w.ext.2 ∧ AnswersDigestsOf digests content w.response

/-! ## Storing the bits -/

section Store
variable {digests : Digests} {handler : ResourceHandler σ} {identifier content : Bytes} {name : ℕ}
  {calls : List ServiceCall} {response : Response}

/-- The temp file holds the bits; these calls were made, and this was answered. -/
structure Uploading (name : ℕ) (content : Bytes) (calls : List ServiceCall) (response : Response)
    (w : Env (σ × List ServiceCall)) : Prop where
  temp : w.host.temps name = some content
  calls : w.ext.2 = calls
  response : w.response = response

theorem run_shaSums (digests : Digests) (name : ℕ) (h : Host) :
    ∃ r h', (shaSums digests name).run h = (.returned r, h') ∧ h'.temps = h.temps ∧
      ∀ sums, r = .ok sums → ∃ content, h.temps name = some content ∧
        sums = (digests.sha1 content, digests.sha256 content) := by
  obtain ⟨r, h₁, hopen, htemps, hsrc⟩ := run_openTemp name h
  cases r with
  | error e => exact ⟨_, h₁, run_orReturn_error hopen, htemps, by simp⟩
  | ok src =>
    unfold shaSums
    rw [run_orReturn_ok hopen]
    obtain ⟨read, h₂, hread, htemps₂⟩ : ∃ read h₂,
        (osCall .readTemp).run h₁ = (.returned read, h₂) ∧ h₂.temps = h₁.temps :=
      ⟨_, _, run_osCall _ _, rfl⟩
    cases read with
    | error e => exact ⟨_, h₂, run_orReturn_error hread, htemps₂.trans htemps, by simp⟩
    | ok u =>
      refine ⟨_, h₂, run_orReturn_ok hread, htemps₂.trans htemps, ?_⟩
      rintro sums ⟨rfl⟩
      exact ⟨src, hsrc src rfl, rfl⟩

theorem failingPuts_concat (calls : List ServiceCall) (failures : List GoError) (e : GoError) :
    calls ++ failingPuts identifier content failures ++ [.put identifier content (.error e)] =
      calls ++ failingPuts identifier content (failures ++ [e]) := by
  simp [failingPuts]

theorem ne_noSpaceLeft_of_putFailure {e e' : GoError} (h : putFailure name e = .transient e') :
    .noSpaceLeft ≠ e := by
  rintro rfl
  cases h

/-- What the retry loop ends with: some failing puts, none of them retried for lack of space, and
the one that succeeded, if the loop did. -/
def LoopEnded (name : ℕ) (identifier content : Bytes) (calls : List ServiceCall)
    (response : Response) (out : Option GoError) (w : Env (σ × List ServiceCall)) : Prop :=
  ∃ failures : List GoError,
    out = none ∧ .noSpaceLeft ∉ failures ∧ Uploading name content
      (calls ++ failingPuts identifier content failures ++ [.put identifier content (.ok ())])
      response w ∨
    out ≠ none ∧ .noSpaceLeft ∉ failures.dropLast ∧ Uploading name content
      (calls ++ failingPuts identifier content failures) response w

theorem run_recorded_onExt {α : Type} {call : α → ServiceCall} {m : Prog GoError σ α}
    {w : Env (σ × List ServiceCall)} (hm : Total m) (hw : w.ext.2 = calls) :
    ∃ a services', (onExt (recorded call m)).run w =
      (.returned a, { w with ext := (services', calls ++ [call a]) }) := by
  obtain ⟨a, services', hrun⟩ := hm w.ext.1
  refine ⟨a, services', ?_⟩
  have hrec : (recorded call m).run w.ext = (.returned a, (services', w.ext.2 ++ [call a])) :=
    run_recorded_returned hrun
  rw [run_onExt, hrec, hw]

theorem keptByAnswers_digests (digests : Digests) (content : Bytes) (calls : List ServiceCall) :
    KeptByAnswers fun w : Env (σ × List ServiceCall) =>
      w.ext.2 = calls ∧ AnswersDigestsOf digests content w.response where
  header _ _ _ hw := hw
  status _ _ _ hw := hw
  raw _ _ hw := ⟨hw.1, fun body hbody => hw.2 body (by simpa using hbody)⟩
  description _ _ _ _ hw := ⟨hw.1, fun body hbody => hw.2 body (by simpa using hbody)⟩

theorem keeps_write_uploadBody (identifier : Bytes) (calls : List ServiceCall) (state : String) :
    Keeps (fun w : Env (σ × List ServiceCall) =>
        w.ext.2 = calls ∧ AnswersDigestsOf digests content w.response)
      (write (.resource (uploadBody identifier state (digests.sha1 content)
        (digests.sha256 content)))) := by
  intro w hw
  refine ⟨hw.1, fun body hbody => ?_⟩
  rcases List.mem_append.mp hbody with hold | hnew
  · exact hw.2 body hold
  · obtain rfl : body = uploadBody identifier state (digests.sha1 content)
        (digests.sha256 content) := by simpa using hnew
    exact ⟨rfl, rfl⟩

variable (hreturn : handler.CallsReturn)
include hreturn

theorem run_uploadAttempt {w : Env (σ × List ServiceCall)}
    (hw : Uploading name content calls response w) :
    ∃ out w', (uploadAttempt handler.recording name identifier ()).run w =
        (.returned (out, ()), w') ∧
      ((∃ e, out = some (.permanent e)) ∧ Uploading name content calls response w' ∨
        out = none ∧
          Uploading name content (calls ++ [.put identifier content (.ok ())]) response w' ∨
        ∃ e, out = some (putFailure name e) ∧
          Uploading name content (calls ++ [.put identifier content (.error e)]) response w') := by
  obtain ⟨r, h₁, hopen, htemps, hsrc⟩ := run_openTemp name w.host
  have htemp : h₁.temps name = some content := (congrFun htemps name).trans hw.temp
  unfold uploadAttempt
  rw [run_bind, run_onHost, hopen]
  cases r with
  | error e => exact ⟨_, _, rfl, .inl ⟨⟨_, rfl⟩, htemp, hw.calls, hw.response⟩⟩
  | ok src =>
    -- what is offered is what the temp file holds
    have hsrc : src = content := Option.some.inj ((hsrc src rfl).symm.trans hw.temp)
    subst hsrc
    obtain ⟨r, services', hput⟩ := run_recorded_onExt (w := { w with host := h₁ })
      (hreturn.put identifier src) hw.calls
    cases r with
    | error e =>
      exact ⟨_, _, run_bind_returned hput, .inr (.inr ⟨e, rfl, htemp, rfl, hw.response⟩)⟩
    | ok u => exact ⟨_, _, run_bind_returned hput, .inr (.inl ⟨rfl, htemp, rfl, hw.response⟩)⟩

theorem run_uploadLoop (budget : ℕ) {w : Env (σ × List ServiceCall)}
    (hw : Uploading name content calls response w) :
    ∃ out w', (retryNotify (uploadAttempt handler.recording name identifier) budget ()).run w =
        (.returned (out, ()), w') ∧ LoopEnded name identifier content calls response out w' := by
  -- before every attempt, some puts have failed, none of them for lack of space
  have hrule := @retryNotify_rule _ _ _ _ (uploadAttempt handler.recording name identifier)
    (fun _ w => ∃ failures : List GoError, .noSpaceLeft ∉ failures ∧
      Uploading name content (calls ++ failingPuts identifier content failures) response w)
    (fun o w' => ∃ out, o = .returned (out, ()) ∧
      LoopEnded name identifier content calls response out w')
    ?panicked ?done ?failed ?again budget () w
    ⟨[], List.not_mem_nil, by simpa [failingPuts] using hw⟩
  case panicked =>
    rintro t w e w' ⟨failures, -, hup⟩ hop
    obtain ⟨out, w₁, hrun, -⟩ := run_uploadAttempt hreturn hup
    rw [hrun] at hop
    cases hop
  case done =>
    rintro t w t' w' ⟨failures, hspace, hup⟩ hop
    obtain ⟨out, w₁, hrun, hcases⟩ := run_uploadAttempt hreturn hup
    rw [hrun] at hop
    cases hop
    rcases hcases with ⟨⟨e, he⟩, -⟩ | ⟨-, hup'⟩ | ⟨e, he, -⟩
    · cases he
    · exact ⟨none, rfl, failures, .inl ⟨rfl, hspace, hup'⟩⟩
    · cases he
  case failed =>
    rintro t w f t' w' ⟨failures, hspace, hup⟩ hop
    obtain ⟨out, w₁, hrun, hcases⟩ := run_uploadAttempt hreturn hup
    rw [hrun] at hop
    cases hop
    rcases hcases with ⟨-, hup'⟩ | ⟨hnone, -⟩ | ⟨e, -, hup'⟩
    · exact ⟨_, rfl, failures,
        .inr ⟨by simp, fun hmem => hspace (List.dropLast_subset _ hmem), hup'⟩⟩
    · cases hnone
    · rw [failingPuts_concat] at hup'
      exact ⟨_, rfl, failures ++ [e], .inr ⟨by simp, by rwa [List.dropLast_concat], hup'⟩⟩
  case again =>
    rintro t w e t' w' ⟨failures, hspace, hup⟩ hop
    obtain ⟨out, w₁, hrun, hcases⟩ := run_uploadAttempt hreturn hup
    rw [hrun] at hop
    cases hop
    rcases hcases with ⟨⟨e', he'⟩, -⟩ | ⟨hnone, -⟩ | ⟨e', he', hup'⟩
    · cases he'
    · cases hnone
    · rw [failingPuts_concat] at hup'
      have hne := ne_noSpaceLeft_of_putFailure (Option.some.inj he').symm
      exact ⟨failures ++ [e'], by simp [hspace, hne], hup'⟩
  obtain ⟨out, hout, hended⟩ := hrule
  exact ⟨out, _, Prod.ext hout rfl, hended⟩

theorem run_uploadResource {w : Env (σ × List ServiceCall)}
    (hw : Uploading name content calls response w) :
    ∃ r w', (uploadResource handler.recording name identifier (digests.sha1 content)
        (digests.sha256 content)).run w = (.returned r, w') ∧ w'.response = response ∧
      ∃ stored, w'.ext.2 = calls ++ stored ∧ StoreTrace digests identifier content stored := by
  obtain ⟨out, w₁, hloop, failures, hended⟩ := run_uploadLoop hreturn (w.host.budgets.headD 0)
    (w := { w with host := { w.host with budgets := w.host.budgets.tail } })
    ⟨hw.temp, hw.calls, hw.response⟩
  have htake : (onHost takeBudget).run w = (.returned (w.host.budgets.headD 0),
      { w with host := { w.host with budgets := w.host.budgets.tail } }) := rfl
  rcases hended with ⟨rfl, hspace, hup⟩ | ⟨hout, hspace, hup⟩
  · obtain ⟨r, services', hnotify⟩ := run_recorded_onExt
      (hreturn.notifyUploadSucceeded identifier (hexEncode (digests.sha1 content))
        (hexEncode (digests.sha256 content))) hup.calls
    have htrace : StoreTrace digests identifier content _ := .succeeded failures r hspace
    cases r with
    | error e =>
      exact ⟨_, _, run_removingTemp ((run_bind_returned htake).trans
        ((run_bind_returned hloop).trans (run_orReturn_error hnotify))), hup.response, _, by simp,
        htrace⟩
    | ok u =>
      exact ⟨_, _, run_removingTemp ((run_bind_returned htake).trans
        ((run_bind_returned hloop).trans (run_orReturn_ok hnotify))), hup.response, _, by simp,
        htrace⟩
  · obtain ⟨e, rfl⟩ := Option.ne_none_iff_exists'.mp hout
    obtain ⟨r, services', hnotify⟩ := run_recorded_onExt (hreturn.notifyUploadFailed identifier e)
      hup.calls
    have hfailed : (notifyUploadFailed handler.recording identifier e).run w₁ = _ :=
      run_bind_returned hnotify
    have htrace : StoreTrace digests identifier content _ := .failed failures e r hspace
    exact ⟨_, _, run_removingTemp ((run_bind_returned htake).trans
      ((run_bind_returned hloop).trans (run_bind_returned hfailed))), hup.response, _, by simp,
      htrace⟩

theorem uploadAndAnswer_follows (formats : Formats) (request : Request)
    {w : Env (σ × List ServiceCall)} (htemp : w.host.temps name = some content)
    (hcalls : w.ext.2 = [.notifyProcessingUpload identifier (.ok ())])
    (hanswer : AnswersDigestsOf formats.digests content w.response) :
    FollowsProtocol formats.digests identifier (some content)
      ((uploadAndAnswer formats handler.recording request identifier name
        (formats.digests.sha1 content) (formats.digests.sha256 content)).run w).2 := by
  unfold uploadAndAnswer
  by_cases hasync : request.queryGet (ascii "async") = ascii "true"
  · rw [if_pos hasync]
    obtain ⟨w₁, hwritten, htemp₁, hcalls₁, hanswer₁⟩ : ∃ w₁,
        (writeResponseBasedOn formats.digests [] none 202 none (some (uploadBody identifier
          "PROCESSING_UPLOAD" (formats.digests.sha1 content) (formats.digests.sha256 content)))
          []).run w = (.returned (), w₁) ∧ w₁.host.temps name = some content ∧
        w₁.ext.2 = [.notifyProcessingUpload identifier (.ok ())] ∧
        AnswersDigestsOf formats.digests content w₁.response := by
      have hbody := keeps_write_uploadBody identifier _ "PROCESSING_UPLOAD" { w with response :=
        { w.response with status := w.response.status.or (some 202) } } ⟨hcalls, hanswer⟩
      exact ⟨_, rfl, htemp, hbody.1, hbody.2⟩
    obtain ⟨r, w₂, hrun, hresponse, stored, hcalls₂, htrace⟩ :=
      run_uploadResource hreturn (w := w₁) ⟨htemp₁, hcalls₁, rfl⟩
    rw [run_bind_returned hwritten, run_bind_returned hrun]
    have htraced : UploadTrace formats.digests identifier content w₂.ext.2 := by
      rw [hcalls₂]
      exact .stored stored htrace
    rw [← hresponse] at hanswer₁
    exact ⟨htraced, hanswer₁⟩
  · rw [if_neg hasync]
    obtain ⟨r, w₁, hrun, hresponse, stored, hcalls₁, htrace⟩ :=
      run_uploadResource hreturn (w := w) ⟨htemp, hcalls, rfl⟩
    rw [run_bind_returned hrun]
    have htraced : UploadTrace formats.digests identifier content w₁.ext.2 := by
      rw [hcalls₁]
      exact .stored stored htrace
    have hkept := (keptByAnswers_digests (σ := σ) formats.digests content
      w₁.ext.2).writeResponseBasedOn formats.digests []
      (errorOf r) 201 none (some (uploadBody identifier "READY"
        (formats.digests.sha1 content) (formats.digests.sha256 content)))
      (fun _ _ hw => hw)
      (fun resource h => by cases h; exact keeps_write_uploadBody _ _ _) []
    obtain ⟨hcalls₂, hanswer₂⟩ := hkept w₁ ⟨rfl, by rw [hresponse]; exact hanswer⟩
    rw [← hcalls₂] at htraced
    exact ⟨htraced, hanswer₂⟩

theorem storeBits_follows (formats : Formats) (request : Request) {w : Env (σ × List ServiceCall)}
    (htemp : w.host.temps name = some content) (hcalls : w.ext.2 = [])
    (hanswer : ∀ body, .resource body ∉ w.response.body) :
    FollowsProtocol formats.digests identifier (some content)
      ((storeBits formats handler.recording request identifier name).run w).2 := by
  have hdigests : AnswersDigestsOf formats.digests content w.response :=
    fun body hbody => absurd hbody (hanswer body)
  obtain ⟨sums, h₁, hsums, htemps, hof⟩ := run_shaSums formats.digests name w.host
  unfold storeBits
  rw [run_bind, run_onHost, hsums]
  cases sums with
  | error e =>
    have hnothing : UploadTrace formats.digests identifier content w.ext.2 := by
      rw [hcalls]
      exact .nothing
    exact ⟨hnothing, hdigests⟩
  | ok sums =>
    obtain ⟨content', hcontent, rfl⟩ := hof sums rfl
    obtain rfl : content' = content := Option.some.inj (hcontent.symm.trans htemp)
    simp only [run_bind, run_panicOnError_ok]
    obtain ⟨r, services', hnotify⟩ := run_recorded_onExt (w := { w with host := h₁ })
      (hreturn.notifyProcessingUpload identifier) hcalls
    have hnotify' : (onExt (handler.recording.updater.notifyProcessingUpload identifier)).run
        { w with host := h₁ } = _ := hnotify
    rw [hnotify']
    cases r with
    | error e =>
      have hkept := (keptByAnswers_digests (σ := σ) formats.digests content'
        [.notifyProcessingUpload identifier (.error e)]).handleNotificationError (.error e)
      have hrefused : ∀ w' : Env (σ × List ServiceCall),
          w'.ext.2 = [.notifyProcessingUpload identifier (.error e)] ∧
            AnswersDigestsOf formats.digests content' w'.response →
          FollowsProtocol formats.digests identifier (some content') w' := by
        rintro w' ⟨hcalls', hanswer'⟩
        refine ⟨?_, hanswer'⟩
        rw [hcalls']
        exact .refused e
      refine bind_leaves (R := FollowsProtocol formats.digests identifier (some content'))
        (fun e' w' h => hrefused w' (hkept.of_run h ⟨rfl, hdigests⟩)) (fun handled w' h => ?_)
      cases handled with
      | true => exact hrefused w' (hkept.of_run h ⟨rfl, hdigests⟩)
      | false => cases (handleNotificationError_eq_false h).1
    | ok u =>
      exact uploadAndAnswer_follows hreturn formats request
        (w := ⟨h₁, (services', [.notifyProcessingUpload identifier (.ok u)]), w.response⟩)
        ((congrFun htemps name).trans htemp) rfl hdigests

omit hreturn in
theorem storeBits_without_temp (formats : Formats) (request : Request)
    {w : Env (σ × List ServiceCall)} (htemp : w.host.temps name = none) (hcalls : w.ext.2 = [])
    (hanswer : ∀ body, .resource body ∉ w.response.body) :
    FollowsProtocol formats.digests identifier none
      ((storeBits formats handler.recording request identifier name).run w).2 := by
  obtain ⟨sums, h₁, hsums, -, hof⟩ := run_shaSums formats.digests name w.host
  unfold storeBits
  rw [run_bind, run_onHost, hsums]
  cases sums with
  | error e => exact ⟨hcalls, hanswer⟩
  | ok sums =>
    obtain ⟨content, hcontent, -⟩ := hof sums rfl
    rw [htemp] at hcontent
    cases hcontent

omit hreturn in
theorem keptWhileReceiving_nothing (formats : Formats) :
    KeptWhileReceiving formats handler.recording fun w =>
      w.ext.2 = [] ∧ ∀ body, .resource body ∉ w.response.body where
  blind _ _ hw := hw
  answers :=
    { header := fun _ _ _ hw => hw
      status := fun _ _ _ hw => hw
      raw := fun _ _ hw => ⟨hw.1, fun body hbody => hw.2 body (by simpa using hbody)⟩
      description := fun _ _ _ _ hw => ⟨hw.1, fun body hbody => hw.2 body (by simpa using hbody)⟩ }
  stashPut _ _ hw := hw
  stashGet _ _ hw := hw

theorem addOrReplace_follows (formats : Formats) (request : Request) (identifier : Bytes)
    (host : Host) (services : σ) :
    FollowsProtocol formats.digests identifier
      (uploadedBits formats handler.recording request ⟨host, (services, []), .empty⟩)
      ((addOrReplace formats handler.recording request identifier).run
        ⟨host, (services, []), .empty⟩).2 := by
  have hreceiving : KeptWhileReceiving formats handler.recording _ :=
    keptWhileReceiving_nothing formats
  have hkept := hreceiving.receiveUpload request ⟨host, (services, []), .empty⟩
    ⟨rfl, fun body => List.not_mem_nil⟩
  unfold addOrReplace uploadedBits
  rw [run_bind]
  rcases hrun : (receiveUpload formats handler.recording request).run
    ⟨host, (services, []), .empty⟩ with ⟨received | e, w⟩
  · rw [hrun] at hkept
    rcases received with _ | ⟨request', name⟩
    · exact hkept
    · cases htemp : w.host.temps name with
      | none =>
        simp only [htemp]
        exact storeBits_without_temp formats request' htemp hkept.1 hkept.2
      | some content =>
        simp only [htemp]
        exact storeBits_follows hreturn formats request' htemp hkept.1 hkept.2
  · rw [hrun] at hkept
    exact hkept

/-- **The upload notification protocol**: whatever the services answer and whatever fails on the
host, the calls of an upload to its blobstore and its updater follow the protocol for the bits of
its temp file. -/
theorem addOrReplace_followsProtocol (formats : Formats) (request : Request) (identifier : Bytes)
    (host : Host) (services : σ) :
    FollowsProtocol formats.digests identifier
      (uploadedBits formats handler.recording request ⟨host, (services, []), .empty⟩)
      ((addOrReplace formats handler.recording request identifier).run
        ⟨host, (services, []), .empty⟩).2 :=
  addOrReplace_follows hreturn formats request identifier host services

end Store

/-! ## An upload that is retried -/

def helloUpload : Request where
  contentLength := 5
  header _ := []
  query := []
  body := ⟨[], none⟩
  form := .ok ⟨[], [(ascii "bits", ascii "hello")]⟩

def buildpacks : ResourceHandler MapStore :=
  newResourceHandler inmemoryBlobstore mapBlobstore (ascii "buildpack") 0

theorem buildpacks_callsReturn : buildpacks.CallsReturn where
  put := total_mapBlobstore_put
  notifyProcessingUpload _ w := ⟨_, w, rfl⟩
  notifyUploadSucceeded _ _ _ w := ⟨_, w, rfl⟩
  notifyUploadFailed _ _ w := ⟨_, w, rfl⟩

theorem addOrReplace_followsProtocol_hello :
    FollowsProtocol helloDigests (ascii "ruby") (some (ascii "hello"))
      ((addOrReplace plainFormats buildpacks.recording helloUpload (ascii "ruby")).run
        ⟨⟨fun _ => [], fun _ => none, 0, [1]⟩, (⟨fun _ => none, [], [.error (.sys [])]⟩, []),
          .empty⟩).2 :=
  addOrReplace_followsProtocol buildpacks_callsReturn plainFormats helloUpload (ascii "ruby")
    ⟨fun _ => [], fun _ => none, 0, [1]⟩ ⟨fun _ => none, [], [.error (.sys [])]⟩

end BitsService
