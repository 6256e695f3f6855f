import BitsService.Resources.ModificationAnswers
import BitsService.Resources.Receiving

/-! # What an upload is answered

An upload is a success if its bits were put and the updater took the notice of it. A put that runs
out of space, to the app stash or to the blobstore, is the last call of its upload. -/
namespace BitsService
open GoLib.Effect GoLib.Retry StoreCall
set_option autoImplicit false

variable {σ : Type} {formats : Formats} {handler : ResourceHandler σ} {request : Request}
  {identifier : Bytes} {reports : Prop} {w : Env (σ × List StoreCall)}

/-! ## Receiving an upload -/

/-- The request was answered before its bits were complete. -/
def Rejected (calls : List StoreCall) (status : Option ℕ) : Prop :=
  ∃ s, (400 ≤ s ∧ s < 600) ∧
    (Stashing (some s) calls status ∨ s = 507 ∧ StashFull (some s) calls status)

theorem Stashing.answered {status : ℕ} {w' : Env (σ × List StoreCall)}
    (hw : OnLedger (Stashing none) w) (h : Answered status w w') :
    OnLedger (Stashing (some status)) w' := by
  refine ⟨?_, ?_⟩
  · rw [h.ext]
    exact hw.calls
  · rw [h.status, hw.status]
    rfl

theorem StashFull.answered {status : ℕ} {w' : Env (σ × List StoreCall)}
    (hw : OnLedger (StashFull none) w) (h : Answered status w w') :
    OnLedger (StashFull (some status)) w' := by
  obtain ⟨earlier, key, hearlier, hcalls⟩ := hw
  refine ⟨earlier, key, ⟨hearlier.calls, ?_⟩, by rw [h.ext, hcalls]⟩
  rw [h.status, hearlier.status]
  rfl

theorem rejected_of_answered {status : ℕ} {w' : Env (σ × List StoreCall)}
    (hw : OnLedger (Stashing none) w) (hstatus : 400 ≤ status ∧ status < 600)
    (h : Answered status w w') : OnLedger Rejected w' :=
  ⟨status, hstatus, .inl (Stashing.answered hw h)⟩

theorem wp_receiveBits {file : Bytes} (hw : OnLedger (Stashing none) w) :
    wp (receiveBits formats handler.noting request file)
      (fun r => match r with
        | none => OnLedger Rejected
        | some _ => OnLedger (Stashing none))
      (OnLedger (Stashing none)) w := by
  unfold receiveBits
  by_cases hpackage : handler.noting.resourceType = ascii "package"
  · rw [if_pos hpackage]
    have hcomplete : wp (completePackageWithResources formats handler.noting
        (request.formValue (ascii "resources")) file) (fun r => AfterStashing none (errorOf r))
        (OnLedger (Stashing none)) w := by
      refine wp_completePackageWithResources (fun _ _ => .inl hw) (fun _ => hw)
        fun bundlesPayload zipReader _ =>
          (wp_createTempZipFileFrom hw).mono (fun r w' h => ?_) (fun _ h => h)
      have hstashing : r ≠ .error .noSpaceLeft → OnLedger (Stashing none) w' := fun hr =>
        h.resolve_right fun h => hr (by
          cases r with
          | error e => rw [Option.some.inj h.1]
          | ok name => cases h.1)
      split
      · exact h
      · exact fun _ => .inl (hstashing (by simp))
      · rename_i hspace _
        exact hstashing fun h => hspace (by cases h; rfl)
      · exact .inl (hstashing (by simp))
    refine hcomplete.bind (fun r w' h => ?_) (fun _ h => h)
    rcases h with hw' | ⟨hr, hfull⟩
    · split
      · exact wp_writeHeader_write_bind fun w₁ h => rejected_of_answered hw' (by decide) h
      · exact wp_bind.mpr (wp_insufficientStorage fun w₁ h =>
          rejected_of_answered hw' (by decide) h)
      · exact hw'
      · exact hw'
    · cases r with
      | ok tempFilename => cases hr
      | error e =>
        cases hr
        exact wp_bind.mpr (wp_insufficientStorage fun w₁ h =>
          ⟨507, by decide, .inr ⟨rfl, StashFull.answered hfull h⟩⟩)
  · rw [if_neg hpackage]
    refine wp_bind_of_keeps ((hostBlind_onLedger _).keeps_onHost _) hw (fun r w' hw' => ?_)
      (fun _ h => h)
    refine wp_bind.mpr (wp_panicOnError.mpr ?_)
    cases r with
    | error e => exact hw'
    | ok tempFilename => exact hw'

theorem wp_receiveUpload (hw : OnLedger (Stashing none) w) :
    wp (receiveUpload formats handler.noting request)
      (fun r w' => match r with
        | none => OnLedger Rejected w'
        | some (request', _) => request'.query = request.query ∧ OnLedger (Stashing none) w')
      (OnLedger (Stashing none)) w := by
  refine wp_bind.mpr (wp_handleBodySizeLimits (fun request' hlimited => ?_)
    (fun status w' _ hstatus h => rejected_of_answered hw (bounds_of_limits hstatus) h))
  refine wp_bind.mpr (wp_panicOnError.mpr ?_)
  cases uploadedFile request' handler.noting.resourceType with
  | error e => exact hw
  | ok file =>
    cases file with
    | none =>
      exact wp_bind.mpr (wp_badRequest fun w' h => rejected_of_answered hw (by decide) h)
    | some file =>
      refine (wp_receiveBits hw).bind (fun r w' h => ?_) (fun _ h => h)
      cases r with
      | none => exact h
      | some tempFilename => exact ⟨by rw [eq_of_limited hlimited], h⟩

/-! ## Storing an upload -/

def uploadCalls (identifier : Bytes) : List StoreCall :=
  [.put identifier succeeded, .notifyUploadSucceeded identifier succeeded]

theorem uploadCalls_suffix_iff {calls : List StoreCall}
    (hput : [.put identifier succeeded] <:+ calls) (o : Outcome GoError (Result Unit)) :
    uploadCalls identifier <:+ calls ++ [.notifyUploadSucceeded identifier o] ↔ o = succeeded := by
  constructor
  · rintro ⟨earlier, h⟩
    have hlast := congrArg List.getLast? h
    simpa [uploadCalls, eq_comm] using hlast
  · rintro rfl
    obtain ⟨earlier, rfl⟩ := hput
    exact ⟨earlier, by simp [uploadCalls]⟩

def Unnotified (calls : List StoreCall) : Prop :=
  ∀ guid o, .notifyUploadSucceeded guid o ∉ calls

theorem Unnotified.undone {calls : List StoreCall} (h : Unnotified calls) (identifier : Bytes) :
    ¬ uploadCalls identifier <:+ calls :=
  fun hsuffix => h identifier succeeded (hsuffix.subset (by simp [uploadCalls]))

/-- The bits have not been put yet, and the updater was not told that they were. -/
structure Putting (sent : Option ℕ) (identifier : Bytes) (calls : List StoreCall)
    (status : Option ℕ) : Prop where
  pending : Pending sent [.put identifier succeeded] calls status
  unnotified : Unnotified calls

theorem Putting.halted {sent status : Option ℕ} {calls : List StoreCall}
    (h : Putting sent identifier calls status) :
    Halted sent reports (uploadCalls identifier) calls status :=
  ⟨h.pending.status, h.unnotified.undone identifier, .inl h.pending.spacious⟩

variable {sent : Option ℕ}

theorem wp_uploadAttempt {tempFilename : ℕ} {t : Unit}
    (hw : OnLedger (Pending sent [.put identifier succeeded]) w) :
    wp (uploadAttempt handler.noting tempFilename identifier t)
      (fun r w' =>
        OnLedger (Settled sent [.put identifier succeeded] (r.1.map Failure.error)) w' ∧
        ∀ e, r.1 = some (.transient e) → OnLedger (Pending sent [.put identifier succeeded]) w')
      (OnLedger (Pending sent [.put identifier succeeded])) w := by
  refine wp_bind_of_keeps ((hostBlind_onLedger _).keeps_onHost _) hw (fun r w₁ hw₁ => ?_)
    (fun _ h => h)
  cases r with
  | error e => exact ⟨hw₁.settled _, fun _ _ => hw₁⟩
  | ok src =>
    refine ((noted_put _).wp_onExt ⟨hw₁.status, hw₁.spacious⟩).bind (fun r w₂ h => ?_)
      (fun _ h => h)
    cases r with
    | ok u => exact ⟨h, fun e he => by cases he⟩
    | error e =>
      by_cases hspace : e = .noSpaceLeft
      · subst hspace
        exact ⟨h, fun e he => by cases he⟩
      · have hne : errorOf (.error e : Result Unit) ≠ some .noSpaceLeft := fun he =>
          hspace (Option.some.inj he)
        exact ⟨h.as (by simp [errorOf]) (fun he => absurd he hne),
          fun _ _ => h.pending (by simp [errorOf]) hne⟩

theorem wp_uploadLoop {tempFilename budget : ℕ} (hw : OnLedger (Putting sent identifier) w) :
    wp (retryNotify (uploadAttempt handler.noting tempFilename identifier) budget ())
      (fun r w' => OnLedger (Settled sent [.put identifier succeeded] r.1) w' ∧
        OnLedger (fun calls _ => Unnotified calls) w')
      (OnLedger (Putting sent identifier)) w := by
  have hsettled : wp (retryNotify (uploadAttempt handler.noting tempFilename identifier) budget ())
      (fun r => OnLedger (Settled sent [.put identifier succeeded] r.1))
      (OnLedger (Pending sent [.put identifier succeeded])) w :=
    wp_retryNotify (fun _ => OnLedger (Pending sent _)) _ (fun t w h => wp_uploadAttempt h) budget
      hw.pending
  have hunnotified : Keeps (OnLedger (fun calls _ => Unnotified calls))
      (retryNotify (uploadAttempt handler.noting tempFilename identifier) budget ()) := by
    refine keeps_uploadLoop handler.noting ((hostBlind_onLedger _).keeps_onHost _)
      (fun path src => ?_) identifier budget
    refine keeps_onExt_noted fun calls status o h guid o' hmem => ?_
    rcases List.mem_append.mp hmem with hmem | hmem
    · exact h guid o' hmem
    · cases List.mem_singleton.mp hmem
  exact (hsettled.and (wp_of_keeps hunnotified hw.unnotified)).mono (fun _ _ h => h)
    (fun _ h => ⟨h.1, h.2⟩)

theorem wp_uploadResource {tempFilename : ℕ} {sha1Sum sha256Sum : Bytes}
    (hreports : reports → ∀ e, Total (handler.updater.notifyUploadFailed identifier e))
    (hw : OnLedger (Putting sent identifier) w) :
    wp (uploadResource handler.noting tempFilename identifier sha1Sum sha256Sum)
      (fun r => OnLedger (Settled sent (uploadCalls identifier) (errorOf r)))
      (OnLedger (Halted sent reports (uploadCalls identifier))) w := by
  refine wp_removingTemp.mpr (wp_bind_of_keeps ((hostBlind_onLedger _).keeps_onHost _) hw
    (fun budget w₁ hw₁ => ?_) (fun _ h => h.halted))
  refine (wp_uploadLoop hw₁).bind (fun r w₂ h => ?_) (fun _ h => h.halted)
  obtain ⟨hsettled, hunnotified⟩ := h
  obtain ⟨e, u⟩ := r
  cases e with
  | some e =>
    have hundone := hunnotified.undone identifier
    have hkeeps : Keeps (OnLedger fun calls status => Settled sent (uploadCalls identifier) (some e)
        calls status ∧ Unnotified calls)
        (onExt (handler.noting.updater.notifyUploadFailed identifier e)) := keeps_onExt_zoom _ _
    have hfailed : OnLedger (Settled sent (uploadCalls identifier) (some e)) w₂ :=
      ⟨hsettled.status, ⟨fun he => (nomatch he), fun h => absurd h hundone⟩, hsettled.space⟩
    have htotal : reports → Total (onExt (handler.noting.updater.notifyUploadFailed identifier e) :
        Prog GoError (Env (σ × List StoreCall)) (Result Unit)) :=
      fun hr => (hreports hr e).zoom.zoom
    refine wp_bind.mpr ((((wp_of_keeps hkeeps ⟨hfailed, hunnotified⟩).not_of_total htotal).bind
      (fun r w₃ h => ?_) (fun w₃ h => ?_)))
    · exact h.1
    · exact ⟨h.1.1.status, h.1.2.undone identifier, h.1.1.space.imp_right fun h' => ⟨h'.2, h.2⟩⟩
  | none =>
    have hput : [.put identifier succeeded] <:+ w₂.ext.2 := hsettled.done.mp rfl
    have hspacious : Spacious w₂.ext.2 := hsettled.space.resolve_right fun h => nomatch h.1
    have hdone := uploadCalls_suffix_iff hput
    have hspace : ∀ o, Spacious (w₂.ext.2 ++ [.notifyUploadSucceeded identifier o]) :=
      fun o => hspacious.concat fun h => h
    refine wp_orReturn.mpr (wp_onExt_noted (fun r s => ?_) (fun e s => ?_))
    · cases r with
      | error e =>
        refine ⟨hsettled.status, ⟨fun he => (nomatch he), fun h => ?_⟩, .inl (hspace _)⟩
        exact absurd ((hdone _).mp h) (by simp [succeeded])
      | ok u => exact ⟨hsettled.status, ⟨fun _ => (hdone _).mpr rfl, fun _ => rfl⟩, .inl (hspace _)⟩
    · exact ⟨hsettled.status, fun h => absurd ((hdone _).mp h) (by simp [succeeded]),
        .inl (hspace _)⟩

/-- An updater that has been told of an upload can be told that it failed. -/
def Updater.ReportsFailures (updater : Updater σ) : Prop :=
  ∀ guid s s', (updater.notifyProcessingUpload guid).run s = (.returned (.ok ()), s') →
    ∀ e, Total (updater.notifyUploadFailed guid e)

theorem Stashing.putting {calls : List StoreCall} {status : Option ℕ}
    (h : Stashing sent calls status) : Putting sent identifier calls status := by
  refine ⟨⟨h.status, fun c hc hfull => ?_, fun hsuffix => ?_⟩, fun guid o hmem => ?_⟩
  · obtain ⟨key, o, rfl, ho⟩ := h.calls c hc
    exact ho hfull
  · obtain ⟨key, o, hcall, -⟩ := h.calls (.put identifier succeeded) (hsuffix.subset (by simp))
    cases hcall
  · obtain ⟨key, o', hcall, -⟩ := h.calls _ hmem
    cases hcall

theorem Stashing.judged {status : ℕ} (hstatus : 400 ≤ status ∧ status < 600)
    (h : OnLedger (Stashing (some status)) w) :
    Judged reports (uploadCalls identifier) 200 w := by
  have hputting : Putting (some status) identifier w.ext.2 w.response.status := h.putting
  refine .refused (hputting.unnotified.undone identifier) (.inl hputting.pending.spacious) ?_
  rw [h.status]
  exact hstatus

theorem Rejected.judged (h : OnLedger Rejected w) :
    Judged reports (uploadCalls identifier) 200 w := by
  obtain ⟨status, hstatus, h | ⟨rfl, earlier, key, h, hcalls⟩⟩ := h
  · exact Stashing.judged hstatus h
  · have hputting : Putting (some 507) identifier earlier w.response.status := h.putting
    have hundone : Unnotified w.ext.2 := by
      rw [hcalls]
      intro guid o hmem
      rcases List.mem_append.mp hmem with hmem | hmem
      · exact hputting.unnotified guid o hmem
      · cases List.mem_singleton.mp hmem
    refine .refused (hundone.undone identifier)
      (.inr ⟨⟨earlier, .stashPut key outOfSpace, hputting.pending.spacious, rfl, hcalls⟩,
        fun _ => ?_⟩) ?_
    · rw [h.status]
      rfl
    · rw [h.status]
      exact hstatus

section Upload
variable {R : Unit → Env (σ × List StoreCall) → Prop} {E : Env (σ × List StoreCall) → Prop}
  (hreturn : ∀ w, Judged handler.updater.ReportsFailures (uploadCalls identifier) 200 w → R () w)
  (hpanic : ∀ w, Judged handler.updater.ReportsFailures (uploadCalls identifier) 500 w → E w)
include hreturn hpanic

theorem wp_storeBits {tempFilename : ℕ}
    (hstore : ∀ sha1 sha256 w', OnLedger (Stashing none) w' → (handler.updater.ReportsFailures →
        ∀ e, Total (handler.updater.notifyUploadFailed identifier e)) →
      wp (uploadAndAnswer formats handler.noting request identifier tempFilename sha1 sha256) R E
        w')
    (hw : OnLedger (Stashing none) w) :
    wp (storeBits formats handler.noting request identifier tempFilename) R E w := by
  have hhalt : ∀ w', OnLedger (Stashing none) w' → E w' := fun w' hw' =>
    hpanic w' (Halted.judged (Putting.halted hw'.putting))
  refine wp_bind_of_keeps ((hostBlind_onLedger _).keeps_onHost _) hw (fun sums w₁ hw₁ => ?_) hhalt
  refine wp_bind.mpr (wp_panicOnError.mpr ?_)
  cases sums with
  | error e => exact hhalt w₁ hw₁
  | ok sums =>
    refine wp_bind.mpr (wp_of_run (fun e w₂ hrun => ?_) (fun e w₂ hrun => ?_))
    · have hw₂ : OnLedger (Stashing none) w₂ := (keeps_onExt_zoom _ _).of_run hrun hw₁
      unfold handleNotificationError
      split
      · exact wp_bind.mpr (wp_writeHeader_write_bind fun w' h =>
          hreturn w' (Stashing.judged (by decide) (Stashing.answered hw₂ h)))
      · exact wp_bind.mpr (wp_writeHeader_write_bind fun w' h =>
          hreturn w' (Stashing.judged (by decide) (Stashing.answered hw₂ h)))
      · exact hhalt w₂ hw₂
      · refine wp_bind.mpr (hstore sums.1 sums.2 w₂ hw₂ fun hreports e => ?_)
        exact hreports identifier w₁.ext.1 w₂.ext.1 (run_onExt_zoom_eq_returned hrun) e
    · exact hhalt w₂ ((keeps_onExt_zoom _ _).of_run hrun hw₁)

theorem wp_addOrReplace
    (hstore : ∀ request' tempFilename sha1 sha256 w', request'.query = request.query →
      OnLedger (Stashing none) w' → (handler.updater.ReportsFailures →
        ∀ e, Total (handler.updater.notifyUploadFailed identifier e)) →
      wp (uploadAndAnswer formats handler.noting request' identifier tempFilename sha1 sha256) R E
        w')
    (hw : OnLedger (Stashing none) w) :
    wp (addOrReplace formats handler.noting request identifier) R E w := by
  refine (wp_receiveUpload hw).bind (fun r w' h => ?_) (fun w' h =>
    hpanic w' (Halted.judged (Putting.halted h.putting)))
  cases r with
  | none => exact hreturn w' (Rejected.judged h)
  | some r =>
    obtain ⟨request', tempFilename⟩ := r
    exact wp_storeBits hreturn hpanic
      (fun sha1 sha256 w₂ => hstore request' tempFilename sha1 sha256 w₂ h.1) h.2

end Upload

theorem wp_addOrReplace_sync (hsync : request.queryGet (ascii "async") ≠ ascii "true")
    (hw : OnLedger (Stashing none) w) :
    wp (addOrReplace formats handler.noting request identifier)
      (fun _ => Judged handler.updater.ReportsFailures (uploadCalls identifier) 200)
      (Judged handler.updater.ReportsFailures (uploadCalls identifier) 500) w := by
  refine wp_addOrReplace (fun _ h => h) (fun _ h => h)
    (fun request' tempFilename sha1 sha256 w' hquery hw' hreports => ?_) hw
  unfold uploadAndAnswer
  rw [if_neg (by simpa only [Request.queryGet, hquery] using hsync)]
  exact (wp_uploadResource hreports hw'.putting).bind
    (fun r w₁ h => wp_writeResponseBasedOn (by decide) h) (fun w₁ h => Halted.judged h)

def Stops (calls : List StoreCall) : Prop := Spacious calls ∨ Full calls

/-- An upload stops at the first call that runs out of space, a deferred one too. -/
theorem wp_addOrReplace_stops (hw : OnLedger (Stashing none) w) :
    wp (addOrReplace formats handler.noting request identifier)
      (fun _ => OnLedger fun calls _ => Stops calls) (OnLedger fun calls _ => Stops calls) w := by
  have hjudged : ∀ (unwritten : ℕ) (w : Env (σ × List StoreCall)),
      Judged handler.updater.ReportsFailures (uploadCalls identifier) unwritten w →
      OnLedger (fun calls _ => Stops calls) w := by
    rintro unwritten w (⟨-, hspace, -⟩ | ⟨-, hspace, -⟩)
    · exact .inl hspace
    · exact hspace.imp_right And.left
  refine wp_addOrReplace (hjudged 200) (hjudged 500)
    (fun request' tempFilename sha1 sha256 w' hquery hw' hreports => ?_) hw
  have hupload : ∀ (status : Option ℕ) (w : Env (σ × List StoreCall)),
      OnLedger (Stashing status) w → wp (uploadResource handler.noting tempFilename identifier sha1
        sha256) (fun r => OnLedger (Settled status (uploadCalls identifier) (errorOf r)))
        (OnLedger (Halted status handler.updater.ReportsFailures (uploadCalls identifier))) w :=
    fun status w h => wp_uploadResource hreports h.putting
  unfold uploadAndAnswer
  by_cases hasync : request'.queryGet (ascii "async") = ascii "true"
  · rw [if_pos hasync]
    refine wp_bind.mpr (wp_writeResponseBasedOn_done fun w₁ h => ?_)
    refine (hupload (some 202) w₁ (Stashing.answered hw' h)).bind (fun r w₂ h => ?_)
      (fun w₂ h => ?_)
    · exact h.space.imp_right And.right
    · exact h.space.imp_right And.left
  · rw [if_neg hasync]
    exact (hupload none w' hw').bind (fun r w₁ h => (wp_writeResponseBasedOn (by decide) h).mono
      (fun _ w₂ h => hjudged 200 w₂ h) (fun w₂ h => hjudged 500 w₂ h))
      (fun w₁ h => hjudged 500 w₁ (Halted.judged h))

end BitsService
