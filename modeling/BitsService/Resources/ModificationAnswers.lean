import BitsService.Server.StoreCalls

/-! # What a modification is answered

A modification is answered with a success if and only if its last calls are the ones that make it
happen, all of them successful. Here it is a copy, a deletion, or an upload with a digest in its
header. -/
namespace BitsService
open GoLib.Effect GoLib.Retry StoreCall
set_option autoImplicit false

variable {σ : Type}

/-! ## Before the answer -/

def Spacious (calls : List StoreCall) : Prop := ∀ c ∈ calls, ¬ c.OutOfSpace

/-- The last call ran out of space, and no earlier one did. -/
def Full (calls : List StoreCall) : Prop :=
  ∃ earlier c, Spacious earlier ∧ c.OutOfSpace ∧ calls = earlier ++ [c]

/-- The calls that make up `success` have not been made yet, and there is still space. -/
structure Pending (sent : Option ℕ) (success calls : List StoreCall) (status : Option ℕ) :
    Prop where
  status : status = sent
  spacious : Spacious calls
  undone : ¬ success <:+ calls

/-- The calls that make up `success` were made, unless there is the error `e`. -/
structure Settled (sent : Option ℕ) (success : List StoreCall) (e : Option GoError)
    (calls : List StoreCall) (status : Option ℕ) : Prop where
  status : status = sent
  done : e = none ↔ success <:+ calls
  space : Spacious calls ∨ e = some .noSpaceLeft ∧ Full calls

/-- A panic before `success`. When the stash or the blobstore is full, only the updater may panic
after that. -/
structure Halted (sent : Option ℕ) (reports : Prop) (success calls : List StoreCall)
    (status : Option ℕ) : Prop where
  status : status = sent
  undone : ¬ success <:+ calls
  space : Spacious calls ∨ Full calls ∧ ¬ reports

theorem Pending.halted {sent status : Option ℕ} {reports : Prop} {success calls : List StoreCall}
    (h : Pending sent success calls status) : Halted sent reports success calls status :=
  ⟨h.status, h.undone, .inl h.spacious⟩

theorem Spacious.concat {calls : List StoreCall} (h : Spacious calls) {c : StoreCall}
    (hc : ¬ c.OutOfSpace) : Spacious (calls ++ [c]) := by
  intro c' hc'
  rcases List.mem_append.mp hc' with hc' | hc'
  · exact h c' hc'
  · rw [List.mem_singleton.mp hc']
    exact hc

/-- A call for which there is space when it did not return that there is none. -/
structure Noted (call : Outcome GoError (Result Unit) → StoreCall) : Prop where
  inj : Function.Injective call
  full : ∀ o, (call o).OutOfSpace → o = outOfSpace

theorem noted_put (path : Bytes) : Noted (.put path) := ⟨fun _ _ h => by cases h; rfl, fun _ h => h⟩

theorem noted_copy (src dest : Bytes) : Noted (.copy src dest) :=
  ⟨fun _ _ h => by cases h; rfl, fun _ h => h⟩

theorem noted_delete (path : Bytes) : Noted (.delete path) :=
  ⟨fun _ _ h => by cases h; rfl, fun _ h => h.elim⟩

section Calls
variable {sent : Option ℕ} {call : Outcome GoError (Result Unit) → StoreCall} {e : Option GoError}
  {m : Prog GoError σ (Result Unit)} {w : Env (σ × List StoreCall)}

theorem Noted.suffix_iff (hcall : Noted call) (calls : List StoreCall)
    (o : Outcome GoError (Result Unit)) :
    [call succeeded] <:+ calls ++ [call o] ↔ o = succeeded := by
  rw [List.singleton_suffix_append_singleton_iff]
  exact ⟨fun h => (hcall.inj h).symm, fun h => by rw [h]⟩

theorem Noted.spacious (hcall : Noted call) {calls : List StoreCall} (h : Spacious calls)
    {o : Outcome GoError (Result Unit)} (ho : o ≠ outOfSpace) : Spacious (calls ++ [call o]) :=
  h.concat fun hfull => ho (hcall.full o hfull)

/-- One call settles what it is to do. -/
theorem Noted.wp_onExt (hcall : Noted call)
    (hw : OnLedger (fun calls status => status = sent ∧ Spacious calls) w) :
    wp (onExt (noted call m)) (fun r => OnLedger (Settled sent [call succeeded] (errorOf r)))
      (OnLedger (Pending sent [call succeeded])) w := by
  refine wp_onExt_noted (fun r s => ?_) (fun e s => ?_)
  · refine ⟨hw.1, ?_, ?_⟩
    · rw [hcall.suffix_iff]
      cases r with
      | error e => simp [errorOf, succeeded]
      | ok u => simp [errorOf, succeeded]
    · by_cases hr : r = .error .noSpaceLeft
      · by_cases hfull : (call (.returned r)).OutOfSpace
        · exact .inr ⟨by rw [hr]; rfl, w.ext.2, _, hw.2, hfull, rfl⟩
        · exact .inl (hw.2.concat hfull)
      · exact .inl (hcall.spacious hw.2 (by simpa [outOfSpace] using hr))
  · refine ⟨hw.1, hcall.spacious hw.2 (by simp [outOfSpace]), ?_⟩
    show ¬ [call succeeded] <:+ w.ext.2 ++ [call (.panicked e)]
    rw [hcall.suffix_iff]
    simp [succeeded]

end Calls

/-! ## The answer -/

/-- The answer's status tells whether the calls of `success` were made. -/
inductive Verdict (reports : Prop) (success calls : List StoreCall) (status : ℕ) : Prop where
  | done (h : success <:+ calls) (hspace : Spacious calls)
      (hstatus : 200 ≤ status ∧ status < 300)
  | refused (h : ¬ success <:+ calls)
      (hspace : Spacious calls ∨ Full calls ∧ (reports → status = 507))
      (hstatus : 400 ≤ status ∧ status < 600)

/-- The verdict on a program that returns, and on one that panics. -/
def Judged (reports : Prop) (success : List StoreCall) (unwritten : ℕ) :
    Env (σ × List StoreCall) → Prop :=
  OnLedger fun calls status => Verdict reports success calls (status.getD unwritten)

theorem Halted.judged {reports : Prop} {success : List StoreCall} {w : Env (σ × List StoreCall)}
    (h : OnLedger (Halted none reports success) w) : Judged reports success 500 w := by
  refine .refused h.undone (h.space.imp_right fun h => ⟨h.1, fun hr => absurd hr h.2⟩) ?_
  rw [h.status]
  decide

section Answer
variable {reports : Prop} {success : List StoreCall} {digests : Digests} {e : Option GoError}
  {statusCode : ℕ} {jsonBody : Option ResponseBody} {w : Env (σ × List StoreCall)}

theorem wp_writeResponseBasedOn (hcode : 200 ≤ statusCode ∧ statusCode < 300)
    (hw : OnLedger (Settled none success e) w) :
    wp (writeResponseBasedOn digests [] e statusCode none jsonBody [])
      (fun _ => Judged reports success 200) (Judged reports success 500) w := by
  have hrefused : ∀ status, e ≠ none → e ≠ some .noSpaceLeft → 400 ≤ status ∧ status < 600 →
      Verdict reports success w.ext.2 status := fun status he hspace hstatus =>
    .refused (fun h => he (hw.done.mpr h))
      (.inl (hw.space.resolve_right fun h => hspace h.1)) hstatus
  have hsent : ∀ status, w.response.status.or (some status) = some status := fun status => by
    rw [hw.status]
    rfl
  unfold writeResponseBasedOn
  split
  · show Verdict reports success w.ext.2 ((w.response.status.or (some 404)).getD 200)
    rw [hsent]
    exact hrefused 404 (by simp) (by simp) (by decide)
  · refine wp_insufficientStorage fun w' h => ?_
    show Verdict reports success w'.ext.2 (w'.response.status.getD 200)
    rw [h.ext, h.status, hsent]
    exact .refused (fun h => nomatch hw.done.mpr h)
      (hw.space.imp_right fun h => ⟨h.2, fun _ => rfl⟩) (by decide)
  · rename_i e hnotFound hnoSpaceLeft
    show Verdict reports success w.ext.2 (w.response.status.getD 500)
    rw [hw.status]
    exact hrefused 500 (by simp) (fun h => hnoSpaceLeft (Option.some.inj h)) (by decide)
  · have hdone : Verdict reports success w.ext.2 statusCode :=
      .done (hw.done.mp rfl) (hw.space.resolve_right fun h => nomatch h.1) hcode
    rw [if_neg (by simp)]
    cases jsonBody with
    | some jsonBody =>
      refine wp_writeHeader_write fun w' h => ?_
      show Verdict reports success w'.ext.2 (w'.response.status.getD 200)
      rw [h.ext, h.status, hsent]
      exact hdone
    | none =>
      show Verdict reports success w.ext.2 ((w.response.status.or (some statusCode)).getD 200)
      rw [hsent]
      exact hdone

end Answer

/-! ## Retried puts -/

section Put
variable {sent : Option ℕ} {success calls : List StoreCall} {e e' : Option GoError}
  {status : Option ℕ}

theorem Settled.pending (h : Settled sent success e calls status) (he : e ≠ none)
    (hspace : e ≠ some .noSpaceLeft) : Pending sent success calls status :=
  ⟨h.status, h.space.resolve_right fun h => hspace h.1, fun hdone => he (h.done.mpr hdone)⟩

theorem Settled.as (h : Settled sent success e calls status) (hnone : e' = none ↔ e = none)
    (hspace : e = some .noSpaceLeft → e' = some .noSpaceLeft) :
    Settled sent success e' calls status :=
  ⟨h.status, hnone.trans h.done, h.space.imp_right fun h => ⟨hspace h.1, h.2⟩⟩

theorem Pending.settled (h : Pending sent success calls status) (e : GoError) :
    Settled sent success (some e) calls status :=
  ⟨h.status, ⟨fun he => (nomatch he), fun hdone => absurd hdone h.undone⟩, .inl h.spacious⟩

end Put

/-! ## Copies and deletions -/

section Handlers
variable {formats : Formats} {handler : ResourceHandler σ} {request : Request} {identifier : Bytes}
  {reports : Prop} {w : Env (σ × List StoreCall)}

/-- A request for which no call was made yet, and nothing was written. -/
structure Fresh (calls : List StoreCall) (status : Option ℕ) : Prop where
  status : status = none
  calls : calls = []

theorem Fresh.spacious {calls : List StoreCall} {status : Option ℕ} (h : Fresh calls status) :
    status = none ∧ Spacious calls :=
  ⟨h.status, by simp [h.calls, Spacious]⟩

theorem Fresh.halted {calls success : List StoreCall} {status : Option ℕ}
    (h : Fresh calls status) (hsuccess : success ≠ []) : Halted none reports success calls status :=
  ⟨h.status, by simpa [h.calls] using hsuccess, .inl h.spacious.2⟩

/-- A rejection before any call. -/
theorem judged_of_answered {success : List StoreCall} {status : ℕ}
    {w' : Env (σ × List StoreCall)} (hw : OnLedger Fresh w) (hsuccess : success ≠ [])
    (hstatus : 400 ≤ status ∧ status < 600) (h : Answered status w w') :
    Judged reports success 200 w' := by
  show Verdict reports success w'.ext.2 (w'.response.status.getD 200)
  rw [h.ext, h.status, hw.status]
  exact .refused (by simpa [hw.calls] using hsuccess) (.inl hw.spacious.2) hstatus

theorem bounds_of_limits {status : ℕ} (h : status = 400 ∨ status = 413) :
    400 ≤ status ∧ status < 600 := by
  omega

/-- One noted call, and the answer to it. -/
theorem Noted.wp_call_and_answer {call : Outcome GoError (Result Unit) → StoreCall}
    {m : Prog GoError σ (Result Unit)} {digests : Digests} {statusCode : ℕ}
    {jsonBody : Option ResponseBody} (hcall : Noted call)
    (hcode : 200 ≤ statusCode ∧ statusCode < 300) (hw : OnLedger Fresh w) :
    wp (do
        let e ← onExt (noted call m)
        writeResponseBasedOn digests [] (errorOf e) statusCode none jsonBody [])
      (fun _ => Judged reports [call succeeded] 200) (Judged reports [call succeeded] 500) w :=
  (hcall.wp_onExt hw.spacious).bind (fun _ _ h => wp_writeResponseBasedOn hcode h)
    (fun _ h => Halted.judged h.halted)

/-- The source that a copy request names, if its body can be read. -/
def copySource (formats : Formats) (handler : ResourceHandler σ) (request : Request) :
    Option Bytes :=
  (request.limited handler.maxBodySizeLimit).bind fun request =>
    request.body.readAll.toOption.bind fun content =>
      (formats.json.sourceGuid content).toOption

theorem wp_copySourceGuid (hsource : copySource formats handler request ≠ some [])
    (hw : OnLedger Fresh w) :
    wp (copySourceGuid formats handler.noting request identifier)
      (fun _ => Judged reports
        [.copy ((copySource formats handler request).getD []) identifier succeeded] 200)
      (Judged reports
        [.copy ((copySource formats handler request).getD []) identifier succeeded] 500) w := by
  refine wp_bind.mpr (wp_handleBodySizeLimits (fun request' hlimited => ?_)
    (fun status w' _ hstatus h => judged_of_answered hw (by simp) (bounds_of_limits hstatus) h))
  have hlimited : request.limited handler.maxBodySizeLimit = some request' := hlimited
  refine wp_bind.mpr (wp_bind.mpr (wp_panicOnError.mpr ?_))
  cases hread : request'.body.readAll with
  | error e => exact Halted.judged (hw.halted (by simp))
  | ok content =>
    cases hguid : formats.json.sourceGuid content with
    | error text =>
      simp only [hguid]
      refine wp_bind.mpr (wp_badRequest fun w' h => ?_)
      exact judged_of_answered hw (by simp) (by decide) h
    | ok sourceGuid =>
      have hsrc : copySource formats handler request = some sourceGuid := by
        simp [copySource, hlimited, hread, hguid, Except.toOption]
      have hne : sourceGuid ≠ [] := fun h => hsource (by rw [hsrc, h])
      simp only [hguid, wp_pure, if_neg hne, hsrc, Option.getD_some]
      exact (noted_copy _ _).wp_call_and_answer (by decide) hw

theorem eq_ok_of_toOption {ε α : Type} {r : Except ε α} {a : α} (h : r.toOption = some a) :
    r = .ok a := by
  cases r with
  | error e => cases h
  | ok a => exact congrArg Except.ok (Option.some.inj h)

/-- A copy from the empty source ends without a call and without an answer. -/
theorem run_copySourceGuid_of_empty (hsource : copySource formats handler request = some []) :
    (copySourceGuid formats handler.noting request identifier).run w = (.returned (), w) := by
  unfold copySource at hsource
  obtain ⟨request', hlimited, hsource⟩ := Option.bind_eq_some_iff.mp hsource
  have hlimited : request.limited handler.noting.maxBodySizeLimit = some request' := hlimited
  obtain ⟨content, hread, hguid⟩ := Option.bind_eq_some_iff.mp hsource
  have hread : request'.body.readAll = .ok content := eq_ok_of_toOption hread
  have hguid : formats.json.sourceGuid content = .ok [] := eq_ok_of_toOption hguid
  unfold copySourceGuid
  rw [run_bind_returned (run_handleBodySizeLimits hlimited w)]
  have hfrom : (sourceGuidFrom formats request').run w = (.returned [], w) := by
    unfold sourceGuidFrom
    rw [hread, run_bind_returned (run_panicOnError_ok content w)]
    simp only [hguid]
    rfl
  simp only
  rw [run_bind_returned hfrom, if_pos rfl]
  rfl

theorem wp_deleteResource (hw : OnLedger Fresh w) :
    wp (deleteResource formats handler.noting identifier)
      (fun _ => Judged reports [.delete identifier succeeded] 200)
      (Judged reports [.delete identifier succeeded] 500) w := by
  refine wp_bind_of_keeps (keeps_onExt_zoom Fresh _) hw (fun r w₁ hw₁ => ?_)
    (fun w₁ hw₁ => Halted.judged (hw₁.halted (by simp)))
  refine wp_bind.mpr (wp_panicOnError.mpr ?_)
  cases r with
  | error e => exact Halted.judged (hw₁.halted (by simp))
  | ok found =>
    cases found with
    | true => exact (noted_delete _).wp_call_and_answer (by decide) hw₁
    | false => exact judged_of_answered hw₁ (by simp) (by decide) ⟨rfl, rfl, rfl⟩

/-! ## Uploads with a digest -/

/-- The value that a digest header gives, or nothing. -/
def digestValue (request : Request) : Bytes :=
  match splitEquals (request.header (ascii "Digest")) with
  | [_, value] => value
  | _ => []

theorem wp_digestAttempt {value content : Bytes} {t : Unit}
    (hw : OnLedger (Pending none [.put (identifier ++ slash :: value) succeeded]) w) :
    wp (digestAttempt handler.noting identifier value content t)
      (fun r w' =>
        OnLedger (Settled none [.put (identifier ++ slash :: value) succeeded]
          (r.1.map Failure.error)) w' ∧
        ∀ e, r.1 = some (.transient e) →
          OnLedger (Pending none [.put (identifier ++ slash :: value) succeeded]) w')
      (OnLedger (Pending none [.put (identifier ++ slash :: value) succeeded])) w := by
  refine ((noted_put _).wp_onExt ⟨hw.status, hw.spacious⟩).bind (fun r w' h => ?_) (fun _ h => h)
  split
  · exact ⟨h, fun e he => by cases he⟩
  · rename_i e hspace
    have hne : errorOf (.error e : Result Unit) ≠ some .noSpaceLeft := fun he =>
      hspace (Option.some.inj he)
    exact ⟨h.as (by simp [errorOf]) (fun he => absurd he hne),
      fun _ _ => h.pending (by simp [errorOf]) hne⟩
  · exact ⟨h, fun e he => by cases he⟩

theorem wp_addOrReplaceWithDigestInHeader (hw : OnLedger Fresh w) :
    wp (addOrReplaceWithDigestInHeader formats handler.noting request identifier)
      (fun _ => Judged reports [.put (identifier ++ slash :: digestValue request) succeeded] 200)
      (Judged reports [.put (identifier ++ slash :: digestValue request) succeeded] 500) w := by
  refine wp_bind.mpr (wp_handleBodySizeLimits (fun request' hlimited => ?_)
    (fun status w' _ hstatus h => judged_of_answered hw (by simp) (bounds_of_limits hstatus) h))
  have hheader : request'.header = request.header := by
    rw [eq_of_limited hlimited]
  have hbad : ∀ (message : Bytes) (args : List Bytes), wp (badRequest message args)
      (fun _ => Judged reports [.put (identifier ++ slash :: digestValue request) succeeded] 200)
      (Judged reports [.put (identifier ++ slash :: digestValue request) succeeded] 500) w :=
    fun message args => wp_badRequest fun w' h => judged_of_answered hw (by simp) (by decide) h
  simp only [hheader]
  by_cases hdigest : request.header (ascii "Digest") = []
  · rw [if_pos hdigest]
    exact hbad _ _
  rw [if_neg hdigest]
  split
  · rename_i alg value hsplit
    by_cases halg : toLower alg ≠ ascii "sha256"
    · rw [if_pos halg]
      exact hbad _ _
    rw [if_neg halg]
    by_cases hvalue : value = []
    · rw [if_pos hvalue]
      exact hbad _ _
    rw [if_neg hvalue]
    have hdigestValue : digestValue request = value := by
      simp only [digestValue, hsplit]
    rw [hdigestValue]
    refine wp_bind.mpr (wp_panicOnError.mpr ?_)
    cases request'.body.readAll with
    | error e => exact Halted.judged (hw.halted (by simp))
    | ok content =>
      refine wp_bind_of_keeps ((hostBlind_onLedger _).keeps_onHost _) hw (fun budget w₁ hw₁ => ?_)
        (fun _ h => Halted.judged (h.halted (by simp)))
      have hpending : OnLedger
          (Pending none [.put (identifier ++ slash :: value) succeeded]) w₁ :=
        ⟨hw₁.status, hw₁.spacious.2, by simp [hw₁.calls]⟩
      refine (wp_retryNotify (fun _ => OnLedger (Pending none _)) (fun r => OnLedger
        (Settled none [.put (identifier ++ slash :: value) succeeded] r.1))
        (fun t w h => wp_digestAttempt h) budget hpending).bind (fun r w₂ h => ?_)
        (fun _ h => Halted.judged h.halted)
      exact wp_writeResponseBasedOn (by decide) h
  · exact hbad _ _

end Handlers

end BitsService
