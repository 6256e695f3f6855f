import BitsService.Blobstores.WebDavReports
import BitsService.Stash.Bundle

/-! # Bundles from a WebDAV server

A blob that the store reports as missing ends the bundling; any other failure is retried. -/
namespace BitsService
open GoLib.Effect GoLib.Retry
set_option autoImplicit false

/-! ## One attempt -/

/-- Giving up for good on a blob that is missing, and trying again. -/
def attemptReport : Option (Failure GoError) × ZipWriter → Report
  | (some (.permanent (.notFound _ _)), _) => .notFound
  | (some (.transient _), _) => .failed
  | _ => .done

theorem run_payloadAttempt_of_error {σ : Type} (blobstore : NoRedirectBlobstore σ)
    {entry : Fingerprint} {w : Env σ} {e : GoError} {s : σ}
    (h : (blobstore.get entry.sha1).run w.ext = (.returned (.error e), s)) (z : ZipWriter) :
    ∃ f, (payloadAttempt blobstore entry z).run w = (.returned (some f, z), { w with ext := s }) ∧
      attemptReport (some f, z) = reportOf (.error e : Result Body) ∧
      ∀ t k, f.error = .notFound t k → k = entry.sha1 ∧ ∃ t' k', e = .notFound t' k' := by
  have hext : (onExt (blobstore.get entry.sha1)).run w =
      (.returned (.error e), { w with ext := s }) := by rw [run_onExt, h]
  unfold payloadAttempt
  rw [run_bind_returned hext]
  cases e with
  | notFound text missingKey =>
    refine ⟨_, rfl, rfl, fun t k hk => ?_⟩
    cases hk
    exact ⟨rfl, _, _, rfl⟩
  | noSpaceLeft => exact ⟨_, rfl, rfl, by simp [Failure.error]⟩
  | stateForbidden => exact ⟨_, rfl, rfl, by simp [Failure.error]⟩
  | input text => exact ⟨_, rfl, rfl, by simp [Failure.error]⟩
  | sys text => exact ⟨_, rfl, rfl, by simp [Failure.error]⟩
  | wrapped message cause => exact ⟨_, rfl, rfl, by simp [Failure.error]⟩
  | withStack cause => exact ⟨_, rfl, rfl, by simp [Failure.error]⟩

/-- With the blob in hand the attempt asks for nothing more, and does not give up. -/
theorem run_payloadAttempt_of_ok {σ : Type} (blobstore : NoRedirectBlobstore σ)
    {entry : Fingerprint} {w : Env σ} {b : Body} {s : σ}
    (h : (blobstore.get entry.sha1).run w.ext = (.returned (.ok b), s)) (z : ZipWriter) :
    ∃ o w', (payloadAttempt blobstore entry z).run w = (o, w') ∧ w'.ext = s ∧
      ∀ r, o = .returned r → ∀ f, r.1 = some f → ∃ e, f = .transient (.wrapped
        (ascii "Could not copy file to zip entry. SHA:%!(EXTRA string=" ++ entry.sha1 ++
          ascii ")") e) := by
  have hext : (onExt (blobstore.get entry.sha1)).run w =
      (.returned (.ok b), { w with ext := s }) := by rw [run_onExt, h]
  unfold payloadAttempt
  rw [run_bind_returned hext]
  simp only
  rcases hcopy : (onHost (z.copyFrom b)).run { w with ext := s } with ⟨⟨r, z'⟩ | e, w'⟩
  · obtain ⟨-, hext', -⟩ := run_onHost_eq_returned hcopy
    rw [run_bind_returned hcopy]
    cases r with
    | error e =>
      refine ⟨_, _, rfl, hext', fun r hr f hf => ?_⟩
      cases hr
      cases hf
      exact ⟨e, rfl⟩
    | ok u =>
      refine ⟨_, _, rfl, hext', fun r hr f hf => ?_⟩
      cases hr
      cases hf
  · rw [run_bind_panicked hcopy]
    refine ⟨_, _, rfl, ?_, fun r hr => ?_⟩
    · rw [run_onHost] at hcopy
      obtain ⟨-, rfl⟩ := Prod.mk.inj hcopy
      rfl
    · cases hr

namespace ServedClient

/-- What an attempt makes of a blob is what the server answered during it. -/
def ClassifiesAttempt (client : ServedClient) (entry : Fingerprint) (z : ZipWriter)
    (w : Env (List Exchange)) : Prop :=
  ∃ o w' exchanges, (do pure (attemptReport (← payloadAttempt
      client.toBlobstore.toNoRedirectBlobstore entry z)) :
        Prog GoError (Env (List Exchange)) Report).run w = (o, w') ∧
    w'.ext = w.ext ++ exchanges ∧ Classified o (statuses exchanges)

theorem classifiesAttempt_iff_of_run {client : ServedClient} {entry : Fingerprint} {z : ZipWriter}
    {w w' : Env (List Exchange)} {exchanges : List Exchange} {o : Outcome GoError Report}
    (h : (do pure (attemptReport (← payloadAttempt
      client.toBlobstore.toNoRedirectBlobstore entry z)) :
        Prog GoError (Env (List Exchange)) Report).run w = (o, w'))
    (hext : w'.ext = w.ext ++ exchanges) :
    client.ClassifiesAttempt entry z w ↔ Classified o (statuses exchanges) := by
  constructor
  · rintro ⟨o', w'', exchanges', hrun, hext', hclassified⟩
    rw [h] at hrun
    obtain ⟨rfl, rfl⟩ := Prod.mk.inj hrun
    rwa [List.append_cancel_left (hext.symm.trans hext')]
  · intro hclassified
    exact ⟨o, w', exchanges, h, hext, hclassified⟩

section Get
variable {client : ServedClient} {history : List Exchange} {path : Bytes}

/-- A blob in hand was checked for and fetched. -/
theorem get_eq_ok {b : Body} {s : List Exchange}
    (h : (client.get path).run history = (.returned (.ok b), s)) :
    ∃ exchanges, s = history ++ exchanges ∧ statuses exchanges = [200, 200] := by
  cases hparse : NetUrl.parse client.strict (client.url path) with
  | none =>
    rw [get_eq, run_ifFound_none hparse] at h
    cases h
  | some u =>
    rw [get_eq, run_ifFound_some hparse] at h
    cases hhead : client.server history (client.head u) with
    | error e =>
      rw [hhead] at h
      cases h
    | ok response =>
      rw [hhead] at h
      simp only at h
      by_cases hfound : response.statusCode = 200
      · rw [if_pos hfound, run_fetch_some hparse] at h
        obtain ⟨hanswer, rfl⟩ := Prod.mk.inj h
        have hdone := reportOf_getAnswer (client.server (client.server.after history
          (client.head u)) (WebDavClient.request "GET" u))
        rw [Outcome.returned.inj hanswer] at hdone
        refine ⟨[(client.head u, client.server history (client.head u)), (_, _)],
          List.append_assoc _ _ _, ?_⟩
        rw [← List.singleton_append, statuses_append, statuses_singleton, statuses_singleton, hhead]
        cases hstatus : statusOf (client.server (client.server.after history (client.head u))
            (WebDavClient.request "GET" u)) with
        | none =>
          rw [hstatus] at hdone
          cases hdone
        | some code =>
          rw [hstatus] at hdone
          by_cases hcode : code = 200
          · simp [statusOf, Except.toOption, hfound, hcode]
          · simp only [if_neg hcode] at hdone
            cases hdone
      · rw [if_neg hfound] at h
        cases h

theorem classified_twice_ok {o : Outcome GoError Report} :
    Classified o [200, 200] ↔ o ≠ .returned .notFound := by
  rw [classified_cons_iff (by decide), classified_cons_iff (by decide), classified_nil_iff]

/-- The exchanges before a `Get` stay. -/
theorem keeps_get (path : Bytes) :
    Keeps (fun s => history <+: s) (client.get path) := by
  have hhttp : ∀ request, Keeps (fun s => history <+: s) (client.httpClient request) := by
    intro request s hs
    rw [run_httpClient]
    exact hs.trans (List.prefix_append _ _)
  have hnew : ∀ method urlStr, Keeps (fun s => history <+: s)
      (client.newRequest method urlStr) := by
    intro method urlStr
    unfold WebDavClient.newRequest
    split
    · exact Keeps.raise _ _
    · exact Keeps.pure _ _
  have hexists : Keeps (fun s => history <+: s) (client.existsBlob path) :=
    Keeps.bind (Keeps.bind (hnew _ _) fun _ => Keeps.pure _ _) fun _ =>
      keeps_orReturn (hhttp _) fun _ => Keeps.pure _ _
  have hfetch : Keeps (fun s => history <+: s) (client.fetch path) := by
    unfold fetch
    split
    · exact Keeps.pure _ _
    · refine keeps_orReturn (hhttp _) fun response => ?_
      split
      · exact Keeps.pure _ _
      · exact Keeps.pure _ _
  rw [get_eq]
  refine keeps_orReturn hexists fun found => ?_
  split
  · exact Keeps.pure _ _
  · exact hfetch

/-- An attempt is classified when the `Get` that it makes is. -/
theorem classifiesAttempt_iff (entry : Fingerprint) (z : ZipWriter) (w : Env (List Exchange)) :
    client.ClassifiesAttempt entry z w ↔ client.Reports w.ext (.get entry.sha1) := by
  rw [← classifies_iff_reports]
  rcases hget : (client.get entry.sha1).run w.ext with ⟨r | e, s⟩
  · obtain ⟨exchanges, rfl⟩ := (keeps_get entry.sha1).of_run hget List.prefix_rfl
    have hreport : (client.report (.get entry.sha1)).run w.ext =
        (.returned (reportOf r), w.ext ++ exchanges) := run_bind_returned hget
    have hclassifies : client.Classifies (.get entry.sha1) w.ext ↔
        Classified (.returned (reportOf r)) (statuses exchanges) :=
      classifiedRun_iff_of_run hreport
    rw [hclassifies]
    cases r with
    | error e =>
      obtain ⟨f, hrun, hsame, -⟩ :=
        run_payloadAttempt_of_error client.toBlobstore.toNoRedirectBlobstore hget z
      rw [classifiesAttempt_iff_of_run (run_bind_returned hrun) rfl, hsame]
    | ok b =>
      obtain ⟨exchanges', happend, hcodes⟩ := get_eq_ok hget
      rw [List.append_cancel_left happend, hcodes]
      refine iff_of_true ?_ (classified_twice_ok.mpr (by simp [reportOf]))
      obtain ⟨o, w', hrun, hext, hends⟩ :=
        run_payloadAttempt_of_ok client.toBlobstore.toNoRedirectBlobstore hget z
      rw [happend] at hext
      cases o with
      | panicked e =>
        rw [classifiesAttempt_iff_of_run (run_bind_panicked hrun) hext, hcodes]
        exact classified_twice_ok.mpr (by simp)
      | returned r =>
        rw [classifiesAttempt_iff_of_run (run_bind_returned hrun) hext, hcodes]
        refine classified_twice_ok.mpr fun h => ?_
        obtain ⟨f | f, z'⟩ := r
        · cases h
        · obtain ⟨e, rfl⟩ := hends _ rfl _ rfl
          cases h
  · obtain ⟨exchanges, rfl⟩ := (keeps_get entry.sha1).of_run hget List.prefix_rfl
    have hreport : (client.report (.get entry.sha1)).run w.ext =
        (.panicked e, w.ext ++ exchanges) := run_bind_panicked hget
    have hext : (onExt (client.get entry.sha1)).run w =
        (.panicked e, { w with ext := w.ext ++ exchanges }) := by rw [run_onExt, hget]
    rw [classifiesAttempt_iff_of_run (run_bind_panicked (run_bind_panicked hext)) rfl]
    exact (classifiedRun_iff_of_run hreport).symm

end Get

end ServedClient

/-! ## Giving up

The error of a missing blob comes from nowhere but the payload. -/

section Uploaded
variable {σ : Type}

def NotMissing {α : Type} (r : Result α) : Prop := ∀ t k, r ≠ .error (.notFound t k)

theorem wp_any {α W : Type} (m : Prog GoError W α) (w : W) :
    wp m (fun _ _ => True) (fun _ => True) w :=
  wp_of_run (fun _ _ _ => trivial) fun _ _ _ => trivial

/-- A step whose error is wrapped. -/
theorem wp_orReturn_notMissing {α β W : Type} {m : Prog GoError W (Result α)}
    {onError : GoError → GoError} {k : α → Prog GoError W (Result β)} {w : W}
    (he : ∀ e, NotMissing (.error (onError e) : Result β))
    (hk : ∀ a w', wp (k a) (fun r _ => NotMissing r) (fun _ => True) w') :
    wp (orReturn m onError k) (fun r _ => NotMissing r) (fun _ => True) w := by
  refine wp_orReturn.mpr ((wp_any m w).mono (fun r w' _ => ?_) (fun _ h => h))
  cases r with
  | error e => exact he e
  | ok a => exact hk a w'

theorem notMissing_wrap {α : Type} (message : String) (e : GoError) :
    NotMissing (.error (e.wrap message) : Result α) := by
  intro t k h
  cases h

variable {digests : Digests} {minimumSize maximumSize : ℕ} {blobstore : NoRedirectBlobstore σ}

theorem wp_stashAttempt_notMissing (content : Bytes) (tempFile : Option ℕ) (w : Env σ) :
    wp (stashAttempt digests minimumSize maximumSize blobstore content tempFile)
      (fun r _ => ∀ t k, r.1.map Failure.error ≠ some (.notFound t k)) (fun _ => True) w := by
  cases tempFile with
  | none => trivial
  | some name =>
    rw [stashAttempt_some]
    refine (wp_any (onHost (openTemp name)) w).bind (fun r w₁ _ => ?_) (fun _ h => h)
    cases r with
    | error e => simp [Failure.error, GoError.wrap]
    | ok src =>
      by_cases hsize : minimumSize ≤ content.length ∧ content.length ≤ maximumSize
      · simp only [if_pos hsize]
        refine (wp_any (onExt (blobstore.put (digests.key content) src)) w₁).bind
          (fun r w₂ _ => ?_) (fun _ h => h)
        cases r with
        | ok u => simp [stashPutFailure]
        | error e => cases e <;> simp [stashPutFailure]
      · simp only [if_neg hsize]
        simp

theorem wp_stashEntry_notMissing (content : Bytes) (tempFile : ℕ) (z : ZipWriter) (w : Env σ) :
    wp (stashEntry digests minimumSize maximumSize blobstore content tempFile z)
      (fun r _ => NotMissing r) (fun _ => True) w := by
  refine (wp_any (onHost takeBudget) w).bind (fun budget w₁ _ => ?_) (fun _ h => h)
  refine (wp_retryNotify (fun _ _ => True)
    (fun r _ => ∀ t k, r.1 ≠ some (.notFound t k))
    (fun t w _ => (wp_stashAttempt_notMissing content t w).mono
      (fun r _ h => ⟨h, fun _ _ => trivial⟩) (fun _ h => h)) budget trivial).bind
    (fun r w₂ h => ?_) (fun _ h => h)
  obtain ⟨e | e, tempFile⟩ := r
  · cases tempFile with
    | none => trivial
    | some name =>
      refine (wp_any (onHost (modifyState (Host.removeTemp name))) w₂).bind (fun _ _ _ => ?_)
        (fun _ h => h)
      intro t k hk
      cases hk
  · intro t k hk
    cases hk
    exact h t k rfl

theorem wp_bundleUploaded_notMissing (entries : List ZipEntry) (z : ZipWriter) (w : Env σ) :
    wp (bundleUploaded digests minimumSize maximumSize blobstore entries z)
      (fun r _ => NotMissing r) (fun _ => True) w := by
  induction entries generalizing z w with
  | nil =>
    intro t k h
    cases h
  | cons entry entries ih =>
    unfold bundleUploaded
    by_cases hregular : isRegular entry.header.mode = true
    · rw [if_pos hregular]
      have hentry : wp (bundleUploadedEntry digests minimumSize maximumSize blobstore entry z)
          (fun r _ => NotMissing r) (fun _ => True) w :=
        wp_orReturn_notMissing (notMissing_wrap _) fun z w =>
          wp_orReturn_notMissing (notMissing_wrap _) fun _ w =>
          wp_orReturn_notMissing (notMissing_wrap _) fun tempFile w => wp_removingTemp.mpr <|
          wp_orReturn_notMissing (notMissing_wrap _) fun z w =>
          wp_orReturn_notMissing (notMissing_wrap _) fun _ w =>
          wp_orReturn_notMissing (notMissing_wrap _) fun _ w => wp_stashEntry_notMissing _ _ _ _
      refine wp_orReturn.mpr (hentry.mono (fun r w' h => ?_) (fun _ h => h))
      cases r with
      | error e =>
        intro t k hk
        cases hk
        exact h t k rfl
      | ok z => exact ih z w'
    · rw [if_neg hregular]
      exact ih z w

end Uploaded

namespace ServedClient
variable {client : ServedClient}

/-- Every existence check says whether the blob exists. -/
def HeadsClear (client : ServedClient) : Prop :=
  ∀ history u, Clear (client.server history (client.head u))

/-- The last thing that the server said is that there is no such blob. -/
def LastMissing (client : ServedClient) (key : Bytes) (exchanges : List Exchange) : Prop :=
  ∃ earlier u response, exchanges = earlier ++ [(client.head u, .ok response)] ∧
    response.statusCode = 404 ∧ NetUrl.parse client.strict (client.url key) = some u

theorem lastMissing_of_get (hclear : client.HeadsClear) {path t k : Bytes}
    {history s : List Exchange}
    (h : (client.get path).run history = (.returned (.error (.notFound t k)), s)) :
    client.LastMissing path s := by
  cases hparse : NetUrl.parse client.strict (client.url path) with
  | none =>
    rw [get_eq, run_ifFound_none hparse] at h
    cases h
  | some u =>
    rw [get_eq, run_ifFound_some hparse] at h
    cases hhead : client.server history (client.head u) with
    | error e =>
      rw [hhead] at h
      cases h
    | ok response =>
      rw [hhead] at h
      simp only at h
      by_cases hfound : response.statusCode = 200
      · rw [if_pos hfound, run_fetch_some hparse] at h
        obtain ⟨hanswer, -⟩ := Prod.mk.inj h
        have hreport := reportOf_getAnswer (client.server (client.server.after history
          (client.head u)) (WebDavClient.request "GET" u))
        rw [Outcome.returned.inj hanswer] at hreport
        split at hreport
        · cases hreport
        · split at hreport
          · cases hreport
          · cases hreport
      · rw [if_neg hfound] at h
        obtain ⟨-, rfl⟩ := Prod.mk.inj h
        have hmissing : response.statusCode = 404 := by
          have hcode := hclear history u response.statusCode (by rw [hhead]; rfl)
          exact hcode.resolve_left hfound
        exact ⟨history, u, response, by rw [after_eq, hhead], hmissing, hparse⟩

variable {entry : Fingerprint} {z : ZipWriter} {w : Env (List Exchange)}

/-- A missing blob is the last thing that was asked for. -/
def GaveUp (client : ServedClient) (e : Option GoError) (w : Env (List Exchange)) : Prop :=
  ∀ t k, e = some (.notFound t k) → client.LastMissing k w.ext

/-- What is returned for a missing blob is that it is. -/
def ReportsMissing {α : Type} (client : ServedClient) (r : Result α) (w : Env (List Exchange)) :
    Prop :=
  ∀ t k, r = .error (.notFound t k) → client.LastMissing k w.ext

theorem reportsMissing_of_notMissing {α : Type} {r : Result α} (h : NotMissing r) :
    client.ReportsMissing r w := fun t k hr => absurd hr (h t k)

theorem notMissing_ok {α : Type} (a : α) : NotMissing (.ok a : Result α) := by
  intro t k h
  cases h

theorem wp_payloadAttempt_gaveUp (hclear : client.HeadsClear) :
    wp (payloadAttempt client.toBlobstore.toNoRedirectBlobstore entry z)
      (fun r w' => client.GaveUp (r.1.map Failure.error) w') (fun _ => True) w := by
  refine wp_of_run (fun r w' hrun => ?_) (fun _ _ _ => trivial)
  rcases hget : (client.get entry.sha1).run w.ext with ⟨(e | b) | e, s⟩
  · obtain ⟨f, hattempt, -, hmissing⟩ :=
      run_payloadAttempt_of_error client.toBlobstore.toNoRedirectBlobstore hget z
    rw [hattempt] at hrun
    cases hrun
    intro t k hk
    obtain ⟨rfl, t', k', rfl⟩ := hmissing t k (Option.some.inj hk)
    exact lastMissing_of_get hclear hget
  · obtain ⟨o, w'', hattempt, -, hends⟩ :=
      run_payloadAttempt_of_ok client.toBlobstore.toNoRedirectBlobstore hget z
    rw [hattempt] at hrun
    cases hrun
    intro t k hk
    obtain ⟨f, hf, hnotFound⟩ := Option.map_eq_some_iff.mp hk
    obtain ⟨e, rfl⟩ := hends r rfl f hf
    cases hnotFound
  · have hext : (onExt (client.get entry.sha1)).run w = (.panicked e, { w with ext := s }) := by
      rw [run_onExt, hget]
    have hpanic : (payloadAttempt client.toBlobstore.toNoRedirectBlobstore entry z).run w = _ :=
      run_bind_panicked hext
    rw [hpanic] at hrun
    cases hrun

theorem wp_bundlePayload_reportsMissing (hclear : client.HeadsClear) (payload : List Fingerprint)
    (z : ZipWriter) (w : Env (List Exchange)) :
    wp (bundlePayload client.toBlobstore.toNoRedirectBlobstore payload z)
      (fun r w' => client.ReportsMissing r w') (fun _ => True) w := by
  induction payload generalizing z w with
  | nil => exact reportsMissing_of_notMissing (notMissing_ok z)
  | cons entry payload ih =>
    refine wp_orReturn.mpr ((wp_any _ w).mono (fun r w₁ _ => ?_) (fun _ h => h))
    cases r with
    | error e => exact reportsMissing_of_notMissing (notMissing_wrap _ e)
    | ok z =>
      refine (wp_any (onHost takeBudget) w₁).bind (fun budget w₂ _ => ?_) (fun _ h => h)
      refine (wp_retryNotify (fun _ _ => True) (fun r w' => client.GaveUp r.1 w')
        (fun z w _ => (wp_payloadAttempt_gaveUp hclear).mono
          (fun r _ h => ⟨h, fun _ _ => trivial⟩) (fun _ h => h)) budget trivial).bind
        (fun r w₃ h => ?_) (fun _ h => h)
      obtain ⟨e | e, z⟩ := r
      · exact ih z w₃
      · intro t k hk
        cases hk
        exact h t k rfl

theorem wp_writeBundle_reportsMissing (hclear : client.HeadsClear) {digests : Digests}
    {format : ZipFormat} {minimumSize maximumSize : ℕ} {payload : List Fingerprint}
    {zipReader : Option (List ZipEntry)} {tempZipFile : ℕ} :
    wp (writeBundle digests format minimumSize maximumSize
        client.toBlobstore.toNoRedirectBlobstore payload zipReader tempZipFile)
      (fun r w' => client.ReportsMissing r w') (fun _ => True) w := by
  refine wp_orReturn.mpr ((wp_bundleUploaded_notMissing _ _ w).mono (fun r w₁ h => ?_)
    (fun _ h => h))
  cases r with
  | error e =>
    intro t k hk
    cases hk
    exact absurd rfl (h t k)
  | ok z =>
    refine wp_orReturn.mpr ((wp_bundlePayload_reportsMissing hclear payload z w₁).mono
      (fun r w₂ h => ?_) (fun _ h => h))
    cases r with
    | error e =>
      intro t k hk
      cases hk
      exact h t k rfl
    | ok z =>
      refine (wp_any (onHost (z.close format)) w₂).bind (fun content w₃ _ => ?_) (fun _ h => h)
      refine (wp_any (onHost (setTemp tempZipFile (some content))) w₃).bind (fun _ w₄ _ => ?_)
        (fun _ h => h)
      exact reportsMissing_of_notMissing (notMissing_ok ())

/-- Bundling gives up on a blob only when the server has said last that there is no such blob. -/
theorem wp_createTempZipFileFrom_reportsMissing (hclear : client.HeadsClear) (digests : Digests)
    (format : ZipFormat) (minimumSize maximumSize : ℕ) (payload : List Fingerprint)
    (zipReader : Option (List ZipEntry)) (w : Env (List Exchange)) :
    wp (createTempZipFileFrom digests format minimumSize maximumSize
        client.toBlobstore.toNoRedirectBlobstore payload zipReader)
      (fun r w' => client.ReportsMissing r w') (fun _ => True) w := by
  refine wp_orReturn.mpr ((wp_any _ w).mono (fun r w₁ _ => ?_) (fun _ h => h))
  cases r with
  | error e => exact reportsMissing_of_notMissing (notMissing_wrap _ e)
  | ok tempZipFile =>
    refine (wp_writeBundle_reportsMissing hclear).bind (fun r w₂ h => ?_) (fun _ h => h)
    cases r with
    | error e =>
      intro t k hk
      cases hk
      exact h t k rfl
    | ok u => exact reportsMissing_of_notMissing (notMissing_ok tempZipFile)

/-- An operation reports a missing blob as one, and every other failure as another error, exactly
when the server answers as `Reports` says; an attempt to bundle a blob gives up on it, and is made
again, exactly when `Get` does; and when every existence check is answered clearly, bundling gives
up only on blobs that are missing. -/
theorem reports_iff (client : ServedClient) :
    (∀ call history, client.Classifies call history ↔ client.Reports history call) ∧
    (∀ entry z w, client.ClassifiesAttempt entry z w ↔
      client.Reports w.ext (.get entry.sha1)) ∧
    (client.HeadsClear → ∀ digests format minimumSize maximumSize payload zipReader w r w',
      (createTempZipFileFrom digests format minimumSize maximumSize
        client.toBlobstore.toNoRedirectBlobstore payload zipReader).run w = (.returned r, w') →
      client.ReportsMissing r w') := by
  refine ⟨fun call history => classifies_iff_reports call, classifiesAttempt_iff, ?_⟩
  intro hclear digests format minimumSize maximumSize payload zipReader w r w' hrun
  exact (wp_createTempZipFileFrom_reportsMissing hclear digests format minimumSize maximumSize
    payload zipReader w).returned hrun

def greetingFingerprint : Fingerprint :=
  ⟨ascii "greeting.txt", helloDigests.key (ascii "hello"), 5, ascii "644"⟩

theorem reports_iff_missing :
    ∃ t w', (createTempZipFileFrom helloDigests plainFormat 0 100
        (davClient (.answering 404 (ascii "404 Not Found") [])).toBlobstore.toNoRedirectBlobstore
        [greetingFingerprint] none).run (.fresh []) =
      (.returned (.error (.notFound t greetingFingerprint.sha1)), w') ∧
    (davClient (.answering 404 (ascii "404 Not Found") [])).LastMissing greetingFingerprint.sha1
      w'.ext := by
  refine ⟨_, _, rfl, ?_⟩
  refine (reports_iff (davClient (.answering 404 (ascii "404 Not Found") []))).2.2
    (fun history u code hcode => ?_) helloDigests plainFormat 0 100 [greetingFingerprint] none
    (.fresh []) _ _ rfl _ _ rfl
  exact .inr (Option.some.inj hcode).symm

/-- A blob that may not be looked at is reported as one that does not exist. -/
theorem not_classifies_forbidden :
    ¬ (davClient (.answering 403 (ascii "403 Forbidden") [])).Classifies
      (.existsBlob (ascii "blob")) [] := by
  rw [classifies_existsBlob_iff]
  intro h
  obtain ⟨u, hu⟩ : ∃ u, NetUrl.parse false (ascii "http://dav/blob") = some u := ⟨_, rfl⟩
  rcases (h u hu).1 403 rfl with h | h
  · cases h
  · cases h

end ServedClient

end BitsService
