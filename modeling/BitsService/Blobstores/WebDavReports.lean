import BitsService.Blobstores.WebDavRuns

/-! # What a WebDAV client reports

Whether an operation reports that a blob is missing, against the status codes that it was answered
with. -/
namespace BitsService
open GoLib.Effect
set_option autoImplicit false

/-! ## Reports -/

/-- How an operation turns out for its caller. -/
inductive Report where
  | done
  | notFound
  | failed
  deriving DecidableEq

def reportOf {α : Type} : Result α → Report
  | .ok _ => .done
  | .error (.notFound _ _) => .notFound
  | .error _ => .failed

/-- A blob that does not exist is reported as missing. -/
def existsReport : Result Bool → Report
  | .ok false => .notFound
  | r => reportOf r

/-- The status of a response, if there was one. -/
def statusOf (answer : Result HttpResponse) : Option ℕ := answer.toOption.map (·.statusCode)

/-- The status codes that were answered. -/
def statuses (exchanges : List Exchange) : List ℕ := exchanges.filterMap fun x => statusOf x.2

/-- A missing blob is reported exactly when 404 was answered, and any other status of a failure as
another error. -/
def Classified (o : Outcome GoError Report) (codes : List ℕ) : Prop :=
  (o = .returned .notFound ↔ 404 ∈ codes) ∧
    ∀ code ∈ codes, 400 ≤ code → code ≠ 404 → o = .returned .failed

/-- What is reported is what was answered meanwhile. -/
def ClassifiedRun (m : Prog GoError (List Exchange) Report) (history : List Exchange) : Prop :=
  ∃ o exchanges, m.run history = (o, history ++ exchanges) ∧ Classified o (statuses exchanges)

/-- The operations that report missing blobs. -/
inductive WebDavCall where
  | existsBlob (path : Bytes)
  | get (path : Bytes)
  | getOrRedirect (path : Bytes)
  | copy (src dest : Bytes)
  | delete (path : Bytes)
  | deleteDir (pre : Bytes)

namespace WebDavClient
variable {σ : Type}

def report (client : WebDavClient σ) : WebDavCall → Prog GoError σ Report
  | .existsBlob path => do pure (existsReport (← client.existsBlob path))
  | .get path => do pure (reportOf (← client.get path))
  | .getOrRedirect path => do pure (reportOf (← client.getOrRedirect path))
  | .copy src dest => do pure (reportOf (← client.copy src dest))
  | .delete path => do pure (reportOf (← client.delete path))
  | .deleteDir pre => do pure (reportOf (← client.deleteDir pre))

end WebDavClient

namespace ServedClient

/-- What the call reports is what the server answered during it. -/
def Classifies (client : ServedClient) (call : WebDavCall) (history : List Exchange) : Prop :=
  ClassifiedRun (client.report call) history

/-! ## When it does -/

/-- The response to an existence check says whether the blob exists. -/
def Clear (answer : Result HttpResponse) : Prop :=
  ∀ code, statusOf answer = some code → code = 200 ∨ code = 404

/-- The existence check is answered clearly, and what is done with a blob that is found is answered
as `found` says. -/
def ClearThen (client : ServedClient) (path : Bytes) (history : List Exchange)
    (found : NetUrl → List Exchange → Prop) : Prop :=
  ∀ u, NetUrl.parse client.strict (client.url path) = some u →
    Clear (client.server history (client.head u)) ∧
      (statusOf (client.server history (client.head u)) = some 200 →
        found u (client.server.after history (client.head u)))

/-- The blob that was found is still there. -/
def StillThere (client : ServedClient) (u : NetUrl) (history : List Exchange) : Prop :=
  statusOf (client.server history (WebDavClient.request "GET" u)) ≠ some 404

/-- Signing its location is not answered with a failure. -/
def SignedFor (client : ServedClient) (path : Bytes) (history : List Exchange) : Prop :=
  ∀ v, NetUrl.parse client.strict
      (client.signUrl path (ascii "get") (client.expiry history)) = some v →
    ∀ code, statusOf (client.server history (client.signing v)) = some code → code < 400

/-- What the server has to answer for the call to report it. -/
def Reports (client : ServedClient) (history : List Exchange) : WebDavCall → Prop
  | .existsBlob path => client.ClearThen path history fun _ _ => True
  | .get path => client.ClearThen path history client.StillThere
  | .getOrRedirect path => client.ClearThen path history fun _ => client.SignedFor path
  | .copy _ dest => ∀ u, NetUrl.parse client.strict (client.adminUrl dest) = some u →
      statusOf (client.server history (client.putting [] u)) ≠ some 404
  | .delete path => ∀ u, NetUrl.parse client.strict (client.adminUrl path) = some u →
      statusOf (client.server history (client.deleting u)) ≠ some 404
  | .deleteDir _ => True

end ServedClient

/-! ## Codes and reports -/

theorem statuses_append (exchanges exchanges' : List Exchange) :
    statuses (exchanges ++ exchanges') = statuses exchanges ++ statuses exchanges' :=
  List.filterMap_append

theorem statuses_singleton (request : HttpRequest) (answer : Result HttpResponse) :
    statuses [(request, answer)] = (statusOf answer).toList := by
  unfold statuses
  cases h : statusOf answer with
  | none => simp [h]
  | some code => simp [h]

theorem classifiedRun_iff_of_run {m : Prog GoError (List Exchange) Report}
    {history exchanges : List Exchange} {o : Outcome GoError Report}
    (h : m.run history = (o, history ++ exchanges)) :
    ClassifiedRun m history ↔ Classified o (statuses exchanges) := by
  constructor
  · rintro ⟨o', exchanges', hrun, hclassified⟩
    rw [h] at hrun
    obtain ⟨rfl, happend⟩ := Prod.mk.inj hrun
    rwa [List.append_cancel_left happend]
  · intro hclassified
    exact ⟨o, exchanges, h, hclassified⟩

section Classified
variable {o : Outcome GoError Report} {code : ℕ} {codes : List ℕ}

/-- What is no failure does not matter. -/
theorem classified_cons_iff (h : code < 400) :
    Classified o (code :: codes) ↔ Classified o codes := by
  have hne : 404 ≠ code := by omega
  constructor
  · rintro ⟨hmissing, hfailing⟩
    refine ⟨hmissing.trans ?_, fun c hc => hfailing c (List.mem_cons_of_mem _ hc)⟩
    rw [List.mem_cons, or_iff_right hne]
  · rintro ⟨hmissing, hfailing⟩
    refine ⟨hmissing.trans ?_, fun c hc hle hc404 => ?_⟩
    · rw [List.mem_cons, or_iff_right hne]
    · rcases List.mem_cons.mp hc with rfl | hc
      · omega
      · exact hfailing c hc hle hc404

/-- Nothing was answered, or nothing but successes. -/
theorem classified_nil_iff : Classified o [] ↔ o ≠ .returned .notFound := by
  simp [Classified]

theorem classified_singleton_iff : Classified o [code] ↔
    (o = .returned .notFound ↔ code = 404) ∧ (400 ≤ code → code ≠ 404 → o = .returned .failed) := by
  simp [Classified, eq_comm]

end Classified

theorem classifiedRun_of_panicked {m : Prog GoError (List Exchange) Report}
    {history : List Exchange} {e : GoError} (h : m.run history = (.panicked e, history)) :
    ClassifiedRun m history := by
  refine ⟨.panicked e, [], ?_, classified_nil_iff.mpr (by simp)⟩
  rw [h, List.append_nil]

/-! ## What each response is made of -/

theorem reportOf_modified (missing : Bool) (context : Bytes) (message : String)
    (answer : Result HttpResponse) :
    reportOf (ServedClient.modified missing context message answer) = match statusOf answer with
      | none => .failed
      | some code =>
        if missing = true ∧ code = 404 then .notFound
        else if code < 200 ∨ code > 204 then .failed else .done := by
  cases answer with
  | error e => rfl
  | ok response =>
    show reportOf (if missing = true ∧ response.statusCode = 404 then _ else _) =
      if missing = true ∧ response.statusCode = 404 then _ else _
    by_cases hmissing : missing = true ∧ response.statusCode = 404
    · rw [if_pos hmissing, if_pos hmissing]
      rfl
    · rw [if_neg hmissing, if_neg hmissing, expectSuccess]
      by_cases hcode : response.statusCode < 200 ∨ response.statusCode > 204
      · rw [if_pos hcode, if_pos hcode]
        rfl
      · rw [if_neg hcode, if_neg hcode]
        rfl

theorem existsReport_existsAnswer (path : Bytes) (answer : Result HttpResponse) :
    existsReport (ServedClient.existsAnswer path answer) = match statusOf answer with
      | none => .failed
      | some code => if code = 200 then .done else .notFound := by
  cases answer with
  | error e => rfl
  | ok response =>
    show existsReport (.ok (decide (response.statusCode = 200))) =
      if response.statusCode = 200 then _ else _
    by_cases hfound : response.statusCode = 200
    · rw [if_pos hfound, decide_eq_true hfound]
      rfl
    · rw [if_neg hfound, decide_eq_false hfound]
      rfl

theorem reportOf_getAnswer (answer : Result HttpResponse) :
    reportOf (ServedClient.getAnswer answer) = match statusOf answer with
      | none => .failed
      | some code => if code = 200 then .done else .failed := by
  cases answer with
  | error e => rfl
  | ok response =>
    show reportOf (if response.statusCode ≠ 200 then _ else _) =
      if response.statusCode = 200 then _ else _
    by_cases hfound : response.statusCode = 200
    · rw [if_neg (not_not.mpr hfound), if_pos hfound]
      rfl
    · rw [if_pos hfound, if_neg hfound]
      rfl

section Answers
variable {answer : Result HttpResponse}

/-- A modification that does not look for 404. -/
theorem classified_modified_iff (context : Bytes) (message : String) :
    Classified (.returned (reportOf (ServedClient.modified false context message answer)))
      (statusOf answer).toList ↔ statusOf answer ≠ some 404 := by
  rw [reportOf_modified]
  cases statusOf answer with
  | none => simp [classified_nil_iff]
  | some code =>
    rw [Option.toList_some, classified_singleton_iff]
    by_cases hcode : code < 200 ∨ code > 204
    · simp [hcode]
    · have hne : code ≠ 404 := by omega
      have hlt : ¬ 400 ≤ code := by omega
      simp [hcode, hne, hlt]

/-- A modification that does. -/
theorem classified_modified_missing (context : Bytes) (message : String) :
    Classified (.returned (reportOf (ServedClient.modified true context message answer)))
      (statusOf answer).toList := by
  rw [reportOf_modified]
  cases statusOf answer with
  | none => simp [classified_nil_iff]
  | some code =>
    rw [Option.toList_some, classified_singleton_iff]
    by_cases hmissing : code = 404
    · simp [hmissing]
    by_cases hcode : code < 200 ∨ code > 204
    · simp [hcode, hmissing]
    · have hlt : ¬ 400 ≤ code := by omega
      simp [hcode, hmissing, hlt]

theorem classified_exists_iff (path : Bytes) :
    Classified (.returned (existsReport (ServedClient.existsAnswer path answer)))
      (statusOf answer).toList ↔ ServedClient.Clear answer := by
  rw [existsReport_existsAnswer, ServedClient.Clear]
  cases statusOf answer with
  | none => simp [classified_nil_iff]
  | some code =>
    rw [Option.toList_some, classified_singleton_iff]
    by_cases hfound : code = 200
    · simp [hfound]
    · simp +contextual [hfound]

theorem classified_get_iff :
    Classified (.returned (reportOf (ServedClient.getAnswer answer))) (statusOf answer).toList ↔
      statusOf answer ≠ some 404 := by
  rw [reportOf_getAnswer]
  cases statusOf answer with
  | none => simp [classified_nil_iff]
  | some code =>
    rw [Option.toList_some, classified_singleton_iff]
    by_cases hfound : code = 200
    · simp [hfound]
    · simp [hfound]

end Answers

/-! ## Each operation -/

namespace ServedClient
variable {client : ServedClient} {history : List Exchange} {u : NetUrl}

theorem after_eq (request : HttpRequest) : client.server.after history request =
    history ++ [(request, client.server history request)] := rfl

/-- An operation of one request. -/
theorem classifiedRun_of_one {α : Type} {m : Prog GoError (List Exchange) (Result α)}
    {result : Result α} {request : HttpRequest}
    (h : m.run history = (.returned result, client.server.after history request))
    (reportOf : Result α → Report) :
    ClassifiedRun (do pure (reportOf (← m))) history ↔
      Classified (.returned (reportOf result))
        (statusOf (client.server history request)).toList := by
  have hrun : (do pure (reportOf (← m)) : Prog GoError (List Exchange) Report).run history =
      (.returned (reportOf result), history ++ [(request, client.server history request)]) :=
    run_bind_returned h
  rw [classifiedRun_iff_of_run hrun, statuses_singleton]

theorem classifiedRun_of_none {α : Type} {m : Prog GoError (List Exchange) (Result α)}
    {e : GoError} (h : m.run history = (.panicked e, history)) (reportOf : Result α → Report) :
    ClassifiedRun (do pure (reportOf (← m))) history :=
  classifiedRun_of_panicked (run_bind_panicked h)

/-- What was asked before, and not answered with a failure, does not matter. -/
theorem classifiedRun_after_iff {m m' : Prog GoError (List Exchange) Report} {code : ℕ}
    {request : HttpRequest} (hstatus : statusOf (client.server history request) = some code)
    (hcode : code < 400) (h : m.run history = m'.run (client.server.after history request))
    (hgrows : ∃ o exchanges, m'.run (client.server.after history request) =
      (o, client.server.after history request ++ exchanges)) :
    ClassifiedRun m history ↔ ClassifiedRun m' (client.server.after history request) := by
  obtain ⟨o, exchanges, hrun⟩ := hgrows
  have hrun' : m.run history =
      (o, history ++ ((request, client.server history request) :: exchanges)) := by
    rw [h, hrun, after_eq, List.append_assoc, List.singleton_append]
  rw [classifiedRun_iff_of_run hrun, classifiedRun_iff_of_run hrun', ← List.singleton_append,
    statuses_append, statuses_singleton, hstatus, Option.toList_some, List.singleton_append,
    classified_cons_iff hcode]

/-- What is done only to blobs that there are is classified when the check is answered clearly and
the rest is classified. -/
theorem classifiedRun_ifFound_iff {α : Type} {k : Prog GoError (List Exchange) (Result α)}
    {path : Bytes} {found : NetUrl → List Exchange → Prop}
    (hk : ∀ u, NetUrl.parse client.strict (client.url path) = some u → ∀ s,
      (∃ o exchanges, (do pure (reportOf (← k)) : Prog GoError (List Exchange) Report).run s =
        (o, s ++ exchanges)) ∧ (ClassifiedRun (do pure (reportOf (← k))) s ↔ found u s)) :
    ClassifiedRun (do pure (reportOf (← client.ifFound path k))) history ↔
      client.ClearThen path history found := by
  cases hparse : NetUrl.parse client.strict (client.url path) with
  | none =>
    refine iff_of_true (classifiedRun_of_none (run_ifFound_none hparse) _) (fun u hu => ?_)
    rw [hparse] at hu
    cases hu
  | some u =>
    have hclear : client.ClearThen path history found ↔
        Clear (client.server history (client.head u)) ∧
          (statusOf (client.server history (client.head u)) = some 200 →
            found u (client.server.after history (client.head u))) := by
      constructor
      · intro h
        exact h u hparse
      · intro h v hv
        rw [hparse] at hv
        cases hv
        exact h
    have hrun : (client.ifFound path k).run history = _ := run_ifFound_some hparse
    rw [hclear]
    cases hanswer : client.server history (client.head u) with
    | error e =>
      rw [hanswer] at hrun
      rw [classifiedRun_of_one hrun, hanswer]
      simp [statusOf, Except.toOption, classified_nil_iff, reportOf, Clear]
    | ok response =>
      rw [hanswer] at hrun
      simp only at hrun
      by_cases hfound : response.statusCode = 200
      · rw [if_pos hfound] at hrun
        have hstatus : statusOf (client.server history (client.head u)) = some 200 := by
          rw [hanswer, ← hfound]
          rfl
        obtain ⟨hgrows, hiff⟩ := hk u hparse (client.server.after history (client.head u))
        have hthen : (do pure (reportOf (← client.ifFound path k)) :
            Prog GoError (List Exchange) Report).run history =
            (do pure (reportOf (← k)) : Prog GoError (List Exchange) Report).run
              (client.server.after history (client.head u)) := by
          rw [run_bind, hrun, ← run_bind]
        rw [classifiedRun_after_iff hstatus (by decide) hthen hgrows, hiff]
        simp [Clear, statusOf, Except.toOption, hfound]
      · rw [if_neg hfound] at hrun
        rw [classifiedRun_of_one hrun, hanswer]
        show Classified _ [response.statusCode] ↔ _
        rw [classified_singleton_iff]
        simp +contextual [Clear, statusOf, Except.toOption, hfound, reportOf,
          GoError.newNotFoundError]

theorem classifies_existsBlob_iff (path : Bytes) :
    client.Classifies (.existsBlob path) history ↔ client.Reports history (.existsBlob path) := by
  show ClassifiedRun (do pure (existsReport (← client.existsBlob path))) history ↔
    client.ClearThen path history fun _ _ => True
  cases hparse : NetUrl.parse client.strict (client.url path) with
  | none =>
    refine iff_of_true (classifiedRun_of_none (run_existsBlob_none hparse) _) (fun u hu => ?_)
    rw [hparse] at hu
    cases hu
  | some u =>
    rw [classifiedRun_of_one (run_existsBlob_some hparse), classified_exists_iff]
    constructor
    · intro hclear v hv
      rw [hparse] at hv
      cases hv
      exact ⟨hclear, fun _ => trivial⟩
    · intro h
      exact (h u hparse).1

theorem classifies_get_iff (path : Bytes) :
    client.Classifies (.get path) history ↔ client.Reports history (.get path) := by
  show ClassifiedRun (do pure (reportOf (← client.get path))) history ↔ _
  rw [get_eq]
  refine classifiedRun_ifFound_iff fun u hu s => ?_
  have hrun : (client.fetch path).run s = _ := run_fetch_some hu
  refine ⟨⟨_, _, run_bind_returned hrun⟩, ?_⟩
  rw [classifiedRun_of_one hrun, classified_get_iff]
  exact Iff.rfl

/-- What `Sign` makes of a response is a text, or a panic over one with status 200. -/
theorem run_signed (answer : Result HttpResponse) (s : List Exchange) :
    ∃ o, (client.signed answer).run s = (o, s) ∧
      ((∃ text, o = .returned text) ∨ (∃ e, o = .panicked e) ∧ statusOf answer = some 200) := by
  cases answer with
  | error e => exact ⟨_, rfl, .inl ⟨_, rfl⟩⟩
  | ok response =>
    unfold signed
    by_cases hok : response.statusCode = 200
    · simp only [hok, ne_eq, not_true_eq_false, if_false]
      have hstatus : statusOf (.ok response) = some 200 := by
        rw [← hok]
        rfl
      cases response.body.readAll with
      | error e => exact ⟨_, rfl, .inl ⟨_, rfl⟩⟩
      | ok content =>
        simp only
        unfold WebDavClient.publicUrl mustParse
        cases NetUrl.parseRequestURI client.strict content with
        | none => exact ⟨_, rfl, .inr ⟨⟨_, rfl⟩, hstatus⟩⟩
        | some signedUrl =>
          cases NetUrl.parseRequestURI client.strict client.webdavPublicEndpoint with
          | none => exact ⟨_, rfl, .inr ⟨⟨_, rfl⟩, hstatus⟩⟩
          | some publicEndpoint => exact ⟨_, rfl, .inl ⟨_, rfl⟩⟩
    · simp only [ne_eq, hok, not_false_eq_true, if_true]
      exact ⟨_, rfl, .inl ⟨_, rfl⟩⟩

/-- Signing a location, as `GetOrRedirect` does it. -/
def location (client : ServedClient) (path : Bytes) :
    Prog GoError (List Exchange) (Result (Option Body × Bytes)) := do
  let s ← getState
  let signedUrl ← client.sign path (ascii "get") (client.expiry s)
  pure (.ok (none, signedUrl))

theorem run_location_returned {path signedUrl : Bytes} {s s' : List Exchange}
    (h : (client.sign path (ascii "get") (client.expiry s)).run s = (.returned signedUrl, s')) :
    (client.location path).run s = (.returned (.ok (none, signedUrl)), s') := by
  unfold location
  rw [run_bind_returned (run_getState s)]
  exact run_bind_returned h

theorem run_location_panicked {path : Bytes} {e : GoError} {s s' : List Exchange}
    (h : (client.sign path (ascii "get") (client.expiry s)).run s = (.panicked e, s')) :
    (client.location path).run s = (.panicked e, s') := by
  unfold location
  rw [run_bind_returned (run_getState s)]
  exact run_bind_panicked h

theorem classifiedRun_location_iff (path : Bytes) (s : List Exchange) :
    (∃ o exchanges, (do pure (reportOf (← client.location path)) :
      Prog GoError (List Exchange) Report).run s = (o, s ++ exchanges)) ∧
    (ClassifiedRun (do pure (reportOf (← client.location path))) s ↔ client.SignedFor path s) := by
  cases hparse : NetUrl.parse client.strict
      (client.signUrl path (ascii "get") (client.expiry s)) with
  | none =>
    have hrun : (do pure (reportOf (← client.location path)) :
        Prog GoError (List Exchange) Report).run s = (.panicked _, s) :=
      run_bind_panicked (run_location_panicked (run_sign_none hparse))
    refine ⟨⟨_, [], by rw [hrun, List.append_nil]⟩,
      iff_of_true (classifiedRun_of_panicked hrun) (fun v hv => ?_)⟩
    rw [hparse] at hv
    cases hv
  | some u =>
    have hsigned : client.SignedFor path s ↔
        ∀ code, statusOf (client.server s (client.signing u)) = some code → code < 400 := by
      constructor
      · intro h
        exact h u hparse
      · intro h v hv
        rw [hparse] at hv
        cases hv
        exact h
    have hsign : (client.sign path (ascii "get") (client.expiry s)).run s = _ :=
      run_sign_some hparse
    obtain ⟨o, hanswer, hends⟩ : ∃ o, (client.signed (client.server s (client.signing u))).run
        (client.server.after s (client.signing u)) = (o, _) ∧ _ := run_signed _ _
    rw [hanswer] at hsign
    rcases hends with ⟨text, rfl⟩ | ⟨⟨e, rfl⟩, hstatus⟩
    · have hrun : (do pure (reportOf (← client.location path)) :
          Prog GoError (List Exchange) Report).run s =
          (.returned .done, s ++ [(client.signing u, client.server s (client.signing u))]) :=
        run_bind_returned (run_location_returned hsign)
      refine ⟨⟨_, _, hrun⟩, ?_⟩
      rw [classifiedRun_iff_of_run hrun, statuses_singleton, hsigned]
      cases statusOf (client.server s (client.signing u)) with
      | none => simp [classified_nil_iff]
      | some code =>
        rw [Option.toList_some, classified_singleton_iff]
        simp
        omega
    · have hrun : (do pure (reportOf (← client.location path)) :
          Prog GoError (List Exchange) Report).run s =
          (.panicked e, s ++ [(client.signing u, client.server s (client.signing u))]) :=
        run_bind_panicked (run_location_panicked hsign)
      refine ⟨⟨_, _, hrun⟩, ?_⟩
      rw [classifiedRun_iff_of_run hrun, statuses_singleton, hsigned, hstatus]
      simp [classified_singleton_iff]

theorem classifies_getOrRedirect_iff (path : Bytes) :
    client.Classifies (.getOrRedirect path) history ↔
      client.Reports history (.getOrRedirect path) := by
  show ClassifiedRun (do pure (reportOf (← client.getOrRedirect path))) history ↔ _
  rw [getOrRedirect_eq]
  exact classifiedRun_ifFound_iff fun u _ s => classifiedRun_location_iff path s

theorem classifies_delete_iff (path : Bytes) :
    client.Classifies (.delete path) history ↔ client.Reports history (.delete path) := by
  show ClassifiedRun (do pure (reportOf (← client.delete path))) history ↔
    ∀ u, NetUrl.parse client.strict (client.adminUrl path) = some u →
      statusOf (client.server history (client.deleting u)) ≠ some 404
  cases hparse : NetUrl.parse client.strict (client.adminUrl path) with
  | none => exact iff_of_true (classifiedRun_of_none (run_delete_none hparse) _) (by simp)
  | some u =>
    rw [classifiedRun_of_one (run_delete_some hparse), classified_modified_iff]
    simp

theorem classifies_deleteDir (pre : Bytes) : client.Classifies (.deleteDir pre) history := by
  show ClassifiedRun (do pure (reportOf (← client.deleteDir pre))) history
  cases hparse : NetUrl.parse client.strict (client.adminUrl (dirPath pre)) with
  | none => exact classifiedRun_of_none (run_deleteDir_none hparse) _
  | some u =>
    rw [classifiedRun_of_one (run_deleteDir_some hparse)]
    exact classified_modified_missing _ _

theorem statusOf_of_modified_ok {missing : Bool} {context : Bytes} {message : String}
    {answer : Result HttpResponse} (h : modified missing context message answer = .ok ()) :
    ∃ code, statusOf answer = some code ∧ code < 400 := by
  have hreport := reportOf_modified missing context message answer
  rw [h] at hreport
  cases hstatus : statusOf answer with
  | none =>
    rw [hstatus] at hreport
    cases hreport
  | some code =>
    refine ⟨code, rfl, ?_⟩
    by_contra hlt
    have hcode : code < 200 ∨ code > 204 := by omega
    rw [hstatus] at hreport
    simp only [if_pos hcode] at hreport
    split at hreport
    · cases hreport
    · cases hreport

theorem classifiedRun_copyOnto (src dest : Bytes) (s : List Exchange) :
    (∃ o exchanges, (do pure (reportOf (← client.copyOnto src dest)) :
      Prog GoError (List Exchange) Report).run s = (o, s ++ exchanges)) ∧
    ClassifiedRun (do pure (reportOf (← client.copyOnto src dest))) s := by
  have hclassified : ClassifiedRun (do pure (reportOf (← client.copyOnto src dest))) s := by
    cases hparse : NetUrl.parse client.strict (client.adminUrl src) with
    | none => exact classifiedRun_of_none (run_copyOnto_none hparse) _
    | some u =>
      rw [classifiedRun_of_one (run_copyOnto_some hparse)]
      exact classified_modified_missing _ _
  obtain ⟨o, exchanges, hrun, -⟩ := id hclassified
  exact ⟨⟨o, exchanges, hrun⟩, hclassified⟩

theorem classifies_copy_iff (src dest : Bytes) :
    client.Classifies (.copy src dest) history ↔ client.Reports history (.copy src dest) := by
  show ClassifiedRun (do pure (reportOf (← client.copy src dest))) history ↔
    ∀ u, NetUrl.parse client.strict (client.adminUrl dest) = some u →
      statusOf (client.server history (client.putting [] u)) ≠ some 404
  cases hparse : NetUrl.parse client.strict (client.adminUrl dest) with
  | none =>
    have hpanic : (client.put dest []).run history = _ := run_put_none hparse []
    exact iff_of_true (classifiedRun_of_none (run_bind_panicked (run_bind_panicked hpanic)) _)
      (by simp)
  | some u =>
    have hput : (client.put dest []).run history = _ := run_put_some hparse []
    cases hresult : modified false (ascii "Request failed. path=" ++ dest)
        "Expected StatusCreated, but got status code: "
        (client.server history (client.putting [] u)) with
    | error e =>
      rw [hresult] at hput
      rw [classifiedRun_of_one (run_copy_of_put_error hput), ← hresult, classified_modified_iff]
      simp
    | ok _ =>
      rw [hresult] at hput
      obtain ⟨code, hstatus, hcode⟩ := statusOf_of_modified_ok hresult
      obtain ⟨hgrows, hclassified⟩ := classifiedRun_copyOnto src dest
        (client.server.after history (client.putting [] u))
      have hthen : (do pure (reportOf (← client.copy src dest)) :
          Prog GoError (List Exchange) Report).run history =
          (do pure (reportOf (← client.copyOnto src dest)) :
            Prog GoError (List Exchange) Report).run
            (client.server.after history (client.putting [] u)) := by
        rw [run_bind, run_copy_of_put_ok hput, ← run_bind]
      rw [classifiedRun_after_iff hstatus hcode hthen hgrows]
      refine iff_of_true hclassified (fun v hv => ?_)
      cases hv
      rw [hstatus]
      exact fun h => absurd (Option.some.inj h) (by omega)

theorem classifies_iff_reports (call : WebDavCall) :
    client.Classifies call history ↔ client.Reports history call := by
  cases call with
  | existsBlob path => exact classifies_existsBlob_iff path
  | get path => exact classifies_get_iff path
  | getOrRedirect path => exact classifies_getOrRedirect_iff path
  | copy src dest => exact classifies_copy_iff src dest
  | delete path => exact classifies_delete_iff path
  | deleteDir pre => exact iff_of_true (classifies_deleteDir pre) trivial

end ServedClient

end BitsService
