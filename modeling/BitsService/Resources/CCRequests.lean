import BitsService.Foundations.HttpEndpoint
import BitsService.Resources.CCUpdater
import BitsService.Server.Routes

/-! # What the Cloud Controller is asked

The GUID of a package goes into the URL of a notification as it is. -/
namespace BitsService
open GoLib.Effect NetUrl
set_option autoImplicit false

/-! ## Requests -/

def isTokenByte (c : UInt8) : Bool := isAlphanumeric c || c ∈ ascii "!#$%&'*+-.^_`|~"

def validMethod (method : Bytes) : Bool := method ≠ [] && method.all isTokenByte

/-- `http.NewRequest`, which takes an empty method for `GET`. -/
def httpNewRequest (strict : Bool) (method url : Bytes) : Bool :=
  (method = [] || validMethod method) && (parse strict url).isSome

/-- `createUpdater` for a Cloud Controller that answers by script. The method is fixed by the
configuration. -/
def createUpdater (strict : Bool) (endpoint : Bytes) : CCUpdater CloudController :=
  ⟨scriptedClient, endpoint, ascii "PATCH", httpNewRequest strict⟩

theorem httpClient_createUpdater (strict : Bool) (endpoint : Bytes) :
    (createUpdater strict endpoint).httpClient = scriptedClient := rfl

theorem newRequest_createUpdater (strict : Bool) (endpoint url : Bytes) :
    (createUpdater strict endpoint).newRequest (createUpdater strict endpoint).method url =
      (parse strict url).isSome := by
  have hmethod : validMethod (ascii "PATCH") = true := by decide
  show ((ascii "PATCH" = [] || validMethod (ascii "PATCH")) && (parse strict url).isSome) = _
  rw [hmethod, Bool.or_true, Bool.true_and]

/-! ## What a notification does -/

section Update
variable {updater : CCUpdater CloudController} (hclient : updater.httpClient = scriptedClient)
  {guid : Bytes}
include hclient

/-- Whatever the answer, the request was sent once. -/
theorem run_update_sent (hnew : updater.newRequest updater.method (updater.url guid) = true)
    (p : CCPayload) (c : CloudController) :
    ∃ result, (updater.update guid p).run c = (.returned result, ⟨c.answers.tail,
      c.exchanges ++ [(⟨updater.method, updater.url guid, p⟩, c.answer)]⟩) := by
  have hsend : (updater.httpClient.send ⟨updater.method, updater.url guid, p⟩).run c =
      (.returned c.answer, ⟨c.answers.tail,
        c.exchanges ++ [(⟨updater.method, updater.url guid, p⟩, c.answer)]⟩) := by
    rw [hclient]
    rfl
  rw [CCUpdater.update, if_pos hnew, run_bind_returned hsend]
  cases c.answer with
  | error e => exact ⟨_, rfl⟩
  | ok statusCode =>
    simp only
    by_cases h404 : statusCode = 404
    · simp only [if_pos h404]
      exact ⟨_, rfl⟩
    by_cases h422 : statusCode = 422
    · simp only [if_neg h404, if_pos h422]
      exact ⟨_, rfl⟩
    · simp only [if_neg h404, if_neg h422]
      exact ⟨_, rfl⟩

omit hclient in
/-- The process ends before anything is sent. -/
theorem run_update_exit (hnew : updater.newRequest updater.method (updater.url guid) = false)
    (p : CCPayload) (c : CloudController) :
    (updater.update guid p).run c = (.panicked (.sys (ascii "exit status 1")), c) := by
  rw [CCUpdater.update, if_neg (by rw [hnew]; exact Bool.false_ne_true)]
  rfl

end Update

/-! ## The path that is notified -/

theorem rdropWhile_append_of_last {l : Bytes} {p : UInt8 → Bool} (h : l.rdropWhile p = l)
    (m : Bytes) : (l ++ m).rdropWhile p = l ++ m.rdropWhile p := by
  induction m using List.reverseRecOn with
  | nil => rw [List.append_nil, h, List.rdropWhile_nil, List.append_nil]
  | append_singleton m c ih =>
    by_cases hc : p c = true
    · rw [← List.append_assoc, List.rdropWhile_concat_pos p _ c hc,
        List.rdropWhile_concat_pos p _ c hc, ih]
    · rw [← List.append_assoc, List.rdropWhile_concat_neg p _ c hc,
        List.rdropWhile_concat_neg p _ c hc, List.append_assoc]

namespace HttpEndpoint
variable (e : HttpEndpoint) (strict : Bool)

/-- The path of the endpoint without its trailing slashes. -/
def trimmedPath : Bytes := e.path.rdropWhile (· == slash)

theorem trimmedPath_prefix : e.trimmedPath <+: e.path := List.rdropWhile_prefix _ _

theorem mem_of_mem_trimmed {c : UInt8} (h : c ∈ e.authority ++ e.trimmedPath) :
    c ∈ e.authority ++ e.path := by
  rcases List.mem_append.mp h with h | h
  · exact List.mem_append_left _ h
  · exact List.mem_append_right _ (e.trimmedPath_prefix.subset h)

theorem trimmedPath_slash : e.trimmedPath = [] ∨ e.trimmedPath.head? = some slash := by
  obtain ⟨slashes, hpath⟩ := e.trimmedPath_prefix
  cases htrimmed : e.trimmedPath with
  | nil => exact .inl rfl
  | cons c path =>
    right
    rcases e.path_slash with hnil | hhead
    · rw [← hpath, htrimmed] at hnil
      cases hnil
    · rw [← hpath, htrimmed] at hhead
      exact hhead

def trimmed : HttpEndpoint where
  letter := e.letter
  scheme := e.scheme
  authority := e.authority
  path := e.trimmedPath
  letter_isLetter := e.letter_isLetter
  scheme_bytes := e.scheme_bytes
  authority_parses := e.authority_parses
  authority_ne := e.authority_ne
  authority_slash := e.authority_slash
  path_slash := e.trimmedPath_slash
  plain := ⟨fun h => e.plain.1 (e.mem_of_mem_trimmed h),
    fun h => e.plain.2.1 (e.mem_of_mem_trimmed h), fun h => e.plain.2.2 (e.mem_of_mem_trimmed h)⟩
  not_control c hc := e.not_control c (e.mem_of_mem_trimmed hc)

/-- The host stands before the path, so that no slash of the scheme is trimmed. -/
theorem rdropWhile_text : e.text.rdropWhile (· == slash) = e.trimmed.text := by
  have hlast : (e.letter :: (e.scheme ++ ascii "://" ++ e.authority)).rdropWhile (· == slash) =
      e.letter :: (e.scheme ++ ascii "://" ++ e.authority) := by
    rw [List.rdropWhile_eq_self_iff]
    intro hne
    have hmem := List.getLast_mem e.authority_ne
    rw [List.getLast_cons (by simp [e.authority_ne]),
      List.getLast_append_of_ne_nil _ e.authority_ne]
    have hslash : e.authority.getLast e.authority_ne ≠ slash := fun h =>
      e.authority_slash (h ▸ hmem)
    simpa using hslash
  have happend := rdropWhile_append_of_last hlast e.path
  simpa [text, trimmed, trimmedPath] using happend

theorem url_createUpdater (guid : Bytes) :
    (createUpdater strict e.text).url guid = e.trimmed.text ++ slash :: guid :=
  congrArg (· ++ slash :: guid) e.rdropWhile_text

end HttpEndpoint

/-! ## Notifying a package -/

/-- Whatever is answered, the notification returns, after one request with the state, for the
package below the path. -/
def NotifiesOf (strict : Bool) (path guid : Bytes) (state : String)
    (notify : Prog GoError CloudController (Result Unit)) : Prop :=
  ∀ c, ∃ result request u,
    notify.run c = (.returned result, ⟨c.answers.tail, c.exchanges ++ [(request, c.answer)]⟩) ∧
    request.payload.state = ascii state ∧
    parse strict request.url = some u ∧ u.path = path ++ slash :: guid

/-- Every notification of a package is one request for it, and none ends the process. -/
def NotifiesPackage (strict : Bool) (e : HttpEndpoint) (guid : Bytes) : Prop :=
  NotifiesOf strict e.trimmedPath guid "PROCESSING_UPLOAD"
    ((createUpdater strict e.text).notifyProcessingUpload guid) ∧
  (∀ sha1 sha256, NotifiesOf strict e.trimmedPath guid "READY"
    ((createUpdater strict e.text).notifyUploadSucceeded guid sha1 sha256)) ∧
  ∀ error, NotifiesOf strict e.trimmedPath guid "FAILED"
    ((createUpdater strict e.text).notifyUploadFailed guid error)

section Notify
variable {strict : Bool} {e : HttpEndpoint} {guid : Bytes}

theorem notifiesOf_update (h : e.trimmed.NamesPath strict guid) {p : CCPayload} {state : String}
    (hstate : p.state = ascii state) :
    NotifiesOf strict e.trimmedPath guid state ((createUpdater strict e.text).update guid p) := by
  intro c
  obtain ⟨u, hu, hpath⟩ := h
  have hurl := e.url_createUpdater strict guid
  have hnew : (createUpdater strict e.text).newRequest (createUpdater strict e.text).method
      ((createUpdater strict e.text).url guid) = true := by
    rw [newRequest_createUpdater, hurl, hu]
    rfl
  obtain ⟨result, hrun⟩ := run_update_sent (httpClient_createUpdater strict e.text) hnew p c
  exact ⟨result, _, u, hrun, hstate, by rw [hurl]; exact hu, hpath⟩

theorem namesPath_of_notifiesOf {p : CCPayload} {state : String}
    (h : NotifiesOf strict e.trimmedPath guid state
      ((createUpdater strict e.text).update guid p)) : e.trimmed.NamesPath strict guid := by
  obtain ⟨result, request, u, hrun, -, hu, hpath⟩ := h ⟨[], []⟩
  by_cases hnew : (createUpdater strict e.text).newRequest (createUpdater strict e.text).method
      ((createUpdater strict e.text).url guid) = true
  · obtain ⟨result', hrun'⟩ :=
      run_update_sent (httpClient_createUpdater strict e.text) hnew p ⟨[], []⟩
    rw [hrun'] at hrun
    cases hrun
    exact ⟨u, by rw [← e.url_createUpdater]; exact hu, hpath⟩
  · rw [run_update_exit (by simpa using hnew) p ⟨[], []⟩] at hrun
    cases hrun

end Notify

/-- A package is notified as it should be exactly when its GUID has none of the bytes that end a
path or begin an escape, and none that the parser rejects. -/
theorem notifiesPackage_iff (e : HttpEndpoint) (strict : Bool) (guid : Bytes) :
    NotifiesPackage strict e guid ↔ PathPlain guid ∧ HttpEndpoint.Accepted strict guid := by
  have hnames : e.trimmed.NamesPath strict guid ↔
      PathPlain guid ∧ HttpEndpoint.Accepted strict guid := e.trimmed.namesPath_iff strict guid
  rw [← hnames]
  constructor
  · intro h
    exact namesPath_of_notifiesOf h.1
  · intro h
    exact ⟨notifiesOf_update h rfl, fun _ _ => notifiesOf_update h rfl,
      fun _ => notifiesOf_update h rfl⟩

/-! ## A GUID that ends the process -/

def ccEndpoint : HttpEndpoint where
  letter := 104
  scheme := ascii "ttp"
  authority := ascii "cc"
  path := ascii "/internal/v4/packages/"
  letter_isLetter := isLetter_h
  scheme_bytes := isSchemeByte_ttp
  authority_parses := by decide
  authority_ne := by decide
  authority_slash := by decide
  path_slash := by decide
  plain := by
    unfold PathPlain
    decide
  not_control := forall_mem_of_all (by decide)

/-- An upload to `/packages/%25zz`. -/
def percentUpload : Option RoutedRequest :=
  (BitsService.parseRequestURI (ascii "/packages/%25zz")).map fun url => ⟨.put, url, true⟩

theorem not_notifiesPackage_percent :
    percentUpload.bind (routeRequest documentedMux) =
      some (.resource .package .addOrReplace, ascii "%zz") ∧
    ¬ NotifiesPackage false ccEndpoint (ascii "%zz") ∧
    ((createUpdater false ccEndpoint.text).notifyProcessingUpload (ascii "%zz")).run ⟨[], []⟩ =
      (.panicked (.sys (ascii "exit status 1")), ⟨[], []⟩) := by
  refine ⟨by decide, fun h => ?_, run_update_exit (by decide) _ _⟩
  have hplain := ((ccEndpoint.trimmed.namesPath_iff false _).mp (namesPath_of_notifiesOf h.1)).1
  exact hplain.1 (by decide)

end BitsService
