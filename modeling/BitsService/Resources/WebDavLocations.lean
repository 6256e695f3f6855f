import BitsService.Blobstores.Decorators
import BitsService.Blobstores.WebDavReports
import BitsService.Resources.Downloads

/-! # Locations on a WebDAV server

A request for a blob is answered with the location that the server signs. A failure to sign one is
a text to the client, as a location is. -/
namespace BitsService
open GoLib.Effect
set_option autoImplicit false

/-! ## What is signed -/

namespace ServedClient

/-- The server answered with a URL, and the location is that URL on the public endpoint. -/
def SignedAs (client : ServedClient) (answer : Result HttpResponse) (location : Bytes) : Prop :=
  ∃ response content u p, answer = .ok response ∧ response.statusCode = 200 ∧
    response.body.readAll = .ok content ∧
    NetUrl.parseRequestURI client.strict content = some u ∧
    NetUrl.parseRequestURI client.strict client.webdavPublicEndpoint = some p ∧
    location = { u with host := p.host, scheme := ascii "http" }.text

/-- A 302 has the location that was signed, and when signing one failed the answer is an error. -/
def AnswersSigned (client : ServedClient) (history : List Exchange)
    (run : Outcome GoError Unit × Env (List Exchange)) : Prop :=
  ∃ exchanges, run.2.ext = history ++ exchanges ∧
    (clientStatus run = 302 → ∃ v answer location, (client.signing v, answer) ∈ exchanges ∧
      client.SignedAs answer location ∧
      run.2.response.headers = [(ascii "Location", location)]) ∧
    ∀ v answer, (client.signing v, answer) ∈ exchanges →
      (∀ location, ¬ client.SignedAs answer location) →
        400 ≤ clientStatus run ∧ clientStatus run < 600

/-- The server answers with a text, whatever it is. -/
def HandsOut (answer : Result HttpResponse) : Prop :=
  ∃ response content, answer = .ok response ∧ response.statusCode = 200 ∧
    response.body.readAll = .ok content

/-- When the blob is found and a location is asked for, one is handed out. -/
def SignsFound (client : ServedClient) (path : Bytes) (history : List Exchange) : Prop :=
  ∀ u, NetUrl.parse client.strict (client.url path) = some u →
    statusOf (client.server history (client.head u)) = some 200 →
      ∀ v, NetUrl.parse client.strict (client.signUrl path (ascii "get")
          (client.expiry (client.server.after history (client.head u)))) = some v →
        HandsOut (client.server (client.server.after history (client.head u)) (client.signing v))

/-! ## What is made of the response -/

section Signed
variable {client : ServedClient} {s : List Exchange} {answer : Result HttpResponse}

/-- Without a text from the server there is one from the client. -/
theorem run_signed_of_not_handsOut (h : ¬ HandsOut answer) :
    (∃ text, text ≠ [] ∧ (client.signed answer).run s = (.returned text, s)) ∧
      ∀ location, ¬ client.SignedAs answer location := by
  constructor
  · cases answer with
    | error e => exact ⟨_, by simp [ascii], rfl⟩
    | ok response =>
      unfold signed
      by_cases hok : response.statusCode = 200
      · simp only [hok, ne_eq, not_true_eq_false, if_false]
        cases hread : response.body.readAll with
        | error e => exact ⟨_, by simp [ascii], rfl⟩
        | ok content => exact absurd ⟨response, content, rfl, hok, hread⟩ h
      · simp only [ne_eq, hok, not_false_eq_true, if_true]
        exact ⟨_, by simp [ascii], rfl⟩
  · rintro location ⟨response, content, u, p, hanswer, hok, hread, -⟩
    exact h ⟨response, content, hanswer, hok, hread⟩

theorem text_ne_nil (u : NetUrl) (h : u.scheme ≠ []) : u.text ≠ [] := by
  unfold NetUrl.text
  rw [if_neg h]
  simp [h]

/-- With one, there is a location for it or a panic over it. -/
theorem run_signed_of_handsOut (h : HandsOut answer) :
    (∃ location, location ≠ [] ∧ (client.signed answer).run s = (.returned location, s) ∧
      client.SignedAs answer location) ∨
    ∃ e, (client.signed answer).run s = (.panicked e, s) := by
  obtain ⟨response, content, rfl, hok, hread⟩ := h
  unfold signed
  simp only [hok, ne_eq, not_true_eq_false, if_false, hread]
  unfold WebDavClient.publicUrl mustParse
  cases hu : NetUrl.parseRequestURI client.strict content with
  | none => exact .inr ⟨_, rfl⟩
  | some u =>
    cases hp : NetUrl.parseRequestURI client.strict client.webdavPublicEndpoint with
    | none => exact .inr ⟨_, rfl⟩
    | some p =>
      refine .inl ⟨_, text_ne_nil _ ?_, rfl, response, content, u, p, rfl, hok, hread, hu, hp, rfl⟩
      exact List.cons_ne_nil _ _

end Signed

/-! ## What `GetOrRedirect` comes to -/

/-- It ends without a location; or with one that was signed; or with a text that was not. -/
inductive Locates (client : ServedClient) (path : Bytes) (history : List Exchange) : Prop where
  | stopped (o : Outcome GoError (Result (Option Body × Bytes))) (exchanges : List Exchange)
      (run : (client.getOrRedirect path).run history = (o, history ++ exchanges))
      (ends : (∃ e, o = .panicked e) ∨ ∃ e, o = .returned (.error e))
      (signs : client.SignsFound path history)
  | signed (u v : NetUrl) (answer : Result HttpResponse) (location : Bytes)
      (run : (client.getOrRedirect path).run history = (.returned (.ok (none, location)), history ++
        [(client.head u, client.server history (client.head u)), (client.signing v, answer)]))
      (nonempty : location ≠ [])
      (sound : client.SignedAs answer location)
      (signs : client.SignsFound path history)
  | unsigned (u v : NetUrl) (answer : Result HttpResponse) (text : Bytes)
      (run : (client.getOrRedirect path).run history = (.returned (.ok (none, text)), history ++
        [(client.head u, client.server history (client.head u)), (client.signing v, answer)]))
      (nonempty : text ≠ [])
      (unsound : ∀ location, ¬ client.SignedAs answer location)
      (fails : ¬ client.SignsFound path history)

variable {client : ServedClient} {path : Bytes} {history : List Exchange} {u : NetUrl}

theorem signsFound_of_none (h : NetUrl.parse client.strict (client.url path) = none) :
    client.SignsFound path history := by
  intro u hu
  rw [h] at hu
  cases hu

theorem signsFound_of_status (h : NetUrl.parse client.strict (client.url path) = some u)
    (hstatus : statusOf (client.server history (client.head u)) ≠ some 200) :
    client.SignsFound path history := by
  intro u' hu' hfound
  rw [h] at hu'
  cases hu'
  exact absurd hfound hstatus

/-- For a blob that was found it is the signing that counts. -/
theorem signsFound_iff (h : NetUrl.parse client.strict (client.url path) = some u)
    (hstatus : statusOf (client.server history (client.head u)) = some 200) :
    client.SignsFound path history ↔ ∀ v, NetUrl.parse client.strict
        (client.signUrl path (ascii "get")
          (client.expiry (client.server.after history (client.head u)))) = some v →
      HandsOut (client.server (client.server.after history (client.head u))
        (client.signing v)) := by
  constructor
  · intro hsigns
    exact hsigns u h hstatus
  · intro hhands u' hu' _
    rw [h] at hu'
    cases hu'
    exact hhands

theorem locates_of_found (h : NetUrl.parse client.strict (client.url path) = some u)
    (hstatus : statusOf (client.server history (client.head u)) = some 200)
    (hfound : (client.getOrRedirect path).run history =
      (client.location path).run (client.server.after history (client.head u))) :
    client.Locates path history := by
  have hiff := signsFound_iff h hstatus
  cases hparse : NetUrl.parse client.strict (client.signUrl path (ascii "get")
      (client.expiry (client.server.after history (client.head u)))) with
  | none =>
    rw [run_location_panicked (run_sign_none hparse)] at hfound
    exact .stopped _ [(client.head u, client.server history (client.head u))] hfound
      (.inl ⟨_, rfl⟩) (hiff.mpr (by simp [hparse]))
  | some v =>
    have hsign : (client.sign path (ascii "get") (client.expiry (client.server.after history
        (client.head u)))).run (client.server.after history (client.head u)) = _ :=
      run_sign_some hparse
    have hafter : client.server.after (client.server.after history (client.head u))
        (client.signing v) = history ++ [(client.head u, client.server history (client.head u)),
          (client.signing v, client.server (client.server.after history (client.head u))
            (client.signing v))] := List.append_assoc _ _ _
    by_cases hhands : HandsOut (client.server (client.server.after history (client.head u))
        (client.signing v))
    · have hsigns : client.SignsFound path history := hiff.mpr (by
        intro v' hv'
        rw [hparse] at hv'
        cases hv'
        exact hhands)
      rcases run_signed_of_handsOut hhands with ⟨location, hne, hrun, hsound⟩ | ⟨e, hrun⟩
      · rw [hrun] at hsign
        rw [run_location_returned hsign, hafter] at hfound
        exact .signed u v _ location hfound hne hsound hsigns
      · rw [hrun] at hsign
        rw [run_location_panicked hsign, hafter] at hfound
        exact .stopped _ _ hfound (.inl ⟨e, rfl⟩) hsigns
    · obtain ⟨⟨text, hne, hrun⟩, hunsound⟩ := run_signed_of_not_handsOut hhands
      rw [hrun] at hsign
      rw [run_location_returned hsign, hafter] at hfound
      exact .unsigned u v _ text hfound hne hunsound fun hsigns => hhands (hiff.mp hsigns v hparse)

variable (client path history) in
theorem locates : client.Locates path history := by
  cases hparse : NetUrl.parse client.strict (client.url path) with
  | none =>
    have hrun : (client.getOrRedirect path).run history = _ := run_ifFound_none hparse
    have hnothing : history = history ++ [] := (List.append_nil history).symm
    exact .stopped _ [] (hrun.trans (congrArg (Prod.mk _) hnothing)) (.inl ⟨_, rfl⟩)
      (signsFound_of_none hparse)
  | some u =>
    have hrun : (client.getOrRedirect path).run history = _ := run_ifFound_some hparse
    cases hanswer : client.server history (client.head u) with
    | error e =>
      rw [hanswer] at hrun
      refine .stopped _ _ hrun (.inr ⟨_, rfl⟩) (signsFound_of_status hparse ?_)
      rw [hanswer]
      simp [statusOf, Except.toOption]
    | ok response =>
      rw [hanswer] at hrun
      simp only at hrun
      by_cases hfound : response.statusCode = 200
      · rw [if_pos hfound] at hrun
        refine locates_of_found hparse ?_ hrun
        rw [hanswer, ← hfound]
        rfl
      · rw [if_neg hfound] at hrun
        refine .stopped _ _ hrun (.inr ⟨_, rfl⟩) (signsFound_of_status hparse ?_)
        rw [hanswer]
        exact fun h => hfound (Option.some.inj h)

end ServedClient

/-! ## The answer -/

/-- `m` answers with what `GetOrRedirect` comes to. -/
structure Redirects (client : ServedClient) (path : Bytes)
    (m : Prog GoError (Env (List Exchange)) Unit) : Prop where
  panicked : ∀ w {e s}, (client.getOrRedirect path).run w.ext = (.panicked e, s) →
    m.run w = (.panicked e, { w with ext := s })
  error : ∀ w {e s}, (client.getOrRedirect path).run w.ext = (.returned (.error e), s) →
    ∃ digests ifNoneModify, m.run w =
      (writeResponseBasedOn digests [] (some e) 200 none none ifNoneModify).run { w with ext := s }
  located : ∀ w {location s}, (client.getOrRedirect path).run w.ext =
      (.returned (.ok (none, location)), s) → location ≠ [] →
    m.run w = (redirect location).run { w with ext := s }

section Answers
variable {client : ServedClient} {path : Bytes} {m : Prog GoError (Env (List Exchange)) Unit}

theorem writeResponseBasedOn_location (digests : Digests) {location : Bytes} (h : location ≠ [])
    (ifNoneModify : Bytes) :
    (writeResponseBasedOn digests location none 200 none none ifNoneModify :
      Prog GoError (Env (List Exchange)) Unit) = redirect location := by
  unfold writeResponseBasedOn
  simp only [if_pos h]

theorem ext_writeResponseBasedOn_error (digests : Digests) (e : GoError) (ifNoneModify : Bytes)
    (w : Env (List Exchange)) : ((writeResponseBasedOn digests [] (some e) 200 none none
      ifNoneModify).run w).2.ext = w.ext := by
  have hkept : KeptByAnswers fun w' : Env (List Exchange) => w'.ext = w.ext :=
    keptByAnswers_of_blind fun _ _ h => h
  exact hkept.writeResponseBasedOn digests [] (some e) 200 none none (by simp) (by simp)
    ifNoneModify w rfl

theorem signing_ne_head (client : ServedClient) (u v : NetUrl) :
    client.signing v ≠ client.head u := by
  intro h
  have hmethod : ascii "GET" = ascii "HEAD" := congrArg HttpRequest.method h
  exact absurd hmethod (by decide)

/-- What was answered to the one request for a signature. -/
theorem answer_of_mem {u v v' : NetUrl} {a answer answer' : Result HttpResponse}
    (h : (client.signing v', answer') ∈ [(client.head u, a), (client.signing v, answer)]) :
    answer' = answer := by
  rcases List.mem_pair.mp h with h | h
  · exact absurd (Prod.mk.inj h).1 (signing_ne_head client u v')
  · exact (Prod.mk.inj h).2

/-- An answer is right exactly when a location is handed out for a blob that is found. -/
theorem answersSigned_iff_of_redirects (hm : Redirects client path m) (host : Host)
    (history : List Exchange) :
    client.AnswersSigned history (m.run ⟨host, history, .empty⟩) ↔
      client.SignsFound path history := by
  cases client.locates path history with
  | stopped o exchanges run ends signs =>
    refine iff_of_true ?_ signs
    have hanswer : (m.run ⟨host, history, .empty⟩).2.ext = history ++ exchanges ∧
        clientStatus (m.run ⟨host, history, .empty⟩) ∈ [404, 500, 507] := by
      rcases ends with ⟨e, rfl⟩ | ⟨e, rfl⟩
      · rw [hm.panicked ⟨host, history, .empty⟩ run]
        exact ⟨rfl, .tail _ (.head _)⟩
      · obtain ⟨digests, ifNoneModify, hrun⟩ := hm.error ⟨host, history, .empty⟩ run
        rw [hrun]
        exact ⟨ext_writeResponseBasedOn_error _ _ _ _,
          (refused_of_error digests e ifNoneModify rfl).1⟩
    obtain ⟨hext, hstatus⟩ := hanswer
    refine ⟨exchanges, hext, fun h302 => ?_, fun v answer _ _ => ?_⟩
    · rw [h302] at hstatus
      exact absurd hstatus (by decide)
    · simp only [List.mem_cons, List.not_mem_nil, or_false] at hstatus
      omega
  | signed u v answer location run nonempty sound signs =>
    refine iff_of_true ?_ signs
    rw [hm.located ⟨host, history, .empty⟩ run nonempty]
    refine ⟨_, rfl, fun _ => ⟨v, answer, location, by simp, sound, rfl⟩,
      fun v' answer' hmem h => ?_⟩
    rw [answer_of_mem hmem] at h
    exact absurd sound (h location)
  | unsigned u v answer text run nonempty unsound fails =>
    refine iff_of_false ?_ fails
    rw [hm.located ⟨host, history, .empty⟩ run nonempty]
    rintro ⟨exchanges, hext, -, hfails⟩
    obtain rfl := List.append_cancel_left hext
    have hstatus : 400 ≤ 302 := (hfails v answer (by simp) unsound).1
    exact absurd hstatus (by decide)

end Answers

/-! ## The handler -/

/-- The handler with a WebDAV store, behind decorators that rewrite the path. -/
def ResourceHandler.onWebDav (handler : ResourceHandler (List Exchange)) (client : ServedClient)
    (rewrite rewriteDir : Bytes → Bytes) : ResourceHandler (List Exchange) :=
  { handler with blobstore := client.toBlobstore.rewriting rewrite rewriteDir }

section Handler
variable (formats : Formats) (handler : ResourceHandler (List Exchange)) (client : ServedClient)
  (rewrite rewriteDir : Bytes → Bytes) (request : Request) (identifier : Bytes)

theorem redirects_getResource : Redirects client (rewrite identifier)
    (getResource formats (handler.onWebDav client rewrite rewriteDir) request identifier) where
  panicked w e s h := by
    refine run_bind_panicked ?_
    rw [run_onExt]
    exact congrArg (fun run => (run.1, { w with ext := run.2 })) h
  error w e s h := ⟨formats.digests, request.header (ascii "If-None-Modify"),
    run_getResource_error formats request h⟩
  located w location s h hne := by
    have hext : (onExt (client.getOrRedirect (rewrite identifier))).run w =
        (.returned (.ok (none, location)), { w with ext := s }) := by rw [run_onExt, h]
    refine (run_bind_returned hext).trans ?_
    rw [← writeResponseBasedOn_location formats.digests hne
      (request.header (ascii "If-None-Modify"))]
    rfl

theorem redirects_headOrRedirectAsGet : Redirects client (rewrite identifier)
    (headOrRedirectAsGet formats (handler.onWebDav client rewrite rewriteDir) identifier) where
  panicked w e s h := by
    have hhead : (client.headOrRedirectAsGet (rewrite identifier)).run w.ext =
        (.panicked e, s) := run_bind_panicked h
    refine run_bind_panicked ?_
    rw [run_onExt]
    exact congrArg (fun run => (run.1, { w with ext := run.2 })) hhead
  error w e s h := by
    have hhead : (client.headOrRedirectAsGet (rewrite identifier)).run w.ext =
        (.returned (.error e), s) := run_orReturn_error h
    have hext : (onExt (client.headOrRedirectAsGet (rewrite identifier))).run w =
        (.returned (.error e), { w with ext := s }) := by rw [run_onExt, hhead]
    exact ⟨formats.digests, [], (run_bind_returned hext).trans rfl⟩
  located w location s h hne := by
    have hhead : (client.headOrRedirectAsGet (rewrite identifier)).run w.ext =
        (.returned (.ok location), s) := run_orReturn_ok h
    have hext : (onExt (client.headOrRedirectAsGet (rewrite identifier))).run w =
        (.returned (.ok location), { w with ext := s }) := by rw [run_onExt, hhead]
    refine (run_bind_returned hext).trans ?_
    rw [← writeResponseBasedOn_location formats.digests hne []]
    rfl

/-- Both requests for a blob are answered with signed locations and errors only, exactly when the
server hands out a location for a blob that it has. -/
theorem answersSigned_iff (host : Host) (history : List Exchange) :
    (client.AnswersSigned history
        ((getResource formats (handler.onWebDav client rewrite rewriteDir) request
          identifier).run ⟨host, history, .empty⟩) ↔
      client.SignsFound (rewrite identifier) history) ∧
    (client.AnswersSigned history
        ((headOrRedirectAsGet formats (handler.onWebDav client rewrite rewriteDir)
          identifier).run ⟨host, history, .empty⟩) ↔
      client.SignsFound (rewrite identifier) history) :=
  ⟨answersSigned_iff_of_redirects (redirects_getResource formats handler client rewrite rewriteDir
      request identifier) host history,
    answersSigned_iff_of_redirects (redirects_headOrRedirectAsGet formats handler client rewrite
      rewriteDir identifier) host history⟩

end Handler

/-- It has the blob, and fails to sign a location for it. -/
def failingSigner : HttpServer := fun _ request =>
  if request.method = ascii "HEAD" then .ok ⟨200, ascii "200 OK", .whole []⟩
  else .ok ⟨500, ascii "500 Internal Server Error", .whole []⟩

/-- The text of the error is the location. -/
theorem not_answersSigned_failing :
    ¬ (davClient failingSigner).AnswersSigned [] ((headOrRedirectAsGet plainFormats
      ((newResourceHandler (davClient failingSigner).toBlobstore
        (davClient failingSigner).toBlobstore.toNoRedirectBlobstore (ascii "droplet") 0).onWebDav
          (davClient failingSigner) id id) (ascii "guid")).run (.fresh [])) := by
  intro h
  have hsigns := (answersSigned_iff_of_redirects (redirects_headOrRedirectAsGet _ _ _ id id
    (ascii "guid")) _ []).mp h
  obtain ⟨u, hu⟩ : ∃ u, NetUrl.parse false (ascii "http://dav/guid") = some u := ⟨_, rfl⟩
  obtain ⟨v, hv⟩ : ∃ v, NetUrl.parse false ((davClient failingSigner).signUrl (ascii "guid")
      (ascii "get") oneHour) = some v := ⟨_, rfl⟩
  obtain ⟨response, content, hanswer, hok, -⟩ := hsigns u hu rfl v hv
  cases hanswer
  cases hok

end BitsService
