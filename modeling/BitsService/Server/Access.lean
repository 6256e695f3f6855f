import BitsService.Server.Main

/-! # Who gets through

A request that the server refuses changes nothing, and is answered with what it says itself. On the
public host only paths are served whose URL someone with credentials has asked for, for as long as
no signature is made up. -/
namespace BitsService
open GoLib.Effect GoLib.OperationRuns
set_option autoImplicit false

variable {σ : Type}

/-! ## Refused requests -/

namespace Server
variable (server : Server σ)

def lists (request : Request) : Bool :=
  request.basicAuth.any fun (username, password) =>
    decide (⟨username, password⟩ ∈ server.credentials)

/-- The request came to the private host, with credentials if it asks for a URL, or to the public
host with a signed URL that has not expired. -/
def authorises (arrival : Arrival) : Bool :=
  if server.mux.matchHost server.privateHost arrival.request.host then
    (routeSign server.mux.toMux arrival.request.routed).isNone ||
      server.lists arrival.request.toRequest
  else server.mux.matchHost server.publicHost arrival.request.host &&
    server.validator.admits arrival.now arrival.request.url

def refusal (arrival : Arrival) : Response :=
  let request := arrival.request
  if request.isMultipart && !request.form.isOk then ⟨some 500, [], []⟩
  else if server.mux.redirects request.url.path then
    ⟨some 301, [(ascii "Location", server.mux.cleanLocation request.url)], []⟩
  else if server.mux.matchHost server.privateHost request.host then ⟨some 401, [], []⟩
  else if server.mux.matchHost server.publicHost request.host then ⟨some 403, [], []⟩
  else ⟨some 400, [], [.description none
    (ascii "Invalid host '%v'. External clients should use hostname '%v.'")
    [request.host, server.publicHost]]⟩

end Server

theorem Server.lists_iff (server : Server σ) (request : Request) :
    server.lists request = true ↔ ∃ username password,
      request.basicAuth = some (username, password) ∧
        ⟨username, password⟩ ∈ server.credentials := by
  unfold Server.lists
  cases request.basicAuth with
  | none => simp
  | some given =>
    obtain ⟨username, password⟩ := given
    simp only [Option.any_some, decide_eq_true_eq]
    constructor
    · exact fun hmem => ⟨username, password, rfl, hmem⟩
    · rintro ⟨_, _, hsame, hmem⟩
      cases hsame
      exact hmem

theorem authorized_eq_lists (server : Server σ) {request : Request} {username password : Bytes}
    (h : request.basicAuth = some (username, password)) :
    (newBasicAuthMiddleWare (σ := σ) server.credentials).authorized username password =
      server.lists request := by
  rw [Bool.eq_iff_iff]
  simp only [Server.lists, h, Option.any_some, BasicAuthMiddleware.authorized,
    newBasicAuthMiddleWare, List.any_eq_true, Bool.and_eq_true, beq_iff_eq, decide_eq_true_eq]
  constructor
  · rintro ⟨credential, hmem, rfl, rfl⟩
    exact hmem
  · exact fun hmem => ⟨_, hmem, rfl, rfl⟩

/-- Without the right credentials, only the answer is written. -/
theorem serveHTTP_of_not_lists (server : Server σ) {request : Request}
    (h : server.lists request = false) (next : HttpHandler σ) :
    (newBasicAuthMiddleWare server.credentials).serveHTTP request next = writeHeader 401 := by
  unfold BasicAuthMiddleware.serveHTTP
  cases hauth : request.basicAuth with
  | none => rfl
  | some given =>
    obtain ⟨username, password⟩ := given
    have hnot := authorized_eq_lists server hauth
    simp only [hnot, h, Bool.false_eq_true, if_false]
    rfl

theorem serveHTTP_of_lists (server : Server σ) {request : Request}
    (h : server.lists request = true) (next : HttpHandler σ) :
    (newBasicAuthMiddleWare server.credentials).serveHTTP request next = next request := by
  unfold BasicAuthMiddleware.serveHTTP
  cases hauth : request.basicAuth with
  | none => simp [Server.lists, hauth] at h
  | some given =>
    obtain ⟨username, password⟩ := given
    have hlisted := authorized_eq_lists server hauth
    simp only [hlisted, h, if_true]

/-- What the router does with a request that is not authorised. -/
theorem run_rootRouter_of_not_authorises (server : Server σ) {arrival : Arrival}
    (h : server.authorises arrival = false)
    (hform : (arrival.request.isMultipart && !arrival.request.form.isOk) = false)
    (process : Process σ) :
    (server.rootRouter arrival.now arrival.request).run ⟨process.1, process.2, .empty⟩ =
      (.returned (), ⟨process.1, process.2, server.refusal arrival⟩) := by
  unfold Server.rootRouter Server.refusal
  simp only [hform, Bool.false_eq_true, if_false]
  by_cases hredirect : server.mux.redirects arrival.request.url.path = true
  · rw [if_pos hredirect, if_pos hredirect]
    rfl
  rw [if_neg hredirect, if_neg hredirect]
  unfold Server.authorises at h
  by_cases hprivate : server.mux.matchHost server.privateHost arrival.request.host = true
  · rw [if_pos hprivate, Bool.or_eq_false_iff, Option.isNone_eq_false_iff] at h
    obtain ⟨resource, hsign⟩ := Option.isSome_iff_exists.mp h.1
    rw [if_pos hprivate, if_pos hprivate, Server.internalRouter]
    simp only [hsign]
    rw [serveHTTP_of_not_lists server h.2]
    rfl
  rw [if_neg hprivate] at h
  rw [if_neg hprivate, if_neg hprivate]
  by_cases hpublic : server.mux.matchHost server.publicHost arrival.request.host = true
  · rw [hpublic, Bool.true_and] at h
    rw [if_pos hpublic, if_pos hpublic, Server.publicRouter,
      signatureVerification_of_not_admits h]
    rfl
  · rw [if_neg hpublic, if_neg hpublic]
    rfl

theorem sent_refusal (server : Server σ) (arrival : Arrival) :
    (server.refusal arrival).sent = server.refusal arrival := by
  unfold Server.refusal
  simp only
  split
  · rfl
  split
  · rfl
  split
  · rfl
  split
  · rfl
  · rfl

theorem Server.step_of_not_authorises (server : Server σ) {arrival : Arrival}
    (h : server.authorises arrival = false) (process : Process σ) :
    server.step arrival process = (server.refusal arrival, process) := by
  rw [← sent_refusal]
  cases hform : arrival.request.isMultipart && !arrival.request.form.isOk with
  | true =>
    refine answer_of_run ?_
    rw [Bool.and_eq_true, Bool.not_eq_true'] at hform
    have hrefusal : server.refusal arrival = ⟨some 500, [], []⟩ := by
      simp [Server.refusal, hform.1, hform.2]
    unfold Server.serve multipartMiddleware
    rw [if_pos hform.1, hrefusal]
    cases hparsed : arrival.request.form with
    | ok form => simp [hparsed] at hform
    | error e => rfl
  | false =>
    have hrun := run_rootRouter_of_not_authorises server h hform process
    refine answer_of_run ?_
    rw [Server.serve, run_multipartMiddleware_ok hform]
    exact run_panicMiddleware_returned hrun

/-- **Refused requests are not noticed, and notice nothing**: a run leaves behind what the run of
its authorised requests leaves behind, with the same answers to these, and answers every other
request with what that request says itself. -/
theorem Server.run_eq_run_authorised (server : Server σ) (arrivals : List Arrival)
    (process : Process σ) :
    runAll server.step arrivals process =
      (withRefusals server.authorises server.refusal arrivals
          (runAll server.step (arrivals.filter server.authorises) process).1,
        (runAll server.step (arrivals.filter server.authorises) process).2) :=
  runAll_eq_withRefusals (fun _ process h => server.step_of_not_authorises h process) arrivals
    process

end BitsService
