import BitsService.Foundations.Url
import BitsService.Lib.Base64
import BitsService.Server.Http

/-! # Basic authentication

The middleware before the handlers that sign URLs. A request without credentials and one with wrong
credentials are answered with 401, or by a handler that was set for them. -/
namespace BitsService
open GoLib GoLib.Effect
set_option autoImplicit false

/-! ## The header -/

/-- `base64.StdEncoding.DecodeString`, which passes over line breaks. -/
def base64DecodeString (s : Bytes) : Option Bytes :=
  Base64.decodeStrict (s.filter fun c => c != 10 && c != 13)

def lowerByte (c : UInt8) : UInt8 := if 65 ≤ c ∧ c ≤ 90 then c + 32 else c

def parseBasicAuth (auth : Bytes) : Option (Bytes × Bytes) :=
  if (auth.take 6).map lowerByte ≠ ascii "basic " then none
  else (base64DecodeString (auth.drop 6)).bind fun cs =>
    match cutAt 58 cs with
    | (username, some password) => some (username, password)
    | (_, none) => none

def Request.basicAuth (request : Request) : Option (Bytes × Bytes) :=
  if request.header (ascii "Authorization") = [] then none
  else parseBasicAuth (request.header (ascii "Authorization"))

/-! ## The middleware -/

structure Credential where
  username : Bytes
  password : Bytes
  deriving DecidableEq

abbrev HttpHandler (σ : Type) : Type := Request → Prog GoError (Env σ) Unit

structure BasicAuthMiddleware (σ : Type) where
  credentials : List Credential
  basicAuthHeaderMissingHandler : Option (HttpHandler σ)
  unauthorizedHandler : Option (HttpHandler σ)

variable {σ : Type}

namespace BasicAuthMiddleware
variable (middleware : BasicAuthMiddleware σ)

def authorized (username password : Bytes) : Bool :=
  middleware.credentials.any fun credential =>
    username == credential.username && password == credential.password

/-- The handler for wrong credentials is not the last one to be called. -/
def serveHTTP (request : Request) (next : HttpHandler σ) : Prog GoError (Env σ) Unit :=
  match request.basicAuth with
  | none =>
    match middleware.basicAuthHeaderMissingHandler with
    | none => writeHeader 401
    | some handler => handler request
  | some (username, password) =>
    if middleware.authorized username password then next request
    else
      match middleware.unauthorizedHandler with
      | none => writeHeader 401
      | some handler => do
        handler request
        next request

end BasicAuthMiddleware

/-! ## The gate -/

inductive Invocation where
  | next
  | basicAuthHeaderMissing
  | unauthorized
  deriving DecidableEq

/-- The part of a process that is all but its log of invocations. -/
def unloggedPart (σ : Type) : Part (Env (σ × List Invocation)) (Env σ) :=
  ⟨fun w => ⟨w.host, w.ext.1, w.response⟩, fun w v => ⟨v.host, (v.ext, w.ext.2), v.response⟩,
    fun _ _ => rfl, fun _ => rfl⟩

/-- The handler, with its invocation on the log. -/
def HttpHandler.logged (invocation : Invocation) (handler : HttpHandler σ) :
    HttpHandler (σ × List Invocation) := fun request => do
  modifyState fun w => { w with ext := (w.ext.1, w.ext.2 ++ [invocation]) }
  zoom (unloggedPart σ) (handler request)

namespace BasicAuthMiddleware
variable (middleware : BasicAuthMiddleware σ)

def logged : BasicAuthMiddleware (σ × List Invocation) where
  credentials := middleware.credentials
  basicAuthHeaderMissingHandler :=
    middleware.basicAuthHeaderMissingHandler.map (HttpHandler.logged .basicAuthHeaderMissing)
  unauthorizedHandler :=
    middleware.unauthorizedHandler.map (HttpHandler.logged .unauthorized)

/-- The request has credentials, and they are among those that are configured. -/
def Admits (request : Request) : Prop :=
  ∃ username password, request.basicAuth = some (username, password) ∧
    ⟨username, password⟩ ∈ middleware.credentials

/-- What a request without credentials, or with wrong ones, is to be given to. -/
def rejection (request : Request) : Option Invocation :=
  match request.basicAuth with
  | none => middleware.basicAuthHeaderMissingHandler.map fun _ => .basicAuthHeaderMissing
  | some _ => middleware.unauthorizedHandler.map fun _ => .unauthorized

/-- The handler behind the middleware is invoked for the requests that are admitted, and for no
other; those are answered with 401, or given to the one handler that is set for them. -/
def Gates (request : Request) (next : HttpHandler σ) (host : Host) (s : σ) : Prop :=
  let w := ((middleware.logged.serveHTTP request (next.logged .next)).run
    ⟨host, (s, []), .empty⟩).2
  (.next ∈ w.ext.2 ↔ middleware.Admits request) ∧
    (¬ middleware.Admits request → match middleware.rejection request with
      | none => w.ext.2 = [] ∧ w.response = ⟨some 401, [], []⟩
      | some invocation => w.ext.2 = [invocation])

theorem authorized_eq_true_iff {username password : Bytes} :
    middleware.authorized username password = true ↔
      (⟨username, password⟩ : Credential) ∈ middleware.credentials := by
  simp only [authorized, List.any_eq_true, Bool.and_eq_true, beq_iff_eq]
  constructor
  · rintro ⟨credential, hmem, rfl, rfl⟩
    exact hmem
  · intro hmem
    exact ⟨_, hmem, rfl, rfl⟩

variable {middleware} {request : Request}

theorem admits_iff_of_basicAuth {username password : Bytes}
    (h : request.basicAuth = some (username, password)) :
    middleware.Admits request ↔ middleware.authorized username password = true := by
  rw [authorized_eq_true_iff]
  constructor
  · rintro ⟨username', password', h', hmem⟩
    rw [h] at h'
    cases h'
    exact hmem
  · intro hmem
    exact ⟨username, password, h, hmem⟩

theorem not_admits_of_basicAuth (h : request.basicAuth = none) : ¬ middleware.Admits request := by
  rintro ⟨username, password, h', -⟩
  rw [h] at h'
  cases h'

@[simp] theorem log_logged (invocation : Invocation) (handler : HttpHandler σ) (request : Request)
    (w : Env (σ × List Invocation)) :
    ((handler.logged invocation request).run w).2.ext.2 = w.ext.2 ++ [invocation] := rfl

section Cases
variable {next : HttpHandler σ} {host : Host} {s : σ}

theorem gates_of_admits (h : middleware.Admits request) :
    middleware.Gates request next host s := by
  obtain ⟨username, password, hauth, hmem⟩ := id h
  have hserve : middleware.logged.serveHTTP request (next.logged .next) =
      next.logged .next request := by
    unfold serveHTTP
    rw [hauth]
    exact if_pos ((authorized_eq_true_iff middleware).mpr hmem)
  unfold Gates
  rw [hserve]
  exact ⟨iff_of_true (by simp) h, fun hnot => absurd h hnot⟩

/-- A request that is not admitted, when it is answered here. -/
theorem gates_of_unauthorized (h : ¬ middleware.Admits request)
    (hrejection : middleware.rejection request = none)
    (hserve : middleware.logged.serveHTTP request (next.logged .next) = writeHeader 401) :
    middleware.Gates request next host s := by
  unfold Gates
  rw [hserve, hrejection]
  exact ⟨iff_of_false (by simp) h, fun _ => ⟨rfl, rfl⟩⟩

/-- A request that is not admitted, when it is given to a handler. -/
theorem gates_of_handled (handler : HttpHandler σ) {invocation : Invocation}
    (h : ¬ middleware.Admits request) (hne : invocation ≠ .next)
    (hrejection : middleware.rejection request = some invocation)
    (hserve : middleware.logged.serveHTTP request (next.logged .next) =
      handler.logged invocation request) :
    middleware.Gates request next host s := by
  unfold Gates
  rw [hserve, hrejection]
  exact ⟨iff_of_false (by simpa using hne.symm) h, fun _ => rfl⟩

theorem gates_of_no_credentials (hauth : request.basicAuth = none) :
    middleware.Gates request next host s := by
  have hnot : ¬ middleware.Admits request := not_admits_of_basicAuth hauth
  cases hmissing : middleware.basicAuthHeaderMissingHandler with
  | none =>
    refine gates_of_unauthorized hnot ?_ ?_
    · simp only [rejection, hauth, hmissing, Option.map_none]
    · simp only [serveHTTP, hauth, logged, hmissing, Option.map_none]
  | some handler =>
    have hne : Invocation.basicAuthHeaderMissing ≠ .next := by decide
    refine gates_of_handled handler hnot hne ?_ ?_
    · simp only [rejection, hauth, hmissing, Option.map_some]
    · simp only [serveHTTP, hauth, logged, hmissing, Option.map_some]

section WrongCredentials
variable {username password : Bytes} (hauth : request.basicAuth = some (username, password))
  (hnot : ¬ middleware.Admits request)
include hauth hnot

theorem gates_of_no_handler (hnone : middleware.unauthorizedHandler = none) :
    middleware.Gates request next host s := by
  have hwrong : middleware.logged.authorized username password = false := by
    rw [← Bool.not_eq_true]
    exact fun htrue => hnot ((admits_iff_of_basicAuth hauth).mpr htrue)
  refine gates_of_unauthorized hnot ?_ ?_
  · simp only [rejection, hauth, hnone, Option.map_none]
  · simp only [serveHTTP, hauth, hwrong, Bool.false_eq_true, if_false]
    simp only [logged, hnone, Option.map_none]

/-- Only a handler that panics keeps the next one from being invoked. -/
theorem gates_iff_of_handler {handler : HttpHandler σ}
    (hsome : middleware.unauthorizedHandler = some handler) :
    middleware.Gates request next host s ↔
      ∃ e w, (handler request).run ⟨host, s, .empty⟩ = (.panicked e, w) := by
  have hwrong : middleware.logged.authorized username password = false := by
    rw [← Bool.not_eq_true]
    exact fun htrue => hnot ((admits_iff_of_basicAuth hauth).mpr htrue)
  have hserve : middleware.logged.serveHTTP request (next.logged .next) = (do
      handler.logged .unauthorized request
      next.logged .next request) := by
    simp only [serveHTTP, hauth, hwrong, Bool.false_eq_true, if_false]
    simp only [logged, hsome, Option.map_some]
  have hrejection : middleware.rejection request = some .unauthorized := by
    simp only [rejection, hauth, hsome, Option.map_some]
  obtain ⟨o, w, hrun⟩ : ∃ o w, (handler request).run ⟨host, s, .empty⟩ = (o, w) := ⟨_, _, rfl⟩
  have hlogged : (handler.logged .unauthorized request).run ⟨host, (s, []), .empty⟩ =
      (o, (unloggedPart σ).put ⟨host, (s, [.unauthorized]), .empty⟩ w) := by
    rw [HttpHandler.logged, run_bind_returned (run_modifyState _ _), run_zoom]
    exact congrArg (fun r => (r.1, (unloggedPart σ).put _ r.2)) hrun
  unfold Gates
  rw [hserve, hrejection, hrun]
  cases o with
  | returned u =>
    rw [run_bind_returned hlogged]
    refine iff_of_false (fun hgates => hnot (hgates.1.mp ?_)) (by simp)
    rw [log_logged]
    exact List.mem_append_right _ List.mem_cons_self
  | panicked e =>
    rw [run_bind_panicked hlogged]
    have hnext : Invocation.next ∉ [Invocation.unauthorized] := by decide
    exact iff_of_true ⟨iff_of_false hnext hnot, fun _ => rfl⟩ ⟨e, w, rfl⟩

end WrongCredentials

variable (middleware request next host s) in
/-- **The gate of basic authentication** holds exactly when no handler is set for wrong credentials,
or that handler does not return, or the request's credentials are not the wrong ones. -/
theorem gates_iff : middleware.Gates request next host s ↔
    middleware.unauthorizedHandler = none ∨ request.basicAuth = none ∨ middleware.Admits request ∨
      ∃ handler, middleware.unauthorizedHandler = some handler ∧
        ∃ e w, (handler request).run ⟨host, s, .empty⟩ = (.panicked e, w) := by
  by_cases hadmits : middleware.Admits request
  · exact iff_of_true (gates_of_admits hadmits) (.inr (.inr (.inl hadmits)))
  cases hauth : request.basicAuth with
  | none => exact iff_of_true (gates_of_no_credentials hauth) (.inr (.inl rfl))
  | some credentials =>
    obtain ⟨username, password⟩ := credentials
    cases hhandler : middleware.unauthorizedHandler with
    | none => exact iff_of_true (gates_of_no_handler hauth hadmits hhandler) (.inl rfl)
    | some handler => simp [gates_iff_of_handler hauth hadmits hhandler, hadmits]

end Cases

end BasicAuthMiddleware

/-! ## A handler for wrong credentials -/

/-- A request with the credentials `user` and `wrong`. -/
def wrongCredentials : Request where
  contentLength := 0
  header key := if key = ascii "Authorization" then ascii "Basic dXNlcjp3cm9uZw==" else []
  query := []
  body := ⟨[], none⟩
  form := .ok ⟨[], []⟩

def guarded : BasicAuthMiddleware Unit where
  credentials := [⟨ascii "user", ascii "right"⟩]
  basicAuthHeaderMissingHandler := none
  unauthorizedHandler := some fun _ => writeHeader 403

/-- Both handlers are invoked. -/
theorem not_gates_guarded :
    ¬ guarded.Gates wrongCredentials (fun _ => writeHeader 200) ⟨fun _ => [], fun _ => none, 0, []⟩
      () := by
  rintro ⟨hnext, -⟩
  obtain ⟨username, password, hauth, hmem⟩ := hnext.mp (by decide)
  cases hauth
  exact absurd hmem (by decide)

end BitsService
