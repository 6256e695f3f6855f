import BitsService.Blobstores.Interface

/-! # Requests and answers

A request as the handlers read it: its headers and query, its body as a stream, and what parsing
the body as a multipart form gives. -/
namespace BitsService
open GoLib.Effect
set_option autoImplicit false

structure Form where
  values : List (Bytes × Bytes)
  files : List (Bytes × Bytes)

structure Request where
  contentLength : ℤ
  header : Bytes → Bytes
  query : List (Bytes × Bytes)
  body : Body
  form : Result Form

def firstValue (values : List (Bytes × Bytes)) (key : Bytes) : Bytes :=
  (values.lookup key).getD []

def Request.queryGet (request : Request) (key : Bytes) : Bytes := firstValue request.query key

/-- `FormValue`: the query comes first, then the form. -/
def Request.formValue (request : Request) (key : Bytes) : Bytes :=
  match request.form with
  | .error _ => firstValue request.query key
  | .ok form => firstValue (request.query ++ form.values) key

/-- `FormFile`; a missing file is `none`. -/
def Request.formFile (request : Request) (key : Bytes) : Result (Option Bytes) :=
  request.form.map fun form => form.files.lookup key

def Body.limit (n : ℕ) (b : Body) : Body :=
  if n ≤ b.delivered.length then ⟨[b.delivered.take n], none⟩ else b

section Responses
variable {σ : Type}

def fprintDescriptionAndCodeAsJSON (code : ℕ) (description : Bytes) (args : List Bytes) :
    Prog GoError (Env σ) Unit := write (.description (some code) description args)

def fprintDescriptionAsJSON (description : Bytes) (args : List Bytes) :
    Prog GoError (Env σ) Unit := write (.description none description args)

def badRequest (message : Bytes) (args : List Bytes) : Prog GoError (Env σ) Unit := do
  writeHeader 400
  fprintDescriptionAndCodeAsJSON 290003 message args

/-- `http.Error` with the one text it is called with. -/
def insufficientStorage : Prog GoError (Env σ) Unit := do
  setHeader (ascii "Content-Type") (ascii "text/plain; charset=utf-8")
  setHeader (ascii "X-Content-Type-Options") (ascii "nosniff")
  writeHeader 507
  write (.description (some 500000) (ascii "Request Entity Too Large") [])

/-- The request with which to go on, unless it was answered. -/
def handleBodySizeLimits (request : Request) (maxBodySizeLimit : ℕ) :
    Prog GoError (Env σ) (Option Request) :=
  if maxBodySizeLimit = 0 then pure (some request)
  else if request.contentLength = -1 then do
    badRequest (ascii "HTTP header does not contain Content-Length") []
    pure none
  else if (maxBodySizeLimit : ℤ) < request.contentLength then do
    writeHeader 413
    pure none
  else pure (some { request with body := request.body.limit request.contentLength.toNat })

/-- The status that the client gets behind the panic middleware: the one that was written, or 500
for a panic before any was, or 200 if none was written at all. -/
def clientStatus (run : Outcome GoError Unit × Env σ) : ℕ :=
  run.2.response.status.getD (match run.1 with
    | .returned () => 200
    | .panicked _ => 500)

theorem clientStatus_of_wp {p : ℕ → Prop} {m : Prog GoError (Env σ) Unit} {w : Env σ}
    (h : wp m (fun _ w' => p (w'.response.status.getD 200))
      (fun w' => p (w'.response.status.getD 500)) w) : p (clientStatus (m.run w)) := by
  rcases hrun : m.run w with ⟨u | e, w'⟩
  · exact h.returned hrun
  · exact h.panicked hrun

/-! ## What an answer does -/

/-- The answer was given, with `status` unless one had been sent before. -/
structure Answered (status : ℕ) (w w' : Env σ) : Prop where
  ext : w'.ext = w.ext
  host : w'.host = w.host
  status : w'.response.status = w.response.status.or (some status)

theorem or_some_or_some (sent : Option ℕ) (status status' : ℕ) :
    (sent.or (some status)).or (some status') = sent.or (some status) := by
  cases sent with
  | none => rfl
  | some status => rfl

section Answers
variable {w : Env σ} {R : Unit → Env σ → Prop}
  {E : Env σ → Prop}

theorem wp_writeHeader_write {status : ℕ} {d : Document}
    (h : ∀ w', Answered status w w' → R () w') : wp (do writeHeader status; write d) R E w :=
  h _ ⟨rfl, rfl, or_some_or_some _ _ _⟩

/-- An answer before the rest of a program. -/
theorem wp_writeHeader_write_bind {α : Type} {status : ℕ} {d : Document}
    {k : Prog GoError (Env σ) α} {S : α → Env σ → Prop}
    (h : ∀ w', Answered status w w' → wp k S E w') :
    wp (do
      writeHeader status
      write d
      k) S E w :=
  h _ ⟨rfl, rfl, or_some_or_some _ _ _⟩

theorem wp_badRequest {message : Bytes} {args : List Bytes}
    (h : ∀ w', Answered 400 w w' → R () w') : wp (badRequest message args) R E w :=
  wp_writeHeader_write h

theorem wp_insufficientStorage (h : ∀ w', Answered 507 w w' → R () w') :
    wp insufficientStorage R E w :=
  h _ ⟨rfl, rfl, or_some_or_some _ _ _⟩

/-- The request with which to go on after the limits. -/
def Request.limited (request : Request) (maxBodySizeLimit : ℕ) : Option Request :=
  if maxBodySizeLimit = 0 then some request
  else if request.contentLength = -1 ∨ (maxBodySizeLimit : ℤ) < request.contentLength then none
  else some { request with body := request.body.limit request.contentLength.toNat }

theorem eq_of_limited {request request' : Request} {maxBodySizeLimit : ℕ}
    (h : request.limited maxBodySizeLimit = some request') :
    request' = { request with body := request'.body } := by
  unfold Request.limited at h
  split at h
  · cases h
    rfl
  · split at h
    · cases h
    · cases h
      rfl

theorem run_handleBodySizeLimits {request request' : Request} {maxBodySizeLimit : ℕ}
    (h : request.limited maxBodySizeLimit = some request') (w : Env σ) :
    (handleBodySizeLimits request maxBodySizeLimit).run w = (.returned (some request'), w) := by
  unfold Request.limited at h
  unfold handleBodySizeLimits
  by_cases h0 : maxBodySizeLimit = 0
  · rw [if_pos h0] at h ⊢
    rw [h]
    rfl
  rw [if_neg h0] at h ⊢
  by_cases hover : request.contentLength = -1 ∨ (maxBodySizeLimit : ℤ) < request.contentLength
  · rw [if_pos hover] at h
    cases h
  · rw [if_neg hover] at h
    rw [if_neg (not_or.mp hover).1, if_neg (not_or.mp hover).2, h]
    rfl

theorem wp_handleBodySizeLimits {request : Request} {maxBodySizeLimit : ℕ}
    {R : Option Request → Env σ → Prop}
    (hsome : ∀ request', request.limited maxBodySizeLimit = some request' → R (some request') w)
    (hnone : ∀ status w', request.limited maxBodySizeLimit = none → status = 400 ∨ status = 413 →
      Answered status w w' → R none w') :
    wp (handleBodySizeLimits request maxBodySizeLimit) R E w := by
  unfold handleBodySizeLimits
  unfold Request.limited at hsome hnone
  by_cases h0 : maxBodySizeLimit = 0
  · rw [if_pos h0] at hsome
    rw [if_pos h0]
    exact hsome request rfl
  rw [if_neg h0] at hsome hnone
  rw [if_neg h0]
  by_cases h1 : request.contentLength = -1
  · rw [if_pos (.inl h1)] at hnone
    rw [if_pos h1]
    exact wp_bind.mpr (wp_badRequest fun w' h => hnone 400 w' rfl (.inl rfl) h)
  rw [if_neg h1]
  by_cases h2 : (maxBodySizeLimit : ℤ) < request.contentLength
  · rw [if_pos (.inr h2)] at hnone
    rw [if_pos h2]
    exact hnone 413 _ rfl (.inr rfl) ⟨rfl, rfl, rfl⟩
  · rw [if_neg (not_or.mpr ⟨h1, h2⟩)] at hsome
    rw [if_neg h2]
    exact hsome _ rfl

end Answers

/-! ## What an answer leaves alone -/

/-- `I` is kept by every answer that is neither a success nor a resource. -/
structure KeptByAnswers (I : Env σ → Prop) : Prop where
  header : ∀ key value, Keeps I (setHeader key value)
  status : ∀ status, 300 ≤ status → Keeps I (writeHeader status)
  raw : ∀ content, Keeps I (write (.raw content))
  description : ∀ code format args, Keeps I (write (.description code format args))

theorem keptByAnswers_of_blind {I : Env σ → Prop}
    (hblind : ∀ w response, I w → I { w with response := response }) : KeptByAnswers I where
  header _ _ w hw := hblind w _ hw
  status _ _ w hw := hblind w _ hw
  raw _ w hw := hblind w _ hw
  description _ _ _ w hw := hblind w _ hw

namespace KeptByAnswers
variable {I : Env σ → Prop} (hI : KeptByAnswers I)
include hI

theorem badRequest (message : Bytes) (args : List Bytes) : Keeps I (badRequest message args) :=
  Keeps.bind (hI.status 400 (by decide)) fun _ => hI.description _ _ _

theorem insufficientStorage : Keeps I insufficientStorage :=
  Keeps.bind (hI.header _ _) fun _ => Keeps.bind (hI.header _ _) fun _ =>
    Keeps.bind (hI.status 507 (by decide)) fun _ => hI.description _ _ _

theorem handleBodySizeLimits (request : Request) (maxBodySizeLimit : ℕ) :
    Keeps I (handleBodySizeLimits request maxBodySizeLimit) := by
  unfold BitsService.handleBodySizeLimits
  by_cases h0 : maxBodySizeLimit = 0
  · rw [if_pos h0]
    exact Keeps.pure I _
  rw [if_neg h0]
  by_cases h1 : request.contentLength = -1
  · rw [if_pos h1]
    exact Keeps.bind (hI.badRequest _ _) fun _ => Keeps.pure I _
  rw [if_neg h1]
  by_cases h2 : (maxBodySizeLimit : ℤ) < request.contentLength
  · rw [if_pos h2]
    exact Keeps.bind (hI.status 413 (by decide)) fun _ => Keeps.pure I _
  · rw [if_neg h2]
    exact Keeps.pure I _

end KeptByAnswers

end Responses

end BitsService
