import BitsService.Server.Http
import BitsService.Stash.BundleSuccess

/-! # How requests end

On a host without faults, what a handler makes of a request does not depend on the host. It is a
response, or a panic before there is one, and the state in which it leaves the services. -/
namespace BitsService
open GoLib.Effect
set_option autoImplicit false

variable {σ α β : Type}

/-- The response to a request, or none for a panic, and the state that it leaves. -/
abbrev Ending (σ : Type) := Option Response × σ

/-- Nothing fails on the host, and nothing has been answered yet. -/
structure Idle (w : Env σ) : Prop where
  faultless : w.host.Faultless
  unanswered : w.response = .empty

/-- From `w` the program ends in this way, and nothing fails on the host afterwards. -/
def Ends (m : Prog GoError (Env σ) Unit) (w : Env σ) (ending : Ending σ) : Prop :=
  wp m (fun _ w' => w'.host.Faultless ∧ ending = (some w'.response, w'.ext))
    (fun w' => Idle w' ∧ ending = (none, w'.ext)) w

/-- The services are at `s`, and nothing was answered on the way. -/
structure Reaches (w : Env σ) (s : σ) (w' : Env σ) : Prop where
  faultless : w'.host.Faultless
  ext : w'.ext = s
  response : w'.response = w.response

theorem Reaches.idle {w w' : Env σ} {s : σ} (h : Reaches w s w') (hw : Idle w) : Idle w' :=
  ⟨h.faultless, h.response.trans hw.unanswered⟩

theorem Reaches.trans {w w' w'' : Env σ} {s s' : σ} (h : Reaches w s w') (h' : Reaches w' s' w'') :
    Reaches w s' w'' := ⟨h'.faultless, h'.ext, h'.response.trans h.response⟩

/-! ## Programs in sequence -/

section Programs
variable {m : Prog GoError (Env σ) Unit} {n : Prog GoError (Env σ) α}
  {k : α → Prog GoError (Env σ) Unit} {w w' : Env σ} {ending : Ending σ}

theorem Ends.of_returned (hrun : m.run w = (.returned (), w')) (hw' : w'.host.Faultless) :
    Ends m w (some w'.response, w'.ext) := wp_of_returned hrun ⟨hw', rfl⟩

theorem Ends.of_panicked {e : GoError} (hrun : m.run w = (.panicked e, w')) (hw' : Idle w') :
    Ends m w (none, w'.ext) := by
  unfold Ends wp
  rw [hrun]
  exact ⟨hw', rfl⟩

theorem Ends.raise (hw : Idle w) (e : GoError) : Ends (raise e) w (none, w.ext) :=
  wp_raise e |>.mpr ⟨hw, rfl⟩

theorem Ends.after {a : α} (hrun : n.run w = (.returned a, w')) (h : Ends (k a) w' ending) :
    Ends (n >>= k) w ending := wp_bind.mpr (wp_of_returned hrun h)

/-- Nothing comes after the last answer. -/
theorem Ends.last {k : Unit → Prog GoError (Env σ) Unit} (h : Ends m w ending)
    (hk : k () = pure ()) : Ends (m >>= k) w ending := by
  refine wp_bind.mpr (wp.mono h (fun _ w' hw' => ?_) fun _ h => h)
  rw [hk]
  exact hw'

theorem Ends.removingTemp {name : ℕ} (h : Ends m w ending) :
    Ends (removingTemp name m) w ending :=
  wp_removingTemp.mpr (wp.mono h (fun _ _ h => h) fun _ h => ⟨⟨h.1.1, h.1.2⟩, h.2⟩)

end Programs

/-! ## Answers -/

section Answers
variable {w : Env σ} (hw : Idle w)
include hw

theorem Idle.ends_writeHeader (status : ℕ) :
    Ends (writeHeader status) w (some ⟨some status, [], []⟩, w.ext) := by
  obtain ⟨host, ext, response⟩ := w
  obtain rfl : response = .empty := hw.unanswered
  exact ⟨hw.faultless, rfl⟩

theorem Idle.ends_write (d : Document) :
    Ends (write d) w (some ⟨some 200, [], [d]⟩, w.ext) := by
  obtain ⟨host, ext, response⟩ := w
  obtain rfl : response = .empty := hw.unanswered
  exact ⟨hw.faultless, rfl⟩

theorem Idle.ends_writeHeader_write (status : ℕ) (d : Document) :
    Ends (do writeHeader status; write d) w (some ⟨some status, [], [d]⟩, w.ext) := by
  obtain ⟨host, ext, response⟩ := w
  obtain rfl : response = .empty := hw.unanswered
  exact ⟨hw.faultless, rfl⟩

theorem Idle.ends_nothing : Ends (pure ()) w (some .empty, w.ext) := by
  have hends := Ends.of_returned (run_pure () w) hw.faultless
  rw [hw.unanswered] at hends
  exact hends

end Answers

def badRequestResponse (message : Bytes) (args : List Bytes) : Response :=
  ⟨some 400, [], [.description (some 290003) message args]⟩

theorem Idle.ends_badRequest {w : Env σ} (hw : Idle w) (message : Bytes) (args : List Bytes) :
    Ends (badRequest message args) w (some (badRequestResponse message args), w.ext) :=
  hw.ends_writeHeader_write 400 _

/-! ## What may fail -/

/-- Go on with the value, or end in a panic. -/
def orPanic (r : Result α) (next : α → Ending σ) (s : σ) : Ending σ :=
  match r with
  | .error _ => (none, s)
  | .ok a => next a

theorem Ends.panicOnError {w : Env σ} (hw : Idle w) {r : Result α}
    {k : α → Prog GoError (Env σ) Unit} {next : α → Ending σ}
    (h : ∀ a, Ends (k a) w (next a)) :
    Ends (panicOnError r >>= k) w (orPanic r next w.ext) := by
  cases r with
  | error e => exact Ends.raise hw e
  | ok a => exact Ends.after (run_panicOnError_ok a w) (h a)

/-! ## Body sizes -/

/-- The answer to a request whose body is too large, or not said to be small enough. -/
def sizeRefusal (request : Request) : Response :=
  if request.contentLength = -1 then
    badRequestResponse (ascii "HTTP header does not contain Content-Length") []
  else ⟨some 413, [], []⟩

def withinLimits (request : Request) (maxBodySizeLimit : ℕ) (next : Request → Ending σ) (s : σ) :
    Ending σ :=
  match request.limited maxBodySizeLimit with
  | none => (some (sizeRefusal request), s)
  | some request => next request

theorem Ends.withinLimits {w : Env σ} (hw : Idle w) {request : Request} {maxBodySizeLimit : ℕ}
    {k : Option Request → Prog GoError (Env σ) Unit} {next : Request → Ending σ}
    (hnone : k none = pure ()) (h : ∀ request', Ends (k (some request')) w (next request')) :
    Ends (handleBodySizeLimits request maxBodySizeLimit >>= k) w
      (withinLimits request maxBodySizeLimit next w.ext) := by
  cases hlimited : request.limited maxBodySizeLimit with
  | some request' =>
    have hnext : BitsService.withinLimits request maxBodySizeLimit next w.ext = next request' := by
      rw [BitsService.withinLimits, hlimited]
    rw [hnext]
    exact Ends.after (run_handleBodySizeLimits hlimited w) (h request')
  | none =>
    have hnext : BitsService.withinLimits request maxBodySizeLimit next w.ext =
        (some (sizeRefusal request), w.ext) := by
      rw [BitsService.withinLimits, hlimited]
    rw [hnext]
    unfold Request.limited at hlimited
    unfold handleBodySizeLimits sizeRefusal
    have hpure : (pure none >>= k : Prog GoError (Env σ) Unit) = pure () := hnone
    by_cases h0 : maxBodySizeLimit = 0
    · rw [if_pos h0] at hlimited
      cases hlimited
    rw [if_neg h0] at hlimited ⊢
    by_cases hmissing : request.contentLength = -1
    · rw [if_pos hmissing, if_pos hmissing]
      rw [Prog.bind_assoc]
      exact (hw.ends_badRequest _ _).last hpure
    · rw [if_neg hmissing, if_neg hmissing]
      by_cases hover : (maxBodySizeLimit : ℤ) < request.contentLength
      · rw [if_pos hover]
        rw [Prog.bind_assoc]
        exact (hw.ends_writeHeader 413).last hpure
      · rw [if_neg (not_or.mpr ⟨hmissing, hover⟩)] at hlimited
        cases hlimited

end BitsService
