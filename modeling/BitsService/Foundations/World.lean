import BitsService.Foundations.Fmt
import BitsService.Lib.WeakestPrecondition

/-! # The process around the handlers

Errors, the operating system's temporary files, the response being written, and the services
outside the process. Every fallible call to the operating system takes its outcome from a script,
and succeeds once the script has run out; so does every retry policy with its time budget. -/
namespace BitsService
open GoLib.Effect
set_option autoImplicit false

/-! ## Errors -/

/-- The error values that the code tells apart. A wrapped error is no longer of its cause's type. -/
inductive GoError where
  | notFound (text missingKey : Bytes)
  | noSpaceLeft
  | stateForbidden
  | input (text : Bytes)
  | sys (text : Bytes)
  | wrapped (message : Bytes) (cause : GoError)
  | withStack (cause : GoError)
  deriving DecidableEq

namespace GoError

def newNotFoundError : GoError := .notFound (ascii "NotFoundError") []

/-- The key is part of the format that the text is printed from. -/
def newNotFoundErrorWithKey (key : Bytes) : GoError :=
  .notFound (sprintf (ascii "Not found: " ++ key) []) key

def wrap (message : String) (e : GoError) : GoError := .wrapped (ascii message) e

def text : GoError → Bytes
  | .notFound text _ => text
  | .noSpaceLeft => ascii "NoSpaceLeftError"
  | .stateForbidden => ascii "StateForbiddenError"
  | .input text => text
  | .sys text => text
  | .wrapped message cause => message ++ ascii ": " ++ cause.text
  | .withStack cause => cause.text

def nilDereference : GoError :=
  .sys (ascii "runtime error: invalid memory address or nil pointer dereference")

end GoError

def ioEOF : GoError := .sys (ascii "EOF")

abbrev Result (α : Type) := Except GoError α

@[simp] theorem isOk_error {α : Type} (e : GoError) : (.error e : Result α).isOk = false := rfl

@[simp] theorem isOk_ok {α : Type} (a : α) : (.ok a : Result α).isOk = true := rfl

/-! ## Fallible programs

Go's `x, e := f(); if e != nil { return …, g(e) }` and `util.PanicOnError(e)`. -/

section Fallible
variable {W α β : Type}

/-- Continue with the value, or return the error as `onError` hands it on. -/
def orReturn (m : Prog GoError W (Result α)) (onError : GoError → GoError)
    (k : α → Prog GoError W (Result β)) : Prog GoError W (Result β) := do
  match ← m with
  | .error e => pure (.error (onError e))
  | .ok a => k a

def panicOnError (r : Result α) : Prog GoError W α :=
  match r with
  | .error e => raise e
  | .ok a => pure a

@[simp] theorem run_panicOnError_ok (a : α) (w : W) :
    (panicOnError (.ok a) : Prog GoError W α).run w = (.returned a, w) := rfl

@[simp] theorem run_panicOnError_error (e : GoError) (w : W) :
    (panicOnError (.error e) : Prog GoError W α).run w = (.panicked e, w) := rfl

theorem run_orReturn_ok {m : Prog GoError W (Result α)} {onError : GoError → GoError}
    {k : α → Prog GoError W (Result β)} {w w' : W} {a : α}
    (h : m.run w = (.returned (.ok a), w')) : (orReturn m onError k).run w = (k a).run w' :=
  run_bind_returned h

theorem run_orReturn_error {m : Prog GoError W (Result α)} {onError : GoError → GoError}
    {k : α → Prog GoError W (Result β)} {w w' : W} {e : GoError}
    (h : m.run w = (.returned (.error e), w')) :
    (orReturn m onError k).run w = (.returned (.error (onError e)), w') :=
  run_bind_returned h

theorem run_orReturn_eq_ok {m : Prog GoError W (Result α)} {onError : GoError → GoError}
    {k : α → Prog GoError W (Result β)} {w w' : W} {b : β}
    (h : (orReturn m onError k).run w = (.returned (.ok b), w')) :
    ∃ a w₁, m.run w = (.returned (.ok a), w₁) ∧ (k a).run w₁ = (.returned (.ok b), w') := by
  obtain ⟨r, w₁, hm, hk⟩ := run_bind_eq_returned h
  cases r with
  | error e => cases hk
  | ok a => exact ⟨a, w₁, hm, hk⟩

theorem orReturn_leaves {m : Prog GoError W (Result α)} {onError : GoError → GoError}
    {k : α → Prog GoError W (Result β)} {w : W} {R : W → Prop}
    (hp : ∀ e w', m.run w = (.panicked e, w') → R w')
    (he : ∀ e w', m.run w = (.returned (.error e), w') → R w')
    (hk : ∀ a w', m.run w = (.returned (.ok a), w') → R ((k a).run w').2) :
    R ((orReturn m onError k).run w).2 := by
  refine bind_leaves hp (fun r w' hm => ?_)
  cases r with
  | error e => exact he e w' hm
  | ok a => exact hk a w' hm

theorem leads_orReturn {P Q R : W → Prop} {m : Prog GoError W (Result α)}
    {onError : GoError → GoError} {k : α → Prog GoError W (Result β)} (hm : Leads P Q m)
    (hQR : ∀ w, Q w → R w) (hk : ∀ a, Leads Q R (k a)) : Leads P R (orReturn m onError k) := by
  refine Leads.bind hm hQR (fun r => ?_)
  cases r with
  | error e => exact hQR
  | ok a => exact hk a

theorem keeps_orReturn {I : W → Prop} {m : Prog GoError W (Result α)}
    {onError : GoError → GoError} {k : α → Prog GoError W (Result β)}
    (hm : Keeps I m) (hk : ∀ a, Keeps I (k a)) : Keeps I (orReturn m onError k) :=
  leads_orReturn hm (fun _ h => h) hk

theorem keeps_panicOnError (I : W → Prop) (r : Result α) :
    Keeps I (panicOnError r : Prog GoError W α) := by
  cases r with
  | error e => exact Keeps.raise I e
  | ok a => exact Keeps.pure I a

theorem wp_orReturn {R : Result β → W → Prop} {E : W → Prop} {m : Prog GoError W (Result α)}
    {onError : GoError → GoError} {k : α → Prog GoError W (Result β)} {w : W} :
    wp (orReturn m onError k) R E w ↔ wp m (fun r w' => match r with
      | .error e => R (.error (onError e)) w'
      | .ok a => wp (k a) R E w') E w := by
  unfold orReturn
  rw [wp_bind]
  refine ⟨fun h => h.mono (fun r w' hr => ?_) (fun _ h => h),
    fun h => h.mono (fun r w' hr => ?_) (fun _ h => h)⟩
  · cases r with
    | error e => exact hr
    | ok a => exact hr
  · cases r with
    | error e => exact hr
    | ok a => exact hr

theorem wp_panicOnError {R : α → W → Prop} {E : W → Prop} {r : Result α} {w : W} :
    wp (panicOnError r : Prog GoError W α) R E w ↔ match r with
      | .error _ => E w
      | .ok a => R a w := by
  cases r with
  | error e => exact Iff.rfl
  | ok a => exact Iff.rfl

end Fallible

/-! ## The host -/

inductive OsCall where
  | tempFile
  | openTemp
  | readTemp
  | writeTemp
  | closeTemp
  | openEntry
  | readEntry
  | closeEntry
  | zipHeader
  | zipWrite
  | zipClose
  deriving DecidableEq

/-- The scripts, the temporary files by name with the next fresh name, and the number of retries
that each coming retry loop has time for. -/
structure Host where
  faults : OsCall → List (Result Unit)
  temps : ℕ → Option Bytes
  next : ℕ
  budgets : List ℕ

def Host.Faultless (h : Host) : Prop := ∀ c, h.faults c = []

def osCall (c : OsCall) : Prog GoError Host (Result Unit) := fun h =>
  (.returned ((h.faults c).headD (.ok ())),
    { h with faults := Function.update h.faults c (h.faults c).tail })

def takeBudget : Prog GoError Host ℕ := fun h =>
  (.returned (h.budgets.headD 0), { h with budgets := h.budgets.tail })

def setTemp (name : ℕ) (content : Option Bytes) : Prog GoError Host Unit :=
  modifyState fun h => { h with temps := Function.update h.temps name content }

def Host.removeTemp (name : ℕ) (h : Host) : Host :=
  { h with temps := Function.update h.temps name none }

/-- The longest name that a file can have on Linux. -/
def nameMax : ℕ := 255

/-- `os.OpenFile` takes a name of `pre` and nine digits. -/
def NamesTemp (pre : Bytes) : Prop := 0 ∉ pre ∧ pre.length + 9 ≤ nameMax

instance (pre : Bytes) : Decidable (NamesTemp pre) := inferInstanceAs (Decidable (_ ∧ _))

/-- A new empty file under a fresh name. -/
def newTemp : Prog GoError Host (Result ℕ) := do
  let h ← getState
  modifyState fun h => { h with temps := Function.update h.temps h.next (some [])
                                next := h.next + 1 }
  pure (.ok h.next)

/-- `ioutil.TempFile("", pre)`: the name of the file is `pre` and nine random digits. -/
def createTemp (pre : Bytes) : Prog GoError Host (Result ℕ) :=
  if 0 ∈ pre then pure (.error (.sys (ascii "invalid argument")))
  else if nameMax < pre.length + 9 then pure (.error (.sys (ascii "file name too long")))
  else orReturn (osCall .tempFile) id fun _ => newTemp

def openTemp (name : ℕ) : Prog GoError Host (Result Bytes) :=
  orReturn (osCall .openTemp) id fun _ => do
    let h ← getState
    match h.temps name with
    | none => pure (.error (.sys (ascii "no such file or directory")))
    | some content => pure (.ok content)

def writeTemp (name : ℕ) (content : Bytes) : Prog GoError Host (Result Unit) :=
  orReturn (osCall .writeTemp) id fun _ => do
    setTemp name (some content)
    pure (.ok ())

theorem run_osCall (c : OsCall) (h : Host) :
    (osCall c).run h = (.returned ((h.faults c).headD (.ok ())),
      { h with faults := Function.update h.faults c (h.faults c).tail }) := rfl

theorem osCall_temps {c : OsCall} {h h' : Host} {r : Result Unit}
    (hrun : (osCall c).run h = (.returned r, h')) : h'.temps = h.temps := by
  rw [run_osCall] at hrun
  obtain ⟨-, rfl⟩ := Prod.mk.inj hrun
  rfl

theorem createTemp_of_names {pre : Bytes} (h : NamesTemp pre) :
    createTemp pre = orReturn (osCall .tempFile) id fun _ => newTemp :=
  (if_neg h.1).trans (if_neg (Nat.not_lt.mpr h.2))

/-- A temp file that cannot be named is not asked for. -/
theorem createTemp_of_not_names {pre : Bytes} (h : ¬ NamesTemp pre) :
    ∃ e, createTemp pre = pure (.error e) := by
  unfold createTemp
  split
  · exact ⟨_, rfl⟩
  · next hzero =>
    rw [if_pos (Nat.lt_of_not_le fun hle => h ⟨hzero, hle⟩)]
    exact ⟨_, rfl⟩

theorem run_openTemp (name : ℕ) (h : Host) :
    ∃ r h', (openTemp name).run h = (.returned r, h') ∧ h'.temps = h.temps ∧
      ∀ src, r = .ok src → h.temps name = some src := by
  unfold openTemp orReturn
  rw [run_bind, run_osCall]
  cases (h.faults .openTemp).headD (.ok ()) with
  | error e => exact ⟨.error e, _, rfl, rfl, by simp⟩
  | ok u =>
    simp only
    rw [run_bind_returned (run_getState _)]
    cases hc : h.temps name with
    | none => exact ⟨_, _, rfl, rfl, by simp⟩
    | some content => exact ⟨.ok content, _, rfl, rfl, by simp⟩

theorem writeTemp_eq_ok {name : ℕ} {content : Bytes} {h h' : Host}
    (hrun : (writeTemp name content).run h = (.returned (.ok ()), h')) :
    h'.temps name = some content := by
  obtain ⟨u, h₁, -, hset⟩ := run_orReturn_eq_ok hrun
  cases hset
  simp

/-! ## Requests and responses -/

/-- The JSON body that an upload or a copy is answered with, less its creation time. -/
structure ResponseBody where
  guid : Bytes
  state : Bytes
  type : Bytes
  sha1 : Bytes
  sha256 : Bytes
  deriving DecidableEq

/-- One piece of a response body. A description is a format with its arguments, as it is handed to
the functions that print it as JSON. -/
inductive Document where
  | raw (content : Bytes)
  | description (code : Option ℕ) (format : Bytes) (args : List Bytes)
  | resource (body : ResponseBody)
  deriving DecidableEq

structure Response where
  status : Option ℕ
  headers : List (Bytes × Bytes)
  body : List Document
  deriving DecidableEq

def Response.empty : Response := ⟨none, [], []⟩

/-- The process and the services it talks to, of type `σ`. -/
structure Env (σ : Type) where
  host : Host
  ext : σ
  response : Response

/-- A process that has not answered yet. -/
def Env.fresh {σ : Type} (s : σ) : Env σ := ⟨⟨fun _ => [], fun _ => none, 0, []⟩, s, .empty⟩

section Env
variable {σ α : Type}

def hostPart (σ : Type) : Part (Env σ) Host :=
  ⟨Env.host, fun w h => { w with host := h }, fun _ _ => rfl, fun _ => rfl⟩

def extPart (σ : Type) : Part (Env σ) σ :=
  ⟨Env.ext, fun w s => { w with ext := s }, fun _ _ => rfl, fun _ => rfl⟩

def onHost (m : Prog GoError Host α) : Prog GoError (Env σ) α := zoom (hostPart σ) m

def onExt (m : Prog GoError σ α) : Prog GoError (Env σ) α := zoom (extPart σ) m

/-- `defer os.Remove`. -/
def removingTemp (name : ℕ) (m : Prog GoError (Env σ) α) : Prog GoError (Env σ) α :=
  ensuring m fun w => { w with host := w.host.removeTemp name }

/-- `responseWriter.WriteHeader`: only the first status is sent. -/
def writeHeader (status : ℕ) : Prog GoError (Env σ) Unit :=
  modifyState fun w =>
    { w with response := { w.response with status := w.response.status.or (some status) } }

/-- `responseWriter.Write`, which sends status 200 first if none has been sent. -/
def write (d : Document) : Prog GoError (Env σ) Unit :=
  modifyState fun w =>
    { w with response := { w.response with status := w.response.status.or (some 200)
                                           body := w.response.body ++ [d] } }

def setHeader (key value : Bytes) : Prog GoError (Env σ) Unit :=
  modifyState fun w =>
    { w with response := { w.response with headers := w.response.headers ++ [(key, value)] } }

theorem run_onHost (m : Prog GoError Host α) (w : Env σ) :
    (onHost m).run w = ((m.run w.host).1, { w with host := (m.run w.host).2 }) := rfl

theorem run_onExt (m : Prog GoError σ α) (w : Env σ) :
    (onExt m).run w = ((m.run w.ext).1, { w with ext := (m.run w.ext).2 }) := rfl

theorem run_onHost_eq_returned {m : Prog GoError Host α} {w w' : Env σ} {a : α}
    (h : (onHost m).run w = (.returned a, w')) :
    m.run w.host = (.returned a, w'.host) ∧ w'.ext = w.ext ∧ w'.response = w.response := by
  rw [run_onHost] at h
  obtain ⟨hout, rfl⟩ := Prod.mk.inj h
  exact ⟨Prod.ext hout rfl, rfl, rfl⟩

theorem run_onExt_eq_outcome {m : Prog GoError σ α} {w w' : Env σ} {o : Outcome GoError α}
    (h : (onExt m).run w = (o, w')) :
    m.run w.ext = (o, w'.ext) ∧ w'.host = w.host ∧ w'.response = w.response := by
  rw [run_onExt] at h
  obtain ⟨hout, rfl⟩ := Prod.mk.inj h
  exact ⟨Prod.ext hout rfl, rfl, rfl⟩

theorem run_removingTemp {name : ℕ} {m : Prog GoError (Env σ) α} {w w' : Env σ}
    {o : Outcome GoError α} (h : m.run w = (o, w')) :
    (removingTemp name m).run w = (o, { w' with host := w'.host.removeTemp name }) := by
  rw [removingTemp, run_ensuring, h]

theorem run_removingTemp_eq_returned {name : ℕ} {m : Prog GoError (Env σ) α} {w w' : Env σ} {a : α}
    (h : (removingTemp name m).run w = (.returned a, w')) :
    ∃ w₁, m.run w = (.returned a, w₁) ∧ w' = { w₁ with host := w₁.host.removeTemp name } := by
  rw [removingTemp, run_ensuring] at h
  cases hm : m.run w with
  | mk o w₁ =>
    rw [hm] at h
    cases h
    exact ⟨w₁, rfl, rfl⟩

@[simp] theorem run_writeHeader (status : ℕ) (w : Env σ) :
    (writeHeader status).run w = (.returned (), { w with
      response := { w.response with status := w.response.status.or (some status) } }) := rfl

@[simp] theorem run_write (d : Document) (w : Env σ) :
    (write d).run w = (.returned (), { w with
      response := { w.response with status := w.response.status.or (some 200)
                                    body := w.response.body ++ [d] } }) := rfl

theorem wp_removingTemp {name : ℕ} {m : Prog GoError (Env σ) α} {R : α → Env σ → Prop}
    {E : Env σ → Prop} {w : Env σ} : wp (removingTemp name m) R E w ↔
      wp m (fun a w' => R a { w' with host := w'.host.removeTemp name })
        (fun w' => E { w' with host := w'.host.removeTemp name }) w :=
  wp_ensuring _

@[simp] theorem wp_writeHeader {status : ℕ} {R : Unit → Env σ → Prop} {E : Env σ → Prop}
    {w : Env σ} : wp (writeHeader status) R E w ↔ R () { w with
      response := { w.response with status := w.response.status.or (some status) } } := Iff.rfl

@[simp] theorem wp_write {d : Document} {R : Unit → Env σ → Prop} {E : Env σ → Prop}
    {w : Env σ} : wp (write d) R E w ↔ R () { w with
      response := { w.response with status := w.response.status.or (some 200)
                                    body := w.response.body ++ [d] } } := Iff.rfl

/-! ## What a program leaves alone

An invariant that does not look at the host is kept by everything that touches only the host. -/

def HostBlind (I : Env σ → Prop) : Prop := ∀ w host, I w → I { w with host := host }

theorem HostBlind.keeps_onHost {I : Env σ → Prop} (hblind : HostBlind I) (m : Prog GoError Host α) :
    Keeps I (onHost m) := fun w hw => hblind w _ hw

theorem HostBlind.keeps_removingTemp {I : Env σ → Prop} (hblind : HostBlind I) {name : ℕ}
    {m : Prog GoError (Env σ) α} (h : Keeps I m) : Keeps I (removingTemp name m) :=
  Keeps.ensuring h (fun w hw => hblind w _ hw)

def OfExt (I : σ → Prop) : Env σ → Prop := fun w => I w.ext

theorem hostBlind_ofExt (I : σ → Prop) : HostBlind (OfExt I) := fun _ _ h => h

theorem keeps_onExt {I : σ → Prop} {m : Prog GoError σ α} (h : Keeps I m) :
    Keeps (OfExt I) (onExt m) := fun w hw => h w.ext hw

def OfHost (J : Host → Prop) : Env σ → Prop := fun w => J w.host

theorem keeps_onHost_ofHost {J : Host → Prop} {m : Prog GoError Host α} (h : Keeps J m) :
    Keeps (OfHost J) (onHost m : Prog GoError (Env σ) α) := fun w hw => h w.host hw

theorem keeps_onExt_ofHost (J : Host → Prop) (m : Prog GoError σ α) :
    Keeps (OfHost J) (onExt m) := fun _ h => h

end Env

end BitsService
