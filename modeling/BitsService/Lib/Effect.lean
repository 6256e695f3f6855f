import Mathlib.Data.Nat.Notation
import Mathlib.Logic.Function.Basic

/-! # Programs that return a value or panic

A program is a function from a world to an outcome and the world it leaves behind. A panic keeps
the world: what happened before it is not undone. Rules for what a program keeps follow its
construction, so that a caller never unfolds `bind`. -/
namespace GoLib.Effect
set_option autoImplicit false

inductive Outcome (ε α : Type) where
  | returned (a : α)
  | panicked (e : ε)
  deriving DecidableEq

def Prog (ε W α : Type) : Type := W → Outcome ε α × W

variable {ε W V α β τ : Type}

def Prog.run (m : Prog ε W α) (w : W) : Outcome ε α × W := m w

def Prog.bind (m : Prog ε W α) (f : α → Prog ε W β) : Prog ε W β := fun w =>
  match m.run w with
  | (.returned a, w') => (f a).run w'
  | (.panicked e, w') => (.panicked e, w')

instance : Monad (Prog ε W) where
  pure a := fun w => (.returned a, w)
  bind := Prog.bind

def getState : Prog ε W W := fun w => (.returned w, w)

def modifyState (f : W → W) : Prog ε W Unit := fun w => (.returned (), f w)

def raise (e : ε) : Prog ε W α := fun w => (.panicked e, w)

/-- `m` with a deferred cleanup, which runs on every way out, a panic included. -/
def ensuring (m : Prog ε W α) (cleanup : W → W) : Prog ε W α := fun w =>
  ((m.run w).1, cleanup (m.run w).2)

/-- A part `V` of a world `W`: reading it back after a write, and writing back what was read. -/
structure Part (W V : Type) where
  get : W → V
  put : W → V → W
  get_put : ∀ w v, get (put w v) = v
  put_get : ∀ w, put w (get w) = w

def zoom (l : Part W V) (m : Prog ε V α) : Prog ε W α := fun w =>
  ((m.run (l.get w)).1, l.put w (m.run (l.get w)).2)

/-- `m`, with a note of its call once it has returned. -/
def recorded {κ : Type} (call : α → κ) (m : Prog ε W α) : Prog ε (W × List κ) α := fun w =>
  match m.run w.1 with
  | (.returned a, w') => (.returned a, (w', w.2 ++ [call a]))
  | (.panicked e, w') => (.panicked e, (w', w.2))

def fstPart (W V : Type) : Part (W × V) W :=
  ⟨Prod.fst, fun w v => (v, w.2), fun _ _ => rfl, fun _ => rfl⟩

def sndPart (W V : Type) : Part (W × V) V :=
  ⟨Prod.snd, fun w v => (w.1, v), fun _ _ => rfl, fun _ => rfl⟩

/-- One member of a family. -/
def familyPart {ι : Type} [DecidableEq ι] (V : Type) (i : ι) : Part (ι → V) V where
  get family := family i
  put family v := Function.update family i v
  get_put _ _ := Function.update_self _ _ _
  put_get family := Function.update_eq_self i family

/-! ## Running -/

@[simp] theorem run_pure (a : α) (w : W) :
    (pure a : Prog ε W α).run w = (.returned a, w) := rfl

theorem run_bind (m : Prog ε W α) (f : α → Prog ε W β) (w : W) :
    (m >>= f).run w = match m.run w with
      | (.returned a, w') => (f a).run w'
      | (.panicked e, w') => (.panicked e, w') := rfl

theorem run_bind_returned {m : Prog ε W α} {f : α → Prog ε W β} {w w' : W} {a : α}
    (h : m.run w = (.returned a, w')) : (m >>= f).run w = (f a).run w' := by
  rw [run_bind, h]

theorem run_bind_panicked {m : Prog ε W α} {f : α → Prog ε W β} {w w' : W} {e : ε}
    (h : m.run w = (.panicked e, w')) : (m >>= f).run w = (.panicked e, w') := by
  rw [run_bind, h]

@[simp] theorem run_getState (w : W) :
    (getState : Prog ε W W).run w = (.returned w, w) := rfl

@[simp] theorem run_modifyState (f : W → W) (w : W) :
    (modifyState f : Prog ε W Unit).run w = (.returned (), f w) := rfl

@[simp] theorem run_raise (e : ε) (w : W) :
    (raise e : Prog ε W α).run w = (.panicked e, w) := rfl

@[simp] theorem run_ensuring (m : Prog ε W α) (cleanup : W → W) (w : W) :
    (ensuring m cleanup).run w = ((m.run w).1, cleanup (m.run w).2) := rfl

@[simp] theorem run_zoom (l : Part W V) (m : Prog ε V α) (w : W) :
    (zoom l m).run w = ((m.run (l.get w)).1, l.put w (m.run (l.get w)).2) := rfl

theorem run_recorded {κ : Type} (call : α → κ) (m : Prog ε W α) (w : W × List κ) :
    (recorded call m).run w = match m.run w.1 with
      | (.returned a, w') => (.returned a, (w', w.2 ++ [call a]))
      | (.panicked e, w') => (.panicked e, (w', w.2)) := rfl

theorem run_recorded_returned {κ : Type} {call : α → κ} {m : Prog ε W α} {w w' : W}
    {calls : List κ} {a : α} (h : m.run w = (.returned a, w')) :
    (recorded call m).run (w, calls) = (.returned a, (w', calls ++ [call a])) := by
  rw [run_recorded, h]

theorem run_recorded_eq_returned {κ : Type} {call : α → κ} {m : Prog ε W α} {w w' : W × List κ}
    {a : α} (h : (recorded call m).run w = (.returned a, w')) :
    m.run w.1 = (.returned a, w'.1) ∧ w'.2 = w.2 ++ [call a] := by
  rw [run_recorded] at h
  cases hm : m.run w.1 with
  | mk o v =>
    rw [hm] at h
    cases o with
    | returned b =>
      cases h
      exact ⟨rfl, rfl⟩
    | panicked e => cases h

theorem run_bind_eq_returned {m : Prog ε W α} {f : α → Prog ε W β} {w w' : W} {b : β}
    (h : (m >>= f).run w = (.returned b, w')) :
    ∃ a w₁, m.run w = (.returned a, w₁) ∧ (f a).run w₁ = (.returned b, w') := by
  rw [run_bind] at h
  cases hm : m.run w with
  | mk o w₁ =>
    cases o with
    | returned a =>
      rw [hm] at h
      exact ⟨a, w₁, rfl, h⟩
    | panicked e =>
      rw [hm] at h
      cases h

theorem run_bind_congr {m m' : Prog ε W α} {w : W} (h : m.run w = m'.run w)
    (f : α → Prog ε W β) : (m >>= f).run w = (m' >>= f).run w := by
  rw [run_bind, run_bind, h]

theorem Prog.bind_assoc (m : Prog ε W α) (f : α → Prog ε W β) (g : β → Prog ε W τ) :
    (m >>= f) >>= g = m >>= fun a => f a >>= g := by
  funext w
  show ((m >>= f) >>= g).run w = (m >>= fun a => f a >>= g).run w
  rw [run_bind, run_bind, run_bind]
  cases m.run w with
  | mk o w' =>
    cases o with
    | returned a => rfl
    | panicked e => rfl

theorem Prog.bind_congr (m : Prog ε W α) {f g : α → Prog ε W β} (h : ∀ a, f a = g a) :
    m >>= f = m >>= g :=
  congrArg (m >>= ·) (funext h)

/-- What a bind leaves behind: what its first program leaves when it panics, and what its second
one leaves when it does not. -/
theorem bind_leaves {m : Prog ε W α} {f : α → Prog ε W β} {w : W} {R : W → Prop}
    (hp : ∀ e w', m.run w = (.panicked e, w') → R w')
    (hr : ∀ a w', m.run w = (.returned a, w') → R ((f a).run w').2) : R ((m >>= f).run w).2 := by
  rw [run_bind]
  cases h : m.run w with
  | mk o w₁ =>
    cases o with
    | returned a => exact hr a w₁ h
    | panicked e => exact hp e w₁ h

/-! ## Invariants

`Keeps I m`: from a world in `I`, `m` leaves a world in `I`, whether it returns or panics. -/

def Keeps (I : W → Prop) (m : Prog ε W α) : Prop := ∀ w, I w → I (m.run w).2

theorem Keeps.of_run {I : W → Prop} {m : Prog ε W α} {w w' : W} {o : Outcome ε α}
    (hm : Keeps I m) (h : m.run w = (o, w')) (hw : I w) : I w' := by
  have hk := hm w hw
  rw [h] at hk
  exact hk

theorem Keeps.pure (I : W → Prop) (a : α) : Keeps I (pure a : Prog ε W α) := fun _ h => h

theorem Keeps.raise (I : W → Prop) (e : ε) : Keeps I (raise e : Prog ε W α) := fun _ h => h

theorem Keeps.getState (I : W → Prop) : Keeps I (getState : Prog ε W W) := fun _ h => h

theorem Keeps.modifyState {I : W → Prop} {f : W → W} (h : ∀ w, I w → I (f w)) :
    Keeps I (modifyState f : Prog ε W Unit) := h

theorem Keeps.recorded {κ : Type} {I : W → Prop} {call : α → κ} {m : Prog ε W α} (hm : Keeps I m) :
    Keeps (fun w => I w.1) (recorded call m) := by
  intro w hw
  have hk := hm w.1 hw
  rw [run_recorded]
  cases h : m.run w.1 with
  | mk o w' =>
    rw [h] at hk
    cases o with
    | returned a => exact hk
    | panicked e => exact hk

theorem keeps_recorded_calls {κ : Type} {C : List κ → Prop} (call : α → κ) {m : Prog ε W α}
    (h : ∀ calls a, C calls → C (calls ++ [call a])) :
    Keeps (fun w => C w.2) (recorded call m) := by
  intro w hw
  rw [run_recorded]
  cases m.run w.1 with
  | mk o w' =>
    cases o with
    | returned a => exact h w.2 a hw
    | panicked e => exact hw

/-- `Leads P Q m`: from a world in `P`, `m` leaves a world in `Q`. -/
def Leads (P Q : W → Prop) (m : Prog ε W α) : Prop := ∀ w, P w → Q (m.run w).2

theorem Leads.bind {P Q R : W → Prop} {m : Prog ε W α} {f : α → Prog ε W β} (hm : Leads P Q m)
    (hQR : ∀ w, Q w → R w) (hf : ∀ a, Leads Q R (f a)) : Leads P R (m >>= f) := by
  intro w hw
  have hq := hm w hw
  refine bind_leaves (fun e w' h => ?_) (fun a w' h => ?_)
  · rw [h] at hq
    exact hQR w' hq
  · rw [h] at hq
    exact hf a w' hq

theorem Keeps.bind {I : W → Prop} {m : Prog ε W α} {f : α → Prog ε W β}
    (hm : Keeps I m) (hf : ∀ a, Keeps I (f a)) : Keeps I (m >>= f) :=
  Leads.bind hm (fun _ h => h) hf

theorem Keeps.ensuring {I : W → Prop} {m : Prog ε W α} {cleanup : W → W}
    (hm : Keeps I m) (hc : ∀ w, I w → I (cleanup w)) : Keeps I (ensuring m cleanup) :=
  fun w hw => hc _ (hm w hw)

theorem Keeps.zoom {l : Part W V} {I : W → Prop} {J : V → Prop} {m : Prog ε V α}
    (hm : Keeps J m) (hIJ : ∀ w, I w → J (l.get w))
    (hJI : ∀ w v, I w → J v → I (l.put w v)) : Keeps I (zoom l m) :=
  fun w hw => hJI _ _ hw (hm _ (hIJ w hw))

/-! ## Return values

`Returns R m`: whatever `m` returns satisfies `R`. -/

def Returns (R : α → Prop) (m : Prog ε W α) : Prop :=
  ∀ w a w', m.run w = (.returned a, w') → R a

variable {R : α → Prop}

theorem Returns.pure {a : α} (h : R a) : Returns R (pure a : Prog ε W α) := by
  intro w a' w' hrun
  cases hrun
  exact h

theorem Returns.raise (e : ε) : Returns R (raise e : Prog ε W α) := by
  intro w a w' hrun
  cases hrun

theorem Returns.bind {m : Prog ε W β} {f : β → Prog ε W α} (hf : ∀ b, Returns R (f b)) :
    Returns R (m >>= f) := by
  intro w a w' hrun
  obtain ⟨b, w₁, -, hrest⟩ := run_bind_eq_returned hrun
  exact hf b w₁ a w' hrest

def Total (m : Prog ε W α) : Prop := ∀ w, ∃ a w', m.run w = (.returned a, w')

theorem Total.pure (a : α) : Total (pure a : Prog ε W α) := fun w => ⟨a, w, rfl⟩

theorem Total.bind {m : Prog ε W α} {f : α → Prog ε W β} (hm : Total m) (hf : ∀ a, Total (f a)) :
    Total (m >>= f) := by
  intro w
  obtain ⟨a, w₁, hrun⟩ := hm w
  obtain ⟨b, w₂, hrest⟩ := hf a w₁
  exact ⟨b, w₂, (run_bind_returned hrun).trans hrest⟩

theorem Total.zoom {l : Part W V} {m : Prog ε V α} (hm : Total m) : Total (zoom l m) := by
  intro w
  obtain ⟨a, v, hrun⟩ := hm (l.get w)
  exact ⟨a, l.put w v, by rw [run_zoom, hrun]⟩

/-! ## Answers

`Answers m as`: running `m` again and again gives the values `as`. -/

def Answers (m : Prog ε W α) : List α → W → Prop
  | [], _ => True
  | a :: as, w => ∃ w', m.run w = (.returned a, w') ∧ Answers m as w'

end GoLib.Effect
