import BitsService.Lib.OperationRuns
import BitsService.Lib.Retry

/-! # Programs that run alike

From related worlds two programs end in the same way, and leave related worlds. What is built in the
same way from programs that run alike runs alike itself, so a program may be carried over from one
implementation of what it calls to another. -/
namespace GoLib.Coupling
open GoLib.Effect GoLib.OperationRuns GoLib.Retry
set_option autoImplicit false

variable {ε W V W' V' α β δ τ : Type} {R : W → V → Prop}

def Alike (R : W → V → Prop) (m : Prog ε W α) (m' : Prog ε V α) : Prop :=
  ∀ w v, R w v → (m.run w).1 = (m'.run v).1 ∧ R (m.run w).2 (m'.run v).2

theorem Alike.of_run {m : Prog ε W α} {m' : Prog ε V α} {w w' : W} {v : V} {o : Outcome ε α}
    (h : Alike R m m') (hR : R w v) (hrun : m.run w = (o, w')) :
    ∃ v', m'.run v = (o, v') ∧ R w' v' := by
  obtain ⟨houtcome, hR'⟩ := h w v hR
  rw [hrun] at houtcome hR'
  exact ⟨(m'.run v).2, Prod.ext houtcome.symm rfl, hR'⟩

theorem Alike.pure (a : α) : Alike R (pure a : Prog ε W α) (pure a : Prog ε V α) :=
  fun _ _ h => ⟨rfl, h⟩

theorem Alike.raise (e : ε) : Alike R (raise e : Prog ε W α) (raise e : Prog ε V α) :=
  fun _ _ h => ⟨rfl, h⟩

theorem Alike.modifyState {f : W → W} {g : V → V} (h : ∀ w v, R w v → R (f w) (g v)) :
    Alike R (modifyState f : Prog ε W Unit) (modifyState g : Prog ε V Unit) :=
  fun w v hR => ⟨rfl, h w v hR⟩

theorem Alike.bind {m : Prog ε W α} {m' : Prog ε V α} {f : α → Prog ε W β} {f' : α → Prog ε V β}
    (hm : Alike R m m') (hf : ∀ a, Alike R (f a) (f' a)) : Alike R (m >>= f) (m' >>= f') := by
  intro w v hR
  rcases hrun : m.run w with ⟨a | e, w₁⟩
  · obtain ⟨v₁, hrun', hR₁⟩ := hm.of_run hR hrun
    rw [run_bind_returned hrun, run_bind_returned hrun']
    exact hf a w₁ v₁ hR₁
  · obtain ⟨v₁, hrun', hR₁⟩ := hm.of_run hR hrun
    rw [run_bind_panicked hrun, run_bind_panicked hrun']
    exact ⟨rfl, hR₁⟩

theorem Alike.pure_bind {a : α} {f : α → Prog ε W β} {f' : α → Prog ε V β}
    (h : Alike R (f a) (f' a)) :
    Alike R ((Pure.pure a : Prog ε W α) >>= f) ((Pure.pure a : Prog ε V α) >>= f') := h

theorem Alike.ensuring {m : Prog ε W α} {m' : Prog ε V α} {f : W → W} {g : V → V}
    (hm : Alike R m m') (h : ∀ w v, R w v → R (f w) (g v)) :
    Alike R (ensuring m f) (ensuring m' g) :=
  fun w v hR => ⟨(hm w v hR).1, h _ _ (hm w v hR).2⟩

/-- Parts of the worlds that are related, and written back to related worlds. -/
theorem Alike.zoom {S : W' → V' → Prop} {l : Part W W'} {l' : Part V V'} {m : Prog ε W' α}
    {m' : Prog ε V' α} (hm : Alike S m m') (hget : ∀ w v, R w v → S (l.get w) (l'.get v))
    (hput : ∀ w v s t, R w v → S s t → R (l.put w s) (l'.put v t)) :
    Alike R (zoom l m) (zoom l' m') := by
  intro w v hR
  obtain ⟨houtcome, hS⟩ := hm _ _ (hget w v hR)
  exact ⟨houtcome, hput w v _ _ hR hS⟩

/-- A note that only one of them takes. -/
theorem Alike.recorded {κ : Type} {S : W × List κ → V → Prop} {call : α → κ} {m : Prog ε W α}
    {m' : Prog ε V α} (hm : Alike R m m') (hget : ∀ w v, S w v → R w.1 v)
    (hreturned : ∀ w v w' v' a, S w v → R w' v' → S (w', w.2 ++ [call a]) v')
    (hpanicked : ∀ w v w' v', S w v → R w' v' → S (w', w.2) v') :
    Alike S (recorded call m) m' := by
  intro w v hS
  obtain ⟨houtcome, hR⟩ := hm w.1 v (hget w v hS)
  rw [run_recorded]
  rcases hrun : m.run w.1 with ⟨a | e, w'⟩
  · rw [hrun] at houtcome hR
    exact ⟨houtcome, hreturned w v w' _ a hS hR⟩
  · rw [hrun] at houtcome hR
    exact ⟨houtcome, hpanicked w v w' _ hS hR⟩

theorem alike_retryNotify {op : τ → Prog ε W (Option (Failure δ) × τ)}
    {op' : τ → Prog ε V (Option (Failure δ) × τ)} (h : ∀ t, Alike R (op t) (op' t)) (budget : ℕ)
    (t : τ) : Alike R (retryNotify op budget t) (retryNotify op' budget t) := by
  induction budget generalizing t with
  | zero => exact Alike.bind (h t) fun _ => Alike.pure _
  | succ budget ih =>
    refine Alike.bind (h t) fun r => ?_
    obtain ⟨r, t'⟩ := r
    rcases r with _ | e | e
    · exact Alike.pure _
    · exact ih t'
    · exact Alike.pure _

/-! ## Runs -/

section Runs
variable {O A S T : Type} {Q : S → T → Prop} {allowed : O → Prop} {step : O → S → A × S}
  {step' : O → T → A × T}

/-- **Steps that are taken alike make runs alike.** -/
theorem runAll_alike
    (h : ∀ op s t, allowed op → Q s t →
      (step op s).1 = (step' op t).1 ∧ Q (step op s).2 (step' op t).2)
    {ops : List O} (hops : ∀ op ∈ ops, allowed op) {s : S} {t : T} (hQ : Q s t) :
    (runAll step ops s).1 = (runAll step' ops t).1 ∧
      Q (runAll step ops s).2 (runAll step' ops t).2 := by
  induction ops generalizing s t with
  | nil => exact ⟨rfl, hQ⟩
  | cons op ops ih =>
    obtain ⟨hop, hrest⟩ := List.forall_mem_cons.mp hops
    obtain ⟨hanswer, hQ'⟩ := h op s t hop hQ
    obtain ⟨hanswers, hQ''⟩ := ih hrest hQ'
    exact ⟨congrArg₂ List.cons hanswer hanswers, hQ''⟩

end Runs

end GoLib.Coupling
