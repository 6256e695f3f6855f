import BitsService.Lib.Effect

/-! # Retrying an operation within a time budget

The operation is called until it succeeds, fails for good, or the budget of retries is used up; a
permanent failure is unwrapped. The variables an operation captures and assigns are its argument
and part of its result, so that what one attempt leaves behind is what the next one finds. -/
namespace GoLib.Retry
open GoLib.Effect
set_option autoImplicit false

inductive Failure (δ : Type) where
  | transient (e : δ)
  | permanent (e : δ)
  deriving DecidableEq

variable {ε W δ τ : Type}

def Failure.error : Failure δ → δ
  | .transient e => e
  | .permanent e => e

@[simp] theorem Failure.error_transient (e : δ) : (Failure.transient e).error = e := rfl

@[simp] theorem Failure.error_permanent (e : δ) : (Failure.permanent e).error = e := rfl

/-- The budget is the number of retries that the elapsed time allows. The first attempt is always
made. -/
def retryNotify (op : τ → Prog ε W (Option (Failure δ) × τ)) :
    ℕ → τ → Prog ε W (Option δ × τ)
  | 0, t => do
      let (r, t) ← op t
      pure (r.map Failure.error, t)
  | budget + 1, t => do
      let (r, t) ← op t
      match r with
      | some (.transient _) => retryNotify op budget t
      | r => pure (r.map Failure.error, t)

variable {op : τ → Prog ε W (Option (Failure δ) × τ)}

theorem run_retryNotify_panicked {budget : ℕ} {t : τ} {w w' : W} {e : ε}
    (h : (op t).run w = (.panicked e, w')) :
    (retryNotify op budget t).run w = (.panicked e, w') := by
  cases budget with
  | zero => exact run_bind_panicked h
  | succ budget => exact run_bind_panicked h

theorem run_retryNotify_done (budget : ℕ) {t t' : τ} {w w' : W}
    (h : (op t).run w = (.returned (none, t'), w')) :
    (retryNotify op budget t).run w = (.returned (none, t'), w') := by
  cases budget with
  | zero => exact run_bind_returned h
  | succ budget => exact run_bind_returned h

theorem run_retryNotify_permanent {budget : ℕ} {t t' : τ} {w w' : W} {e : δ}
    (h : (op t).run w = (.returned (some (.permanent e), t'), w')) :
    (retryNotify op budget t).run w = (.returned (some e, t'), w') := by
  cases budget with
  | zero => exact run_bind_returned h
  | succ budget => exact run_bind_returned h

theorem run_retryNotify_spent {t t' : τ} {w w' : W} {e : δ}
    (h : (op t).run w = (.returned (some (.transient e), t'), w')) :
    (retryNotify op 0 t).run w = (.returned (some e, t'), w') :=
  run_bind_returned h

theorem run_retryNotify_again {budget : ℕ} {t t' : τ} {w w' : W} {e : δ}
    (h : (op t).run w = (.returned (some (.transient e), t'), w')) :
    (retryNotify op (budget + 1) t).run w = (retryNotify op budget t').run w' :=
  run_bind_returned h

/-- An attempt that fails and changes nothing fails until the budget is used up. -/
theorem run_retryNotify_stuck (budget : ℕ) {t : τ} {w : W} {e : δ}
    (h : (op t).run w = (.returned (some (.transient e), t), w)) :
    (retryNotify op budget t).run w = (.returned (some e, t), w) := by
  induction budget with
  | zero => exact run_retryNotify_spent h
  | succ budget ih => exact (run_retryNotify_again h).trans ih

/-- The rule of the loop: `Inv` holds before every attempt, and `Q` holds after every attempt that
may be the last one. -/
theorem retryNotify_rule (Inv : τ → W → Prop) (Q : Outcome ε (Option δ × τ) → W → Prop)
    (hpanic : ∀ t w e w', Inv t w → (op t).run w = (.panicked e, w') → Q (.panicked e) w')
    (hdone : ∀ t w t' w', Inv t w → (op t).run w = (.returned (none, t'), w') →
      Q (.returned (none, t')) w')
    (hfail : ∀ t w f t' w', Inv t w → (op t).run w = (.returned (some f, t'), w') →
      Q (.returned (some f.error, t')) w')
    (hretry : ∀ t w e t' w', Inv t w → (op t).run w = (.returned (some (.transient e), t'), w') →
      Inv t' w')
    (budget : ℕ) (t : τ) (w : W) (h : Inv t w) :
    Q ((retryNotify op budget t).run w).1 ((retryNotify op budget t).run w).2 := by
  induction budget generalizing t w with
  | zero =>
    rcases hop : (op t).run w with ⟨⟨r, t'⟩ | e, w'⟩
    · rcases r with _ | e | e
      · rw [run_retryNotify_done _ hop]
        exact hdone t w t' w' h hop
      · rw [run_retryNotify_spent hop]
        exact hfail t w _ t' w' h hop
      · rw [run_retryNotify_permanent hop]
        exact hfail t w _ t' w' h hop
    · rw [run_retryNotify_panicked hop]
      exact hpanic t w e w' h hop
  | succ budget ih =>
    rcases hop : (op t).run w with ⟨⟨r, t'⟩ | e, w'⟩
    · rcases r with _ | e | e
      · rw [run_retryNotify_done _ hop]
        exact hdone t w t' w' h hop
      · rw [run_retryNotify_again hop]
        exact ih t' w' (hretry t w e t' w' h hop)
      · rw [run_retryNotify_permanent hop]
        exact hfail t w _ t' w' h hop
    · rw [run_retryNotify_panicked hop]
      exact hpanic t w e w' h hop

theorem keeps_retryNotify {I : W → Prop} {T : τ → Prop} (hkeep : ∀ t, T t → Keeps I (op t))
    (hT : ∀ t, T t → Returns (fun r => T r.2) (op t)) (budget : ℕ) {t : τ} (ht : T t) :
    Keeps I (retryNotify op budget t) := by
  intro w hw
  refine retryNotify_rule (fun t w => T t ∧ I w) (fun _ w => I w)
    (fun t w e w' hi hop => ?_) (fun t w t' w' hi hop => ?_) (fun t w f t' w' hi hop => ?_)
    (fun t w e t' w' hi hop => ⟨hT t hi.1 w _ w' hop, ?_⟩) budget t w ⟨ht, hw⟩
  all_goals
    have hk := hkeep t hi.1 w hi.2
    rw [hop] at hk
    exact hk

theorem returns_retryNotify {T : τ → Prop} (hT : ∀ t, T t → Returns (fun r => T r.2) (op t))
    (budget : ℕ) {t : τ} (ht : T t) : Returns (fun r => T r.2) (retryNotify op budget t) := by
  intro w a w' hrun
  have hQ := retryNotify_rule (fun t _ => T t) (fun o _ => ∀ r, o = .returned r → T r.2)
    (fun t w e w' _ _ r hr => by cases hr)
    (fun t w t' w' hi hop r hr => by
      cases hr
      exact hT t hi w _ w' hop)
    (fun t w f t' w' hi hop r hr => by
      cases hr
      exact hT t hi w _ w' hop)
    (fun t w e t' w' hi hop => hT t hi w _ w' hop) budget t w ht
  rw [hrun] at hQ
  exact hQ a rfl

/-! ## Scripts

What each attempt meets, the first one and as many retries as the budget allows, with the failure
that comes of it. -/

section Script
variable {A : Type}

/-- The last attempt that is made: the first one that does not fail for now, or the one that the
budget ends with. -/
def lastAttempt (failure : A → Option (Failure δ)) : A → List A → A
  | a, [] => a
  | a, b :: retries =>
    match failure a with
    | some (.transient _) => lastAttempt failure b retries
    | _ => a

variable {failure : A → Option (Failure δ)}

theorem lastAttempt_of_transient {a b : A} {retries : List A} {e : δ}
    (h : failure a = some (.transient e)) :
    lastAttempt failure a (b :: retries) = lastAttempt failure b retries := by
  rw [lastAttempt, h]

theorem lastAttempt_of_final {a : A} (h : ∀ e, failure a ≠ some (.transient e))
    (retries : List A) : lastAttempt failure a retries = a := by
  cases retries with
  | nil => rfl
  | cons b retries =>
    rw [lastAttempt]
    split
    · next e ha => exact absurd ha (h e)
    · rfl

/-- A loop whose attempts meet a script ends as the last of them does. -/
theorem run_retryNotify_script {Meets : A → List A → τ → W → Prop} {R : A → τ → Prop}
    (hstep : ∀ a retries t w, Meets a retries t w → ∃ t' w',
      (op t).run w = (.returned (failure a, t'), w') ∧ R a t' ∧
        ∀ e b rest, failure a = some (.transient e) → retries = b :: rest → Meets b rest t' w')
    {a : A} {retries : List A} {t : τ} {w : W} (h : Meets a retries t w) :
    ∃ t' w', (retryNotify op retries.length t).run w =
        (.returned ((failure (lastAttempt failure a retries)).map Failure.error, t'), w') ∧
      R (lastAttempt failure a retries) t' := by
  induction retries generalizing a t w with
  | nil =>
    obtain ⟨t', w', hop, hR, -⟩ := hstep a [] t w h
    exact ⟨t', w', run_bind_returned hop, hR⟩
  | cons b retries ih =>
    obtain ⟨t', w', hop, hR, hnext⟩ := hstep a (b :: retries) t w h
    cases ha : failure a with
    | none =>
      rw [lastAttempt_of_final (by simp [ha]), ha]
      rw [ha] at hop
      exact ⟨t', w', run_retryNotify_done _ hop, hR⟩
    | some f =>
      rw [ha] at hop
      cases f with
      | permanent e =>
        rw [lastAttempt_of_final (by simp [ha]), ha]
        exact ⟨t', w', run_retryNotify_permanent hop, hR⟩
      | transient e =>
        rw [lastAttempt_of_transient ha, List.length_cons, run_retryNotify_again hop]
        exact ih (hnext e b retries ha rfl)

end Script

end GoLib.Retry
