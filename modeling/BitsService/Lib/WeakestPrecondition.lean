import BitsService.Lib.Retry

/-! # Weakest preconditions

`wp m R E w`: from the world `w`, `m` returns a value and leaves a world in `R`, or panics and
leaves a world in `E`. -/
namespace GoLib.Effect
open GoLib.Retry
set_option autoImplicit false

variable {ε W V α β κ τ δ : Type} {R R' : α → W → Prop} {S : β → W → Prop} {E E' I : W → Prop}
  {m : Prog ε W α} {f : α → Prog ε W β} {w w' : W}

def wp (m : Prog ε W α) (R : α → W → Prop) (E : W → Prop) (w : W) : Prop :=
  match m.run w with
  | (.returned a, w') => R a w'
  | (.panicked _, w') => E w'

/-! ## From and to runs -/

theorem wp_of_returned {a : α} (h : m.run w = (.returned a, w')) (hR : R a w') : wp m R E w := by
  unfold wp
  rw [h]
  exact hR

theorem wp.returned {a : α} (hm : wp m R E w) (h : m.run w = (.returned a, w')) : R a w' := by
  unfold wp at hm
  rw [h] at hm
  exact hm

theorem wp.panicked {e : ε} (hm : wp m R E w) (h : m.run w = (.panicked e, w')) : E w' := by
  unfold wp at hm
  rw [h] at hm
  exact hm

theorem wp.exists_returned (hm : wp m R (fun _ => False) w) :
    ∃ a w', m.run w = (.returned a, w') ∧ R a w' := by
  rcases h : m.run w with ⟨a | e, w'⟩
  · exact ⟨a, w', rfl, hm.returned h⟩
  · exact (hm.panicked h).elim

/-- What holds of every ending of a run holds of its weakest precondition. -/
theorem wp_of_run (hR : ∀ a w', m.run w = (.returned a, w') → R a w')
    (hE : ∀ e w', m.run w = (.panicked e, w') → E w') : wp m R E w := by
  unfold wp
  rcases h : m.run w with ⟨a | e, w'⟩
  · exact hR a w' h
  · exact hE e w' h

theorem wp.mono (hm : wp m R E w) (hR : ∀ a w', R a w' → R' a w') (hE : ∀ w', E w' → E' w') :
    wp m R' E' w :=
  wp_of_run (fun a w' h => hR a w' (hm.returned h)) (fun _ w' h => hE w' (hm.panicked h))

theorem wp.and (hm : wp m R E w) (hm' : wp m R' E' w) :
    wp m (fun a w => R a w ∧ R' a w) (fun w => E w ∧ E' w) w :=
  wp_of_run (fun _ _ h => ⟨hm.returned h, hm'.returned h⟩)
    (fun _ _ h => ⟨hm.panicked h, hm'.panicked h⟩)

theorem wp_of_leads {P Q : W → Prop} (hm : Leads P Q m) (hw : P w) : wp m (fun _ => Q) Q w := by
  have hq := hm w hw
  refine wp_of_run (fun _ _ h => ?_) (fun _ _ h => ?_)
  · rw [h] at hq
    exact hq
  · rw [h] at hq
    exact hq

theorem wp_of_keeps (hm : Keeps I m) (hw : I w) : wp m (fun _ => I) I w := wp_of_leads hm hw

/-- What holds of both endings holds after the run. -/
theorem wp.after (hm : wp m (fun _ => I) I w) : I (m.run w).2 := by
  rcases hrun : m.run w with ⟨a | e, w'⟩
  · exact hm.returned hrun
  · exact hm.panicked hrun

theorem keeps_of_wp (h : ∀ w, I w → wp m (fun _ => I) I w) : Keeps I m := fun w hw =>
  (h w hw).after

/-- What rules out a panic is not the case when there is one. -/
theorem wp.not_of_total {p : Prop} (hm : wp m R E w) (htotal : p → Total m) :
    wp m R (fun w' => E w' ∧ ¬ p) w := by
  refine wp_of_run (fun _ _ h => hm.returned h) (fun e w' h => ⟨hm.panicked h, fun hp => ?_⟩)
  obtain ⟨a, w'', hrun⟩ := htotal hp w
  rw [hrun] at h
  cases h

/-! ## The constructions -/

@[simp] theorem wp_pure (a : α) : wp (pure a : Prog ε W α) R E w ↔ R a w := Iff.rfl

@[simp] theorem wp_raise (e : ε) : wp (raise e : Prog ε W α) R E w ↔ E w := Iff.rfl

@[simp] theorem wp_getState {R : W → W → Prop} :
    wp (getState : Prog ε W W) R E w ↔ R w w := Iff.rfl

@[simp] theorem wp_modifyState (g : W → W) {R : Unit → W → Prop} :
    wp (modifyState g : Prog ε W Unit) R E w ↔ R () (g w) := Iff.rfl

theorem wp_bind : wp (m >>= f) S E w ↔ wp m (fun a => wp (f a) S E) E w := by
  unfold wp
  rw [run_bind]
  rcases m.run w with ⟨a | e, w'⟩
  · exact Iff.rfl
  · exact Iff.rfl

theorem wp.bind (hm : wp m R E' w) (hf : ∀ a w', R a w' → wp (f a) S E w')
    (hE : ∀ w', E' w' → E w') : wp (m >>= f) S E w :=
  wp_bind.mpr (hm.mono hf hE)

/-- A step of which it only matters that it keeps `I`. -/
theorem wp_bind_of_keeps (hm : Keeps I m) (hw : I w) (hf : ∀ a w', I w' → wp (f a) S E w')
    (hE : ∀ w', I w' → E w') : wp (m >>= f) S E w :=
  (wp_of_keeps hm hw).bind hf hE

theorem wp_ensuring (cleanup : W → W) : wp (ensuring m cleanup) R E w ↔
    wp m (fun a w' => R a (cleanup w')) (fun w' => E (cleanup w')) w := by
  unfold wp
  rw [run_ensuring]
  rcases m.run w with ⟨a | e, w'⟩
  · exact Iff.rfl
  · exact Iff.rfl

theorem wp_zoom (l : Part W V) {m : Prog ε V α} : wp (zoom l m) R E w ↔
    wp m (fun a v => R a (l.put w v)) (fun v => E (l.put w v)) (l.get w) := by
  unfold wp
  rw [run_zoom]
  rcases m.run (l.get w) with ⟨a | e, v⟩
  · exact Iff.rfl
  · exact Iff.rfl

/-! ## Noted calls -/

/-- `m`, with a note of how its call ended. -/
def noted (call : Outcome ε α → κ) (m : Prog ε W α) : Prog ε (W × List κ) α := fun w =>
  ((m.run w.1).1, ((m.run w.1).2, w.2 ++ [call (m.run w.1).1]))

@[simp] theorem run_noted (call : Outcome ε α → κ) (m : Prog ε W α) (w : W × List κ) :
    (noted call m).run w =
      ((m.run w.1).1, ((m.run w.1).2, w.2 ++ [call (m.run w.1).1])) := rfl

/-- What is known of a noted call is how it ended. -/
theorem wp_noted {call : Outcome ε α → κ} {w : W × List κ} {R : α → W × List κ → Prop}
    {E : W × List κ → Prop} (hR : ∀ a v, R a (v, w.2 ++ [call (.returned a)]))
    (hE : ∀ e v, E (v, w.2 ++ [call (.panicked e)])) : wp (noted call m) R E w := by
  unfold wp
  rw [run_noted]
  rcases m.run w.1 with ⟨a | e, v⟩
  · exact hR a v
  · exact hE e v

/-! ## Retries -/

/-- `Inv` holds before every attempt, and `R` after every attempt that may be the last one. -/
theorem wp_retryNotify {op : τ → Prog ε W (Option (Failure δ) × τ)} (Inv : τ → W → Prop)
    (R : Option δ × τ → W → Prop)
    (hop : ∀ t w, Inv t w → wp (op t) (fun r w' => R (r.1.map Failure.error, r.2) w' ∧
      ∀ e, r.1 = some (.transient e) → Inv r.2 w') E w)
    (budget : ℕ) {t : τ} (hw : Inv t w) : wp (retryNotify op budget t) R E w := by
  induction budget generalizing t w with
  | zero => exact (hop t w hw).bind (fun _ _ h => h.1) (fun _ h => h)
  | succ budget ih =>
    refine (hop t w hw).bind (fun r w' h => ?_) (fun _ h => h)
    obtain ⟨r, t'⟩ := r
    rcases r with _ | e | e
    · exact h.1
    · exact ih (h.2 e rfl)
    · exact h.1

end GoLib.Effect
