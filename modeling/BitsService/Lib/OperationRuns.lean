import BitsService.Lib.Effect
import Mathlib.Data.List.Basic

/-! # Runs of operations

A program is run on one operation after the other. It refines a step function over an abstract view
of its world when every single operation does. Where the view has two sides and every operation acts
on one of them, each side runs as if it were alone. Two programs that step differently on some
operations answer alike for as long as no such operation comes. -/
namespace GoLib.OperationRuns
open GoLib.Effect
set_option autoImplicit false

variable {O P A B S T ε W : Type}

def runAll (step : O → S → A × S) : List O → S → List A × S
  | [], s => ([], s)
  | op :: ops, s =>
    ((step op s).1 :: (runAll step ops (step op s).2).1, (runAll step ops (step op s).2).2)

theorem runAll_append_snd (step : O → S → A × S) (ops ops' : List O) (s : S) :
    (runAll step (ops ++ ops') s).2 = (runAll step ops' (runAll step ops s).2).2 := by
  induction ops generalizing s with
  | nil => rfl
  | cons op ops ih => exact ih _

def performAll (perform : O → Prog ε W A) : List O → Prog ε W (List A)
  | [] => pure []
  | op :: ops => do
    let answer ← perform op
    let answers ← performAll perform ops
    pure (answer :: answers)

/-- `m` answers and moves the view as `next` says. -/
def Shows (view : W → S) (m : Prog ε W A) (next : S → A × S) : Prop :=
  ∀ w, ∃ w', m.run w = (.returned (next (view w)).1, w') ∧ view w' = (next (view w)).2

theorem Shows.map {view : W → S} {m : Prog ε W A} {next : S → A × S} (h : Shows view m next)
    (f : A → B) : Shows view (do pure (f (← m))) fun s => (f (next s).1, (next s).2) := by
  intro w
  obtain ⟨w', hrun, hview⟩ := h w
  exact ⟨w', (run_bind_returned hrun).trans rfl, hview⟩

/-- The same program, seen through a view of the view. -/
theorem Shows.comap {view : W → S} {m : Prog ε W A} {next : S → A × S} (h : Shows view m next)
    {f : S → T} {next' : T → A × T}
    (hnext : ∀ s, (next s).1 = (next' (f s)).1 ∧ f (next s).2 = (next' (f s)).2) :
    Shows (fun w => f (view w)) m next' := by
  intro w
  obtain ⟨w', hrun, hview⟩ := h w
  obtain ⟨hanswer, hstate⟩ := hnext (view w)
  rw [hanswer] at hrun
  exact ⟨w', hrun, (congrArg f hview).trans hstate⟩

theorem Shows.performAll {view : W → S} {perform : O → Prog ε W A} {step : O → S → A × S}
    (h : ∀ op, Shows view (perform op) (step op)) (ops : List O) :
    Shows view (performAll perform ops) (runAll step ops) := by
  induction ops with
  | nil => exact fun w => ⟨w, rfl, rfl⟩
  | cons op ops ih =>
    intro w
    obtain ⟨w₁, hrun, hview⟩ := h op w
    obtain ⟨w₂, hrest, hview'⟩ := ih w₁
    rw [hview] at hrest hview'
    refine ⟨w₂, ?_, hview'⟩
    exact (run_bind_returned hrun).trans (run_bind_returned hrest)

/-! ## Simulation under an invariant -/

/-- `m` answers as `next` says, and leaves a world that is related to the state there. -/
def RunsTo (R : S → W → Prop) (m : Prog ε W A) (next : A × S) (w : W) : Prop :=
  ∃ w', m.run w = (.returned next.1, w') ∧ R next.2 w'

/-- Operations answer as `step` says, and keep the world related to its state. -/
def Simulates (R : S → W → Prop) (perform : O → Prog ε W A) (step : O → S → A × S) : Prop :=
  ∀ op s w, R s w → RunsTo R (perform op) (step op s) w

theorem Simulates.performAll {R : S → W → Prop} {perform : O → Prog ε W A} {step : O → S → A × S}
    (h : Simulates R perform step) (ops : List O) {s : S} {w : W} (hrelated : R s w) :
    RunsTo R (performAll perform ops) (runAll step ops s) w := by
  induction ops generalizing s w with
  | nil => exact ⟨w, rfl, hrelated⟩
  | cons op ops ih =>
    obtain ⟨w₁, hrun, hrelated₁⟩ := h op s w hrelated
    obtain ⟨w₂, hrest, hrelated₂⟩ := ih hrelated₁
    exact ⟨w₂, (run_bind_returned hrun).trans (run_bind_returned hrest), hrelated₂⟩

/-! ## Two step functions -/

section Compared
variable {left right : O → S → A × S} {allowed : O → S → Prop} {tests : List O → Prop}

/-- Every operation is allowed in the state that it comes in. -/
def AllAllowed (step : O → S → A × S) (allowed : O → S → Prop) : List O → S → Prop
  | [], _ => True
  | op :: ops, s => allowed op s ∧ AllAllowed step allowed ops (step op s).2

theorem runAll_append_fst (hsame : ∀ op s, allowed op s → left op s = right op s)
    {test : List O} (htest : ∀ s, (runAll left test s).1 = (runAll right test s).1)
    {pre : List O} {s : S} (h : AllAllowed left allowed pre s) :
    (runAll left (pre ++ test) s).1 = (runAll right (pre ++ test) s).1 := by
  induction pre generalizing s with
  | nil => exact htest s
  | cons op pre ih =>
    obtain ⟨hop, hrest⟩ := h
    have htail := ih hrest
    simp only [List.cons_append, runAll, ← hsame op s hop, htail]

theorem AllAllowed.initial {step : O → S → A × S} {ops pre : List O} {s : S}
    (h : AllAllowed step allowed ops s) (hpre : pre <+: ops) :
    AllAllowed step allowed pre s := by
  obtain ⟨rest, rfl⟩ := hpre
  induction pre generalizing s with
  | nil => trivial
  | cons op pre ih => exact ⟨h.1, ih h.2⟩

/-- **Two step functions answer alike**, in every beginning of a run and whatever is tried after
it, exactly as long as every operation of the run is allowed: allowed operations are those on which
they step alike, and any other can be told. -/
theorem runAll_fst_eq_iff (hsame : ∀ op s, allowed op s → left op s = right op s)
    (htests : ∀ test, tests test → ∀ s, (runAll left test s).1 = (runAll right test s).1)
    (htold : ∀ op s, ¬ allowed op s → ∃ test, tests test ∧
      (runAll left (op :: test) s).1 ≠ (runAll right (op :: test) s).1) (ops : List O) (s : S) :
    (∀ pre, pre <+: ops → ∀ test, tests test →
        (runAll left (pre ++ test) s).1 = (runAll right (pre ++ test) s).1) ↔
      AllAllowed left allowed ops s := by
  constructor
  · intro h
    induction ops generalizing s with
    | nil => trivial
    | cons op ops ih =>
      have hop : allowed op s := by
        by_contra hnot
        obtain ⟨test, htest, hapart⟩ := htold op s hnot
        exact hapart (h [op] (List.prefix_append [op] ops) test htest)
      refine ⟨hop, ih _ fun pre hpre test htest => ?_⟩
      have hcons := h (op :: pre) (List.cons_prefix_cons.mpr ⟨rfl, hpre⟩) test htest
      have htail := (List.cons.inj hcons).2
      rwa [← hsame op s hop] at htail
  · intro h pre hpre test htest
    exact runAll_append_fst hsame (htests test htest) (h.initial hpre)

end Compared

/-! ## Operations that are refused -/

section Refused
variable {step : O → S → A × S} (accepts : O → Bool) (refusal : O → A)

/-- The answers to all operations, from those to the accepted ones. -/
def withRefusals : List O → List A → List A
  | [], _ => []
  | op :: ops, answers =>
    if accepts op then
      match answers with
      | [] => []
      | answer :: answers => answer :: withRefusals ops answers
    else refusal op :: withRefusals ops answers

variable {accepts refusal}

/-- **Operations that are refused are not noticed, and notice nothing.** -/
theorem runAll_eq_withRefusals
    (h : ∀ op s, accepts op = false → step op s = (refusal op, s)) (ops : List O) (s : S) :
    runAll step ops s =
      (withRefusals accepts refusal ops (runAll step (ops.filter accepts) s).1,
        (runAll step (ops.filter accepts) s).2) := by
  induction ops generalizing s with
  | nil => rfl
  | cons op ops ih =>
    cases hop : accepts op with
    | true =>
      rw [List.filter_cons_of_pos hop, runAll, ih]
      simp only [runAll, withRefusals, hop, if_true]
    | false =>
      rw [List.filter_cons_of_neg (by simp [hop]), runAll, h op s hop, ih]
      simp only [withRefusals, hop, Bool.false_eq_true, if_false]

end Refused

/-! ## Two sides -/

def onSides (left : O → S → A × S) (right : P → T → B × T) :
    O ⊕ P → S × T → (A ⊕ B) × (S × T)
  | .inl op, (s, t) => (.inl (left op s).1, ((left op s).2, t))
  | .inr op, (s, t) => (.inr (right op t).1, (s, (right op t).2))

def lefts (l : List (A ⊕ B)) : List A := l.filterMap Sum.getLeft?

def rights (l : List (A ⊕ B)) : List B := l.filterMap Sum.getRight?

variable (left : O → S → A × S) (right : P → T → B × T)

/-- **Each side runs as if it were alone.** -/
theorem runAll_onSides (ops : List (O ⊕ P)) (s : S) (t : T) :
    lefts (runAll (onSides left right) ops (s, t)).1 = (runAll left (lefts ops) s).1 ∧
      rights (runAll (onSides left right) ops (s, t)).1 = (runAll right (rights ops) t).1 ∧
      (runAll (onSides left right) ops (s, t)).2 =
        ((runAll left (lefts ops) s).2, (runAll right (rights ops) t).2) := by
  induction ops generalizing s t with
  | nil => exact ⟨rfl, rfl, rfl⟩
  | cons op ops ih =>
    cases op with
    | inl op =>
      obtain ⟨hleft, hright, hstate⟩ := ih (left op s).2 t
      exact ⟨congrArg ((left op s).1 :: ·) hleft, hright, hstate⟩
    | inr op =>
      obtain ⟨hleft, hright, hstate⟩ := ih s (right op t).2
      exact ⟨hleft, congrArg ((right op t).1 :: ·) hright, hstate⟩

end GoLib.OperationRuns
