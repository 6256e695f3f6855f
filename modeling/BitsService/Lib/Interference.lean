import BitsService.Lib.Effect
import BitsService.Lib.Interleaving

/-! # A service that several parties use

A history is what all parties did to a service, in the order in which it took effect. Each party
finds the service as the steps before its own have left it. What a party guarantees whatever it
finds holds of its steps in every history, and what all steps of a history preserve is there
whenever a party looks. -/
namespace GoLib.Interference
open GoLib.Effect GoLib.Interleaving
set_option autoImplicit false

variable {ι κ S ε α : Type}

/-- A service under a history: its state, the steps that are still to come, and the calls that the
party which runs has made. -/
structure SharedService (ι κ S : Type) where
  service : S
  ahead : List (ι × κ)
  made : List κ

def SharedService.start (s : S) (history : List (ι × κ)) : SharedService ι κ S := ⟨s, history, []⟩

def after (effect : κ → S → S) (steps : List (ι × κ)) (s : S) : S :=
  steps.foldl (fun s step => effect step.2 s) s

theorem after_append {effect : κ → S → S} (before steps : List (ι × κ)) (s : S) :
    after effect (before ++ steps) s = after effect steps (after effect before s) :=
  List.foldl_append

theorem after_keeps {effect : κ → S → S} {R : S → Prop} {steps : List (ι × κ)} {s : S}
    (hsteps : ∀ step ∈ steps, ∀ s, R s → R (effect step.2 s)) (hs : R s) :
    R (after effect steps s) := by
  induction steps generalizing s with
  | nil => exact hs
  | cons step steps ih =>
    obtain ⟨hstep, hrest⟩ := List.forall_mem_cons.mp hsteps
    exact ih hrest (hstep s hs)

variable [DecidableEq ι] (effect : κ → S → S) (me : ι)

/-- The service when the others have taken the steps before the next one of `me`, and the steps
after that one. -/
def untilOwn : List (ι × κ) → S → S × List (ι × κ)
  | [], s => (s, [])
  | (i, call) :: ahead, s => if i = me then (s, ahead) else untilOwn ahead (effect call s)

/-- A call of `me`, which comes when the others have taken the steps before it. -/
def along (call : κ) (m : Prog ε S α) : Prog ε (SharedService ι κ S) α := fun w =>
  let (s, ahead) := untilOwn effect me w.ahead w.service
  ((m.run s).1, ⟨(m.run s).2, ahead, w.made ++ [call]⟩)

/-- From the first step of `me` on, the service is in `R` and stays there. -/
def StaysIn (R : S → Prop) (w : SharedService ι κ S) : Prop :=
  ∃ before ahead, w.ahead = before ++ ahead ∧ ofParty me before = [] ∧
    R (after effect before w.service) ∧ ∀ step ∈ ahead, ∀ s, R s → R (effect step.2 s)

variable {effect me}

theorem untilOwn_of_others {before : List (ι × κ)} (h : ofParty me before = [])
    (ahead : List (ι × κ)) (s : S) :
    untilOwn effect me (before ++ ahead) s = untilOwn effect me ahead (after effect before s) := by
  induction before generalizing s with
  | nil => rfl
  | cons step before ih =>
    obtain ⟨i, call⟩ := step
    have hne : i ≠ me := by
      rintro rfl
      exact absurd (mem_ofParty.mpr List.mem_cons_self) (h ▸ List.not_mem_nil)
    have hrest : ofParty me before = [] := by
      simpa [ofParty, hne] using h
    rw [List.cons_append, untilOwn, if_neg hne, ih hrest]
    rfl

theorem untilOwn_keeps {R : S → Prop} {ahead : List (ι × κ)} {s : S}
    (hahead : ∀ step ∈ ahead, ∀ s, R s → R (effect step.2 s)) (hs : R s) :
    R (untilOwn effect me ahead s).1 ∧
      ∀ step ∈ (untilOwn effect me ahead s).2, ∀ s, R s → R (effect step.2 s) := by
  induction ahead generalizing s with
  | nil => exact ⟨hs, hahead⟩
  | cons step ahead ih =>
    obtain ⟨i, call⟩ := step
    obtain ⟨hstep, hrest⟩ := List.forall_mem_cons.mp hahead
    unfold untilOwn
    by_cases hi : i = me
    · rw [if_pos hi]
      exact ⟨hs, hrest⟩
    · rw [if_neg hi]
      exact ih hrest (hstep s hs)

/-- A call in a settled service meets a state in `R`, and leaves the service settled if it leaves
one. -/
theorem StaysIn.run_along {R : S → Prop} {w : SharedService ι κ S}
    (h : StaysIn effect me R w) (call : κ) (m : Prog ε S α) : ∃ s ahead, R s ∧
      (along effect me call m).run w =
        ((m.run s).1, ⟨(m.run s).2, ahead, w.made ++ [call]⟩) ∧
      ∀ s', R s' → StaysIn effect me R ⟨s', ahead, w.made ++ [call]⟩ := by
  obtain ⟨before, ahead, hahead, hbefore, hs, hrest⟩ := h
  have hleft : R (untilOwn effect me ahead (after effect before w.service)).1 ∧
      ∀ step ∈ (untilOwn effect me ahead (after effect before w.service)).2,
        ∀ s, R s → R (effect step.2 s) := untilOwn_keeps hrest hs
  obtain ⟨hstate, hleft⟩ := hleft
  refine ⟨_, _, hstate, ?_, fun s' hs' => ⟨[], _, rfl, rfl, hs', hleft⟩⟩
  rw [← untilOwn_of_others hbefore, ← hahead]
  rfl

/-- What a call returns in every state of `R` it returns in a settled service. -/
theorem StaysIn.run_along_returned {R : S → Prop} {w : SharedService ι κ S}
    (h : StaysIn effect me R w) (call : κ) {m : Prog ε S α} {a : α}
    (hm : ∀ s, R s → ∃ s', m.run s = (.returned a, s') ∧ R s') :
    ∃ w', (along effect me call m).run w = (.returned a, w') ∧ StaysIn effect me R w' := by
  obtain ⟨s, ahead, hs, hrun, hsettled⟩ := h.run_along call m
  obtain ⟨s', hm', hs'⟩ := hm s hs
  rw [hrun, hm']
  exact ⟨_, rfl, hsettled s' hs'⟩

/-! ## Guarantees -/

theorem keeps_made {G : κ → Prop} {call : κ} (hcall : G call) (m : Prog ε S α) :
    Keeps (fun w : SharedService ι κ S => ∀ c ∈ w.made, G c) (along effect me call m) := by
  intro w hw c hc
  rcases List.mem_append.mp hc with hc | hc
  · exact hw c hc
  · rw [List.mem_singleton.mp hc]
    exact hcall

/-- What every party guarantees of its calls holds of every step of a history. -/
theorem guaranteed_of_interleaves {G : κ → Prop} {traces : ι → List κ} {history : List (ι × κ)}
    (h : Interleaves traces history) (hG : ∀ i, ∀ c ∈ traces i, G c) :
    ∀ step ∈ history, G step.2 := by
  rintro ⟨i, call⟩ hstep
  exact hG i call ((h i).subset (mem_ofParty.mpr hstep))

end GoLib.Interference
