import Mathlib.Data.List.Infix

/-! # Interleavings of the traces of several parties

A history is what all parties did, in the order in which it took effect. -/
namespace GoLib.Interleaving
set_option autoImplicit false

variable {ι κ : Type} [DecidableEq ι]

def ofParty (i : ι) (history : List (ι × κ)) : List κ :=
  history.filterMap fun step => if step.1 = i then some step.2 else none

/-- Every party has come some way along its trace. -/
def Interleaves (traces : ι → List κ) (history : List (ι × κ)) : Prop :=
  ∀ i, ofParty i history <+: traces i

theorem ofParty_append (i : ι) (h h' : List (ι × κ)) :
    ofParty i (h ++ h') = ofParty i h ++ ofParty i h' := List.filterMap_append

theorem mem_ofParty {i : ι} {a : κ} {h : List (ι × κ)} : a ∈ ofParty i h ↔ (i, a) ∈ h := by
  unfold ofParty
  rw [List.mem_filterMap]
  constructor
  · rintro ⟨⟨j, b⟩, hmem, hsome⟩
    by_cases hj : j = i
    · subst hj
      simp only [if_pos] at hsome
      obtain rfl := Option.some.inj hsome
      exact hmem
    · simp [hj] at hsome
  · intro hmem
    exact ⟨(i, a), hmem, by simp⟩

theorem ofParty_eq_append_cons {i : ι} {h : List (ι × κ)} {as bs : List κ} {a : κ}
    (heq : ofParty i h = as ++ a :: bs) :
    ∃ pre post, h = pre ++ (i, a) :: post ∧ ofParty i pre = as ∧ ofParty i post = bs := by
  obtain ⟨l₁, l₂, rfl, hl₁, hl₂⟩ := List.filterMap_eq_append_iff.mp heq
  obtain ⟨m₁, ⟨j, b⟩, m₂, rfl, hnone, hsome, hm₂⟩ := List.filterMap_eq_cons_iff.mp hl₂
  have hm₁ : ofParty i m₁ = [] := List.filterMap_eq_nil_iff.mpr hnone
  by_cases hj : j = i
  · subst hj
    simp only [if_pos, Option.some.injEq] at hsome
    subst hsome
    refine ⟨l₁ ++ m₁, m₂, by simp, ?_, hm₂⟩
    rw [ofParty_append, hm₁, List.append_nil]
    exact hl₁
  · simp [hj] at hsome

end GoLib.Interleaving
