import Mathlib.Data.List.Induction
import Mathlib.Data.Set.Function

/-! # Content-addressed stores

Every content is put under its hash, in place of whatever is there. A store gives back what was put
exactly when the hash tells the contents from each other. -/
namespace GoLib.ContentAddressed
set_option autoImplicit false

variable {Key Content : Type} [DecidableEq Key] (hash : Content → Key)

def put (m : Key → Option Content) (c : Content) : Key → Option Content :=
  Function.update m (hash c) (some c)

def putAll (m : Key → Option Content) (cs : List Content) : Key → Option Content :=
  cs.foldl (put hash) m

/-- The two hold the same under every hash. -/
def Agree (m m' : Key → Option Content) : Prop := ∀ x, m (hash x) = m' (hash x)

variable {hash} {m m' : Key → Option Content}

variable (hash) in
theorem put_hash (m : Key → Option Content) (c x : Content) :
    put hash m c (hash x) = if hash x = hash c then some c else m (hash x) := by
  by_cases hx : hash x = hash c
  · rw [if_pos hx, put, hx, Function.update_self]
  · rw [if_neg hx, put, Function.update_of_ne hx]

theorem Agree.put (h : Agree hash m m') (c : Content) :
    Agree hash (put hash m c) (put hash m' c) := by
  intro x
  rw [put_hash, put_hash, h x]

theorem Agree.putAll (h : Agree hash m m') (cs : List Content) :
    Agree hash (putAll hash m cs) (putAll hash m' cs) := by
  induction cs generalizing m m' with
  | nil => exact h
  | cons c cs ih => exact ih (h.put c)

theorem putAll_concat (m : Key → Option Content) (cs : List Content) (c : Content) :
    putAll hash m (cs ++ [c]) = put hash (putAll hash m cs) c := by
  rw [putAll, List.foldl_append]
  rfl

variable (hash) in
/-- Under the hash of a content that was put is one of the same hash. -/
theorem putAll_of_mem (m : Key → Option Content) {cs : List Content} {c : Content} (hc : c ∈ cs) :
    ∃ c' ∈ cs, hash c' = hash c ∧ putAll hash m cs (hash c) = some c' := by
  induction cs using List.reverseRecOn with
  | nil => exact absurd hc List.not_mem_nil
  | append_singleton cs d ih =>
    rw [putAll_concat, put_hash]
    by_cases hd : hash c = hash d
    · exact ⟨d, by simp, hd.symm, if_pos hd⟩
    · have hmem : c ∈ cs := by
        rcases List.mem_append.mp hc with hc | hc
        · exact hc
        · exact absurd (congrArg hash (List.mem_singleton.mp hc)) hd
      obtain ⟨c', hc', hhash, hput⟩ := ih hmem
      exact ⟨c', List.mem_append_left _ hc', hhash, (if_neg hd).trans hput⟩

/-- **What was put is given back** if and only if the hash is injective on it. -/
theorem givesBack_iff (m : Key → Option Content) (cs : List Content) :
    (∀ c ∈ cs, putAll hash m cs (hash c) = some c) ↔ Set.InjOn hash {c | c ∈ cs} := by
  constructor
  · intro h c hc c' hc' hhash
    have hput := h c hc
    rw [hhash, h c' hc'] at hput
    exact (Option.some.inj hput).symm
  · intro hinj c hc
    obtain ⟨c', hc', hhash, hput⟩ := putAll_of_mem hash m hc
    rw [hput, hinj hc' hc hhash]

end GoLib.ContentAddressed
