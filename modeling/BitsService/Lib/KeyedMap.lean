import Mathlib.Logic.Function.Basic

/-! # Maps, and maps inside maps

The operations of a map from keys to values, with what is answered for a key that is absent. A map
can be kept inside another one, under encoded keys: its operations are then those of the outer map,
and two maps whose encoded keys never meet do not notice each other. -/
namespace GoLib.KeyedMap
set_option autoImplicit false

inductive MapOp (K V : Type) where
  | existsKey (k : K)
  | get (k : K)
  | put (k : K) (v : V)
  | copy (src dest : K)
  | delete (k : K)

inductive MapAnswer (V ε : Type) where
  | existed (answer : Except ε Bool)
  | got (answer : Except ε V)
  | done (answer : Except ε Unit)

/-- What is answered for a key that is absent. -/
structure Absence (K ε : Type) where
  get : K → ε
  copy : K → ε
  delete : K → Except ε Unit

variable {I J K V ε : Type}

def Absence.comap (absence : Absence K ε) (enc : I → K) : Absence I ε :=
  ⟨fun i => absence.get (enc i), fun i => absence.copy (enc i), fun i => absence.delete (enc i)⟩

namespace MapOp

def map (enc : I → K) : MapOp I V → MapOp K V
  | existsKey i => existsKey (enc i)
  | get i => get (enc i)
  | put i v => put (enc i) v
  | copy src dest => copy (enc src) (enc dest)
  | delete i => delete (enc i)

theorem map_map (f : I → J) (g : J → K) (op : MapOp I V) : (op.map f).map g = op.map (g ∘ f) := by
  cases op <;> rfl

/-- The key that an operation may change. -/
def target : MapOp K V → Option K
  | existsKey _ => none
  | get _ => none
  | put k _ => some k
  | copy _ dest => some dest
  | delete k => some k

theorem target_map (enc : I → K) (op : MapOp I V) :
    (op.map enc).target = op.target.map enc := by
  cases op <;> rfl

variable [DecidableEq K] (absence : Absence K ε)

def step : MapOp K V → (K → Option V) → MapAnswer V ε × (K → Option V)
  | existsKey k, m => (.existed (.ok (m k).isSome), m)
  | get k, m =>
    match m k with
    | none => (.got (.error (absence.get k)), m)
    | some v => (.got (.ok v), m)
  | put k v, m => (.done (.ok ()), Function.update m k (some v))
  | copy src dest, m =>
    match m src with
    | none => (.done (.error (absence.copy src)), m)
    | some v => (.done (.ok ()), Function.update m dest (some v))
  | delete k, m =>
    match m k with
    | none => (.done (absence.delete k), m)
    | some _ => (.done (.ok ()), Function.update m k none)

/-- An operation changes its target at most. -/
theorem step_update (op : MapOp K V) (m : K → Option V) :
    (step absence op m).2 = m ∨
      ∃ k v, op.target = some k ∧ (step absence op m).2 = Function.update m k v := by
  cases op with
  | existsKey k => exact .inl rfl
  | get k =>
    rw [step]
    cases m k with
    | none => exact .inl rfl
    | some v => exact .inl rfl
  | put k v => exact .inr ⟨k, some v, rfl, rfl⟩
  | copy src dest =>
    rw [step]
    cases m src with
    | none => exact .inl rfl
    | some v => exact .inr ⟨dest, some v, rfl, rfl⟩
  | delete k =>
    rw [step]
    cases m k with
    | none => exact .inl rfl
    | some v => exact .inr ⟨k, none, rfl, rfl⟩

theorem step_other (op : MapOp K V) (m : K → Option V) {k : K} (h : op.target ≠ some k) :
    (step absence op m).2 k = m k := by
  rcases step_update absence op m with hsame | ⟨k', v, htarget, hupdate⟩
  · rw [hsame]
  · have hne : k ≠ k' := fun heq => h (heq ▸ htarget)
    rw [hupdate, Function.update_of_ne hne]

/-! ## A map inside a map -/

variable {enc : I → K}

/-- Maps whose keys never meet do not notice each other. -/
theorem step_disjoint {enc' : J → K} (h : ∀ i j, enc i ≠ enc' j) (op : MapOp I V)
    (m : K → Option V) : (step absence (op.map enc) m).2 ∘ enc' = m ∘ enc' := by
  funext j
  refine step_other absence (op.map enc) m fun htarget => ?_
  rw [target_map] at htarget
  obtain ⟨i, -, hi⟩ := Option.map_eq_some_iff.mp htarget
  exact h i j hi

variable [DecidableEq I]

/-- **A map under encoded keys is a map.** -/
theorem step_comap (henc : Function.Injective enc) (op : MapOp I V) (m : K → Option V) :
    (step absence (op.map enc) m).1 = (step (absence.comap enc) op (m ∘ enc)).1 ∧
      (step absence (op.map enc) m).2 ∘ enc = (step (absence.comap enc) op (m ∘ enc)).2 := by
  cases op with
  | existsKey i => exact ⟨rfl, rfl⟩
  | get i =>
    simp only [map, step, Function.comp_apply]
    cases m (enc i) with
    | none => exact ⟨rfl, rfl⟩
    | some v => exact ⟨rfl, rfl⟩
  | put i v => exact ⟨rfl, Function.update_comp_eq_of_injective m henc i (some v)⟩
  | copy src dest =>
    simp only [map, step, Function.comp_apply]
    cases m (enc src) with
    | none => exact ⟨rfl, rfl⟩
    | some v => exact ⟨rfl, Function.update_comp_eq_of_injective m henc dest (some v)⟩
  | delete i =>
    simp only [map, step, Function.comp_apply]
    cases m (enc i) with
    | none => exact ⟨rfl, rfl⟩
    | some v => exact ⟨rfl, Function.update_comp_eq_of_injective m henc i none⟩

end MapOp

end GoLib.KeyedMap
