import Mathlib.Data.Nat.Notation
import Mathlib.Data.List.Basic
import Mathlib.Data.List.Infix

/-! # Lexical paths

A cleaned path is an anchor, the root or some number of steps above the start, and the names below
it. A walk of ups and names has a normal form, so many steps up and then names, and the walk from
any path is that climb followed by that descent. -/
namespace GoLib.LexicalPath
set_option autoImplicit false

inductive Anchor where
  | root
  | up (n : ℕ)
  deriving DecidableEq

structure Loc (Name : Type) where
  anchor : Anchor
  names : List Name
  deriving DecidableEq

inductive Move (Name : Type) where
  | up
  | into (name : Name)
  deriving DecidableEq

variable {Name : Type}

def Anchor.up' : Anchor → Anchor
  | .root => .root
  | .up n => .up (n + 1)

namespace Loc

def here : Loc Name := ⟨.up 0, []⟩

def step (l : Loc Name) : Move Name → Loc Name
  | .into name => ⟨l.anchor, l.names ++ [name]⟩
  | .up => if l.names = [] then ⟨l.anchor.up', []⟩ else ⟨l.anchor, l.names.dropLast⟩

def walk (l : Loc Name) (moves : List (Move Name)) : Loc Name := moves.foldl step l

def dir (l : Loc Name) : Loc Name :=
  if l.names = [] then
    match l.anchor with
    | .root => l
    | .up n => ⟨.up (n - 1), []⟩
  else ⟨l.anchor, l.names.dropLast⟩

def descend (l : Loc Name) (names : List Name) : Loc Name := ⟨l.anchor, l.names ++ names⟩

def climb (l : Loc Name) : ℕ → Loc Name
  | 0 => l
  | n + 1 => (l.climb n).step .up

/-- `l` lies inside `p`, which itself counts as inside. -/
def Inside (p l : Loc Name) : Prop := l.anchor = p.anchor ∧ p.names <+: l.names

instance [DecidableEq Name] (p l : Loc Name) : Decidable (Inside p l) :=
  inferInstanceAs (Decidable (_ ∧ _))

/-! ## Walks -/

@[simp] theorem walk_nil (l : Loc Name) : l.walk [] = l := rfl

theorem walk_append (l : Loc Name) (ms ms' : List (Move Name)) :
    l.walk (ms ++ ms') = (l.walk ms).walk ms' := by
  simp [walk]

theorem walk_map_into (l : Loc Name) (names : List Name) :
    l.walk (names.map .into) = l.descend names := by
  induction names using List.reverseRecOn with
  | nil => simp [descend]
  | append_singleton names name ih =>
    rw [List.map_append, walk_append, ih]
    simp [walk, step, descend]

@[simp] theorem descend_nil (l : Loc Name) : l.descend [] = l := by
  simp [descend]

theorem step_up_descend (l : Loc Name) {names : List Name} (h : names ≠ []) :
    (l.descend names).step .up = l.descend names.dropLast := by
  have hne : l.names ++ names ≠ [] := by simp [h]
  simp only [step, descend, hne, if_false, List.dropLast_append_of_ne_nil h]

theorem dir_descend (l : Loc Name) {names : List Name} (h : names ≠ []) :
    (l.descend names).dir = l.descend names.dropLast := by
  have hne : l.names ++ names ≠ [] := by simp [h]
  simp only [dir, descend, hne, if_false, List.dropLast_append_of_ne_nil h]

/-- **Normal form of a walk**: from wherever it starts, it climbs as far and descends as it does
from the start. -/
theorem walk_eq_climb_descend (ms : List (Move Name)) :
    ∃ n names, (here : Loc Name).walk ms = ⟨.up n, names⟩ ∧
      ∀ l : Loc Name, l.walk ms = (l.climb n).descend names := by
  induction ms using List.reverseRecOn with
  | nil => exact ⟨0, [], rfl, fun l => (descend_nil l).symm⟩
  | append_singleton ms m ih =>
    obtain ⟨n, names, hhere, hl⟩ := ih
    cases m with
    | into name =>
      refine ⟨n, names ++ [name], ?_, fun l => ?_⟩
      · rw [walk_append, hhere]
        rfl
      · rw [walk_append, hl]
        simp [walk, step, descend]
    | up =>
      by_cases hn : names = []
      · subst hn
        refine ⟨n + 1, [], ?_, fun l => ?_⟩
        · rw [walk_append, hhere]
          rfl
        · rw [walk_append, hl, descend_nil, descend_nil]
          rfl
      · refine ⟨n, names.dropLast, ?_, fun l => ?_⟩
        · rw [walk_append, hhere]
          simp [walk, step, hn]
        · rw [walk_append, hl]
          exact step_up_descend (l.climb n) hn

theorem climb_names (l : Loc Name) (n : ℕ) :
    (l.climb n).names = l.names.take (l.names.length - n) := by
  induction n with
  | zero => simp [climb]
  | succ n ih =>
    unfold climb step
    by_cases h : (l.climb n).names = []
    · rw [if_pos h]
      have hlen := congrArg List.length (ih.symm.trans h)
      simp only [List.length_take, List.length_nil] at hlen
      have hz : l.names.length - (n + 1) = 0 := by omega
      rw [hz, List.take_zero]
    · rw [if_neg h, ih, List.dropLast_eq_take, List.take_take, List.length_take]
      exact congrArg (fun k => l.names.take k) (by omega)

theorem climb_anchor_root {l : Loc Name} (h : l.anchor = .root) (n : ℕ) :
    (l.climb n).anchor = .root := by
  induction n with
  | zero => exact h
  | succ n ih =>
    unfold climb step
    by_cases hn : (l.climb n).names = []
    · simp [hn, ih, Anchor.up']
    · simpa [hn] using ih

theorem climb_anchor_of_le {l : Loc Name} {n : ℕ} (h : n ≤ l.names.length) :
    (l.climb n).anchor = l.anchor := by
  induction n with
  | zero => rfl
  | succ n ih =>
    have hne : (l.climb n).names ≠ [] := by
      intro hc
      have hlen := congrArg List.length ((climb_names l n).symm.trans hc)
      simp only [List.length_take, List.length_nil] at hlen
      omega
    unfold climb step
    rw [if_neg hne]
    exact ih (by omega)

theorem climb_anchor_of_lt {l : Loc Name} {k n : ℕ} (hk : l.anchor = .up k)
    (h : l.names.length < n) : (l.climb n).anchor = .up (k + (n - l.names.length)) := by
  induction n with
  | zero => exact absurd h (Nat.not_lt_zero _)
  | succ n ih =>
    have hnil : (l.climb n).names = [] := by
      rw [climb_names, show l.names.length - n = 0 by omega, List.take_zero]
    unfold climb step
    rw [if_pos hnil]
    by_cases hn : l.names.length < n
    · simp only [ih hn, Anchor.up', Anchor.up.injEq]
      omega
    · have hle : n ≤ l.names.length := by omega
      simp only [climb_anchor_of_le hle, hk, Anchor.up', Anchor.up.injEq]
      omega

/-! ## Staying inside -/

/-- What a walk does to what it started from: `n` steps up, and whether the way down goes through
the last `n` names again. -/
def Reenters (p : Loc Name) (n : ℕ) (names : List Name) : Prop :=
  (p.anchor = .root ∨ n ≤ p.names.length) ∧ p.names.drop (p.names.length - n) <+: names

instance [DecidableEq Name] (p : Loc Name) (n : ℕ) (names : List Name) :
    Decidable (Reenters p n names) := inferInstanceAs (Decidable ((_ ∨ _) ∧ _))

theorem inside_climb_descend_iff (p : Loc Name) (n : ℕ) (names : List Name) :
    Inside p ((p.climb n).descend names) ↔ Reenters p n names := by
  have hanchor : (p.climb n).anchor = p.anchor ↔ p.anchor = .root ∨ n ≤ p.names.length := by
    by_cases hle : n ≤ p.names.length
    · simp [climb_anchor_of_le hle, hle]
    · cases hp : p.anchor with
      | root => simp [climb_anchor_root hp]
      | up k =>
        have hlt : p.names.length < n := by omega
        rw [climb_anchor_of_lt hp hlt]
        simp only [Anchor.up.injEq, reduceCtorEq, false_or]
        omega
  have hnames : p.names <+: (p.climb n).names ++ names ↔
      p.names.drop (p.names.length - n) <+: names := by
    rw [climb_names]
    conv_lhs => enter [1]; rw [← List.take_append_drop (p.names.length - n) p.names]
    rw [List.prefix_append_right_inj]
  exact and_congr hanchor hnames

end Loc
end GoLib.LexicalPath
