import BitsService.Lib.FileTree
import Mathlib.Logic.Function.Basic

/-! # Maps kept in a tree

Each key of a map has a path, and no path lies above another. The entries of the map are then the
files at the paths of their keys: writing a file is an update, and removing a directory empties the
keys below it. -/
namespace GoLib.FileTree
set_option autoImplicit false

variable {K Name Content : Type}

/-- No path is the root, and none lies at or above the path of another key. -/
structure Apart (path : K → List Name) : Prop where
  ne_nil : ∀ k, path k ≠ []
  eq_of_above : ∀ j k, path j <+: path k → j = k

theorem Apart.append {path : K → List Name} (h : Apart path) (root : List Name) :
    Apart fun k => root ++ path k where
  ne_nil k hnil := h.ne_nil k (List.append_eq_nil_iff.mp hnil).2
  eq_of_above j k hpre := h.eq_of_above j k ((List.prefix_append_right_inj root).mp hpre)

/-- A path does not lie at or above the directory of another one. -/
theorem Apart.not_prefix_dropLast {path : K → List Name} (h : Apart path) (j k : K) :
    ¬ path j <+: (path k).dropLast := by
  intro hpre
  obtain rfl := h.eq_of_above j k (hpre.trans (List.dropLast_prefix _))
  have hlength := hpre.length_le
  have hpos := List.length_pos_of_ne_nil (h.ne_nil j)
  rw [List.length_dropLast] at hlength
  omega

/-- The files at the paths of the keys are the entries of `m`, and no other file is in their way. -/
structure Represents (t : FileTree Name Content) (path : K → List Name) (m : K → Option Content) :
    Prop where
  file_iff : ∀ k c, t.node (path k) = some (.file c) ↔ m k = some c
  not_dir : ∀ k, t.node (path k) ≠ some .dir
  clear : ∀ k q c, q <+: path k → t.node q = some (.file c) → q = path k

/-- An empty directory, or none at all, represents the map without entries. -/
theorem represents_none {t : FileTree Name Content} {path : K → List Name} (h : Apart path)
    {root : List Name} (hroot : t.blocked root = false)
    (hempty : ∀ q, root <+: q → q ≠ root → t.node q = none) :
    t.Represents (fun k => root ++ path k) fun _ => none := by
  have hnone : ∀ k, t.node (root ++ path k) = none := fun k =>
    hempty _ (List.prefix_append _ _) fun heq => h.ne_nil k (List.append_right_eq_self.mp heq)
  have habove := (t.blocked_eq_false_iff root).mp hroot
  refine ⟨fun k c => by simp [hnone k], fun k => by simp [hnone k], fun k q c hpre hfile => ?_⟩
  rcases List.prefix_or_prefix_of_prefix hpre (List.prefix_append root (path k)) with hup | hdown
  · exact absurd hfile (habove q c hup)
  · by_cases heq : q = root
    · subst heq
      exact absurd hfile (habove q c List.prefix_rfl)
    · rw [hempty q hdown heq] at hfile
      cases hfile

namespace Represents
variable {t : FileTree Name Content} {path : K → List Name} {m : K → Option Content}

theorem stat_none (h : t.Represents path m) {k : K} (hk : m k = none) :
    t.stat (path k) = .error .noEntry := by
  have hnode : t.node (path k) = none := by
    cases hn : t.node (path k) with
    | none => rfl
    | some n =>
      cases n with
      | dir => exact absurd hn (h.not_dir k)
      | file c =>
        rw [(h.file_iff k c).mp hn] at hk
        cases hk
  have hblocked : t.blocked (path k) = false := by
    rw [blocked_eq_false_iff]
    intro q c hpre hfile
    rw [h.clear k q c hpre hfile, hnode] at hfile
    cases hfile
  rw [stat, hnode, hblocked]
  rfl

/-- No file is in the way of the directory of a key. -/
theorem blocked_dropLast (h : t.Represents path m) (hapart : Apart path) (k : K) :
    t.blocked (path k).dropLast = false := by
  rw [blocked_eq_false_iff]
  intro q c hpre hfile
  obtain rfl := h.clear k q c (hpre.trans (List.dropLast_prefix _)) hfile
  exact hapart.not_prefix_dropLast k k hpre

variable [DecidableEq Name]

/-- A file at the path of a key, below its directory, is an update. -/
theorem write [DecidableEq K] (h : t.Represents path m) (hapart : Apart path)
    {t' : FileTree Name Content} {k : K} {c : Content}
    (hnode : ∀ q, t'.node q = if q = path k then some (.file c)
      else if q <+: (path k).dropLast then some .dir else t.node q) :
    t'.Represents path (Function.update m k (some c)) := by
  have hself : t'.node (path k) = some (.file c) := by rw [hnode, if_pos rfl]
  have hother : ∀ j, j ≠ k → t'.node (path j) = t.node (path j) := by
    intro j hj
    have hne : path j ≠ path k := fun heq => hj (hapart.eq_of_above j k (heq ▸ List.prefix_rfl))
    rw [hnode, if_neg hne, if_neg (hapart.not_prefix_dropLast j k)]
  refine ⟨fun j c' => ?_, fun j => ?_, fun j q c' hpre hfile => ?_⟩
  · by_cases hj : j = k
    · subst hj
      simp [hself]
    · rw [hother j hj, Function.update_of_ne hj]
      exact h.file_iff j c'
  · by_cases hj : j = k
    · subst hj
      simp [hself]
    · rw [hother j hj]
      exact h.not_dir j
  · rw [hnode] at hfile
    by_cases hq : q = path k
    · subst hq
      rw [hapart.eq_of_above k j hpre]
    · rw [if_neg hq] at hfile
      by_cases habove : q <+: (path k).dropLast
      · rw [if_pos habove] at hfile
        cases hfile
      · rw [if_neg habove] at hfile
        exact h.clear j q c' hpre hfile

/-- Removing what is at and below a path empties the keys there. -/
theorem removeAll (h : t.Represents path m) (hapart : Apart path) (p : List Name) :
    (t.removeAll p).Represents path fun k => if p <+: path k then none else m k := by
  refine ⟨fun k c => ?_, fun k => ?_, fun k q c hpre hfile => ?_⟩
  · rw [removeAll_node]
    by_cases hp : p <+: path k
    · simp [hp, hapart.ne_nil k]
    · rw [if_neg fun hc => hp hc.1, if_neg hp]
      exact h.file_iff k c
  · rw [removeAll_node]
    by_cases hp : p <+: path k
    · simp [hp, hapart.ne_nil k]
    · rw [if_neg fun hc => hp hc.1]
      exact h.not_dir k
  · rw [removeAll_node] at hfile
    split at hfile
    · cases hfile
    · exact h.clear k q c hpre hfile

theorem removeAll_key [DecidableEq K] (h : t.Represents path m) (hapart : Apart path) (k : K) :
    (t.removeAll (path k)).Represents path (Function.update m k none) := by
  have hremove := h.removeAll hapart (path k)
  have hmap : (fun j => if path k <+: path j then none else m j) = Function.update m k none := by
    funext j
    by_cases hj : j = k
    · subst hj
      rw [if_pos List.prefix_rfl, Function.update_self]
    · rw [if_neg fun hpre => hj (hapart.eq_of_above k j hpre).symm, Function.update_of_ne hj]
  rwa [hmap] at hremove

/-! ## Elsewhere in the tree -/

/-- A file that is written elsewhere. -/
theorem write_other (h : t.Represents path m) {t' : FileTree Name Content} {p : List Name}
    {c : Content} (hp : ∀ k, ¬ p <+: path k ∧ ¬ path k <+: p)
    (hnode : ∀ q, t'.node q = if q = p then some (.file c)
      else if q <+: p.dropLast then some .dir else t.node q) : t'.Represents path m := by
  have hkeys : ∀ k, t'.node (path k) = t.node (path k) := by
    intro k
    have hne : path k ≠ p := fun heq => (hp k).1 (heq ▸ List.prefix_rfl)
    have habove : ¬ path k <+: p.dropLast := fun hpre =>
      (hp k).2 (hpre.trans (List.dropLast_prefix p))
    rw [hnode, if_neg hne, if_neg habove]
  refine ⟨fun k c => ?_, fun k => ?_, fun k q c hpre hfile => ?_⟩
  · rw [hkeys]
    exact h.file_iff k c
  · rw [hkeys]
    exact h.not_dir k
  · rw [hnode] at hfile
    have hne : q ≠ p := fun heq => (hp k).1 (heq ▸ hpre)
    rw [if_neg hne] at hfile
    split at hfile
    · cases hfile
    · exact h.clear k q c hpre hfile

/-- What is removed elsewhere. -/
theorem removeAll_other (h : t.Represents path m) {p : List Name} (hp : ∀ k, ¬ p <+: path k) :
    (t.removeAll p).Represents path m := by
  have hkeys : ∀ k, (t.removeAll p).node (path k) = t.node (path k) := fun k => by
    rw [removeAll_node, if_neg fun hbelow => hp k hbelow.1]
  refine ⟨fun k c => ?_, fun k => ?_, fun k q c hpre hfile => ?_⟩
  · rw [hkeys]
    exact h.file_iff k c
  · rw [hkeys]
    exact h.not_dir k
  · rw [removeAll_node] at hfile
    split at hfile
    · cases hfile
    · exact h.clear k q c hpre hfile
end Represents
end GoLib.FileTree
