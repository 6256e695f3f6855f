import Mathlib.Data.Nat.Notation
import Mathlib.Data.List.Infix

/-! # Trees of directories and files

A file system without links: a node for each absolute path, where everything below the root has a
directory above it. The operations are those of a system call interface, and keep the tree a tree
by construction. -/
namespace GoLib
set_option autoImplicit false

inductive Node (Content : Type) where
  | dir
  | file (content : Content)
  deriving DecidableEq

structure FileTree (Name Content : Type) where
  node : List Name → Option (Node Content)
  root_dir : node [] = some .dir
  parent_dir : ∀ p a, node (p ++ [a]) ≠ none → node p = some .dir

namespace FileTree
variable {Name Content : Type}

inductive Missing where
  | noEntry
  | notDir
  deriving DecidableEq

theorem dir_of_prefix (t : FileTree Name Content) {p q : List Name} (h : p <+: q) (hne : p ≠ q)
    (hq : t.node q ≠ none) : t.node p = some .dir := by
  obtain ⟨r, rfl⟩ := h
  induction r using List.reverseRecOn with
  | nil => simp at hne
  | append_singleton r a ih =>
    rw [← List.append_assoc] at hq
    have hup : t.node (p ++ r) = some .dir := t.parent_dir _ _ hq
    by_cases hr : r = []
    · simpa [hr] using hup
    · exact ih (by simpa using hr) (by simp [hup])

def blocked (t : FileTree Name Content) (p : List Name) : Bool :=
  p.inits.any fun q => match t.node q with
    | some (.file _) => true
    | _ => false

theorem blocked_eq_true_iff (t : FileTree Name Content) (p : List Name) :
    t.blocked p = true ↔ ∃ q c, q <+: p ∧ t.node q = some (.file c) := by
  simp only [blocked, List.any_eq_true, List.mem_inits]
  constructor
  · rintro ⟨q, hq, h⟩
    cases hn : t.node q with
    | none => simp [hn] at h
    | some n =>
      cases n with
      | dir => simp [hn] at h
      | file c => exact ⟨q, c, hq, hn⟩
  · rintro ⟨q, c, hq, hn⟩
    exact ⟨q, hq, by simp [hn]⟩

theorem blocked_eq_false_iff (t : FileTree Name Content) (p : List Name) :
    t.blocked p = false ↔ ∀ q c, q <+: p → t.node q ≠ some (.file c) := by
  rw [Bool.eq_false_iff, ne_eq, blocked_eq_true_iff]
  constructor
  · intro h q c hpre hfile
    exact h ⟨q, c, hpre, hfile⟩
  · rintro h ⟨q, c, hpre, hfile⟩
    exact h q c hpre hfile

def stat (t : FileTree Name Content) (p : List Name) : Except Missing (Node Content) :=
  match t.node p with
  | some n => .ok n
  | none => .error (if t.blocked p then .notDir else .noEntry)

theorem stat_of_node {t : FileTree Name Content} {p : List Name} {n : Node Content}
    (h : t.node p = some n) : t.stat p = .ok n := by
  rw [stat, h]

theorem node_of_stat {t : FileTree Name Content} {p : List Name} {n : Node Content}
    (h : t.stat p = .ok n) : t.node p = some n := by
  unfold stat at h
  cases hn : t.node p with
  | none =>
    rw [hn] at h
    cases h
  | some m =>
    rw [hn] at h
    cases h
    rfl

def empty : FileTree Name Content where
  node p := if p.length = 0 then some .dir else none
  root_dir := rfl
  parent_dir p a h := by simp at h

theorem blocked_empty (p : List Name) : (empty : FileTree Name Content).blocked p = false := by
  by_contra h
  have hblocked : (empty : FileTree Name Content).blocked p = true := by simpa using h
  obtain ⟨q, c, -, hq⟩ := (blocked_eq_true_iff _ p).mp hblocked
  have hempty : (if q.length = 0 then some Node.dir else none) = some (.file c) := hq
  split at hempty
  · cases hempty
  · cases hempty

variable [DecidableEq Name]

def mkdirAll (t : FileTree Name Content) (p : List Name) : Except Missing (FileTree Name Content) :=
  if h : t.blocked p then .error .notDir
  else .ok
    { node := fun q => if q <+: p then some .dir else t.node q
      root_dir := by simp
      parent_dir := by
        intro q a hq
        by_cases hp : q <+: p
        · rw [if_pos hp]
        · have hp' : ¬ q ++ [a] <+: p := fun hc => hp ((List.prefix_append q [a]).trans hc)
          rw [if_neg hp'] at hq
          rw [if_neg hp]
          exact t.parent_dir q a hq }

/-- A file with the given content in an existing directory, in place of a file that is there. -/
def write (t : FileTree Name Content) (p : List Name) (c : Content)
    (hdir : t.node p.dropLast = some .dir) (hp : t.node p ≠ some .dir) : FileTree Name Content where
  node q := if q = p then some (.file c) else t.node q
  root_dir := by
    have hne : [] ≠ p := by
      rintro rfl
      exact hp t.root_dir
    rw [if_neg hne]
    exact t.root_dir
  parent_dir := by
    intro q a hq
    by_cases hqp : q = p
    · subst hqp
      have hne : q ++ [a] ≠ q := by simp
      rw [if_neg hne] at hq
      exact absurd (t.parent_dir q a hq) hp
    · rw [if_neg hqp]
      by_cases hqa : q ++ [a] = p
      · rw [← hqa, List.dropLast_concat] at hdir
        exact hdir
      · rw [if_neg hqa] at hq
        exact t.parent_dir q a hq

inductive NotCreated where
  | isDir
  | missing (m : Missing)
  deriving DecidableEq

/-- `open` for writing, with the content that the file has afterwards. -/
def create [DecidableEq Content] (t : FileTree Name Content) (p : List Name) (c : Content) :
    Except NotCreated (FileTree Name Content) :=
  if hp : t.node p = some .dir then .error .isDir
  else if hdir : t.node p.dropLast = some .dir then .ok (t.write p c hdir hp)
  else .error (.missing (if t.blocked p.dropLast then .notDir else .noEntry))

/-- Everything at and below `p`, except the root itself. -/
def removeAll (t : FileTree Name Content) (p : List Name) : FileTree Name Content where
  node q := if p <+: q ∧ q ≠ [] then none else t.node q
  root_dir := by
    rw [if_neg (fun h => h.2 rfl)]
    exact t.root_dir
  parent_dir := by
    intro q a hq
    have hqa : ¬ (p <+: q ++ [a] ∧ q ++ [a] ≠ []) := fun h => by rw [if_pos h] at hq; exact hq rfl
    have hpq : ¬ p <+: q := fun h => hqa ⟨h.trans (List.prefix_append q [a]), by simp⟩
    rw [if_neg hqa] at hq
    rw [if_neg (fun h => hpq h.1)]
    exact t.parent_dir q a hq

/-! ## What the operations leave at a path -/

theorem mkdirAll_of_not_blocked {t : FileTree Name Content} {p : List Name}
    (h : t.blocked p = false) : ∃ t', t.mkdirAll p = .ok t' :=
  ⟨_, dif_neg (by rw [h]; exact Bool.false_ne_true)⟩

theorem mkdirAll_ok {t t' : FileTree Name Content} {p : List Name} (h : t.mkdirAll p = .ok t')
    (q : List Name) : t'.node q = if q <+: p then some .dir else t.node q := by
  unfold mkdirAll at h
  split at h
  · cases h
  · cases h
    rfl

theorem create_ok [DecidableEq Content] {t t' : FileTree Name Content} {p : List Name} {c : Content}
    (h : t.create p c = .ok t') (q : List Name) :
    t'.node q = if q = p then some (.file c) else t.node q := by
  unfold create at h
  split at h
  · cases h
  split at h
  · cases h
    rfl
  · cases h

theorem create_create [DecidableEq Content] {t t' : FileTree Name Content} {p : List Name}
    {c : Content} (h : t.create p c = .ok t') (c' : Content) :
    ∃ t'', t'.create p c' = .ok t'' ∧
      ∀ q, t''.node q = if q = p then some (.file c') else t.node q := by
  have hnode := create_ok h
  have hfile : t'.node p ≠ some .dir := by
    rw [hnode, if_pos rfl]
    simp
  have hdir : t'.node p.dropLast = some .dir := by
    unfold create at h
    split at h
    · cases h
    split at h
    · next hp hd =>
      have hne : p.dropLast ≠ p := by
        intro hc
        rw [hc] at hd
        exact hp hd
      rw [hnode, if_neg hne]
      exact hd
    · cases h
  refine ⟨t'.write p c' hdir hfile, by rw [create, dif_neg hfile, dif_pos hdir], fun q => ?_⟩
  by_cases hq : q = p
  · simp [write, hq]
  · simp [write, hq, hnode]

theorem create_of_dir [DecidableEq Content] {t : FileTree Name Content} {p : List Name}
    (hp : t.node p ≠ some .dir) (hdir : t.node p.dropLast = some .dir) (c : Content) :
    ∃ t', t.create p c = .ok t' :=
  ⟨t.write p c hdir hp, by rw [create, dif_neg hp, dif_pos hdir]⟩

/-- A file can be created where neither a file is above its directory nor a directory in its
place. -/
theorem mkdirAll_create [DecidableEq Content] {t : FileTree Name Content} {p dir : List Name}
    (hdirs : t.blocked dir = false) (hfile : t.node p ≠ some .dir) (hdir : dir = p.dropLast)
    (hne : ¬ p <+: dir) (c : Content) :
    ∃ t₁ t₂, t.mkdirAll dir = .ok t₁ ∧ t₁.create p c = .ok t₂ := by
  obtain ⟨t₁, hmk⟩ := mkdirAll_of_not_blocked hdirs
  have hnode := mkdirAll_ok hmk
  have hfile₁ : t₁.node p ≠ some .dir := by
    rw [hnode, if_neg hne]
    exact hfile
  have hdir₁ : t₁.node p.dropLast = some .dir := by
    rw [← hdir, hnode, if_pos List.prefix_rfl]
  obtain ⟨t₂, hcreate⟩ := create_of_dir hfile₁ hdir₁ c
  exact ⟨t₁, t₂, hmk, hcreate⟩

/-- A file written into its directory is in the way of the paths through it only. -/
theorem blocked_of_written {t t' : FileTree Name Content} {p dir r : List Name} {c : Content}
    (hnode : ∀ q, t'.node q = if q = p then some (.file c)
      else if q <+: dir then some .dir else t.node q)
    (hr : t.blocked r = false) (hp : ¬ p <+: r) : t'.blocked r = false := by
  rw [blocked_eq_false_iff] at hr ⊢
  intro q c' hpre hfile
  rw [hnode] at hfile
  by_cases hq : q = p
  · subst hq
    exact hp hpre
  rw [if_neg hq] at hfile
  by_cases hdir : q <+: dir
  · rw [if_pos hdir] at hfile
    cases hfile
  · rw [if_neg hdir] at hfile
    exact hr q c' hpre hfile

theorem removeAll_node (t : FileTree Name Content) (p q : List Name) :
    (t.removeAll p).node q = if p <+: q ∧ q ≠ [] then none else t.node q := rfl

end FileTree
end GoLib
