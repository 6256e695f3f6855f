import BitsService.Blobstores.LocalCopy
import BitsService.Blobstores.Scripted
import BitsService.Lib.OperationRuns
import BitsService.Lib.TreeMap

/-! # The in-memory double of the local blobstore

Under blob paths of which none is a directory of another, both are maps. The double copies blobs
that it does not have, and deletes whatever begins like a directory; the local blobstore empties a
blob that is copied onto itself. -/
namespace BitsService
open GoLib GoLib.Effect GoLib.KeyedMap GoLib.OperationRuns GoLib.LexicalPath
set_option autoImplicit false

/-! ## Operations under blob paths -/

/-- Paths of blobs, of which none is a proper directory of another. -/
structure BlobPaths where
  used : Set RelativePath
  ne_nil : ∀ p ∈ used, p.names ≠ []
  apart : ∀ p ∈ used, ∀ q ∈ used, p.names <+: q.names → p = q

abbrev BlobPaths.Key (paths : BlobPaths) := {p : RelativePath // p ∈ paths.used}

inductive StoreOp (paths : BlobPaths) where
  | entry (op : MapOp paths.Key Bytes)
  | headOrRedirectAsGet (path : paths.Key)
  | deleteDir (pre : RelativePath)

inductive StoreAnswer where
  | entry (answer : MapAnswer Bytes GoError)
  | location (answer : Result Bytes)
  | deletedDir (answer : Result Unit)

variable {σ : Type} {paths : BlobPaths}

def performOn (store : Blobstore σ) : StoreOp paths → Prog GoError σ StoreAnswer
  | .entry op => do pure (.entry (← perform store (op.map fun k => k.1.text)))
  | .headOrRedirectAsGet path => do pure (.location (← store.headOrRedirectAsGet path.1.text))
  | .deleteDir pre => do pure (.deletedDir (← store.deleteDir pre.text))

theorem run_performOn_get_whole {store : Blobstore σ} {k : paths.Key} {content : Bytes} {w w' : σ}
    (h : (store.get k.1.text).run w = (.returned (.ok (.whole content)), w')) :
    (performOn store (.entry (.get k))).run w = (.returned (.entry (.got (.ok content))), w') := by
  have hread : (Body.whole content).readAll = .ok content := by
    simp [Body.readAll, Body.whole, Body.delivered]
  rw [← hread]
  exact run_bind_returned (run_bind_returned h)

/-! ## The two maps -/

def blobAbsence : Absence paths.Key GoError :=
  ⟨fun _ => .newNotFoundError, fun _ => .newNotFoundError, fun _ => .error .newNotFoundError⟩

def locate (m : paths.Key → Option Bytes) (k : paths.Key) : Result Bytes :=
  if (m k).isSome then .ok [] else .error .newNotFoundError

def entryStep (op : MapOp paths.Key Bytes) (m : paths.Key → Option Bytes) :
    StoreAnswer × (paths.Key → Option Bytes) :=
  (.entry (op.step blobAbsence m).1, (op.step blobAbsence m).2)

section Entry
variable {m : paths.Key → Option Bytes} {k : paths.Key}

theorem entryStep_get_none (h : m k = none) :
    entryStep (.get k) m = (.entry (.got (.error .newNotFoundError)), m) := by
  simp [entryStep, MapOp.step, h, blobAbsence]

theorem entryStep_get_some {content : Bytes} (h : m k = some content) :
    entryStep (.get k) m = (.entry (.got (.ok content)), m) := by
  simp [entryStep, MapOp.step, h]

/-- What a key holds can be told from what is got. -/
theorem entryStep_get_inj {m' : paths.Key → Option Bytes}
    (h : (entryStep (.get k) m).1 = (entryStep (.get k) m').1) : m k = m' k := by
  cases hm : m k with
  | none =>
    cases hm' : m' k with
    | none => rfl
    | some content =>
      rw [entryStep_get_none hm, entryStep_get_some hm'] at h
      cases h
  | some content =>
    cases hm' : m' k with
    | none =>
      rw [entryStep_get_some hm, entryStep_get_none hm'] at h
      cases h
    | some content' =>
      rw [entryStep_get_some hm, entryStep_get_some hm'] at h
      cases h
      rfl

theorem entryStep_delete_none (h : m k = none) :
    entryStep (.delete k) m = (.entry (.done (.error .newNotFoundError)), m) := by
  simp [entryStep, MapOp.step, h, blobAbsence]

theorem entryStep_delete_some {content : Bytes} (h : m k = some content) :
    entryStep (.delete k) m = (.entry (.done (.ok ())), Function.update m k none) := by
  simp [entryStep, MapOp.step, h]

end Entry

/-- What the double makes of an operation. -/
def doubleStep : StoreOp paths → (paths.Key → Option Bytes) →
    StoreAnswer × (paths.Key → Option Bytes)
  | .entry (.copy src dest), m =>
    (.entry (.done (.ok ())), Function.update m dest (some ((m src).getD [])))
  | .entry op, m => entryStep op m
  | .headOrRedirectAsGet path, m => (.location (locate m path), m)
  | .deleteDir pre, m =>
    (.deletedDir (.ok ()), fun k => if pre.text <+: k.1.text then none else m k)

/-- What the local blobstore makes of an operation, with its blobs below `root`. -/
def localStep (c : LocalBlobstoreConfig) (root : List Bytes) :
    StoreOp paths → (paths.Key → Option Bytes) → StoreAnswer × (paths.Key → Option Bytes)
  | .entry (.copy src dest), m =>
    match m src with
    | none => (.entry (.done (.error .newNotFoundError)), m)
    | some content =>
      (.entry (.done (.ok ())), Function.update m dest (some (if src = dest then [] else content)))
  | .entry op, m => entryStep op m
  | .headOrRedirectAsGet path, m => (.location (locate m path), m)
  | .deleteDir pre, m =>
    (.deletedDir (if root ++ pre.names = [] then
        .error (wrapWrite
          (ascii "Failed to delete path " ++ pathText (c.fullPath pre.text)) .busy) else .ok ()),
      fun k => if pre.names <+: k.1.names then none else m k)

/-! ## The double is its map -/

structure MapStore.Holds (m : paths.Key → Option Bytes) (s : MapStore) : Prop where
  faultless : s.Faultless
  contents : m = fun k => s.contents k.1.text

theorem key_text_injective : Function.Injective fun k : paths.Key => k.1.text := fun _ _ h =>
  Subtype.ext (RelativePath.text_injective h)

theorem update_text (contents : Bytes → Option Bytes) (k : paths.Key) (content : Option Bytes) :
    Function.update (fun k : paths.Key => contents k.1.text) k content =
      fun j => Function.update contents k.1.text content j.1.text :=
  (Function.update_comp_eq_of_injective contents key_text_injective k content).symm

section Operations
variable (contents : Bytes → Option Bytes) (k : paths.Key)

theorem inmemory_get :
    RunsTo MapStore.Holds (performOn inmemoryBlobstore (.entry (.get k)))
      (entryStep (.get k) fun k => contents k.1.text) ⟨contents, [], []⟩ := by
  cases hk : contents k.1.text with
  | none =>
    have hrun : (inmemoryBlobstore.get k.1.text).run ⟨contents, [], []⟩ =
        (.returned (.error .newNotFoundError), ⟨contents, [], []⟩) := by
      simp [inmemoryBlobstore, run_mapBlobstore_get, MapStore.answer, hk]
    rw [entryStep_get_none hk]
    exact ⟨_, run_bind_returned (run_bind_returned hrun), ⟨rfl, rfl⟩, rfl⟩
  | some content =>
    have hrun : (inmemoryBlobstore.get k.1.text).run ⟨contents, [], []⟩ =
        (.returned (.ok (.whole content)), ⟨contents, [], []⟩) := by
      simp [inmemoryBlobstore, run_mapBlobstore_get, MapStore.answer, hk]
    rw [entryStep_get_some hk]
    exact ⟨_, run_performOn_get_whole hrun, ⟨rfl, rfl⟩, rfl⟩

theorem inmemory_delete :
    RunsTo MapStore.Holds (performOn inmemoryBlobstore (.entry (.delete k)))
      (entryStep (.delete k) fun k => contents k.1.text) ⟨contents, [], []⟩ := by
  cases hk : contents k.1.text with
  | none =>
    have hrun : (inmemoryBlobstore.delete k.1.text).run ⟨contents, [], []⟩ =
        (.returned (.error .newNotFoundError), ⟨contents, [], []⟩) := by
      simp [inmemoryBlobstore, mapBlobstore, MapStore.delete, Prog.run, hk]
    rw [entryStep_delete_none hk]
    exact ⟨_, run_bind_returned (run_bind_returned hrun), ⟨rfl, rfl⟩, rfl⟩
  | some content =>
    have hrun : (inmemoryBlobstore.delete k.1.text).run ⟨contents, [], []⟩ =
        (.returned (.ok ()), ⟨Function.update contents k.1.text none, [], []⟩) := by
      simp [inmemoryBlobstore, mapBlobstore, MapStore.delete, Prog.run, hk]
    rw [entryStep_delete_some hk]
    exact ⟨_, run_bind_returned (run_bind_returned hrun), ⟨rfl, rfl⟩,
      update_text contents k none⟩

end Operations

/-- **The double** answers as its map does, and stays at it. -/
theorem inmemory_simulates :
    Simulates MapStore.Holds (performOn inmemoryBlobstore) (doubleStep : StoreOp paths → _) := by
  rintro op m ⟨contents, getScript, putScript⟩ ⟨⟨rfl, rfl⟩, rfl⟩
  cases op with
  | headOrRedirectAsGet path => exact ⟨_, rfl, ⟨rfl, rfl⟩, rfl⟩
  | deleteDir pre =>
    refine ⟨_, rfl, ⟨rfl, rfl⟩, funext fun k => ?_⟩
    exact if_congr List.isPrefixOf_iff_prefix.symm rfl rfl
  | entry op =>
    cases op with
    | existsKey k => exact ⟨_, rfl, ⟨rfl, rfl⟩, rfl⟩
    | get k => exact inmemory_get contents k
    | put k src => exact ⟨_, rfl, ⟨rfl, rfl⟩, update_text contents k (some src)⟩
    | copy src dest => exact ⟨_, rfl, ⟨rfl, rfl⟩, update_text contents dest _⟩
    | delete k => exact inmemory_delete contents k

/-! ## The local blobstore is its map -/

def BlobPaths.nodePath (paths : BlobPaths) (root : List Bytes) (k : paths.Key) : List Bytes :=
  root ++ k.1.names

theorem BlobPaths.names_apart (paths : BlobPaths) :
    FileTree.Apart fun k : paths.Key => k.1.names :=
  ⟨fun k => paths.ne_nil k.1 k.2, fun j k h => Subtype.ext (paths.apart j.1 j.2 k.1 k.2 h)⟩

theorem BlobPaths.nodePath_apart (paths : BlobPaths) (root : List Bytes) :
    FileTree.Apart (paths.nodePath root) := paths.names_apart.append root

namespace LocalBlobstoreConfig
variable (c : LocalBlobstoreConfig)

structure Holds (root : List Bytes) (m : paths.Key → Option Bytes) (d : Disk) : Prop where
  faultless : d.Faultless
  root_eq : d.resolve (cleanPath c.pathPrefix) = root
  tree : d.tree.Represents (paths.nodePath root) m

theorem resolve_fullPath (d : Disk) (p : RelativePath) :
    d.resolve (c.fullPath p.text) = d.resolve (cleanPath c.pathPrefix) ++ p.names := by
  rw [fullPath, filepathJoin_text c.pathPrefix_ne, resolve_descend]

theorem resolve_fullPath_dir (d : Disk) {p : RelativePath} (h : p.names ≠ []) :
    d.resolve (c.fullPath p.text).dir = (d.resolve (c.fullPath p.text)).dropLast := by
  rw [resolve_fullPath, List.dropLast_append_of_ne_nil h, fullPath,
    filepathJoin_text c.pathPrefix_ne, Loc.dir_descend _ h, resolve_descend]

namespace Holds
variable {c : LocalBlobstoreConfig} {root : List Bytes} {m : paths.Key → Option Bytes} {d : Disk}

theorem resolve (h : c.Holds root m d) (k : paths.Key) :
    d.resolve (c.fullPath k.1.text) = paths.nodePath root k := by
  rw [resolve_fullPath, h.root_eq]
  rfl

theorem stat_none (h : c.Holds root m d) {k : paths.Key} (hk : m k = none) :
    d.tree.stat (d.resolve (c.fullPath k.1.text)) = .error .noEntry := by
  rw [h.resolve]
  exact h.tree.stat_none hk

theorem node_some (h : c.Holds root m d) {k : paths.Key} {content : Bytes}
    (hk : m k = some content) :
    d.tree.node (d.resolve (c.fullPath k.1.text)) = some (.file content) := by
  rw [h.resolve]
  exact (h.tree.file_iff k content).mpr hk

theorem touch (h : c.Holds root m d) (touched : List Path) :
    c.Holds root m { d with touched := touched } := ⟨h.faultless, h.root_eq, h.tree⟩

/-- Nothing is in the way of the file of a key. -/
theorem writable (h : c.Holds root m d) (k : paths.Key) :
    d.tree.blocked (d.resolve (c.fullPath k.1.text).dir) = false ∧
      d.tree.node (d.resolve (c.fullPath k.1.text)) ≠ some .dir ∧
      d.resolve (c.fullPath k.1.text).dir = (d.resolve (c.fullPath k.1.text)).dropLast ∧
      ¬ d.resolve (c.fullPath k.1.text) <+: d.resolve (c.fullPath k.1.text).dir := by
  have hapart := paths.nodePath_apart root
  rw [c.resolve_fullPath_dir d (paths.ne_nil k.1 k.2), h.resolve]
  exact ⟨h.tree.blocked_dropLast hapart k, h.tree.not_dir k, rfl,
    hapart.not_prefix_dropLast k k⟩

/-- A file written for a key is an update. -/
theorem write (h : c.Holds root m d) {d' : Disk} (hcwd : d'.cwd = d.cwd) (hfaults : d'.Faultless)
    {k : paths.Key} {content : Bytes}
    (hnode : ∀ q, d'.tree.node q =
      if q = d.resolve (c.fullPath k.1.text) then some (.file content)
      else if q <+: d.resolve (c.fullPath k.1.text).dir then some .dir else d.tree.node q) :
    c.Holds root (Function.update m k (some content)) d' := by
  rw [c.resolve_fullPath_dir d (paths.ne_nil k.1 k.2), h.resolve] at hnode
  refine ⟨hfaults, ?_, h.tree.write (paths.nodePath_apart root) hnode⟩
  rw [← h.root_eq]
  simp only [Disk.resolve, hcwd]

end Holds

variable {c : LocalBlobstoreConfig} {root : List Bytes} {m : paths.Key → Option Bytes} {d : Disk}

section Operations
variable (h : c.Holds root m d)
include h

theorem runsTo_existsKey (k : paths.Key) :
    RunsTo (c.Holds root) (performOn (newLocalBlobstore c) (.entry (.existsKey k)))
      (localStep c root (.entry (.existsKey k)) m) d := by
  simp only [localStep, entryStep, MapOp.step]
  cases hk : m k with
  | none =>
    have hrun := run_existsBlob_missing (h.stat_none hk)
    exact ⟨_, run_bind_returned (run_bind_returned hrun), h.touch _⟩
  | some content =>
    have hrun := c.run_existsBlob_of_node (h.node_some hk)
    exact ⟨_, run_bind_returned (run_bind_returned hrun), h.touch _⟩

theorem runsTo_get (k : paths.Key) :
    RunsTo (c.Holds root) (performOn (newLocalBlobstore c) (.entry (.get k)))
      (localStep c root (.entry (.get k)) m) d := by
  simp only [localStep]
  cases hk : m k with
  | none =>
    have hrun := run_get_missing (h.stat_none hk)
    rw [entryStep_get_none hk]
    exact ⟨_, run_bind_returned (run_bind_returned hrun), h.touch _⟩
  | some content =>
    rw [entryStep_get_some hk]
    exact ⟨_, run_performOn_get_whole (c.run_get_of_node (h.node_some hk)), h.touch _⟩

theorem runsTo_put (k : paths.Key) (src : Bytes) :
    RunsTo (c.Holds root) (performOn (newLocalBlobstore c) (.entry (.put k src)))
      (localStep c root (.entry (.put k src)) m) d := by
  obtain ⟨hdirs, hfile, hdir, hne⟩ := h.writable k
  obtain ⟨d', hrun, hcwd, hfaults, hnode⟩ :=
    c.run_put_of_faultless k.1.text src d h.faultless hdirs hfile hdir hne
  exact ⟨d', run_bind_returned (run_bind_returned hrun), h.write hcwd hfaults hnode⟩

theorem runsTo_copy (src dest : paths.Key) :
    RunsTo (c.Holds root) (performOn (newLocalBlobstore c) (.entry (.copy src dest)))
      (localStep c root (.entry (.copy src dest)) m) d := by
  simp only [localStep]
  cases hsrc : m src with
  | none =>
    have hrun : (c.copy src.1.text dest.1.text).run d = _ := run_copy_missing (h.stat_none hsrc)
    exact ⟨_, run_bind_returned (run_bind_returned hrun), h.touch _⟩
  | some content =>
    obtain ⟨hdirs, hfile, hdir, hne⟩ := h.writable dest
    obtain ⟨d', hrun, hcwd, hfaults, hnode⟩ :=
      run_copy_of_faultless h.faultless (h.node_some hsrc) hdirs hfile hdir hne
    have hself : d.resolve (c.fullPath src.1.text) = d.resolve (c.fullPath dest.1.text) ↔
        src = dest := by
      rw [h.resolve, h.resolve]
      constructor
      · intro heq
        exact (paths.nodePath_apart root).eq_of_above src dest (heq ▸ List.prefix_rfl)
      · rintro rfl
        rfl
    refine ⟨d', run_bind_returned (run_bind_returned hrun), h.write hcwd hfaults fun q => ?_⟩
    rw [hnode q, copied]
    simp only [hself]

theorem runsTo_delete (k : paths.Key) :
    RunsTo (c.Holds root) (performOn (newLocalBlobstore c) (.entry (.delete k)))
      (localStep c root (.entry (.delete k)) m) d := by
  simp only [localStep]
  cases hk : m k with
  | none =>
    have hrun := run_delete_missing (h.stat_none hk)
    rw [entryStep_delete_none hk]
    exact ⟨_, run_bind_returned (run_bind_returned hrun), h.touch _⟩
  | some content =>
    have hapart := paths.nodePath_apart root
    have hrun := c.run_delete_stored (h.node_some hk)
    rw [h.resolve, if_neg (hapart.ne_nil k)] at hrun
    rw [entryStep_delete_some hk]
    exact ⟨_, run_bind_returned (run_bind_returned hrun), h.faultless, h.root_eq,
      h.tree.removeAll_key hapart k⟩

theorem runsTo_headOrRedirectAsGet (path : paths.Key) :
    RunsTo (c.Holds root) (performOn (newLocalBlobstore c) (.headOrRedirectAsGet path))
      (localStep c root (.headOrRedirectAsGet path) m) d := by
  simp only [localStep, locate]
  cases hk : m path with
  | none =>
    exact ⟨_, run_bind_returned (run_headOrRedirectAsGet_missing (h.stat_none hk)), h.touch _⟩
  | some content =>
    exact ⟨_, run_bind_returned (c.run_headOrRedirectAsGet_of_node (h.node_some hk)), h.touch _⟩

theorem runsTo_deleteDir (pre : RelativePath) :
    RunsTo (c.Holds root) (performOn (newLocalBlobstore c) (.deleteDir pre : StoreOp paths))
      (localStep c root (.deleteDir pre) m) d := by
  have hresolve : d.resolve (c.fullPath pre.text) = root ++ pre.names := by
    rw [resolve_fullPath, h.root_eq]
  have hrun := c.run_deleteDir pre.text d
  rw [hresolve] at hrun
  refine ⟨_, run_bind_returned hrun, h.faultless, h.root_eq, ?_⟩
  have htree := h.tree.removeAll (paths.nodePath_apart root) (root ++ pre.names)
  simp only [BlobPaths.nodePath, List.prefix_append_right_inj] at htree
  exact htree

end Operations

/-- **The local blobstore** answers as its map does, and stays at it. -/
theorem local_simulates :
    Simulates (c.Holds root) (performOn (newLocalBlobstore c))
      (localStep c root : StoreOp paths → _) := by
  intro op m d h
  cases op with
  | headOrRedirectAsGet path => exact runsTo_headOrRedirectAsGet h path
  | deleteDir pre => exact runsTo_deleteDir h pre
  | entry op =>
    cases op with
    | existsKey k => exact runsTo_existsKey h k
    | get k => exact runsTo_get h k
    | put k src => exact runsTo_put h k src
    | copy src dest => exact runsTo_copy h src dest
    | delete k => exact runsTo_delete h k

end LocalBlobstoreConfig

/-! ## Where the two maps part -/

/-- What is copied is there, and empty when it is copied onto itself; what begins like a directory
that is deleted lies in it. The root of the disk is not deleted. -/
def Agreeable (root : List Bytes) : StoreOp paths → (paths.Key → Option Bytes) → Prop
  | .entry (.copy src dest), m => ∃ content, m src = some content ∧ (src = dest → content = [])
  | .deleteDir pre, m => root ++ pre.names ≠ [] ∧
      ∀ k, m k ≠ none → pre.text <+: k.1.text → pre.names <+: k.1.names
  | _, _ => True

def reading (keys : List paths.Key) : List (StoreOp paths) := keys.map fun k => .entry (.get k)

variable {c : LocalBlobstoreConfig} {root : List Bytes}

theorem step_eq_of_agreeable (op : StoreOp paths) (m : paths.Key → Option Bytes)
    (h : Agreeable root op m) : doubleStep op m = localStep c root op m := by
  cases op with
  | headOrRedirectAsGet path => rfl
  | deleteDir pre =>
    obtain ⟨hroot, hbelow⟩ := h
    simp only [doubleStep, localStep, if_neg hroot]
    congr 1
    funext k
    cases hk : m k with
    | none => simp
    | some content =>
      have hpre : pre.text <+: k.1.text ↔ pre.names <+: k.1.names :=
        ⟨hbelow k (by simp [hk]), RelativePath.text_below⟩
      exact if_congr hpre rfl rfl
  | entry op =>
    cases op with
    | copy src dest =>
      obtain ⟨content, hsrc, hempty⟩ := h
      simp only [doubleStep, localStep, hsrc, Option.getD_some]
      by_cases hself : src = dest
      · rw [if_pos hself, hempty hself]
      · rw [if_neg hself]
    | _ => rfl

theorem runAll_reading (keys : List paths.Key) (m : paths.Key → Option Bytes) :
    (runAll doubleStep (reading keys) m).1 = (runAll (localStep c root) (reading keys) m).1 := by
  induction keys generalizing m with
  | nil => rfl
  | cons k keys ih => exact congrArg (List.cons _) (ih _)

/-- A difference shows in the answer, or in what is read afterwards. -/
theorem told_of_not_agreeable (op : StoreOp paths) (m : paths.Key → Option Bytes)
    (h : ¬ Agreeable root op m) : ∃ keys, (runAll doubleStep (op :: reading keys) m).1 ≠
      (runAll (localStep c root) (op :: reading keys) m).1 := by
  cases op with
  | headOrRedirectAsGet path => exact absurd trivial h
  | deleteDir pre =>
    by_cases hroot : root ++ pre.names = []
    · refine ⟨[], fun heq => ?_⟩
      have hanswer := (List.cons.inj heq).1
      simp only [doubleStep, localStep, if_pos hroot] at hanswer
      cases hanswer
    · obtain ⟨k, hk, htext, hnames⟩ : ∃ k, m k ≠ none ∧ pre.text <+: k.1.text ∧
          ¬ pre.names <+: k.1.names := by
        by_contra hnone
        push Not at hnone
        exact h ⟨hroot, hnone⟩
      obtain ⟨content, hcontent⟩ := Option.ne_none_iff_exists'.mp hk
      refine ⟨[k], fun heq => ?_⟩
      have hgot := entryStep_get_inj (List.cons.inj (List.cons.inj heq).2).1
      simp only [doubleStep, localStep, if_pos htext, if_neg hnames] at hgot
      exact hk hgot.symm
  | entry op =>
    cases op with
    | copy src dest =>
      cases hsrc : m src with
      | none =>
        refine ⟨[], fun heq => ?_⟩
        have hanswer := (List.cons.inj heq).1
        simp only [doubleStep, localStep, hsrc] at hanswer
        cases hanswer
      | some content =>
        have hself : src = dest ∧ content ≠ [] := by
          by_contra hnot
          rw [not_and, not_not] at hnot
          exact h ⟨content, hsrc, hnot⟩
        obtain ⟨rfl, hne⟩ := hself
        refine ⟨[src], fun heq => ?_⟩
        have hgot := entryStep_get_inj (List.cons.inj (List.cons.inj heq).2).1
        simp only [doubleStep, localStep, hsrc, Option.getD_some, if_true,
          Function.update_self] at hgot
        exact hne (Option.some.inj hgot)
    | _ => exact absurd trivial h

/-! ## Whole runs -/

/-- A disk on which nothing fails, with nothing below the path prefix and no file in its way. -/
structure LocalBlobstoreConfig.StartsEmpty (c : LocalBlobstoreConfig) (d : Disk) : Prop where
  faultless : d.Faultless
  unblocked : d.tree.blocked (d.resolve (cleanPath c.pathPrefix)) = false
  empty : ∀ q, d.resolve (cleanPath c.pathPrefix) <+: q → q ≠ d.resolve (cleanPath c.pathPrefix) →
    d.tree.node q = none

def newInmemoryBlobstore : MapStore := ⟨fun _ => none, [], []⟩

/-- Both blobstores return, and their answers are the same one by one. -/
def AnswersAlike (c : LocalBlobstoreConfig) (d : Disk) (ops : List (StoreOp paths)) : Prop :=
  ∃ answers d' s',
    (performAll (performOn (newLocalBlobstore c)) ops).run d = (.returned answers, d') ∧
    (performAll (performOn inmemoryBlobstore) ops).run newInmemoryBlobstore =
      (.returned answers, s')

theorem answersAlike_iff_runAll {c : LocalBlobstoreConfig} {d : Disk} (h : c.StartsEmpty d)
    (ops : List (StoreOp paths)) :
    AnswersAlike c d ops ↔ (runAll doubleStep ops fun _ => none).1 =
      (runAll (localStep c (d.resolve (cleanPath c.pathPrefix))) ops fun _ => none).1 := by
  have hlocal : c.Holds (d.resolve (cleanPath c.pathPrefix)) (fun _ : paths.Key => none) d :=
    ⟨h.faultless, rfl, FileTree.represents_none paths.names_apart h.unblocked h.empty⟩
  have hdouble : MapStore.Holds (fun _ : paths.Key => none) newInmemoryBlobstore :=
    ⟨⟨rfl, rfl⟩, rfl⟩
  obtain ⟨d', hrun, -⟩ := LocalBlobstoreConfig.local_simulates.performAll ops hlocal
  obtain ⟨s', hrun', -⟩ := inmemory_simulates.performAll ops hdouble
  constructor
  · rintro ⟨answers, d'', s'', hanswers, hanswers'⟩
    have hlocalAnswers := (Prod.mk.inj (hrun.symm.trans hanswers)).1
    have hdoubleAnswers := (Prod.mk.inj (hrun'.symm.trans hanswers')).1
    exact (Outcome.returned.inj hdoubleAnswers).trans (Outcome.returned.inj hlocalAnswers).symm
  · intro heq
    exact ⟨_, d', s', hrun, heq ▸ hrun'⟩

/-- **The double agrees with the local blobstore** through every beginning of a run, and in whatever
is read after it, exactly as long as the run copies only what is there, nothing but an empty blob
onto itself, and deletes no directory whose name begins that of a blob elsewhere. -/
theorem doubles_agree_iff (c : LocalBlobstoreConfig) (d : Disk) (h : c.StartsEmpty d)
    (ops : List (StoreOp paths)) :
    (∀ pre, pre <+: ops → ∀ keys, AnswersAlike c d (pre ++ reading keys)) ↔
      AllAllowed doubleStep (Agreeable (d.resolve (cleanPath c.pathPrefix))) ops
        fun _ => none := by
  let root := d.resolve (cleanPath c.pathPrefix)
  let tests : List (StoreOp paths) → Prop := fun test => ∃ keys, test = reading keys
  have htests : ∀ test, tests test → ∀ m, (runAll doubleStep test m).1 =
      (runAll (localStep c root) test m).1 := by
    rintro test ⟨keys, rfl⟩ m
    exact runAll_reading keys m
  have htold : ∀ op m, ¬ Agreeable root op m → ∃ test, tests test ∧
      (runAll doubleStep (op :: test) m).1 ≠ (runAll (localStep c root) (op :: test) m).1 := by
    intro op m hnot
    obtain ⟨keys, hkeys⟩ := told_of_not_agreeable op m hnot
    exact ⟨reading keys, ⟨keys, rfl⟩, hkeys⟩
  rw [← runAll_fst_eq_iff step_eq_of_agreeable htests htold]
  constructor
  · rintro halike pre hpre test ⟨keys, rfl⟩
    exact (answersAlike_iff_runAll h _).mp (halike pre hpre keys)
  · intro heq pre hpre keys
    exact (answersAlike_iff_runAll h _).mpr (heq pre hpre _ ⟨keys, rfl⟩)

/-! ## Runs that part -/

def shortPaths : BlobPaths where
  used := {p | p.names.length = 1}
  ne_nil p hp hnil := by
    rw [Set.mem_ofPred_eq, hnil] at hp
    cases hp
  apart := by
    rintro ⟨names, _⟩ hp ⟨names', _⟩ hq hpre
    obtain rfl : names = names' := hpre.eq_of_length (hp.trans hq.symm)
    rfl

def shortPath (name : Bytes) (h : IsPlainName name) : RelativePath :=
  ⟨[name], fun _ hmem => List.mem_singleton.mp hmem ▸ h⟩

def shortKey (name : Bytes) (h : IsPlainName name) : shortPaths.Key := ⟨shortPath name h, rfl⟩

def dataStore : LocalBlobstoreConfig := ⟨ascii "/data", by decide⟩

def blankDisk : Disk := ⟨FileTree.empty, [], fun _ => [], [], []⟩

theorem startsEmpty_blankDisk : dataStore.StartsEmpty blankDisk where
  faultless _ := rfl
  unblocked := FileTree.blocked_empty _
  empty q hpre hne := by
    have hlength : q.length ≠ 0 := fun hzero => by
      have hnil := List.length_eq_zero_iff.mp hzero
      subst hnil
      exact absurd hpre (by decide)
    exact if_neg hlength

theorem isPlainName_a : IsPlainName (ascii "a") := by unfold IsPlainName; decide

theorem isPlainName_ab : IsPlainName (ascii "ab") := by unfold IsPlainName; decide

def copiedRun : List (StoreOp shortPaths) :=
  [.entry (.put (shortKey _ isPlainName_a) (ascii "zip")),
    .entry (.copy (shortKey _ isPlainName_a) (shortKey _ isPlainName_ab)),
    .entry (.delete (shortKey _ isPlainName_a))]

theorem doubles_agree_copied :
    AnswersAlike dataStore blankDisk (copiedRun ++ reading [shortKey _ isPlainName_ab]) :=
  (doubles_agree_iff dataStore blankDisk startsEmpty_blankDisk copiedRun).mpr
    ⟨trivial, ⟨ascii "zip", by decide, by decide⟩, trivial, trivial⟩ copiedRun List.prefix_rfl _

/-- The double copies what is missing, keeps a blob that is copied onto itself, and deletes `ab`
with the directory `a`. -/
theorem not_doubles_agree :
    ¬ AnswersAlike dataStore blankDisk
      [.entry (.copy (shortKey _ isPlainName_a) (shortKey _ isPlainName_ab))] ∧
    ¬ AnswersAlike dataStore blankDisk
      [.entry (.put (shortKey _ isPlainName_a) (ascii "zip")),
        .entry (.copy (shortKey _ isPlainName_a) (shortKey _ isPlainName_a)),
        .entry (.get (shortKey _ isPlainName_a))] ∧
    ¬ AnswersAlike dataStore blankDisk
      [.entry (.put (shortKey _ isPlainName_ab) (ascii "zip")),
        .deleteDir (shortPath _ isPlainName_a),
        .entry (.get (shortKey _ isPlainName_ab))] := by
  rw [answersAlike_iff_runAll startsEmpty_blankDisk, answersAlike_iff_runAll startsEmpty_blankDisk,
    answersAlike_iff_runAll startsEmpty_blankDisk]
  refine ⟨fun heq => ?_, fun heq => ?_, fun heq => ?_⟩
  · cases (List.cons.inj heq).1
  · have hgot := entryStep_get_inj (List.cons.inj (List.cons.inj (List.cons.inj heq).2).2).1
    exact absurd hgot (by decide)
  · have hgot := entryStep_get_inj (List.cons.inj (List.cons.inj (List.cons.inj heq).2).2).1
    exact absurd hgot (by decide)

end BitsService
