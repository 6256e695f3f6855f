import BitsService.Blobstores.LocalWrites

/-! # Copying on the local disk

The destination is created, and so cut to nothing, after the source has been opened and before it
is read. A file copied onto itself is read empty. -/
namespace BitsService
open GoLib GoLib.Effect GoLib.LexicalPath
set_option autoImplicit false

/-! ## The calls of a copy -/

section Calls
variable (path : Path) (d : Disk)

/-- What a call keeps that is not about the tree. -/
structure Disk.Calls (c : DiskCall) (d d' : Disk) : Prop where
  cwd : d'.cwd = d.cwd
  faults : ∀ c' ≠ c, d'.faults c' = d.faults c'

theorem Disk.Calls.resolve {c : DiskCall} {d d' : Disk} (h : d.Calls c d') (p : Path) :
    d'.resolve p = d.resolve p := by
  simp only [Disk.resolve, h.cwd]

theorem osMkdirAll_spec : ∃ r d', (osMkdirAll path).run d = (.returned r, d') ∧
    d.Calls .mkdirAll d' ∧
    (r = .ok () ↔ (d.faults .mkdirAll).headD none = none ∧
      ∃ tree, d.tree.mkdirAll (d.resolve path) = .ok tree) ∧
    (r = .ok () → d.tree.mkdirAll (d.resolve path) = .ok d'.tree) := by
  unfold osMkdirAll
  rw [run_bind_returned (run_getState d), run_bind_returned (run_takeFault .mkdirAll d)]
  cases hfault : (d.faults .mkdirAll).headD none with
  | some f =>
    cases hmk : d.tree.mkdirAll ((d.resolve path).take f.done) with
    | error m =>
      simp only [hmk]
      exact ⟨_, _, rfl, ⟨rfl, fun c' hc => by simp [hc]⟩, by simp, by simp⟩
    | ok tree =>
      simp only [hmk]
      exact ⟨_, _, rfl, ⟨rfl, fun c' hc => by simp [hc]⟩, by simp, by simp⟩
  | none =>
    cases hmk : d.tree.mkdirAll (d.resolve path) with
    | error m =>
      simp only
      exact ⟨_, _, rfl, ⟨rfl, fun c' hc => by simp [hc]⟩, by simp, by simp⟩
    | ok tree =>
      simp only
      exact ⟨_, _, rfl, ⟨rfl, fun c' hc => by simp [hc]⟩, by simp, fun _ => rfl⟩

theorem osCreate_spec : ∃ r d', (osCreate path).run d = (.returned r, d') ∧
    d.Calls .create d' ∧
    (r = .ok () ↔ (d.faults .create).headD none = none ∧
      ∃ tree, d.tree.create (d.resolve path) [] = .ok tree) ∧
    (r = .ok () → d.tree.create (d.resolve path) [] = .ok d'.tree) := by
  let d₁ : Disk := { d with touched := d.touched ++ [path] }
  have htouch : (touch path).run d = (.returned (), d₁) := rfl
  have hresolve : d₁.resolve path = d.resolve path := rfl
  unfold osCreate
  rw [run_bind_returned htouch, run_bind_returned (run_getState d₁),
    run_bind_returned (run_takeFault .create d₁)]
  cases hfault : (d.faults .create).headD none with
  | some f =>
    simp only [d₁]
    exact ⟨_, _, rfl, ⟨rfl, fun c' hc => by simp [hc]⟩, by simp, by simp⟩
  | none =>
    simp only [d₁]
    cases hcreate : d.tree.create (d.resolve path) [] with
    | error e =>
      simp only [d₁, hresolve, hcreate]
      exact ⟨_, _, rfl, ⟨rfl, fun c' hc => by simp [hc]⟩, by simp, by simp⟩
    | ok tree =>
      simp only [d₁, hresolve, hcreate]
      exact ⟨_, _, rfl, ⟨rfl, fun c' hc => by simp [hc]⟩, by simp, fun _ => rfl⟩

theorem ioCopyTo_spec {tree : FileTree Bytes Bytes} (content : Bytes)
    (hcreate : tree.create (d.resolve path) [] = .ok d.tree) :
    ∃ r d', (ioCopyTo path content).run d = (.returned r, d') ∧ d.Calls .copy d' ∧
      (r = .ok () ↔ (d.faults .copy).headD none = none) ∧
      (r = .ok () → ∀ q, d'.tree.node q =
        if q = d.resolve path then some (.file content) else tree.node q) := by
  unfold ioCopyTo
  rw [run_bind_returned (run_getState d), run_bind_returned (run_takeFault .copy d)]
  cases (d.faults .copy).headD none with
  | none =>
    obtain ⟨tree', htree, hnode⟩ := FileTree.create_create hcreate content
    simp only [htree]
    exact ⟨_, _, rfl, ⟨rfl, fun c' hc => by simp [hc]⟩, by simp, fun _ => hnode⟩
  | some f =>
    obtain ⟨tree', htree, -⟩ := FileTree.create_create hcreate (content.take f.done)
    simp only [htree]
    exact ⟨_, _, rfl, ⟨rfl, fun c' hc => by simp [hc]⟩, by simp, by simp⟩

end Calls

/-! ## A whole copy -/

namespace LocalBlobstoreConfig
variable (blobstore : LocalBlobstoreConfig) (d : Disk) (src dest : Bytes)

/-- No call of a copy to `dest` fails: none is made to fail, no file is in the way of the
directories, and no directory in the way of the file. -/
structure CopyGoesThrough : Prop where
  faultless : ∀ c, (d.faults c).headD none = none
  creates : ∃ tree₁ tree₂, d.tree.mkdirAll (d.resolve (blobstore.fullPath dest).dir) = .ok tree₁ ∧
    tree₁.create (d.resolve (blobstore.fullPath dest)) [] = .ok tree₂

/-- What a copy leaves at a path. -/
def copied (content : Bytes) (q : List Bytes) : Option (Node Bytes) :=
  if q = d.resolve (blobstore.fullPath dest) then
    some (.file (if d.resolve (blobstore.fullPath src) = d.resolve (blobstore.fullPath dest) then []
      else content))
  else if q <+: d.resolve (blobstore.fullPath dest).dir then some .dir
  else d.tree.node q

variable {blobstore d src dest}

/-- Where directories can be made, no file is in their way. -/
theorem not_above_of_file {q p : List Bytes} {content : Bytes} {tree : FileTree Bytes Bytes}
    (hq : d.tree.node q = some (.file content)) (hdirs : d.tree.mkdirAll p = .ok tree) :
    ¬ q <+: p := by
  intro hpre
  have hblocked := (d.tree.blocked_eq_true_iff p).mpr ⟨q, content, hpre, hq⟩
  rw [FileTree.mkdirAll, dif_pos hblocked] at hdirs
  cases hdirs

/-- A copy keeps the files other than its destination, and makes no other. -/
theorem copied_other {content other : Bytes} {q : List Bytes} {tree : FileTree Bytes Bytes}
    (hdirs : d.tree.mkdirAll (d.resolve (blobstore.fullPath dest).dir) = .ok tree)
    (hne : q ≠ d.resolve (blobstore.fullPath dest)) :
    d.tree.node q = some (.file other) ↔
      blobstore.copied d src dest content q = some (.file other) := by
  rw [copied, if_neg hne]
  by_cases habove : q <+: d.resolve (blobstore.fullPath dest).dir
  · rw [if_pos habove]
    exact iff_of_false (fun hq => not_above_of_file hq hdirs habove) (by simp)
  · rw [if_neg habove]

/-- The content that a copy reads, after its destination has been created. -/
theorem copied_source {content : Bytes} {tree₁ tree₂ : FileTree Bytes Bytes}
    (hsrc : d.tree.node (d.resolve (blobstore.fullPath src)) = some (.file content))
    (hdirs : d.tree.mkdirAll (d.resolve (blobstore.fullPath dest).dir) = .ok tree₁)
    (hcreate : tree₁.create (d.resolve (blobstore.fullPath dest)) [] = .ok tree₂) :
    tree₂.node (d.resolve (blobstore.fullPath src)) = some (.file
      (if d.resolve (blobstore.fullPath src) = d.resolve (blobstore.fullPath dest) then []
        else content)) := by
  rw [FileTree.create_ok hcreate]
  by_cases hsame : d.resolve (blobstore.fullPath src) = d.resolve (blobstore.fullPath dest)
  · rw [if_pos hsame, if_pos hsame]
  · rw [if_neg hsame, if_neg hsame, FileTree.mkdirAll_ok hdirs,
      if_neg (not_above_of_file hsrc hdirs), hsrc]

variable (dest) in
/-- **A copy of a stored blob** succeeds just when no call fails, and then leaves the source's
content at its destination, unless that is the source. -/
theorem copy_spec {content : Bytes}
    (hsrc : d.tree.node (d.resolve (blobstore.fullPath src)) = some (.file content)) :
    ∃ r d', (blobstore.copy src dest).run d = (.returned r, d') ∧
      (r = .ok () ↔ blobstore.CopyGoesThrough d dest) ∧
      (r = .ok () → d'.cwd = d.cwd ∧
        ∀ q, d'.tree.node q = blobstore.copied d src dest content q) := by
  let d₀ : Disk := { d with touched := d.touched ++ [blobstore.fullPath src] }
  have hopen : (osOpen (blobstore.fullPath src)).run d =
      (.returned (.ok (.whole content)), d₀) := by
    rw [run_osOpen, FileTree.stat_of_node hsrc]
    rfl
  obtain ⟨r₁, d₁, hmk, hcalls₁, hok₁, htree₁⟩ :=
    osMkdirAll_spec (blobstore.fullPath dest).dir d₀
  obtain ⟨r₂, d₂, hcreate, hcalls₂, hok₂, htree₂⟩ := osCreate_spec (blobstore.fullPath dest) d₁
  have hresolve₁ : ∀ p, d₁.resolve p = d.resolve p := hcalls₁.resolve
  have hresolve₂ : ∀ p, d₂.resolve p = d.resolve p := fun p =>
    (hcalls₂.resolve p).trans (hresolve₁ p)
  have hfaults₁ : d₁.faults .create = d.faults .create := hcalls₁.faults _ (by simp)
  have hfaults₂ : d₂.faults .copy = d.faults .copy :=
    (hcalls₂.faults _ (by simp)).trans (hcalls₁.faults _ (by simp))
  rw [hresolve₁, hfaults₁] at hok₂
  rw [hresolve₁] at htree₂
  unfold copy
  rw [run_bind_returned hopen]
  simp only
  rw [run_bind_returned hmk]
  cases r₁ with
  | error e =>
    have hnot : ¬ blobstore.CopyGoesThrough d dest := by
      rintro ⟨hfaults, tree₁, tree₂, hdirs, -⟩
      have hsuccess := hok₁.mpr ⟨hfaults .mkdirAll, tree₁, hdirs⟩
      cases hsuccess
    exact ⟨_, _, rfl, iff_of_false (by simp) hnot, by simp⟩
  | ok u =>
    have hdirs : d.tree.mkdirAll (d.resolve (blobstore.fullPath dest).dir) = .ok d₁.tree :=
      htree₁ rfl
    simp only
    rw [run_bind_returned hcreate]
    cases r₂ with
    | error e =>
      have hnot : ¬ blobstore.CopyGoesThrough d dest := by
        rintro ⟨hfaults, tree₁, tree₂, hdirs', hcreates⟩
        rw [hdirs] at hdirs'
        cases hdirs'
        have hsuccess := hok₂.mpr ⟨hfaults .create, tree₂, hcreates⟩
        cases hsuccess
      exact ⟨_, _, rfl, iff_of_false (by simp) hnot, by simp⟩
    | ok u =>
      have hcreated := htree₂ rfl
      have hread : (d₂.file (d₂.resolve (blobstore.fullPath src))).getD [] =
          if d.resolve (blobstore.fullPath src) = d.resolve (blobstore.fullPath dest) then []
          else content := by
        rw [hresolve₂, Disk.file_eq_some_iff.mpr (copied_source hsrc hdirs hcreated)]
        rfl
      obtain ⟨r₃, d₃, hcopy, hcalls₃, hok₃, hnode₃⟩ := ioCopyTo_spec (blobstore.fullPath dest) d₂
        ((d₂.file (d₂.resolve (blobstore.fullPath src))).getD [])
        (by rw [hresolve₂]; exact hcreated)
      rw [hfaults₂] at hok₃
      have hthrough : r₃ = .ok () ↔ blobstore.CopyGoesThrough d dest := by
        rw [hok₃]
        constructor
        · intro hfault
          refine ⟨fun c => ?_, _, _, hdirs, hcreated⟩
          cases c with
          | mkdirAll => exact (hok₁.mp rfl).1
          | create => exact (hok₂.mp rfl).1
          | copy => exact hfault
        · intro hgoes
          exact hgoes.faultless .copy
      simp only
      rw [run_bind_returned (run_getState d₂)]
      simp only [Body.whole]
      rw [run_bind_returned hcopy]
      cases r₃ with
      | error e =>
        have hnot : ¬ blobstore.CopyGoesThrough d dest := fun h => absurd (hthrough.mpr h) (by simp)
        exact ⟨_, _, rfl, iff_of_false (by simp) hnot, by simp⟩
      | ok u =>
        refine ⟨_, d₃, rfl, iff_of_true rfl (hthrough.mp rfl), fun _ => ⟨?_, fun q => ?_⟩⟩
        · rw [hcalls₃.cwd, hcalls₂.cwd, hcalls₁.cwd]
        · rw [hnode₃ rfl, hread, hresolve₂, copied, FileTree.mkdirAll_ok hdirs]

/-! ## A copy on a disk without faults -/

theorem run_copy_missing (h : d.tree.stat (d.resolve (blobstore.fullPath src)) = .error .noEntry) :
    (blobstore.copy src dest).run d = (.returned (.error .newNotFoundError),
      { d with touched := d.touched ++ [blobstore.fullPath src] }) := by
  rw [copy, run_bind, run_osOpen, h]
  rfl

/-- **A copy without faults** succeeds, if no file is in the way of the directories of its
destination and no directory in the way of the file. -/
theorem run_copy_of_faultless {content : Bytes} (hfaults : d.Faultless)
    (hsrc : d.tree.node (d.resolve (blobstore.fullPath src)) = some (.file content))
    (hdirs : d.tree.blocked (d.resolve (blobstore.fullPath dest).dir) = false)
    (hfile : d.tree.node (d.resolve (blobstore.fullPath dest)) ≠ some .dir)
    (hdir : d.resolve (blobstore.fullPath dest).dir =
      (d.resolve (blobstore.fullPath dest)).dropLast)
    (hne : ¬ d.resolve (blobstore.fullPath dest) <+: d.resolve (blobstore.fullPath dest).dir) :
    ∃ d', (blobstore.copy src dest).run d = (.returned (.ok ()), d') ∧ d'.cwd = d.cwd ∧
      d'.Faultless ∧ ∀ q, d'.tree.node q = blobstore.copied d src dest content q := by
  obtain ⟨tree₁, tree₂, hmk, hcreate⟩ := FileTree.mkdirAll_create hdirs hfile hdir hne []
  have hnode₁ := FileTree.mkdirAll_ok hmk
  have hread := copied_source hsrc hmk hcreate
  obtain ⟨tree₃, hcopy, hnode₃⟩ := FileTree.create_create hcreate
    (if d.resolve (blobstore.fullPath src) = d.resolve (blobstore.fullPath dest) then []
      else content)
  let d₀ : Disk := { d with touched := d.touched ++ [blobstore.fullPath src] }
  let d₁ : Disk := { d₀ with tree := tree₁ }
  let d₂ : Disk := { d₁ with
    tree := tree₂
    touched := d₁.touched ++ [blobstore.fullPath dest] }
  have hfaults₀ : d₀.Faultless := hfaults
  have hfaults₁ : d₁.Faultless := hfaults
  have hfaults₂ : d₂.Faultless := hfaults
  have hopen : (osOpen (blobstore.fullPath src)).run d =
      (.returned (.ok (.whole content)), d₀) := by
    rw [run_osOpen, FileTree.stat_of_node hsrc]
    rfl
  have hrun₁ : (osMkdirAll (blobstore.fullPath dest).dir).run d₀ = (.returned (.ok ()), d₁) :=
    hfaults₀.run_osMkdirAll hmk
  have hrun₂ : (osCreate (blobstore.fullPath dest)).run d₁ = (.returned (.ok ()), d₂) :=
    hfaults₁.run_osCreate hcreate
  have hcontent : (d₂.file (d₂.resolve (blobstore.fullPath src))).getD [] =
      if d.resolve (blobstore.fullPath src) = d.resolve (blobstore.fullPath dest) then []
        else content := by
    have hsource : d₂.file (d₂.resolve (blobstore.fullPath src)) = _ :=
      Disk.file_eq_some_iff.mpr hread
    rw [hsource]
    rfl
  have hrun₃ := hfaults₂.run_ioCopyTo hcopy
  unfold copy
  rw [run_bind_returned hopen]
  simp only
  rw [run_bind_returned hrun₁]
  simp only
  rw [run_bind_returned hrun₂]
  simp only
  rw [run_bind_returned (run_getState d₂)]
  simp only [Body.whole]
  rw [hcontent, run_bind_returned hrun₃]
  refine ⟨_, rfl, rfl, hfaults, fun q => ?_⟩
  show tree₃.node q = _
  rw [hnode₃, hnode₁, copied]

/-! ## Whether a copy is one -/

variable (blobstore d src dest) in
/-- When a copy of a stored blob returns nil, both the destination and the source yield the content
that the source had, and every other blob what it did. -/
def CopyIsCopy : Prop :=
  ∀ content d', ((blobstore.get src).run d).1 = .returned (.ok (.whole content)) →
    (blobstore.copy src dest).run d = (.returned (.ok ()), d') →
      ((blobstore.get dest).run d').1 = .returned (.ok (.whole content)) ∧
      ((blobstore.get src).run d').1 = .returned (.ok (.whole content)) ∧
      ∀ path other, d.resolve (blobstore.fullPath path) ≠ d.resolve (blobstore.fullPath dest) →
        (((blobstore.get path).run d).1 = .returned (.ok (.whole other)) ↔
          ((blobstore.get path).run d').1 = .returned (.ok (.whole other)))

/-- **A copy is one exactly when** the two paths are not one file, or the file is empty, or a call
of the copy fails. -/
theorem copyIsCopy_iff (blobstore : LocalBlobstoreConfig) (d : Disk) (src dest : Bytes) :
    blobstore.CopyIsCopy d src dest ↔
      d.resolve (blobstore.fullPath src) ≠ d.resolve (blobstore.fullPath dest) ∨
      (∀ content, d.file (d.resolve (blobstore.fullPath src)) = some content → content = []) ∨
      ¬ blobstore.CopyGoesThrough d dest := by
  constructor
  · intro hcopy
    by_contra hnone
    push Not at hnone
    obtain ⟨hsame, ⟨content, hfile, hne⟩, hgoes⟩ := hnone
    have hsrc := Disk.file_eq_some_iff.mp hfile
    obtain ⟨r, d', hrun, hok, hleft⟩ := copy_spec dest hsrc
    obtain rfl := hok.mpr hgoes
    obtain ⟨hcwd, hnode⟩ := hleft rfl
    have hget := (hcopy content d' (blobstore.get_eq_whole_iff.mpr hsrc) hrun).1
    have hresolve : d'.resolve (blobstore.fullPath dest) = d.resolve (blobstore.fullPath dest) := by
      simp only [Disk.resolve, hcwd]
    rw [blobstore.get_eq_whole_iff, hresolve, hnode, copied, if_pos rfl, if_pos hsame] at hget
    cases hget
    exact hne rfl
  · intro hcondition content d' hget hrun
    have hsrc := blobstore.get_eq_whole_iff.mp hget
    obtain ⟨r, d'', hrun', hok, hleft⟩ := copy_spec dest hsrc
    rw [hrun] at hrun'
    cases hrun'
    obtain ⟨hcwd, hnode⟩ := hleft rfl
    have hgoes := hok.mp rfl
    obtain ⟨tree₁, tree₂, hdirs, -⟩ := hgoes.creates
    have hresolve : ∀ p, d'.resolve p = d.resolve p := fun p => by
      simp only [Disk.resolve, hcwd]
    have hread : (if d.resolve (blobstore.fullPath src) = d.resolve (blobstore.fullPath dest)
        then [] else content) = content := by
      split
      · next hsame =>
        rcases hcondition with hapart | hempty | hnot
        · exact absurd hsame hapart
        · exact (hempty content (Disk.file_eq_some_iff.mpr hsrc)).symm
        · exact absurd hgoes hnot
      · rfl
    have hdest : blobstore.copied d src dest content (d.resolve (blobstore.fullPath dest)) =
        some (.file content) := by
      rw [copied, if_pos rfl, hread]
    refine ⟨?_, ?_, fun path other hne => ?_⟩
    · rw [blobstore.get_eq_whole_iff, hresolve, hnode, hdest]
    · rw [blobstore.get_eq_whole_iff, hresolve, hnode]
      by_cases hsame : d.resolve (blobstore.fullPath src) = d.resolve (blobstore.fullPath dest)
      · rw [hsame, hdest]
      · exact (copied_other hdirs hsame).mp hsrc
    · rw [blobstore.get_eq_whole_iff, blobstore.get_eq_whole_iff, hresolve, hnode]
      exact copied_other hdirs hne

end LocalBlobstoreConfig

def rootStore : LocalBlobstoreConfig := ⟨ascii "/", by decide⟩

/-- A disk with one file, on which nothing fails. -/
def oneFileDisk : Disk where
  tree := FileTree.empty.write [ascii "guid"] (ascii "zip") (by decide) (by decide)
  cwd := []
  faults _ := []
  touched := []
  writes := []

/-- A blob copied onto itself, under another spelling of its path, is lost. -/
theorem not_copyIsCopy_guid :
    ¬ rootStore.CopyIsCopy oneFileDisk (ascii "guid") (ascii "./guid") := by
  intro hcopy
  have hlost := (hcopy (ascii "zip") _ (by decide) rfl).1
  exact absurd hlost (by decide)

end BitsService
