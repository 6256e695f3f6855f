import BitsService.Blobstores.Confinement

/-! # What writing to a local blobstore does to its disk

A put makes the directories above its file, creates the file, and copies to it. It may be cut off
anywhere: the file then holds what was copied so far, under the same path. -/
namespace BitsService
open GoLib GoLib.Effect GoLib.LexicalPath
set_option autoImplicit false

/-! ## The calls of a put -/

structure Disk.MadeDirs (p : List Bytes) (d d' : Disk) : Prop where
  cwd : d'.cwd = d.cwd
  writes : d'.writes = d.writes
  copies : d'.faults .copy = d.faults .copy
  node : ∀ q, ¬ q <+: p → d'.tree.node q = d.tree.node q

section Calls
variable (path : Path) (d : Disk)

theorem run_osMkdirAll :
    ∃ r d', (osMkdirAll path).run d = (.returned r, d') ∧ d.MadeDirs (d.resolve path) d' := by
  unfold osMkdirAll
  rw [run_bind_returned (run_getState d), run_bind_returned (run_takeFault .mkdirAll d)]
  cases (d.faults .mkdirAll).headD none with
  | none =>
    cases hmk : d.tree.mkdirAll (d.resolve path) with
    | error m =>
      simp only
      exact ⟨_, _, rfl, rfl, rfl, by simp, fun _ _ => rfl⟩
    | ok tree =>
      simp only
      exact ⟨_, _, rfl, rfl, rfl, by simp, fun q hq =>
        (FileTree.mkdirAll_ok hmk q).trans (if_neg hq)⟩
  | some f =>
    cases hmk : d.tree.mkdirAll ((d.resolve path).take f.done) with
    | error m =>
      simp only [hmk]
      exact ⟨_, _, rfl, rfl, rfl, by simp, fun _ _ => rfl⟩
    | ok tree =>
      simp only [hmk]
      refine ⟨_, _, rfl, rfl, rfl, by simp, fun q hq =>
        (FileTree.mkdirAll_ok hmk q).trans (if_neg ?_)⟩
      exact fun h => hq (h.trans (List.take_prefix _ _))

theorem run_osCreate : ∃ r d', (osCreate path).run d = (.returned r, d') ∧ d'.cwd = d.cwd ∧
    d'.writes = d.writes ∧ d'.faults .copy = d.faults .copy ∧
      ((∃ e, r = .error e) ∧ d'.tree = d.tree ∨
        r = .ok () ∧ d.tree.create (d.resolve path) [] = .ok d'.tree) := by
  let d₁ : Disk := { d with touched := d.touched ++ [path] }
  have htouch : (touch path).run d = (.returned (), d₁) := rfl
  unfold osCreate
  rw [run_bind_returned htouch, run_bind_returned (run_getState d₁),
    run_bind_returned (run_takeFault .create d₁)]
  cases (d₁.faults .create).headD none with
  | some f => exact ⟨_, _, rfl, rfl, rfl, by simp [d₁], .inl ⟨⟨_, rfl⟩, rfl⟩⟩
  | none =>
    have hresolve : d₁.resolve path = d.resolve path := rfl
    cases hcreate : d.tree.create (d.resolve path) [] with
    | error e =>
      simp only [d₁, hresolve, hcreate]
      exact ⟨_, _, rfl, rfl, rfl, by simp, .inl ⟨⟨_, rfl⟩, rfl⟩⟩
    | ok tree =>
      simp only [d₁, hresolve, hcreate]
      exact ⟨_, _, rfl, rfl, rfl, by simp, .inr ⟨rfl, rfl⟩⟩

theorem run_ioCopyTo {tree : FileTree Bytes Bytes} (content : Bytes)
    (hcreate : tree.create (d.resolve path) [] = .ok d.tree) :
    ∃ r d' written, (ioCopyTo path content).run d = (.returned r, d') ∧ written <+: content ∧
      ((d.faults .copy).headD none = none → written = content) ∧ d'.cwd = d.cwd ∧
      d'.faults .copy = (d.faults .copy).tail ∧
      d'.writes = d.writes ++ [⟨d.resolve path, content, written⟩] ∧
      ∀ q, d'.tree.node q = if q = d.resolve path then some (.file written) else tree.node q := by
  unfold ioCopyTo
  rw [run_bind_returned (run_getState d), run_bind_returned (run_takeFault .copy d)]
  cases (d.faults .copy).headD none with
  | none =>
    obtain ⟨tree', htree, hnode⟩ := FileTree.create_create hcreate content
    simp only [htree]
    exact ⟨_, _, content, rfl, List.prefix_rfl, fun _ => rfl, rfl, by simp, rfl, hnode⟩
  | some f =>
    obtain ⟨tree', htree, hnode⟩ := FileTree.create_create hcreate (content.take f.done)
    simp only [htree]
    exact ⟨_, _, _, rfl, List.take_prefix _ _, fun h => (nomatch h), rfl, by simp, rfl, hnode⟩

end Calls

/-! ## A disk without faults -/

def Disk.Faultless (d : Disk) : Prop := ∀ c, d.faults c = []

theorem Disk.Faultless.run_takeFault {d : Disk} (hd : d.Faultless) (c : DiskCall) :
    (takeFault c).run d = (.returned none, d) := by
  have hfaults : Function.update d.faults c (d.faults c).tail = d.faults := by
    rw [hd c, List.tail_nil, ← hd c, Function.update_eq_self]
  rw [BitsService.run_takeFault, hfaults, hd c]
  rfl

namespace Disk.Faultless
variable {d : Disk} (hd : d.Faultless) {path : Path} {tree : FileTree Bytes Bytes}
include hd

theorem run_osMkdirAll (h : d.tree.mkdirAll (d.resolve path) = .ok tree) :
    (osMkdirAll path).run d = (.returned (.ok ()), { d with tree := tree }) := by
  unfold osMkdirAll
  rw [run_bind_returned (run_getState d), run_bind_returned (hd.run_takeFault .mkdirAll)]
  simp only [h]
  rfl

theorem run_osCreate (h : d.tree.create (d.resolve path) [] = .ok tree) :
    (osCreate path).run d =
      (.returned (.ok ()), { d with tree := tree, touched := d.touched ++ [path] }) := by
  let d₁ : Disk := { d with touched := d.touched ++ [path] }
  have htouch : (touch path).run d = (.returned (), d₁) := rfl
  have hd₁ : d₁.Faultless := hd
  have hresolve : d₁.resolve path = d.resolve path := rfl
  unfold osCreate
  rw [run_bind_returned htouch, run_bind_returned (run_getState d₁),
    run_bind_returned (hd₁.run_takeFault .create)]
  simp only [hresolve, d₁, h]
  rfl

theorem run_ioCopyTo {content : Bytes}
    (h : d.tree.create (d.resolve path) content = .ok tree) :
    (ioCopyTo path content).run d =
      (.returned (.ok ()),
        { d with tree := tree, writes := d.writes ++ [⟨d.resolve path, content, content⟩] }) := by
  unfold ioCopyTo
  rw [run_bind_returned (run_getState d), run_bind_returned (hd.run_takeFault .copy)]
  simp only [h]
  rfl

end Disk.Faultless

/-! ## A whole put -/

namespace LocalBlobstoreConfig
variable (blobstore : LocalBlobstoreConfig) (path src : Bytes) (d : Disk)

/-- **A put**: its file is not reached, or it holds a part of the source, and all of it when the
copy is not cut off. -/
theorem run_put : ∃ r d', (blobstore.put path src).run d = (.returned r, d') ∧
    (d.MadeDirs (d.resolve (blobstore.fullPath path).dir) d' ∨
      ∃ written, written <+: src ∧ ((d.faults .copy).headD none = none → written = src) ∧
        d'.cwd = d.cwd ∧ d'.faults .copy = (d.faults .copy).tail ∧
        d'.writes = d.writes ++ [⟨d.resolve (blobstore.fullPath path), src, written⟩] ∧
        ∀ q, ¬ q <+: d.resolve (blobstore.fullPath path).dir →
          d'.tree.node q = if q = d.resolve (blobstore.fullPath path) then some (.file written)
            else d.tree.node q) := by
  obtain ⟨r₁, d₁, hmk, hdirs⟩ := run_osMkdirAll (blobstore.fullPath path).dir d
  unfold put
  rw [run_bind_returned hmk]
  cases r₁ with
  | error e => exact ⟨_, _, rfl, .inl hdirs⟩
  | ok u =>
    obtain ⟨r₂, d₂, hcreate, hcwd, hwrites, hcopies, hcase⟩ :=
      run_osCreate (blobstore.fullPath path) d₁
    simp only
    rw [run_bind_returned hcreate]
    rcases hcase with ⟨⟨e, rfl⟩, htree⟩ | ⟨rfl, htree⟩
    · refine ⟨_, _, rfl, .inl ⟨hcwd.trans hdirs.cwd, hwrites.trans hdirs.writes,
        hcopies.trans hdirs.copies, fun q hq => ?_⟩⟩
      rw [htree]
      exact hdirs.node q hq
    · have hresolve₁ : d₁.resolve (blobstore.fullPath path) =
          d.resolve (blobstore.fullPath path) := by
        simp only [Disk.resolve, hdirs.cwd]
      have hresolve₂ : d₂.resolve (blobstore.fullPath path) =
          d.resolve (blobstore.fullPath path) := by
        simp only [Disk.resolve, hcwd, hdirs.cwd]
      rw [hresolve₁, ← hresolve₂] at htree
      obtain ⟨r₃, d₃, written, hcopy, hpre, hwhole, hcwd₃, hcopies₃, hwrites₃, hnode⟩ :=
        run_ioCopyTo (blobstore.fullPath path) d₂ src htree
      rw [hcopies, hdirs.copies] at hwhole hcopies₃
      rw [hwrites, hdirs.writes, hresolve₂] at hwrites₃
      simp only
      rw [run_bind_returned hcopy]
      refine ⟨r₃.mapError (reportWrite (ascii "Error while writing file " ++ path)), d₃, ?_,
        .inr ⟨written, hpre, hwhole, hcwd₃.trans (hcwd.trans hdirs.cwd), hcopies₃, hwrites₃,
          fun q hq => ?_⟩⟩
      · cases r₃ with
        | error e => rfl
        | ok u => rfl
      · rw [hnode, hresolve₂, hdirs.node q hq]

/-- **A put without faults**: its directories are there, and its file holds the source, if no file
is in the way of the directories and no directory in the way of the file. -/
theorem run_put_of_faultless (hfaults : d.Faultless)
    (hdirs : d.tree.blocked (d.resolve (blobstore.fullPath path).dir) = false)
    (hfile : d.tree.node (d.resolve (blobstore.fullPath path)) ≠ some .dir)
    (hdir : d.resolve (blobstore.fullPath path).dir =
      (d.resolve (blobstore.fullPath path)).dropLast)
    (hne : ¬ d.resolve (blobstore.fullPath path) <+: d.resolve (blobstore.fullPath path).dir) :
    ∃ d', (blobstore.put path src).run d = (.returned (.ok ()), d') ∧ d'.cwd = d.cwd ∧
      d'.Faultless ∧ ∀ q, d'.tree.node q =
        if q = d.resolve (blobstore.fullPath path) then some (.file src)
        else if q <+: d.resolve (blobstore.fullPath path).dir then some .dir
        else d.tree.node q := by
  obtain ⟨tree₁, tree₂, hmk, hcreate⟩ := FileTree.mkdirAll_create hdirs hfile hdir hne []
  have hnode₁ := FileTree.mkdirAll_ok hmk
  obtain ⟨tree₃, hcopy, hnode₃⟩ := FileTree.create_create hcreate src
  let d₁ : Disk := { d with tree := tree₁ }
  let d₂ : Disk := { d with tree := tree₂, touched := d.touched ++ [blobstore.fullPath path] }
  let d₃ : Disk := { d₂ with
    tree := tree₃
    writes := d.writes ++ [⟨d.resolve (blobstore.fullPath path), src, src⟩] }
  have hfaults₁ : d₁.Faultless := hfaults
  have hfaults₂ : d₂.Faultless := hfaults
  have hrun₁ : (osMkdirAll (blobstore.fullPath path).dir).run d = (.returned (.ok ()), d₁) :=
    hfaults.run_osMkdirAll hmk
  have hrun₂ : (osCreate (blobstore.fullPath path)).run d₁ = (.returned (.ok ()), d₂) :=
    hfaults₁.run_osCreate hcreate
  have hrun₃ : (ioCopyTo (blobstore.fullPath path) src).run d₂ = (.returned (.ok ()), d₃) :=
    hfaults₂.run_ioCopyTo hcopy
  refine ⟨d₃, ?_, rfl, hfaults, fun q => ?_⟩
  · unfold put
    rw [run_bind_returned hrun₁]
    simp only
    rw [run_bind_returned hrun₂]
    simp only
    rw [run_bind_returned hrun₃]
    rfl
  · show tree₃.node q = _
    rw [hnode₃, hnode₁]

end LocalBlobstoreConfig
end BitsService
