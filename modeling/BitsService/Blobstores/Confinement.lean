import BitsService.Blobstores.Local
import BitsService.Server.Wiring

/-! # Which paths of the disk an identifier reaches

An operation of the local blobstore uses the path of its identifier and no other. Where that path
lies is decided by the walk that the partitioned and prefixed identifier describes. -/
namespace BitsService
open GoLib GoLib.Effect GoLib.LexicalPath
set_option autoImplicit false

/-! ## The paths that an operation uses -/

def TouchedIn (S : Path → Prop) (d : Disk) : Prop := ∀ p ∈ d.touched, S p

section Touched
variable {S : Path → Prop} {path : Path}

theorem keeps_touch (h : S path) : Keeps (TouchedIn S) (touch path) := by
  refine Keeps.modifyState (fun d hd p hp => ?_)
  rcases List.mem_append.mp hp with hp | hp
  · exact hd p hp
  · rw [List.mem_singleton.mp hp]
    exact h

theorem keeps_takeFault (c : DiskCall) : Keeps (TouchedIn S) (takeFault c) := fun _ hd => hd

theorem keeps_osStat (h : S path) : Keeps (TouchedIn S) (osStat path) := by
  exact Keeps.bind (keeps_touch h) (fun _ => Keeps.bind (Keeps.getState _) (fun _ =>
    Keeps.pure _ _))

theorem keeps_osOpen (h : S path) : Keeps (TouchedIn S) (osOpen path) := by
  refine Keeps.bind (keeps_osStat h) (fun r => ?_)
  cases r with
  | error e => exact Keeps.pure _ _
  | ok n => exact Keeps.pure _ _

theorem keeps_setTree (tree : FileTree Bytes Bytes) :
    Keeps (TouchedIn S) (modifyState (ε := GoError) fun d : Disk => { d with tree := tree }) :=
  Keeps.modifyState (fun _ hd => hd)

theorem keeps_osMkdirAll (path : Path) : Keeps (TouchedIn S) (osMkdirAll path) := by
  refine Keeps.bind (Keeps.getState _) (fun d => Keeps.bind (keeps_takeFault _) (fun f => ?_))
  cases f with
  | none =>
    simp only
    split
    · exact Keeps.pure _ _
    · exact Keeps.bind (keeps_setTree _) (fun _ => Keeps.pure _ _)
  | some f =>
    simp only
    split
    · exact Keeps.pure _ _
    · exact Keeps.bind (keeps_setTree _) (fun _ => Keeps.pure _ _)

theorem keeps_osCreate (h : S path) : Keeps (TouchedIn S) (osCreate path) := by
  refine Keeps.bind (keeps_touch h) (fun _ => Keeps.bind (Keeps.getState _) (fun d =>
    Keeps.bind (keeps_takeFault _) (fun f => ?_)))
  cases f with
  | some f => exact Keeps.pure _ _
  | none =>
    simp only
    split
    · exact Keeps.pure _ _
    · exact Keeps.bind (keeps_setTree _) (fun _ => Keeps.pure _ _)

theorem keeps_ioCopyTo (path : Path) (content : Bytes) :
    Keeps (TouchedIn S) (ioCopyTo path content) := by
  refine Keeps.bind (Keeps.getState _) (fun d => Keeps.bind (keeps_takeFault _) (fun f => ?_))
  simp only
  split
  · exact Keeps.pure _ _
  · refine Keeps.bind (Keeps.modifyState (fun _ hd => hd)) (fun _ => ?_)
    split
    · exact Keeps.pure _ _
    · exact Keeps.pure _ _

theorem keeps_osRemoveAll (h : S path) : Keeps (TouchedIn S) (osRemoveAll path) :=
  Keeps.bind (keeps_touch h) (fun _ => Keeps.bind (Keeps.getState _) (fun _ =>
    Keeps.bind (Keeps.modifyState (fun _ hd => hd)) (fun _ => Keeps.pure _ _)))

end Touched

namespace LocalBlobstoreConfig
variable (blobstore : LocalBlobstoreConfig) {S : Path → Prop} {path : Bytes}

theorem keeps_existsBlob (h : S (blobstore.fullPath path)) :
    Keeps (TouchedIn S) (blobstore.existsBlob path) := by
  refine Keeps.bind (keeps_osStat h) (fun r => ?_)
  split
  · exact Keeps.pure _ _
  · exact Keeps.pure _ _
  · exact Keeps.pure _ _

theorem keeps_get (h : S (blobstore.fullPath path)) :
    Keeps (TouchedIn S) (blobstore.get path) := by
  refine Keeps.bind (keeps_osOpen h) (fun r => ?_)
  split
  · exact Keeps.pure _ _
  · exact Keeps.pure _ _
  · exact Keeps.pure _ _

theorem keeps_put (h : S (blobstore.fullPath path)) (src : Bytes) :
    Keeps (TouchedIn S) (blobstore.put path src) := by
  refine Keeps.bind (keeps_osMkdirAll _) (fun r => ?_)
  cases r with
  | error e => exact Keeps.pure _ _
  | ok u =>
    refine Keeps.bind (keeps_osCreate h) (fun r => ?_)
    cases r with
    | error e => exact Keeps.pure _ _
    | ok u =>
      refine Keeps.bind (keeps_ioCopyTo _ _) (fun r => ?_)
      cases r with
      | error e => exact Keeps.pure _ _
      | ok u => exact Keeps.pure _ _

theorem keeps_delete (h : S (blobstore.fullPath path)) :
    Keeps (TouchedIn S) (blobstore.delete path) := by
  refine Keeps.bind (keeps_osStat h) (fun r => ?_)
  split
  · exact Keeps.pure _ _
  · refine Keeps.bind (keeps_osRemoveAll h) (fun r => ?_)
    cases r with
    | error e => exact Keeps.pure _ _
    | ok u => exact Keeps.pure _ _

theorem keeps_copy {src dest : Bytes} (hs : S (blobstore.fullPath src))
    (hd : S (blobstore.fullPath dest)) : Keeps (TouchedIn S) (blobstore.copy src dest) := by
  refine Keeps.bind (keeps_osOpen hs) (fun r => ?_)
  split
  · exact Keeps.pure _ _
  · exact Keeps.pure _ _
  · refine Keeps.bind (keeps_osMkdirAll _) (fun r => ?_)
    split
    · exact Keeps.pure _ _
    · refine Keeps.bind (keeps_osCreate hd) (fun r => ?_)
      split
      · exact Keeps.pure _ _
      · refine Keeps.bind (Keeps.getState _) (fun d => ?_)
        simp only
        split
        · exact Keeps.pure _ _
        · refine Keeps.bind (keeps_ioCopyTo _ _) (fun r => ?_)
          split
          · exact Keeps.pure _ _
          · exact Keeps.pure _ _

end LocalBlobstoreConfig

/-! ## The stores and what is done with an identifier -/

/-- The wirings of a local blobstore: packages, droplets and buildpacks; the buildpack cache; the
app stash. -/
inductive LocalStore where
  | resources
  | buildpackCache
  | appStash
  deriving DecidableEq

def localBackend (c : LocalBlobstoreConfig) : Backend Disk :=
  ⟨newLocalBlobstore c, ⟨fun _ _ _ => pure []⟩⟩

/-- What a handler does with an identifier. The destination of a copy is an identifier of its
own. -/
inductive Access where
  | existsBlob
  | get
  | put (src : Bytes)
  | delete
  | copy (dest : Bytes)

namespace LocalStore

def storePrefix : LocalStore → Bytes
  | .resources => []
  | .buildpackCache => ascii "buildpack_cache/"
  | .appStash => ascii "app_bits_cache/"

def blobstore (c : LocalBlobstoreConfig) : LocalStore → NoRedirectBlobstore Disk
  | .resources => (createBlobstoreAndSignURLHandler ⟨.localDir, []⟩ (localBackend c)
      (localBackend c).signer).1.toNoRedirectBlobstore
  | .buildpackCache => (createBuildpackCacheSignURLHandler ⟨.localDir, []⟩ (localBackend c)
      (localBackend c).signer).1.toNoRedirectBlobstore
  | .appStash => (createAppStashBlobstore ⟨.localDir, []⟩ (localBackend c)
      (localBackend c).signer).1

def copy (c : LocalBlobstoreConfig) : LocalStore → Bytes → Bytes → Prog GoError Disk (Result Unit)
  | .resources => (createBlobstoreAndSignURLHandler ⟨.localDir, []⟩ (localBackend c)
      (localBackend c).signer).1.copy
  | .buildpackCache => (createBuildpackCacheSignURLHandler ⟨.localDir, []⟩ (localBackend c)
      (localBackend c).signer).1.copy
  | .appStash => fun _ _ => pure (.ok ())

def path (c : LocalBlobstoreConfig) (s : LocalStore) (identifier : Bytes) : Path :=
  c.fullPath (s.storePrefix ++ pathFor identifier)

def access (c : LocalBlobstoreConfig) (s : LocalStore) (identifier : Bytes) :
    Access → Prog GoError Disk Unit
  | .existsBlob => do let _ ← (s.blobstore c).existsBlob identifier
  | .get => do let _ ← (s.blobstore c).get identifier
  | .put src => do let _ ← (s.blobstore c).put identifier src
  | .delete => do let _ ← (s.blobstore c).delete identifier
  | .copy dest => do let _ ← s.copy c identifier dest

def otherPaths (c : LocalBlobstoreConfig) (s : LocalStore) : Access → List Path
  | .copy dest => [s.path c dest]
  | _ => []

/-- Whatever is done with the identifier, on any disk, every path that it makes the blobstore use
lies inside the path prefix. -/
def Confines (c : LocalBlobstoreConfig) (s : LocalStore) (identifier : Bytes) : Prop :=
  ∀ (a : Access) (d : Disk), d.touched = [] →
    ∀ p ∈ ((s.access c identifier a).run d).2.touched, p ∉ s.otherPaths c a →
      Loc.Inside (cleanPath c.pathPrefix) p

variable (c : LocalBlobstoreConfig) (s : LocalStore) (identifier : Bytes)

theorem blobstore_existsBlob :
    (s.blobstore c).existsBlob identifier = c.existsBlob (s.storePrefix ++ pathFor identifier) := by
  cases s <;> rfl

theorem blobstore_get :
    (s.blobstore c).get identifier = c.get (s.storePrefix ++ pathFor identifier) := by
  cases s <;> rfl

theorem blobstore_put (src : Bytes) :
    (s.blobstore c).put identifier src = c.put (s.storePrefix ++ pathFor identifier) src := by
  cases s <;> rfl

theorem blobstore_delete :
    (s.blobstore c).delete identifier = c.delete (s.storePrefix ++ pathFor identifier) := by
  cases s <;> rfl

theorem keeps_access {S : Path → Prop} (h : S (s.path c identifier)) (a : Access)
    (ho : ∀ p ∈ s.otherPaths c a, S p) : Keeps (TouchedIn S) (s.access c identifier a) := by
  cases a with
  | existsBlob =>
    simp only [access, blobstore_existsBlob]
    exact Keeps.bind (c.keeps_existsBlob h) (fun _ => Keeps.pure _ _)
  | get =>
    simp only [access, blobstore_get]
    exact Keeps.bind (c.keeps_get h) (fun _ => Keeps.pure _ _)
  | put src =>
    simp only [access, blobstore_put]
    exact Keeps.bind (c.keeps_put h src) (fun _ => Keeps.pure _ _)
  | delete =>
    simp only [access, blobstore_delete]
    exact Keeps.bind (c.keeps_delete h) (fun _ => Keeps.pure _ _)
  | copy dest =>
    have hd : S (s.path c dest) := ho _ List.mem_cons_self
    cases s with
    | resources => exact Keeps.bind (c.keeps_copy h hd) (fun _ => Keeps.pure _ _)
    | buildpackCache => exact Keeps.bind (c.keeps_copy h hd) (fun _ => Keeps.pure _ _)
    | appStash => exact Keeps.bind (Keeps.pure _ _) (fun _ => Keeps.pure _ _)

theorem access_existsBlob_touched (d : Disk) :
    ((s.access c identifier .existsBlob).run d).2.touched =
      d.touched ++ [s.path c identifier] := by
  have hfst := c.existsBlob_touched (s.storePrefix ++ pathFor identifier) d
  simp only [access, blobstore_existsBlob]
  rw [run_bind]
  cases h : (c.existsBlob (s.storePrefix ++ pathFor identifier)).run d with
  | mk o d' =>
    rw [h] at hfst
    cases o with
    | returned r => exact congrArg Disk.touched hfst
    | panicked e => exact congrArg Disk.touched hfst

/-! ## Where the path lies -/

/-- The identifier, partitioned and prefixed, as a walk from the path prefix: so many levels up,
and then down these names. -/
def relative : Path := Loc.here.walk (movesOf (s.storePrefix ++ pathFor identifier))

def levelsUp (l : Path) : ℕ :=
  match l.anchor with
  | .root => 0
  | .up n => n

/-- The walk of the identifier comes back: what it climbs out of, it enters again. -/
def ComesBack : Prop :=
  (cleanPath c.pathPrefix).Reenters (levelsUp (s.relative identifier)) (s.relative identifier).names

instance : Decidable (s.ComesBack c identifier) :=
  inferInstanceAs (Decidable (Loc.Reenters _ _ _))

theorem inside_path_iff :
    Loc.Inside (cleanPath c.pathPrefix) (s.path c identifier) ↔ s.ComesBack c identifier := by
  obtain ⟨n, names, hhere, hwalk⟩ :=
    Loc.walk_eq_climb_descend (movesOf (s.storePrefix ++ pathFor identifier))
  have hpath : s.path c identifier = ((cleanPath c.pathPrefix).climb n).descend names := by
    unfold path LocalBlobstoreConfig.fullPath
    rw [filepathJoin_eq_walk c.pathPrefix_ne, hwalk]
  have hrel : s.relative identifier = ⟨.up n, names⟩ := hhere
  unfold ComesBack
  rw [hpath, Loc.inside_climb_descend_iff, hrel]
  rfl

theorem inside_path_of_confines (h : s.Confines c identifier) :
    Loc.Inside (cleanPath c.pathPrefix) (s.path c identifier) := by
  let d : Disk := ⟨FileTree.empty, [], fun _ => [], [], []⟩
  refine h .existsBlob d rfl (s.path c identifier) ?_ List.not_mem_nil
  rw [access_existsBlob_touched]
  exact List.mem_append_right _ List.mem_cons_self

theorem confines_of_inside_path
    (h : Loc.Inside (cleanPath c.pathPrefix) (s.path c identifier)) : s.Confines c identifier := by
  intro a d hd p hp ho
  let S : Path → Prop := fun q => q ∈ s.otherPaths c a ∨ Loc.Inside (cleanPath c.pathPrefix) q
  have hkeep : Keeps (TouchedIn S) (s.access c identifier a) :=
    s.keeps_access c identifier (.inr h) a (fun q hq => .inl hq)
  have hd' : TouchedIn S d := by
    intro q hq
    rw [hd] at hq
    exact absurd hq List.not_mem_nil
  exact (hkeep d hd' p hp).resolve_left ho

/-- **Confinement**: an identifier is confined to the path prefix exactly when its walk comes
back. -/
theorem confines_iff : s.Confines c identifier ↔ s.ComesBack c identifier := by
  rw [← inside_path_iff]
  exact ⟨s.inside_path_of_confines c identifier, s.confines_of_inside_path c identifier⟩

end LocalStore

/-- `sha1` values are used as they come: this one reads the host's password file. -/
theorem not_confines_etc_passwd :
    ¬ LocalStore.appStash.Confines ⟨ascii "/var/vcap/store", by decide⟩
      (ascii "../../../../etc/passwd") := by
  intro h
  have hin := LocalStore.inside_path_of_confines _ _ _ h
  rw [LocalStore.inside_path_iff] at hin
  exact absurd hin (by decide)

end BitsService
