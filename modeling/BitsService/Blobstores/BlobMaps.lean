import BitsService.Blobstores.Decorators
import BitsService.Foundations.Path

/-! # Blobs in a map

What the local blobstore is as long as nothing fails: a map from keys to contents. It may be a part
of a larger state, and its keys may be rewritten on the way to it. -/
namespace BitsService
open GoLib.Effect
set_option autoImplicit false

abbrev BlobMap := Bytes → Option Bytes

/-- At or below a directory, however many slashes its text has. -/
def IsBelow (pre key : Bytes) : Prop := movesOf pre <+: movesOf key

instance (pre key : Bytes) : Decidable (IsBelow pre key) :=
  inferInstanceAs (Decidable (movesOf pre <+: movesOf key))

def found {α : Type} : Option α → Result α
  | none => .error .newNotFoundError
  | some content => .ok content

/-- A blob that is copied onto itself is empty. -/
def blobMapStore : Blobstore BlobMap where
  existsBlob key := do pure (.ok ((← getState) key).isSome)
  get key := do pure (found (((← getState) key).map .whole))
  put key src := do
    modifyState fun m => Function.update m key (some src)
    pure (.ok ())
  delete key := do
    match (← getState) key with
    | none => pure (.error .newNotFoundError)
    | some _ => do
      modifyState fun m => Function.update m key none
      pure (.ok ())
  deleteDir pre := do
    modifyState fun m key => if IsBelow pre key then none else m key
    pure (.ok ())
  headOrRedirectAsGet key := do pure (found (((← getState) key).map fun _ => []))
  getOrRedirect key := do
    pure (found (((← getState) key).map fun content => (some (.whole content), [])))
  copy src dest := do
    match (← getState) src with
    | none => pure (.error .newNotFoundError)
    | some content => do
      modifyState fun m => Function.update m dest (some (if src = dest then [] else content))
      pure (.ok ())

variable {σ : Type}

/-- The part of a state that holds blobs, and how identifiers and directories are turned into its
keys. -/
structure Shelf (σ : Type) where
  part : Part σ BlobMap
  key : Bytes → Bytes
  dir : Bytes → Bytes

namespace Shelf
variable (shelf : Shelf σ)

def toBlobstore : Blobstore σ := (blobMapStore.zoom shelf.part).rewriting shelf.key shelf.dir

def blob (s : σ) (identifier : Bytes) : Option Bytes := shelf.part.get s (shelf.key identifier)

def store (identifier : Bytes) (content : Option Bytes) (s : σ) : σ :=
  shelf.part.put s (Function.update (shelf.part.get s) (shelf.key identifier) content)

def clear (pre : Bytes) (s : σ) : σ :=
  shelf.part.put s fun key => if IsBelow (shelf.dir pre) key then none else shelf.part.get s key

/-- What a copy leaves at its destination. -/
def copied (source identifier content : Bytes) : Bytes :=
  if shelf.key source = shelf.key identifier then [] else content

variable (identifier : Bytes) (s : σ)

theorem run_existsBlob : (shelf.toBlobstore.existsBlob identifier).run s =
    (.returned (.ok (shelf.blob s identifier).isSome), s) :=
  Prod.ext rfl (shelf.part.put_get s)

theorem run_get : (shelf.toBlobstore.get identifier).run s =
    (.returned (found ((shelf.blob s identifier).map .whole)), s) :=
  Prod.ext rfl (shelf.part.put_get s)

theorem run_put (src : Bytes) : (shelf.toBlobstore.put identifier src).run s =
    (.returned (.ok ()), shelf.store identifier (some src) s) := rfl

theorem run_deleteDir : (shelf.toBlobstore.deleteDir identifier).run s =
    (.returned (.ok ()), shelf.clear identifier s) := rfl

theorem run_headOrRedirectAsGet : (shelf.toBlobstore.headOrRedirectAsGet identifier).run s =
    (.returned (found ((shelf.blob s identifier).map fun _ => [])), s) :=
  Prod.ext rfl (shelf.part.put_get s)

theorem run_getOrRedirect : (shelf.toBlobstore.getOrRedirect identifier).run s =
    (.returned (found ((shelf.blob s identifier).map fun content =>
      (some (.whole content), []))), s) :=
  Prod.ext rfl (shelf.part.put_get s)

variable {identifier s}

/-- A change to the part, by a program that has run there. -/
theorem run_zoom_part {α : Type} {m : Prog GoError BlobMap α} {o : Outcome GoError α}
    {blobs : BlobMap} (h : m.run (shelf.part.get s) = (o, blobs)) :
    (zoom shelf.part m).run s = (o, shelf.part.put s blobs) := by
  rw [run_zoom, h]

theorem run_delete_none (h : shelf.blob s identifier = none) :
    (shelf.toBlobstore.delete identifier).run s = (.returned (.error .newNotFoundError), s) := by
  have hrun : (blobMapStore.delete (shelf.key identifier)).run (shelf.part.get s) =
      (.returned (.error .newNotFoundError), shelf.part.get s) := by
    rw [blob] at h
    simp [blobMapStore, run_bind, h]
  exact (shelf.run_zoom_part hrun).trans (Prod.ext rfl (shelf.part.put_get s))

theorem run_delete_some {content : Bytes} (h : shelf.blob s identifier = some content) :
    (shelf.toBlobstore.delete identifier).run s =
      (.returned (.ok ()), shelf.store identifier none s) := by
  refine shelf.run_zoom_part ?_
  rw [blob] at h
  simp [blobMapStore, run_bind, h]

variable {source : Bytes}

theorem run_copy_none (h : shelf.blob s source = none) :
    (shelf.toBlobstore.copy source identifier).run s =
      (.returned (.error .newNotFoundError), s) := by
  have hrun : (blobMapStore.copy (shelf.key source) (shelf.key identifier)).run
      (shelf.part.get s) = (.returned (.error .newNotFoundError), shelf.part.get s) := by
    rw [blob] at h
    simp [blobMapStore, run_bind, h]
  exact (shelf.run_zoom_part hrun).trans (Prod.ext rfl (shelf.part.put_get s))

theorem run_copy_some {content : Bytes} (h : shelf.blob s source = some content) :
    (shelf.toBlobstore.copy source identifier).run s = (.returned (.ok ()),
      shelf.store identifier (some (shelf.copied source identifier content)) s) := by
  refine shelf.run_zoom_part ?_
  rw [blob] at h
  simp [blobMapStore, run_bind, h, copied]

end Shelf

end BitsService
