import BitsService.Foundations.World

/-! # Blobstores and resource signers

The interfaces that the handlers are written against, over the state `σ` of what lies behind
them. -/
namespace BitsService
open GoLib.Effect
set_option autoImplicit false

/-- What reading a blob to its end delivers: the chunks of the successful reads, and the error that
ended them, if it was not the end of the blob. -/
structure Body where
  chunks : List Bytes
  failure : Option GoError
  deriving DecidableEq

namespace Body

def whole (content : Bytes) : Body := ⟨[content], none⟩

def delivered (b : Body) : Bytes := b.chunks.flatten

def readAll (b : Body) : Result Bytes :=
  match b.failure with
  | some e => .error e
  | none => .ok b.delivered

@[simp] theorem delivered_whole (content : Bytes) : (whole content).delivered = content := by
  simp [whole, delivered]

end Body

/-- `NoRedirectBlobstore`. The source of a `put` is what is left to read of it. -/
structure NoRedirectBlobstore (σ : Type) where
  existsBlob : Bytes → Prog GoError σ (Result Bool)
  get : Bytes → Prog GoError σ (Result Body)
  put : Bytes → Bytes → Prog GoError σ (Result Unit)
  delete : Bytes → Prog GoError σ (Result Unit)
  deleteDir : Bytes → Prog GoError σ (Result Unit)

/-- `decorator.Blobstore`: `Blobstore` with `Get`. -/
structure Blobstore (σ : Type) extends NoRedirectBlobstore σ where
  headOrRedirectAsGet : Bytes → Prog GoError σ (Result Bytes)
  getOrRedirect : Bytes → Prog GoError σ (Result (Option Body × Bytes))
  copy : Bytes → Bytes → Prog GoError σ (Result Unit)

def NoRedirectBlobstore.zoom {σ τ : Type} (l : Part τ σ) (blobstore : NoRedirectBlobstore σ) :
    NoRedirectBlobstore τ where
  existsBlob path := GoLib.Effect.zoom l (blobstore.existsBlob path)
  get path := GoLib.Effect.zoom l (blobstore.get path)
  put path src := GoLib.Effect.zoom l (blobstore.put path src)
  delete path := GoLib.Effect.zoom l (blobstore.delete path)
  deleteDir pre := GoLib.Effect.zoom l (blobstore.deleteDir pre)

def Blobstore.zoom {σ τ : Type} (l : Part τ σ) (blobstore : Blobstore σ) : Blobstore τ where
  toNoRedirectBlobstore := blobstore.toNoRedirectBlobstore.zoom l
  headOrRedirectAsGet path := GoLib.Effect.zoom l (blobstore.headOrRedirectAsGet path)
  getOrRedirect path := GoLib.Effect.zoom l (blobstore.getOrRedirect path)
  copy src dest := GoLib.Effect.zoom l (blobstore.copy src dest)

/-- Nanoseconds since the Unix epoch. -/
abbrev Time := ℤ

def nanosecondsPerSecond : ℤ := 1000000000

def unixSeconds (t : Time) : ℤ := t / nanosecondsPerSecond

def oneHour : Time := 3600 * nanosecondsPerSecond

structure ResourceSigner (σ : Type) where
  sign : Bytes → Bytes → Time → Prog GoError σ Bytes

end BitsService
