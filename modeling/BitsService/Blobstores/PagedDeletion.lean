import BitsService.Blobstores.ObjectStores
import BitsService.Lib.Paging

/-! # Deleting below a prefix, page by page

The loops of the `DeleteDir`s of Azure, S3, Google and Alibaba, each over the listing that its SDK
offers: a marker handed from one call to the next, a callback, an iterator. The answers to the
deletions come from any service. -/
namespace BitsService
open GoLib.Effect GoLib.Paging
set_option autoImplicit false

/-! ## The services -/

/-- What the SDK of an object store answers, over the state `σ` of the service. -/
structure ObjectService (σ : Type) where
  bucketName : σ → Bytes
  deleteObject : Bytes → σ → DeleteReply × σ
  attributes : σ → Option GoError × σ

def Bucket.service : ObjectService Bucket where
  bucketName := Bucket.name
  deleteObject key b := (b.deleteReply key, b.after [key])
  attributes b := (b.attributesFailure, b)

namespace ObjectService
variable {σ : Type} (service : ObjectService σ)

/-- What the service answers when these objects are deleted one after the other. -/
def replies : List Bytes → σ → List (Bytes × DeleteReply)
  | [], _ => []
  | key :: keys, s =>
    (key, (service.deleteObject key s).1) :: replies keys (service.deleteObject key s).2

def afterAll (keys : List Bytes) (s : σ) : σ :=
  keys.foldl (fun s key => (service.deleteObject key s).2) s

theorem replies_append (keys keys' : List Bytes) (s : σ) :
    service.replies (keys ++ keys') s =
      service.replies keys s ++ service.replies keys' (service.afterAll keys s) := by
  induction keys generalizing s with
  | nil => rfl
  | cons key keys ih => exact congrArg (_ :: ·) (ih (service.deleteObject key s).2)

theorem afterAll_append (keys keys' : List Bytes) (s : σ) :
    service.afterAll (keys ++ keys') s = service.afterAll keys' (service.afterAll keys s) :=
  List.foldl_append

theorem replies_keys (keys : List Bytes) (s : σ) :
    (service.replies keys s).map Prod.fst = keys := by
  induction keys generalizing s with
  | nil => rfl
  | cons key keys ih => exact congrArg (key :: ·) (ih (service.deleteObject key s).2)

end ObjectService

/-- The pages of a listing by prefix, any of which may fail. -/
abbrev Pages := List (Result (List Bytes))

section Loops
variable {σ W : Type} (service : ObjectService σ) (delete : Bytes → Prog GoError W (Result Unit))
  (pre : Bytes)

def ObjectService.deletion (key : Bytes) : Prog GoError σ DeleteReply := fun s =>
  (.returned (service.deleteObject key s).1, (service.deleteObject key s).2)

def ObjectService.bucketAttributes : Prog GoError σ (Option GoError) := fun s =>
  (.returned (service.attributes s).1, (service.attributes s).2)

/-- Every object of a page is deleted, and the errors are collected that are not about missing
objects. -/
def deleteListed : List Bytes → List GoError → Prog GoError W (List GoError)
  | [], deletionErrs => pure deletionErrs
  | key :: keys, deletionErrs => do
    match ← delete key with
    | .ok () => deleteListed keys deletionErrs
    | .error (.notFound _ _) => deleteListed keys deletionErrs
    | .error e => deleteListed keys (deletionErrs ++ [e])

def resultOfDeleting (deletionErrs : List GoError) : Result Unit :=
  if deletionErrs ≠ [] then .error (.sys (errorsFromDeleting pre deletionErrs)) else .ok ()

/-! ## Azure -/

structure BlobListResponse where
  blobs : List Bytes
  nextMarker : Bytes

/-- The page of a response, with the marker to go on with unless it is empty. -/
def BlobListResponse.page (response : BlobListResponse) : List Bytes × Option Bytes :=
  (response.blobs, if response.nextMarker = [] then none else some response.nextMarker)

namespace Azure

def deleteVia (path : Bytes) : Prog GoError σ (Result Unit) := do
  match ← service.deletion path with
  | .failed e _ => pure (.error (.wrapped (ascii "Path " ++ path) e))
  | .missing => pure (.error .newNotFoundError)
  | .deleted => pure (.ok ())

def deleteDirVia (listBlobs : Bytes → Result BlobListResponse) (fuel : ℕ) :
    Prog GoError W (Option (Result Unit)) := do
  match ← walk (fun marker => (listBlobs marker).map BlobListResponse.page) (deleteListed delete)
    fuel [] [] with
  | none => pure none
  | some (some e, _) => pure (some (.error (.wrapped (ascii "Prefix " ++ pre) e)))
  | some (none, deletionErrs) => pure (some (resultOfDeleting pre deletionErrs))

end Azure

/-! ## S3 -/

namespace S3

def deleteVia (path : Bytes) : Prog GoError σ (Result Unit) := do
  match ← service.deletion path with
  | .deleted => pure (.ok ())
  | .missing => pure (.error .newNotFoundError)
  | .failed e _ => pure (.error (.wrapped (ascii "Path " ++ path) e))

/-- The SDK's `ListObjectsPages`: the callback is called once a page, with whether it is the last
one, until it returns false. The variables that it captures are handed on. -/
def listObjectsPages {τ : Type} (callback : List Bytes → Bool → τ → Prog GoError W (Bool × τ)) :
    Pages → τ → Prog GoError W (Option GoError × τ)
  | [], t => pure (none, t)
  | .error e :: _, t => pure (some e, t)
  | .ok page :: pages, t => do
    let (shouldContinue, t) ← callback page pages.isEmpty t
    if shouldContinue then listObjectsPages callback pages t else pure (none, t)

def deleteDirVia (pages : Pages) : Prog GoError W (Result Unit) := do
  let (e, deletionErrs) ← listObjectsPages (fun page _ deletionErrs => do
    let deletionErrs ← deleteListed delete page deletionErrs
    pure (true, deletionErrs)) pages []
  match e with
  | some e => pure (.error (.wrapped (errorsFromDeleting pre deletionErrs) e))
  | none => pure (resultOfDeleting pre deletionErrs)

end S3

/-! ## Google -/

namespace Gcp

def bucketExistsVia : Prog GoError σ (Result Unit) := do
  let s ← getState
  match ← service.bucketAttributes with
  | some e => pure (.error (.wrapped (ascii "Error while checking for bucket existence. Bucket '" ++
      service.bucketName s ++ ascii "'") e))
  | none => pure (.ok ())

def deleteVia (path : Bytes) : Prog GoError σ (Result Unit) := do
  match ← service.deletion path with
  | .deleted => pure (.ok ())
  | .missing => do
    match ← bucketExistsVia service with
    | .error e => pure (.error e)
    | .ok () => pure (.error .newNotFoundError)
  | .failed e _ => pure (.error (.wrapped (ascii "Path " ++ path) e))

/-- What the calls to `Next` of the SDK's iterator give before `iterator.Done`. -/
def objectIterator : Pages → List (Result Bytes)
  | [] => []
  | .error e :: _ => [.error e]
  | .ok page :: pages => page.map .ok ++ objectIterator pages

def deleteNext : List (Result Bytes) → List GoError → Prog GoError W (Result Unit)
  | [], deletionErrs => pure (resultOfDeleting pre deletionErrs)
  | .error e :: _, _ => pure (.error (.wrapped (ascii "Prefix " ++ pre) e))
  | .ok name :: it, deletionErrs => do
    match ← delete name with
    | .ok () => deleteNext it deletionErrs
    | .error (.notFound _ _) => deleteNext it deletionErrs
    | .error e => deleteNext it (deletionErrs ++ [e])

def deleteDirVia (pages : Pages) : Prog GoError W (Result Unit) :=
  deleteNext delete pre (objectIterator pages) []

end Gcp

/-! ## Alibaba -/

structure ListObjectsResult where
  objects : List Bytes
  nextMarker : Bytes
  isTruncated : Bool

def ListObjectsResult.page (objList : ListObjectsResult) : List Bytes × Option Bytes :=
  (objList.objects, if objList.isTruncated then some objList.nextMarker else none)

namespace Alibaba

/-- The service does not say that a key was missing. -/
def deleteVia (resource : Bytes) : Prog GoError σ (Result Unit) := do
  match ← service.deletion resource with
  | .failed e _ => pure (.error e)
  | _ => pure (.ok ())

def deleteObjectsVia : List Bytes → List GoError → Prog GoError W (List GoError)
  | [], deletionErrs => pure deletionErrs
  | key :: keys, deletionErrs => do
    match ← delete key with
    | .error e => deleteObjectsVia keys (deletionErrs ++ [e])
    | .ok () => deleteObjectsVia keys deletionErrs

/-- The errors of a page take the place of those of the page before, and no length is negative. -/
def deleteDirVia (listObjects : Bytes → Result ListObjectsResult) (fuel : ℕ) :
    Prog GoError W (Option (Result Unit)) := do
  match ← walk (fun marker => (listObjects marker).map ListObjectsResult.page)
    (fun objList _ => deleteObjectsVia delete objList []) fuel [] [] with
  | none => pure none
  | some (some e, _) => pure (some (.error (.wrapped (ascii "Prefix " ++ pre) e)))
  | some (none, deletionErrs) =>
    if deletionErrs.length < 0 then
      pure (some (.error (.sys (errorsFromDeleting pre deletionErrs))))
    else pure (some (.ok ()))

end Alibaba

end Loops

end BitsService
