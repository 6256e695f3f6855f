import BitsService.Blobstores.Interface
import BitsService.Lib.KeyedMap

/-! # Blobstore decorators

Partitioning puts the first bytes of an identifier in front of it as directories; prefixing puts a
constant there. Both exist for blobstores and for resource signers, and are stacked by hand. -/
namespace BitsService
open GoLib.Effect GoLib.KeyedMap
set_option autoImplicit false

def pathFor (identifier : Bytes) : Bytes :=
  if 4 ≤ identifier.length then
    identifier.take 2 ++ slash :: ((identifier.drop 2).take 2 ++ slash :: identifier)
  else if identifier.length = 3 then
    identifier.take 2 ++ slash :: ((identifier.drop 2).take 1 ++ slash :: identifier)
  else if identifier.length = 2 then identifier.take 2 ++ slash :: identifier
  else if identifier.length = 1 then identifier.take 1 ++ slash :: identifier
  else []

variable {σ : Type}

def NoRedirectBlobstore.rewriting (delegate : NoRedirectBlobstore σ) (rewrite : Bytes → Bytes)
    (rewriteDir : Bytes → Bytes) : NoRedirectBlobstore σ where
  existsBlob path := delegate.existsBlob (rewrite path)
  get path := delegate.get (rewrite path)
  put path src := delegate.put (rewrite path) src
  delete path := delegate.delete (rewrite path)
  deleteDir pre := delegate.deleteDir (rewriteDir pre)

def Blobstore.rewriting (delegate : Blobstore σ) (rewrite : Bytes → Bytes)
    (rewriteDir : Bytes → Bytes) : Blobstore σ where
  toNoRedirectBlobstore := delegate.toNoRedirectBlobstore.rewriting rewrite rewriteDir
  headOrRedirectAsGet path := delegate.headOrRedirectAsGet (rewrite path)
  getOrRedirect path := delegate.getOrRedirect (rewrite path)
  copy src dest := delegate.copy (rewrite src) (rewrite dest)

def forBlobstoreWithPathPartitioning (delegate : Blobstore σ) : Blobstore σ :=
  delegate.rewriting pathFor (fun pre => if pre = [] then pre else pathFor pre)

def forBlobstoreWithPathPrefixing (delegate : Blobstore σ) (pre : Bytes) : Blobstore σ :=
  delegate.rewriting (pre ++ ·) (pre ++ ·)

/-- The metrics that it sends are left out, so this is the delegate. -/
def forBlobstoreWithMetricsEmitter (delegate : Blobstore σ) : Blobstore σ :=
  delegate.rewriting id id

def forResourceSignerWithPathPartitioning (delegate : ResourceSigner σ) : ResourceSigner σ :=
  ⟨fun resource method expirationTime => delegate.sign (pathFor resource) method expirationTime⟩

def forResourceSignerWithPathPrefixing (delegate : ResourceSigner σ) (pre : Bytes) :
    ResourceSigner σ :=
  ⟨fun resource method expirationTime => delegate.sign (pre ++ resource) method expirationTime⟩

/-- `pathFor []` is `[]`, so partitioning treats a directory as it treats a blob. -/
theorem forBlobstoreWithPathPartitioning_deleteDir (delegate : Blobstore σ) (pre : Bytes) :
    (forBlobstoreWithPathPartitioning delegate).deleteDir pre =
      delegate.deleteDir (pathFor pre) := by
  by_cases h : pre = []
  · subst h
    rfl
  · simp [forBlobstoreWithPathPartitioning, Blobstore.rewriting, NoRedirectBlobstore.rewriting, h]

/-! ## Operations of a blobstore -/

/-- An operation on a blobstore; what is got is read to its end. -/
def perform (store : Blobstore σ) :
    MapOp Bytes Bytes → Prog GoError σ (MapAnswer Bytes GoError)
  | .existsKey path => do pure (.existed (← store.existsBlob path))
  | .get path => do pure (.got ((← store.get path).bind Body.readAll))
  | .put path src => do pure (.done (← store.put path src))
  | .copy src dest => do pure (.done (← store.copy src dest))
  | .delete path => do pure (.done (← store.delete path))

theorem perform_rewriting (store : Blobstore σ) (rewrite rewriteDir : Bytes → Bytes)
    (op : MapOp Bytes Bytes) :
    perform (store.rewriting rewrite rewriteDir) op = perform store (op.map rewrite) := by
  cases op <;> rfl

/-! ## The shape of partitioned paths -/

theorem pathFor_nil : pathFor [] = [] := rfl

theorem pathFor_of_four_le {identifier : Bytes} (h : 4 ≤ identifier.length) :
    pathFor identifier =
      identifier.take 2 ++ slash :: ((identifier.drop 2).take 2 ++ slash :: identifier) := by
  unfold pathFor
  rw [if_pos h]

theorem pathFor_one (a : UInt8) : pathFor [a] = [a, slash, a] := rfl

theorem pathFor_two (a b : UInt8) : pathFor [a, b] = [a, b, slash, a, b] := rfl

theorem pathFor_three (a b c : UInt8) :
    pathFor [a, b, c] = [a, b, slash, c, slash, a, b, c] := rfl

theorem pathFor_four (a b c d : UInt8) (rest : Bytes) : pathFor (a :: b :: c :: d :: rest) =
    a :: b :: slash :: c :: d :: slash :: a :: b :: c :: d :: rest := by
  rw [pathFor_of_four_le (by simp)]
  rfl

end BitsService
