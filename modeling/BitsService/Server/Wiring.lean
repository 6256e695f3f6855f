import BitsService.Blobstores.Decorators

/-! # The wiring of stores and signers

`main` builds the store of each resource type and the handler that signs its URLs from two stacks
of decorators over the same backend, one stack for each. -/
namespace BitsService
open GoLib.Effect
set_option autoImplicit false

inductive BlobstoreType where
  | localDir
  | aws
  | google
  | azure
  | openStack
  | webDAV
  | alibaba
  deriving DecidableEq

/-- `config.BlobstoreConfig`, with the one backend field that the wiring itself reads. -/
structure BlobstoreConfig where
  blobstoreType : BlobstoreType
  directoryKey : Bytes
  deriving DecidableEq

/-- A backend is a store, and what signs URLs of its objects. -/
structure Backend (σ : Type) where
  blobstore : Blobstore σ
  signer : ResourceSigner σ

/-- The signers of a `SignResourceHandler`; a nil one is `none`. -/
structure SignResourceHandler (σ : Type) where
  getResourceSigner : Option (ResourceSigner σ)
  putResourceSigner : Option (ResourceSigner σ)

variable {σ : Type}

def newSignResourceHandler (getResourceSigner putResourceSigner : ResourceSigner σ) :
    SignResourceHandler σ := ⟨some getResourceSigner, some putResourceSigner⟩

/-- The branches for S3, Google, Azure, OpenStack and Alibaba, which differ in the backend only. -/
def partitionedAndSignURLHandler (backend : Backend σ) (localResourceSigner : ResourceSigner σ) :
    Blobstore σ × SignResourceHandler σ :=
  (forBlobstoreWithPathPartitioning (forBlobstoreWithMetricsEmitter backend.blobstore),
    newSignResourceHandler (forResourceSignerWithPathPartitioning backend.signer)
      localResourceSigner)

def createBlobstoreAndSignURLHandler (blobstoreConfig : BlobstoreConfig) (backend : Backend σ)
    (localResourceSigner : ResourceSigner σ) : Blobstore σ × SignResourceHandler σ :=
  match blobstoreConfig.blobstoreType with
  | .localDir =>
    (forBlobstoreWithPathPartitioning (forBlobstoreWithMetricsEmitter backend.blobstore),
      newSignResourceHandler localResourceSigner localResourceSigner)
  | .aws => partitionedAndSignURLHandler backend localResourceSigner
  | .google => partitionedAndSignURLHandler backend localResourceSigner
  | .azure => partitionedAndSignURLHandler backend localResourceSigner
  | .openStack => partitionedAndSignURLHandler backend localResourceSigner
  | .webDAV =>
    (forBlobstoreWithPathPartitioning
        (forBlobstoreWithPathPrefixing
          (forBlobstoreWithMetricsEmitter backend.blobstore)
          (blobstoreConfig.directoryKey ++ ascii "/")),
      newSignResourceHandler
        (forResourceSignerWithPathPartitioning
          (forResourceSignerWithPathPrefixing backend.signer
            (blobstoreConfig.directoryKey ++ ascii "/")))
        localResourceSigner)
  | .alibaba => partitionedAndSignURLHandler backend localResourceSigner

/-- A store and a signer, partitioned and prefixed, the latter not with the same prefix. -/
def prefixedAndSignURLHandler (backend : Backend σ) (storePrefix signPrefix : Bytes)
    (localResourceSigner : ResourceSigner σ) : Blobstore σ × SignResourceHandler σ :=
  (forBlobstoreWithPathPartitioning
      (forBlobstoreWithPathPrefixing
        (forBlobstoreWithMetricsEmitter backend.blobstore)
        storePrefix),
    newSignResourceHandler
      (forResourceSignerWithPathPartitioning
        (forResourceSignerWithPathPrefixing backend.signer signPrefix))
      localResourceSigner)

def createBuildpackCacheSignURLHandler (blobstoreConfig : BlobstoreConfig) (backend : Backend σ)
    (localResourceSigner : ResourceSigner σ) : Blobstore σ × SignResourceHandler σ :=
  match blobstoreConfig.blobstoreType with
  | .localDir =>
    (forBlobstoreWithPathPartitioning
        (forBlobstoreWithPathPrefixing
          (forBlobstoreWithMetricsEmitter backend.blobstore)
          (ascii "buildpack_cache/")),
      newSignResourceHandler localResourceSigner localResourceSigner)
  | .aws =>
    prefixedAndSignURLHandler backend (ascii "buildpack_cache/") (ascii "buildpack_cache")
      localResourceSigner
  | .google =>
    prefixedAndSignURLHandler backend (ascii "buildpack_cache/") (ascii "buildpack_cache")
      localResourceSigner
  | .azure =>
    prefixedAndSignURLHandler backend (ascii "buildpack_cache/") (ascii "buildpack_cache")
      localResourceSigner
  | .openStack =>
    prefixedAndSignURLHandler backend (ascii "buildpack_cache/") (ascii "buildpack_cache")
      localResourceSigner
  | .webDAV =>
    prefixedAndSignURLHandler backend (blobstoreConfig.directoryKey ++ ascii "/buildpack_cache/")
      (blobstoreConfig.directoryKey ++ ascii "/buildpack_cache/") localResourceSigner
  | .alibaba =>
    prefixedAndSignURLHandler backend (ascii "buildpack_cache/") (ascii "buildpack_cache")
      localResourceSigner

/-- The store of the app stash; its URLs are signed by the local signer alone. -/
def createAppStashBlobstore (blobstoreConfig : BlobstoreConfig) (backend : Backend σ)
    (localResourceSigner : ResourceSigner σ) : NoRedirectBlobstore σ × SignResourceHandler σ :=
  let pre := match blobstoreConfig.blobstoreType with
    | .webDAV => blobstoreConfig.directoryKey ++ ascii "/app_bits_cache/"
    | _ => ascii "app_bits_cache/"
  ((forBlobstoreWithPathPartitioning
      (forBlobstoreWithPathPrefixing
        (forBlobstoreWithMetricsEmitter backend.blobstore) pre)).toNoRedirectBlobstore,
    ⟨none, some localResourceSigner⟩)

end BitsService
