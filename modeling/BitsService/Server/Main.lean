import BitsService.Server.Dispatch

/-! # The server that `main` builds

Stores, signers and handlers, from what the configuration says once it has been loaded. The
buildpack cache has no blobstore of its own: it is kept in the one for droplets. -/
namespace BitsService
open GoLib.Effect
set_option autoImplicit false

/-- The sections of the configuration that name a blobstore. -/
inductive StoreSection where
  | packages
  | droplets
  | buildpacks
  | appStash
  deriving DecidableEq

/-- What `main` reads of the configuration. -/
structure Settings where
  mux : RootMux
  privateHost : Bytes
  publicHost : Bytes
  publicEndpoint : PublicEndpoint
  signer : PathSignerValidator
  signingUsers : List Credential
  formats : Formats
  blobstoreConfig : StoreSection → BlobstoreConfig
  maxBodySizeBytes : StoreSection → ℕ
  buildpackCacheMaxBodySizeBytes : ℕ
  minimumSizeBytes : ℕ
  maximumSizeBytes : ℕ

namespace Settings
variable (settings : Settings) {σ : Type}

def localResourceSigner (resourceType : Bytes) : LocalResourceSigner :=
  ⟨settings.signer, ascii "/" ++ resourceType ++ ascii "/", settings.publicEndpoint.text⟩

def appStashResourceSigner : LocalResourceSigner :=
  ⟨settings.signer, ascii "/app_stash/matches", settings.publicEndpoint.text⟩

section Stores
variable (toSigner : LocalResourceSigner → ResourceSigner σ) (backend : StoreSection → Backend σ)

def createStore : ResourceKind → Blobstore σ × SignResourceHandler σ
  | .package => createBlobstoreAndSignURLHandler (settings.blobstoreConfig .packages)
      (backend .packages) (toSigner (settings.localResourceSigner (ascii "packages")))
  | .droplet => createBlobstoreAndSignURLHandler (settings.blobstoreConfig .droplets)
      (backend .droplets) (toSigner (settings.localResourceSigner (ascii "droplets")))
  | .buildpack => createBlobstoreAndSignURLHandler (settings.blobstoreConfig .buildpacks)
      (backend .buildpacks) (toSigner (settings.localResourceSigner (ascii "buildpacks")))
  | .buildpackCache => createBuildpackCacheSignURLHandler (settings.blobstoreConfig .droplets)
      (backend .droplets)
      (toSigner (settings.localResourceSigner (ascii "buildpack_cache/entries")))

def createAppStash : NoRedirectBlobstore σ × SignResourceHandler σ :=
  createAppStashBlobstore (settings.blobstoreConfig .appStash) (backend .appStash)
    (toSigner settings.appStashResourceSigner)

def signHandlers : SignedResource → SignResourceHandler σ
  | .package _ => (settings.createStore toSigner backend .package).2
  | .droplet _ => (settings.createStore toSigner backend .droplet).2
  | .buildpack _ => (settings.createStore toSigner backend .buildpack).2
  | .buildpackCache _ => (settings.createStore toSigner backend .buildpackCache).2
  | .appStashMatches => (settings.createAppStash toSigner backend).2

def resourceHandlers (updater : Updater σ) : ResourceKind → ResourceHandler σ
  | .package =>
    ⟨(settings.createStore toSigner backend .package).1,
      (settings.createAppStash toSigner backend).1, ascii "package",
      settings.maxBodySizeBytes .packages, updater, settings.minimumSizeBytes,
      settings.maximumSizeBytes⟩
  | .droplet =>
    newResourceHandler (settings.createStore toSigner backend .droplet).1
      (settings.createAppStash toSigner backend).1 (ascii "droplet")
      (settings.maxBodySizeBytes .droplets)
  | .buildpack =>
    newResourceHandler (settings.createStore toSigner backend .buildpack).1
      (settings.createAppStash toSigner backend).1 (ascii "buildpack")
      (settings.maxBodySizeBytes .buildpacks)
  | .buildpackCache =>
    newResourceHandler (settings.createStore toSigner backend .buildpackCache).1
      (settings.createAppStash toSigner backend).1 (ascii "buildpack_cache")
      settings.buildpackCacheMaxBodySizeBytes

/-- The server, when its local signers are used as `toSigner` says. -/
def newServerWith (updater : Updater σ) : Server σ where
  mux := settings.mux
  privateHost := settings.privateHost
  publicHost := settings.publicHost
  credentials := settings.signingUsers
  validator := settings.signer
  signHandler := settings.signHandlers toSigner backend
  formats := settings.formats
  appStash := ⟨(settings.createAppStash toSigner backend).1,
    settings.maxBodySizeBytes .appStash, settings.minimumSizeBytes, settings.maximumSizeBytes⟩
  resources := settings.resourceHandlers toSigner backend updater

end Stores

def newServer (backend : StoreSection → Backend σ) (updater : Updater σ) : Server σ :=
  settings.newServerWith LocalResourceSigner.toResourceSigner backend updater

/-! ## The signers -/

/-- The deployment with the same signer, routes and public endpoint. -/
def deployment (backend : Backend σ) : Deployment σ :=
  ⟨settings.mux.toMux, settings.signer, settings.publicEndpoint, [], backend⟩

/-- **Over local directories the server signs as its deployment does.** -/
theorem signHandler_newServer
    (hlocal : ∀ s, (settings.blobstoreConfig s).blobstoreType = .localDir)
    (backend : StoreSection → Backend σ) (updater : Updater σ) (d : Backend σ)
    (r : SignedResource) :
    (settings.newServer backend updater).signHandler r = (settings.deployment d).signHandler r := by
  cases r with
  | package i =>
    show (createBlobstoreAndSignURLHandler (settings.blobstoreConfig .packages) _ _).2 = _
    rw [createBlobstoreAndSignURLHandler, hlocal]
    rfl
  | droplet i =>
    show (createBlobstoreAndSignURLHandler (settings.blobstoreConfig .droplets) _ _).2 = _
    rw [createBlobstoreAndSignURLHandler, hlocal]
    rfl
  | buildpack i =>
    show (createBlobstoreAndSignURLHandler (settings.blobstoreConfig .buildpacks) _ _).2 = _
    rw [createBlobstoreAndSignURLHandler, hlocal]
    rfl
  | buildpackCache i =>
    show (createBuildpackCacheSignURLHandler (settings.blobstoreConfig .droplets) _ _).2 = _
    rw [createBuildpackCacheSignURLHandler, hlocal]
    rfl
  | appStashMatches => rfl

end Settings

end BitsService
