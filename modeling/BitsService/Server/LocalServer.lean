import BitsService.Server.DiskServer
import BitsService.Server.ShelvedServer

/-! # The local server and its model

The server that `main` builds over local directories, without an updater, is a function from
requests and blobs to responses and blobs. -/
namespace BitsService
open GoLib.Effect GoLib.Coupling GoLib.OperationRuns
set_option autoImplicit false

/-- The identifiers of resources of this kind are partitioned, below a prefix of their own. -/
def Settings.shelf (settings : Settings) (kind : ResourceKind) : Shelf Blobs where
  part := sectionPart kind.storeSection
  key identifier := settings.keyPrefix kind ++ pathFor identifier
  dir pre := settings.keyPrefix kind ++ pathFor pre

def Settings.stashShelf (settings : Settings) : Shelf Blobs where
  part := sectionPart .appStash
  key sha1 := settings.stashKeyPrefix ++ pathFor sha1
  dir pre := settings.stashKeyPrefix ++ pathFor pre

def ResourceKind.resourceType : ResourceKind → Bytes
  | package => ascii "package"
  | droplet => ascii "droplet"
  | buildpack => ascii "buildpack"
  | buildpackCache => ascii "buildpack_cache"

def Settings.maxBodySizeLimit (settings : Settings) : ResourceKind → ℕ
  | .buildpackCache => settings.buildpackCacheMaxBodySizeBytes
  | kind => settings.maxBodySizeBytes kind.storeSection

namespace LocalSettings
variable (settings : LocalSettings)

/-- Only packages are bundled; for the others the limits on the sizes of files mean nothing. -/
def resourceModel (kind : ResourceKind) : ShelvedResource Blobs where
  shelf := settings.shelf kind
  appStash := settings.stashShelf
  resourceType := kind.resourceType
  maxBodySizeLimit := settings.maxBodySizeLimit kind
  minimumSize := if kind = .package then settings.minimumSizeBytes else 0
  maximumSize := if kind = .package then settings.maximumSizeBytes else 2 ^ 64 - 1

def model : ShelvedServer Blobs where
  mux := settings.mux
  privateHost := settings.privateHost
  publicHost := settings.publicHost
  credentials := settings.signingUsers
  validator := settings.signer
  endpoint := settings.publicEndpoint.text
  formats := settings.formats
  appStash := ⟨settings.stashShelf, settings.maxBodySizeBytes .appStash,
    settings.minimumSizeBytes, settings.maximumSizeBytes⟩
  resources := settings.resourceModel

def localServer : Server Disk :=
  settings.newServer (fun s => ⟨newLocalBlobstore (settings.layout.store s), unsigned⟩) nullUpdater

def blobServer : Server Blobs :=
  settings.newServer (fun s => ⟨sectionStore s, unsigned⟩) nullUpdater

theorem alikeServers_blobs :
    AlikeServers settings.layout.Mirrors settings.shared settings.localServer
      settings.blobServer := by
  refine Settings.alikeServers_newServerWith
    (fun s => settings.layout.alikeBlobstores_section s) (alike_nullUpdater _) (fun content => ?_)
    (fun _ => fun _ _ _ => Alike.pure _) fun _ _ _ _ => Alike.raise _
  have hlocal := settings.isLocal .appStash
  have hstash := settings.stashKeys content
  rw [Settings.stashKeyPrefix, hlocal]
  exact hstash

theorem signHandler_blobServer (r : SignedResource) :
    settings.blobServer.signHandler r = settings.model.signHandler r := by
  refine (settings.signHandler_newServer settings.isLocal _ _
    ⟨sectionStore .packages, unsigned⟩ r).trans ?_
  cases r <;> rfl

theorem appStash_blobServer :
    (settings.createAppStash LocalResourceSigner.toResourceSigner
      (fun s => ⟨sectionStore s, unsigned⟩)).1 =
        settings.stashShelf.toBlobstore.toNoRedirectBlobstore := by
  rw [Settings.createAppStash_blobstore]
  rfl

theorem resources_blobServer (kind : ResourceKind) :
    settings.blobServer.resources kind = (settings.model.resources kind).handler := by
  have hstore : (settings.createStore LocalResourceSigner.toResourceSigner
      (fun s => ⟨sectionStore s, unsigned⟩) kind).1 = (settings.shelf kind).toBlobstore := by
    rw [Settings.createStore_blobstore]
    rfl
  have hstash := settings.appStash_blobServer
  cases kind with
  | package =>
    show (⟨_, _, _, _, _, _, _⟩ : ResourceHandler Blobs) = _
    rw [hstore, hstash]
    rfl
  | droplet =>
    show newResourceHandler _ _ _ _ = _
    rw [hstore, hstash]
    rfl
  | buildpack =>
    show newResourceHandler _ _ _ _ = _
    rw [hstore, hstash]
    rfl
  | buildpackCache =>
    show newResourceHandler _ _ _ _ = _
    rw [hstore, hstash]
    rfl

theorem blobServer_eq : settings.blobServer = settings.model.server := by
  have hsign : settings.blobServer.signHandler = settings.model.signHandler :=
    funext settings.signHandler_blobServer
  have hresources : settings.blobServer.resources =
      fun kind => (settings.model.resources kind).handler := funext settings.resources_blobServer
  have hstash : settings.blobServer.appStash = settings.model.appStash.handler := by
    show (⟨_, _, _, _⟩ : AppStashHandler Blobs) = _
    rw [settings.appStash_blobServer]
    rfl
  unfold ShelvedServer.server
  rw [← hsign, ← hstash, ← hresources]
  rfl

end LocalSettings

theorem runAll_server_java : ∃ host', host'.Faultless ∧
    runAll localSettings.model.server.step javaRun ((Env.fresh ()).host, fun _ _ => none) =
      ((runAll localSettings.model.answerTo javaRun fun _ _ => none).1, host',
        (runAll localSettings.model.answerTo javaRun fun _ _ => none).2) :=
  localSettings.model.runAll_server (fun _ => rfl) javaRun fun _ _ => none

end BitsService
