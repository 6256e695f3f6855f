import BitsService.Server.Wiring

/-! # Signed keys and stored keys

The two stacks of a wiring are compared by what reaches the backend: a recording backend writes
down the key of every call. -/
namespace BitsService
open GoLib.Effect
set_option autoImplicit false

def recordingBackend : Backend (List Bytes) where
  blobstore :=
    { existsBlob := fun path => do modifyState (· ++ [path]); pure (.ok false)
      get := fun path => do modifyState (· ++ [path]); pure (.error .newNotFoundError)
      put := fun path _ => do modifyState (· ++ [path]); pure (.ok ())
      delete := fun path => do modifyState (· ++ [path]); pure (.ok ())
      deleteDir := fun path => do modifyState (· ++ [path]); pure (.ok ())
      headOrRedirectAsGet := fun path => do modifyState (· ++ [path]); pure (.ok [])
      getOrRedirect := fun path => do modifyState (· ++ [path]); pure (.ok (none, []))
      copy := fun src dest => do modifyState (· ++ [src, dest]); pure (.ok ()) }
  signer := ⟨fun resource _ _ => do modifyState (· ++ [resource]); pure []⟩

def keysOf {α : Type} (m : Prog GoError (List Bytes) α) : List Bytes := (m.run []).2

inductive Wiring where
  | resources
  | buildpackCache
  deriving DecidableEq

def Wiring.create : Wiring → BlobstoreConfig → Backend (List Bytes) →
    ResourceSigner (List Bytes) → Blobstore (List Bytes) × SignResourceHandler (List Bytes)
  | .resources => createBlobstoreAndSignURLHandler
  | .buildpackCache => createBuildpackCacheSignURLHandler

def storedKeys (store : Blobstore (List Bytes)) (identifier content : Bytes) :
    List (List Bytes) :=
  [keysOf (store.put identifier content), keysOf (store.get identifier),
    keysOf (store.existsBlob identifier), keysOf (store.delete identifier)]

/-- What is signed for a GET of `identifier` is the key that every operation of the store uses. -/
def SignsStoredKey (w : Wiring) (blobstoreConfig : BlobstoreConfig) (identifier : Bytes) : Prop :=
  ∀ localResourceSigner content expirationTime, ∀ signer ∈
    (w.create blobstoreConfig recordingBackend localResourceSigner).2.getResourceSigner,
    ∀ keys ∈ storedKeys
      (w.create blobstoreConfig recordingBackend localResourceSigner).1 identifier content,
    keysOf (signer.sign identifier (ascii "get") expirationTime) = keys

/-- The key under which a wiring stores an identifier. -/
def Wiring.storePrefix : Wiring → BlobstoreConfig → Bytes
  | .resources, ⟨.webDAV, directoryKey⟩ => directoryKey ++ ascii "/"
  | .resources, _ => []
  | .buildpackCache, ⟨.webDAV, directoryKey⟩ => directoryKey ++ ascii "/buildpack_cache/"
  | .buildpackCache, _ => ascii "buildpack_cache/"

def Wiring.signPrefix : Wiring → BlobstoreConfig → Bytes
  | .buildpackCache, ⟨.webDAV, directoryKey⟩ => directoryKey ++ ascii "/buildpack_cache/"
  | .buildpackCache, _ => ascii "buildpack_cache"
  | .resources, c => Wiring.storePrefix .resources c

theorem buildpackCache_prefixes_differ :
    ascii "buildpack_cache" ≠ ascii "buildpack_cache/" := by decide

theorem storedKeys_create (w : Wiring) (c : BlobstoreConfig) (s : ResourceSigner (List Bytes))
    (identifier content : Bytes) :
    storedKeys (w.create c recordingBackend s).1 identifier content =
      List.replicate 4 [w.storePrefix c ++ pathFor identifier] := by
  obtain ⟨t, directoryKey⟩ := c
  cases w with
  | resources => cases t <;> rfl
  | buildpackCache => cases t <;> rfl

theorem signedKeys_create (w : Wiring) (c : BlobstoreConfig) (s : ResourceSigner (List Bytes))
    (h : c.blobstoreType ≠ .localDir) (identifier method : Bytes) (t : Time) :
    ∃ signer, (w.create c recordingBackend s).2.getResourceSigner = some signer ∧
      keysOf (signer.sign identifier method t) = [w.signPrefix c ++ pathFor identifier] := by
  obtain ⟨t, directoryKey⟩ := c
  cases w with
  | resources =>
    cases t with
    | localDir => exact absurd rfl h
    | _ => exact ⟨_, rfl, rfl⟩
  | buildpackCache =>
    cases t with
    | localDir => exact absurd rfl h
    | _ => exact ⟨_, rfl, rfl⟩

theorem signsStoredKey_iff_prefix_eq (w : Wiring) (c : BlobstoreConfig)
    (h : c.blobstoreType ≠ .localDir) (identifier : Bytes) :
    SignsStoredKey w c identifier ↔ w.signPrefix c = w.storePrefix c := by
  constructor
  · intro hs
    obtain ⟨signer, hsigner, hkeys⟩ :=
      signedKeys_create w c ⟨fun _ _ _ => pure []⟩ h identifier (ascii "get") 0
    have heq := hs ⟨fun _ _ _ => pure []⟩ [] 0 signer hsigner
      [w.storePrefix c ++ pathFor identifier] (by rw [storedKeys_create]; exact List.mem_cons_self)
    rw [hkeys] at heq
    exact List.append_cancel_right (List.cons.inj heq).1
  · intro hkey s content t signer hsigner keys hmem
    obtain ⟨signer', hsigner', hkeys⟩ := signedKeys_create w c s h identifier (ascii "get") t
    have hsame : signer = signer' := Option.some.inj ((Eq.symm hsigner).trans hsigner')
    rw [storedKeys_create] at hmem
    rw [hsame, hkeys, (List.mem_replicate.mp hmem).2, hkey]

/-- **The signed key is the stored key**, for every backend that signs its own URLs, except in the
wiring of the buildpack cache, where only WebDAV repeats the prefix of the store as it is. -/
theorem signsStoredKey_iff (w : Wiring) (c : BlobstoreConfig) (identifier : Bytes)
    (h : c.blobstoreType ≠ .localDir) :
    SignsStoredKey w c identifier ↔ w = .resources ∨ c.blobstoreType = .webDAV := by
  rw [signsStoredKey_iff_prefix_eq w c h]
  obtain ⟨t, directoryKey⟩ := c
  cases w with
  | resources => exact ⟨fun _ => .inl rfl, fun _ => rfl⟩
  | buildpackCache =>
    cases t with
    | localDir => exact absurd rfl h
    | webDAV => exact ⟨fun _ => .inr rfl, fun _ => rfl⟩
    | _ => exact ⟨fun hp => absurd hp buildpackCache_prefixes_differ, fun hw => by simp at hw⟩

theorem signsStoredKey_buildpackCache_webDAV :
    BlobstoreType.webDAV ≠ .localDir ∧
      (SignsStoredKey .buildpackCache ⟨.webDAV, ascii "cc-buildpacks"⟩ (ascii "guid/cflinuxfs3") ↔
        Wiring.buildpackCache = .resources ∨ BlobstoreType.webDAV = .webDAV) :=
  ⟨by decide, signsStoredKey_iff .buildpackCache ⟨.webDAV, ascii "cc-buildpacks"⟩
    (ascii "guid/cflinuxfs3") (by decide)⟩

/-- On S3 a cached buildpack is stored under `buildpack_cache/gu/id/…` and signed as
`buildpack_cachegu/id/…`. -/
theorem not_signsStoredKey_buildpackCache_aws :
    ¬ SignsStoredKey .buildpackCache ⟨.aws, []⟩ (ascii "guid/cflinuxfs3") := by
  intro hs
  have heq := hs ⟨fun _ _ _ => pure []⟩ [] 0 _ rfl
    [ascii "buildpack_cache/gu/id/guid/cflinuxfs3"] (by decide)
  exact absurd heq (by decide)

end BitsService
