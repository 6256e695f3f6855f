import BitsService.Server.AlikeServers
import BitsService.Server.ShelvedServer

/-! # Shelves with the same contents

A server over shelves answers as it does over other shelves on which the same contents are found
under the same identifiers, however these are written there. -/
namespace BitsService
open GoLib.Effect GoLib.Coupling
set_option autoImplicit false

variable {σ τ : Type}

structure AlikeShelves (R : σ → τ → Prop) (identifiers dirs : Set Bytes) (shelf : Shelf σ)
    (shelf' : Shelf τ) : Prop where
  blob : ∀ s t, R s t → ∀ i ∈ identifiers, shelf.blob s i = shelf'.blob t i
  store : ∀ s t, R s t → ∀ i ∈ identifiers, ∀ content,
    R (shelf.store i content s) (shelf'.store i content t)
  clear : ∀ s t, R s t → ∀ pre ∈ dirs, R (shelf.clear pre s) (shelf'.clear pre t)
  key : ∀ i ∈ identifiers, ∀ j ∈ identifiers,
    shelf.key i = shelf.key j ↔ shelf'.key i = shelf'.key j

namespace AlikeShelves
variable {R : σ → τ → Prop} {identifiers dirs : Set Bytes} {shelf : Shelf σ} {shelf' : Shelf τ}
  (h : AlikeShelves R identifiers dirs shelf shelf')
include h

theorem alike_delete {i : Bytes} (hi : i ∈ identifiers) :
    Alike R (shelf.toBlobstore.delete i) (shelf'.toBlobstore.delete i) := by
  intro s t hR
  have hblob := h.blob s t hR i hi
  cases hfound : shelf.blob s i with
  | none =>
    rw [shelf.run_delete_none hfound, shelf'.run_delete_none (hblob ▸ hfound)]
    exact ⟨rfl, hR⟩
  | some content =>
    rw [shelf.run_delete_some hfound, shelf'.run_delete_some (hblob ▸ hfound)]
    exact ⟨rfl, h.store s t hR i hi none⟩

theorem alike_copy {i j : Bytes} (hi : i ∈ identifiers) (hj : j ∈ identifiers) :
    Alike R (shelf.toBlobstore.copy i j) (shelf'.toBlobstore.copy i j) := by
  intro s t hR
  have hblob := h.blob s t hR i hi
  cases hfound : shelf.blob s i with
  | none =>
    rw [shelf.run_copy_none hfound, shelf'.run_copy_none (hblob ▸ hfound)]
    exact ⟨rfl, hR⟩
  | some content =>
    have hcopied : shelf.copied i j content = shelf'.copied i j content :=
      if_congr (h.key i hi j hj) rfl rfl
    rw [shelf.run_copy_some hfound, shelf'.run_copy_some (hblob ▸ hfound), hcopied]
    exact ⟨rfl, h.store s t hR j hj _⟩

theorem alikeBlobstores :
    AlikeBlobstores R identifiers dirs shelf.toBlobstore shelf'.toBlobstore where
  existsBlob i hi s t hR := by
    show ((shelf.toBlobstore.existsBlob i).run s).1 = _ ∧ R ((shelf.toBlobstore.existsBlob i).run
      s).2 ((shelf'.toBlobstore.existsBlob i).run t).2
    rw [shelf.run_existsBlob, shelf'.run_existsBlob, h.blob s t hR i hi]
    exact ⟨rfl, hR⟩
  get i hi s t hR := by
    show ((shelf.toBlobstore.get i).run s).1 = _ ∧ R ((shelf.toBlobstore.get i).run s).2
      ((shelf'.toBlobstore.get i).run t).2
    rw [shelf.run_get, shelf'.run_get, h.blob s t hR i hi]
    exact ⟨rfl, hR⟩
  put i hi src s t hR := ⟨rfl, h.store s t hR i hi (some src)⟩
  delete _ hi := h.alike_delete hi
  deleteDir pre hpre s t hR := ⟨rfl, h.clear s t hR pre hpre⟩
  headOrRedirectAsGet i hi s t hR := by
    rw [shelf.run_headOrRedirectAsGet, shelf'.run_headOrRedirectAsGet, h.blob s t hR i hi]
    exact ⟨rfl, hR⟩
  getOrRedirect i hi s t hR := by
    rw [shelf.run_getOrRedirect, shelf'.run_getOrRedirect, h.blob s t hR i hi]
    exact ⟨rfl, hR⟩
  copy _ hi _ hj := h.alike_copy hi hj

end AlikeShelves

/-! ## The server over other shelves -/

namespace ShelvedServer

/-- The same server, with shelves for its resources and for the app stash. -/
def onShelves (model : ShelvedServer σ) (shelves : ResourceKind → Shelf τ) (stashShelf : Shelf τ) :
    ShelvedServer τ where
  mux := model.mux
  privateHost := model.privateHost
  publicHost := model.publicHost
  credentials := model.credentials
  validator := model.validator
  endpoint := model.endpoint
  formats := model.formats
  appStash := ⟨stashShelf, model.appStash.maxBodySizeLimit, model.appStash.minimumSize,
    model.appStash.maximumSize⟩
  resources kind :=
    ⟨shelves kind, stashShelf, (model.resources kind).resourceType,
      (model.resources kind).maxBodySizeLimit, (model.resources kind).minimumSize,
      (model.resources kind).maximumSize⟩

theorem alikeServers_onShelves {R : σ → τ → Prop} {shared : SharedKeys} (model : ShelvedServer σ)
    {shelves : ResourceKind → Shelf τ} {stashShelf : Shelf τ}
    (hshelves : ∀ kind, AlikeShelves R (shared.keys kind) (shared.dirs kind)
      (model.resources kind).shelf (shelves kind))
    (hstash : AlikeShelves R shared.stashKeys ∅ model.appStash.shelf stashShelf)
    (happStash : ∀ kind, (model.resources kind).appStash = model.appStash.shelf)
    (hdigests : ∀ content, model.formats.digests.key content ∈ shared.stashKeys) :
    AlikeServers R shared model.server (model.onShelves shelves stashShelf).server := by
  have hstashes := hstash.alikeBlobstores.toAlikeStashes
  refine ⟨⟨rfl, rfl, ⟨hstashes, rfl, rfl, rfl⟩, fun kind => ?_, hdigests⟩, rfl, rfl, rfl, rfl,
    fun r => ?_⟩
  · refine ⟨(hshelves kind).alikeBlobstores, ?_, alike_nullUpdater R, rfl, rfl, rfl, rfl⟩
    have hresource : (model.server.resources kind).appStashBlobstore =
        model.appStash.shelf.toBlobstore.toNoRedirectBlobstore := by
      rw [← happStash kind]
      rfl
    rw [hresource]
    exact hstashes
  · cases r with
    | appStashMatches => exact ⟨.none, .some fun _ _ _ => Alike.pure _⟩
    | _ => exact ⟨.some fun _ _ _ => Alike.pure _, .some fun _ _ _ => Alike.pure _⟩

end ShelvedServer
end BitsService
