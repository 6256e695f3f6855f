import BitsService.Blobstores.Confinement
import BitsService.Resources.Handler

/-! # What a deletion leaves alone

On the local blobstore the directories of the partition and the blobs share one tree, and a deletion
removes everything at and below the path of its identifier. -/
namespace BitsService
open GoLib GoLib.Effect GoLib.LexicalPath
set_option autoImplicit false

def localResources (c : LocalBlobstoreConfig) : Blobstore Disk :=
  (createBlobstoreAndSignURLHandler ⟨.localDir, []⟩ (localBackend c) (localBackend c).signer).1

def Stored (c : LocalBlobstoreConfig) (d : Disk) (identifier content : Bytes) : Prop :=
  (((localResources c).get identifier).run d).1 = .returned (.ok (.whole content))

def blobPath (c : LocalBlobstoreConfig) (identifier : Bytes) : Path :=
  c.fullPath (pathFor identifier)

section Delete
variable (formats : Formats) (handler : ResourceHandler Disk) (c : LocalBlobstoreConfig)

def diskAfterDelete (identifier : Bytes) (w : Env Disk) : Disk :=
  ((deleteResource formats { handler with blobstore := localResources c } identifier).run w).2.ext

/-- Deleting `identifier` keeps every blob that is stored under another path. -/
def DeleteFrames (identifier : Bytes) (w : Env Disk) : Prop :=
  ∀ other content, Stored c w.ext other content → blobPath c other ≠ blobPath c identifier →
    (((localResources c).existsBlob other).run (diskAfterDelete formats handler c identifier w)).1 =
        .returned (.ok true) ∧
      Stored c (diskAfterDelete formats handler c identifier w) other content

theorem stored_iff {d : Disk} {identifier content : Bytes} :
    Stored c d identifier content ↔
      d.tree.node (d.resolve (blobPath c identifier)) = some (.file content) :=
  c.get_eq_whole_iff

theorem diskAfterDelete_node (identifier : Bytes) (w : Env Disk) :
    (diskAfterDelete formats handler c identifier w).cwd = w.ext.cwd ∧
      ∀ q, (diskAfterDelete formats handler c identifier w).tree.node q =
        (w.ext.tree.removeAll (w.ext.resolve (blobPath c identifier))).node q := by
  have hexists : (localResources c).existsBlob identifier = c.existsBlob (pathFor identifier) := rfl
  have hdelete : (localResources c).delete identifier = c.delete (pathFor identifier) := rfl
  unfold diskAfterDelete deleteResource
  rw [run_bind, run_onExt]
  simp only [hexists, hdelete]
  cases hnode : w.ext.tree.node (w.ext.resolve (blobPath c identifier)) with
  | some n =>
    rw [c.run_existsBlob_of_node hnode]
    simp only [run_bind, run_panicOnError_ok, if_pos]
    rw [run_onExt]
    obtain ⟨r, d', hrun, hcwd, htree⟩ := c.run_delete_of_node
      (d := { w.ext with touched := w.ext.touched ++ [c.fullPath (pathFor identifier)] }) hnode
    simp only [hrun]
    have hanswer := (keptByAnswers_of_blind (I := OfExt (· = d'))
      fun _ _ h => h).writeResponseBasedOn
      formats.digests [] (errorOf r) 204 none none (fun _ _ h => h)
      (fun _ h => nomatch h) []
      { w with ext := d' } rfl
    rw [hanswer]
    exact ⟨hcwd, fun q => by rw [htree]; rfl⟩
  | none =>
    obtain ⟨r, hr, hrun⟩ := c.run_existsBlob_of_none hnode
    rw [hrun]
    have hsame : ∀ q, w.ext.tree.node q =
        (w.ext.tree.removeAll (w.ext.resolve (blobPath c identifier))).node q := by
      intro q
      rw [FileTree.removeAll_node]
      by_cases hq : w.ext.resolve (blobPath c identifier) <+: q ∧ q ≠ []
      · rw [if_pos hq]
        by_contra hne
        by_cases heq : w.ext.resolve (blobPath c identifier) = q
        · rw [heq] at hnode
          exact hne hnode
        · rw [w.ext.tree.dir_of_prefix hq.1 heq hne] at hnode
          cases hnode
      · rw [if_neg hq]
    cases r with
    | error e => exact ⟨rfl, hsame⟩
    | ok found =>
      cases found with
      | true => exact absurd rfl hr
      | false => exact ⟨rfl, hsame⟩

/-- **Which deletions keep every other blob.** Those of an identifier at and below whose path no
blob is stored under another path. -/
theorem deleteFrames_iff (identifier : Bytes) (w : Env Disk) :
    DeleteFrames formats handler c identifier w ↔
      ∀ other content, Stored c w.ext other content → blobPath c other ≠ blobPath c identifier →
        ¬ w.ext.resolve (blobPath c identifier) <+: w.ext.resolve (blobPath c other) := by
  obtain ⟨hcwd, hnode⟩ := diskAfterDelete_node formats handler c identifier w
  have hresolve : ∀ other,
      (diskAfterDelete formats handler c identifier w).resolve (blobPath c other) =
        w.ext.resolve (blobPath c other) := by
    intro other
    unfold Disk.resolve
    rw [hcwd]
  constructor
  · intro h other content hstored hne hpre
    have hafter := (h other content hstored hne).2
    rw [stored_iff, hnode, hresolve, FileTree.removeAll_node] at hafter
    rw [stored_iff] at hstored
    have hroot : w.ext.resolve (blobPath c other) ≠ [] := by
      intro hr
      rw [hr, w.ext.tree.root_dir] at hstored
      cases hstored
    rw [if_pos ⟨hpre, hroot⟩] at hafter
    cases hafter
  · intro h other content hstored hne
    have hpre := h other content hstored hne
    rw [stored_iff] at hstored
    have hafter : (diskAfterDelete formats handler c identifier w).tree.node
        ((diskAfterDelete formats handler c identifier w).resolve (blobPath c other)) =
          some (.file content) := by
      rw [hnode, hresolve, FileTree.removeAll_node, if_neg (fun hc => hpre hc.1)]
      exact hstored
    have hexists : (localResources c).existsBlob other = c.existsBlob (pathFor other) := rfl
    refine ⟨?_, (stored_iff c).mpr hafter⟩
    rw [hexists, c.run_existsBlob_of_node hafter]

end Delete

/-! ## A package of two letters

Its path is the directory of all the packages that begin with these letters twice. -/

def varVcapStore : LocalBlobstoreConfig := ⟨ascii "/var/vcap/store", by decide⟩

def afterPut (c : LocalBlobstoreConfig) (identifier content : Bytes) : Env Disk where
  host := ⟨fun _ => [], fun _ => none, 0, []⟩
  ext := (((localResources c).put identifier content).run
    ⟨FileTree.empty, [], fun _ => [], [], []⟩).2
  response := .empty

def packages (c : LocalBlobstoreConfig) : ResourceHandler Disk :=
  newResourceHandler (localResources c) (localResources c).toNoRedirectBlobstore (ascii "package") 0

/-- Deleting package `ab` deletes package `ababab`. -/
theorem not_deleteFrames_ab :
    ¬ DeleteFrames plainFormats (packages varVcapStore) varVcapStore (ascii "ab")
      (afterPut varVcapStore (ascii "ababab") (ascii "bits")) := by
  intro h
  have hstored : Stored varVcapStore (afterPut varVcapStore (ascii "ababab") (ascii "bits")).ext
      (ascii "ababab") (ascii "bits") := rfl
  have hne : blobPath varVcapStore (ascii "ababab") ≠ blobPath varVcapStore (ascii "ab") := by
    decide
  have hafter := (h _ _ hstored hne).1
  have hgone : (((localResources varVcapStore).existsBlob (ascii "ababab")).run
      (diskAfterDelete plainFormats (packages varVcapStore) varVcapStore (ascii "ab")
        (afterPut varVcapStore (ascii "ababab") (ascii "bits")))).1 = .returned (.ok false) := rfl
  rw [hgone] at hafter
  cases hafter

end BitsService
