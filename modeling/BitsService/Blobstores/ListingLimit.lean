import BitsService.Blobstores.ObjectStores
import Mathlib.Data.List.Nodup

/-! # One listing of a container

`ObjectNames` is one request, and the server answers it with no more names than its limit. What
OpenStack's `DeleteDir` leaves below a prefix is what lies beyond. -/
namespace BitsService
open GoLib.Effect
set_option autoImplicit false

/-- A container, whose objects are in the order of the server's listings. -/
structure SwiftContainer extends Bucket where
  objects_nodup : objects.Nodup
  listingLimit : ℕ

def Bucket.below (b : Bucket) (pre : Bytes) : List Bytes :=
  b.objects.filter fun key => pre <+: key

theorem Bucket.mem_below {b : Bucket} {pre key : Bytes} :
    key ∈ b.below pre ↔ key ∈ b.objects ∧ pre <+: key := by
  rw [below, List.mem_filter, decide_eq_true_eq]

namespace Openstack

/-- `swiftConn.ObjectNames` with the options of a prefix. -/
def objectNames (listingLimit : ℕ) (b : Bucket) (pre : Bytes) : Result (List Bytes) :=
  match b.listingFailure with
  | some (_, e) => .error e
  | none => .ok ((b.below pre).take listingLimit)

/-- `DeleteDir`, from one listing. -/
def deleteDirListed (listingLimit : ℕ) (pre : Bytes) : Prog GoError Bucket (Result Unit) := do
  let b ← getState
  if b.containerExists = false then pure (.error (containerNotFound b))
  else
    match objectNames listingLimit b pre with
    | .error e => pure (.error (.wrapped
        (ascii "Container: '" ++ b.name ++ ascii "', prefix: '" ++ pre ++ ascii "'") e))
    | .ok names => do
      let deletionErrs ← deleteEach delete names []
      if deletionErrs ≠ [] then
        pure (.error (.sys (ascii "Prefix '" ++ pre ++ ascii "', errors from deleting: " ++
          formatErrors deletionErrs)))
      else pure (.ok ())

variable {b : Bucket} {pre : Bytes}

/-- A listing that the limit does not cut is all that there is. -/
theorem run_deleteDirListed_of_fits {listingLimit : ℕ}
    (hfits : (b.below pre).length ≤ listingLimit) :
    (deleteDirListed listingLimit pre).run b = (deleteDir pre).run b := by
  unfold deleteDirListed deleteDir
  rw [run_bind_returned (run_getState b), run_bind_returned (run_getState b)]
  cases hexists : b.containerExists with
  | false => rfl
  | true =>
    rw [if_neg (by simp), if_neg (by simp)]
    unfold objectNames
    cases hfailure : b.listingFailure with
    | some failure => simp only [Bucket.list, hfailure]
    | none =>
      have hnames : (b.below pre).take listingLimit = (b.list pre).1.flatten := by
        rw [List.take_of_length_le hfits, Bucket.list, hfailure]
        exact (b.paging_flatten _).symm
      have hlist : b.list pre = ((b.list pre).1, none) :=
        Prod.ext rfl (by simp [Bucket.list, hfailure])
      rw [hlist, hnames]

/-- The deletion of one of the names listed is answered as failed. -/
def Refused (b : Bucket) (names : List Bytes) : Prop :=
  ∃ key ∈ names, ObjectStore.openstack.refuses b key = true

theorem removes_of_not_refused {key : Bytes}
    (h : ObjectStore.openstack.refuses b key = false) : b.removes key = true := by
  unfold ObjectStore.refuses at h
  unfold Bucket.removes
  cases hreply : b.deleteReply key with
  | deleted => rfl
  | missing => rfl
  | failed e gone =>
    rw [hreply] at h
    cases h

/-- `DeleteDir` returns nil just when the container is there, its listing does not fail and no
deletion does. -/
theorem run_deleteDirListed (listingLimit : ℕ) (b : Bucket) (pre : Bytes) :
    ∃ r b', (deleteDirListed listingLimit pre).run b = (.returned r, b') ∧
      (r = .ok () ↔ b.containerExists = true ∧ b.listingFailure = none ∧
        ¬ Refused b ((b.below pre).take listingLimit)) ∧
      (r = .ok () → b' = b.after ((b.below pre).take listingLimit)) := by
  unfold deleteDirListed
  rw [run_bind_returned (run_getState b)]
  cases hexists : b.containerExists with
  | false => exact ⟨_, b, rfl, by simp, by simp⟩
  | true =>
    rw [if_neg (by simp)]
    unfold objectNames
    cases hfailure : b.listingFailure with
    | some failure => exact ⟨_, b, rfl, by simp, by simp⟩
    | none =>
      have hcontainer : ObjectStore.openstack = .openstack → b.containerExists = true :=
        fun _ => hexists
      obtain ⟨errs, hdeletes, herrs⟩ := ObjectStore.run_deleteEach hcontainer (by simp)
        ((b.below pre).take listingLimit) []
      have hrun : (deleteEach delete ((b.below pre).take listingLimit) []).run b =
        (.returned errs, b.after ((b.below pre).take listingLimit)) := hdeletes
      have hrefused : errs = [] ↔ ¬ Refused b ((b.below pre).take listingLimit) := by
        rw [herrs]
        simp [Refused]
      simp only
      rw [run_bind_returned hrun]
      by_cases hnil : errs = []
      · refine ⟨.ok (), _, by rw [if_neg (not_not.mpr hnil)]; rfl, ?_, fun _ => rfl⟩
        simpa using hrefused.mp hnil
      · rw [if_pos hnil]
        refine ⟨_, _, rfl, iff_of_false (fun hok => ?_) (fun hall => ?_), fun hok => ?_⟩
        · cases hok
        · exact hnil (hrefused.mpr hall.2.2)
        · cases hok

end Openstack

namespace SwiftContainer
variable (c : SwiftContainer) (pre : Bytes)

def listed : List Bytes := (c.below pre).take c.listingLimit

/-- When `DeleteDir` returns nil, nothing is left below the prefix. -/
def DeletesCompletely : Prop :=
  ∀ b', (Openstack.deleteDirListed c.listingLimit pre).run c.toBucket = (.returned (.ok ()), b') →
    ∀ key ∈ b'.objects, ¬ pre <+: key

theorem below_nodup : (c.below pre).Nodup := c.objects_nodup.filter _

/-- Deletions that are not refused leave nothing below the prefix just when all of it is listed. -/
theorem nothing_left_iff (hnot : ¬ Openstack.Refused c.toBucket (c.listed pre)) :
    (∀ key ∈ (c.after (c.listed pre)).objects, ¬ pre <+: key) ↔
      (c.below pre).length ≤ c.listingLimit := by
  have hremoves : ∀ key ∈ c.listed pre, c.removes key = true := by
    intro key hkey
    apply Openstack.removes_of_not_refused
    by_contra hrefused
    exact hnot ⟨key, hkey, by simpa using hrefused⟩
  constructor
  · intro hnone
    by_contra hlong
    have hlt : c.listingLimit < (c.below pre).length := not_le.mp hlong
    have hmem : (c.below pre)[c.listingLimit] ∈ (c.below pre).drop c.listingLimit :=
      List.mem_drop_iff_getElem.mpr ⟨0, by simpa using hlt, by simp⟩
    have hkey := Bucket.mem_below.mp (List.getElem_mem hlt)
    refine hnone _ (Bucket.mem_objects_after.mpr ⟨hkey.1, fun hgone => ?_⟩) hkey.2
    have hdisjoint := List.disjoint_take_drop (c.below_nodup pre) (le_refl c.listingLimit)
    exact hdisjoint hgone.1 hmem
  · intro hfits key hkey hpre
    obtain ⟨hstored, hkept⟩ := Bucket.mem_objects_after.mp hkey
    have hlisted : key ∈ c.listed pre := by
      rw [listed, List.take_of_length_le hfits]
      exact Bucket.mem_below.mpr ⟨hstored, hpre⟩
    exact hkept ⟨hlisted, hremoves key hlisted⟩

/-- **A deletion below a prefix is complete exactly when** it is answered as failed or the listing
limit leaves nothing out. -/
theorem deletesCompletely_iff : c.DeletesCompletely pre ↔
    c.containerExists = false ∨ c.listingFailure ≠ none ∨
      Openstack.Refused c.toBucket (c.listed pre) ∨ (c.below pre).length ≤ c.listingLimit := by
  obtain ⟨r, b', hrun, hok, hafter⟩ :=
    Openstack.run_deleteDirListed c.listingLimit c.toBucket pre
  by_cases hsuccess : r = .ok ()
  · obtain ⟨hexists, hlisting, hnot⟩ := hok.mp hsuccess
    have hleft := c.nothing_left_iff pre hnot
    have hb := hafter hsuccess
    subst hsuccess
    simp only [hexists, hlisting, Bool.true_eq_false, ne_eq, not_true_eq_false, false_or]
    rw [← hleft]
    constructor
    · intro hcomplete
      right
      rw [hb] at hrun
      exact hcomplete _ hrun
    · rintro (hrefused | hnone) b₁ hrun₁
      · exact absurd hrefused hnot
      · rw [hrun] at hrun₁
        cases hrun₁
        rw [hb]
        exact hnone
  · refine iff_of_true (fun b₁ hrun₁ => ?_) ?_
    · rw [hrun] at hrun₁
      cases hrun₁
      exact absurd rfl hsuccess
    · by_contra hnone
      push Not at hnone
      obtain ⟨hexists, hlisting, hnot, -⟩ := hnone
      exact hsuccess (hok.mpr ⟨by simpa using hexists, hlisting, hnot⟩)

end SwiftContainer

/-! ## A directory with many files -/

def manyFiles (n : ℕ) : List Bytes :=
  (List.range n).map fun i => ascii "dir/" ++ List.replicate i 97

theorem manyFiles_nodup (n : ℕ) : (manyFiles n).Nodup := by
  refine List.Nodup.map (fun i j hij => ?_) List.nodup_range
  have hlength := congrArg List.length (List.append_cancel_left hij)
  simpa using hlength

/-- A container of which the server lists at most `limit` names at a time, and where every deletion
succeeds. -/
def manyFilesContainer (n limit : ℕ) : SwiftContainer where
  name := ascii "bits"
  objects := manyFiles n
  paging keys := [keys]
  paging_flatten _ := List.append_nil _
  listingFailure := none
  deleteReply _ := .deleted
  containerExists := true
  attributesFailure := none
  objects_nodup := manyFiles_nodup n
  listingLimit := limit

theorem manyFilesContainer_below (n limit : ℕ) :
    (manyFilesContainer n limit).below (ascii "dir/") = manyFiles n := by
  refine List.filter_eq_self.mpr (fun key hkey => ?_)
  obtain ⟨i, -, rfl⟩ := List.mem_map.mp hkey
  simp

theorem manyFilesContainer_left {n limit : ℕ} (h : limit < n) :
    ¬ (manyFilesContainer n limit).DeletesCompletely (ascii "dir/") := by
  intro hcomplete
  let c := manyFilesContainer n limit
  have hnot : ¬ Openstack.Refused c.toBucket (c.listed (ascii "dir/")) := by
    rintro ⟨key, -, hrefused⟩
    cases hrefused
  obtain ⟨r, b', hrun, hok, hafter⟩ :=
    Openstack.run_deleteDirListed limit c.toBucket (ascii "dir/")
  obtain rfl := hok.mpr ⟨rfl, rfl, hnot⟩
  obtain rfl := hafter rfl
  have hfits := (c.nothing_left_iff (ascii "dir/") hnot).mp (hcomplete _ hrun)
  rw [manyFilesContainer_below] at hfits
  have hlength : (manyFiles n).length = n := by simp [manyFiles]
  have hlimit : c.listingLimit = limit := rfl
  omega

/-- Of 10001 files, a server with the usual limit leaves one. -/
theorem not_deletesCompletely_10001 :
    ¬ (manyFilesContainer 10001 10000).DeletesCompletely (ascii "dir/") :=
  manyFilesContainer_left (by omega)

end BitsService
