import BitsService.Blobstores.ObjectStores
import BitsService.Resources.Handler
import BitsService.Server.SharedBucket

/-! # Deleting the buildpack cache of one app

The object stores know no directories. What is deleted for an app is everything whose key begins
with the partitioned path of its guid. -/
namespace BitsService
open GoLib.Effect
set_option autoImplicit false

/-! ## Which entries are below the path of a guid -/

theorem prefix_append_slash_iff {p : Bytes} (h : slash ∉ p) (guid rest : Bytes) :
    p <+: guid ++ slash :: rest ↔ p <+: guid := by
  induction p generalizing guid with
  | nil => simp
  | cons c p ih =>
    simp only [List.mem_cons, not_or] at h
    cases guid with
    | nil => simp [List.cons_prefix_cons, Ne.symm h.1]
    | cons d guid => rw [List.cons_append, List.cons_prefix_cons, List.cons_prefix_cons, ih h.2]

/-- A name that is one segment of a path. -/
abbrev Guid := {guid : Bytes // guid ≠ [] ∧ slash ∉ guid}

def Hits (g guid : Bytes) : Prop :=
  (4 ≤ g.length ∧ g <+: guid) ∨ (g.length = 2 ∧ g ++ g <+: guid)

theorem not_hits_self_of_short {g : Guid} (h : g.1.length < 4) : ¬ Hits g.1 g.1 := by
  rintro (⟨hlong, -⟩ | ⟨hlength, htwice⟩)
  · omega
  · have hle := htwice.length_le
    rw [List.length_append] at hle
    omega

theorem hits_self_iff (g : Guid) : Hits g.1 g.1 ↔ 4 ≤ g.1.length := by
  constructor
  · intro hhits
    by_contra hshort
    exact not_hits_self_of_short (not_le.mp hshort) hhits
  · exact fun hlong => .inl ⟨hlong, List.prefix_refl _⟩

theorem pathFor_prefix_iff (g guid : Guid) (stack : Bytes) :
    pathFor g.1 <+: pathFor (guid.1 ++ slash :: stack) ↔ Hits g.1 guid.1 := by
  obtain ⟨g, hne, hslash⟩ := g
  obtain ⟨guid, hguid⟩ := guid
  have hcut : ∀ p, slash ∉ p → (p <+: guid ++ slash :: stack ↔ p <+: guid) :=
    fun p hp => prefix_append_slash_iff hp guid stack
  have hlong : 2 ≤ (guid ++ slash :: stack).length := by
    have hpos := List.length_pos_of_ne_nil hguid.1
    simp
    omega
  have hmem : slash ∈ guid ++ slash :: stack := by simp
  generalize guid ++ slash :: stack = i at hcut hlong hmem
  match g, hne, hslash with
  | [a], _, hslash =>
    simp only [List.mem_singleton] at hslash
    refine iff_of_false ?_ (by simp [Hits])
    match i, hlong with
    | [x, y], _ => simp [pathFor_one, pathFor_two, Ne.symm hslash]
    | [x, y, z], _ => simp [pathFor_one, pathFor_three, Ne.symm hslash]
    | x :: y :: z :: w :: rest, _ => simp [pathFor_one, pathFor_four, Ne.symm hslash]
  | [a, b], _, hslash =>
    simp only [List.mem_cons, List.not_mem_nil, or_false, not_or] at hslash
    have hhits : Hits [a, b] guid ↔ [a, b, a, b] <+: i := by
      have htwice := hcut [a, b, a, b] (by simp [hslash.1, hslash.2])
      simp [Hits, htwice]
    rw [hhits]
    match i, hlong with
    | [x, y], _ =>
      simp [pathFor_two]
      grind
    | [x, y, z], _ => simp [pathFor_two, pathFor_three, Ne.symm hslash.2]
    | x :: y :: z :: w :: rest, _ => simp [pathFor_two, pathFor_four]
  | [a, b, c], _, hslash =>
    simp only [List.mem_cons, List.not_mem_nil, or_false, not_or] at hslash
    refine iff_of_false ?_ (by simp [Hits])
    match i, hlong with
    | [x, y], _ => simp [pathFor_two, pathFor_three]
    | [x, y, z], _ =>
      simp [pathFor_three]
      grind
    | x :: y :: z :: w :: rest, _ => simp [pathFor_three, pathFor_four, Ne.symm hslash.1]
  | a :: b :: c :: d :: rest, _, hslash =>
    have hhits : Hits (a :: b :: c :: d :: rest) guid ↔ a :: b :: c :: d :: rest <+: i := by
      rw [hcut _ hslash]
      simp [Hits]
    rw [hhits]
    match i, hlong with
    | [x, y], _ => simp [pathFor_two, pathFor_four]
    | [x, y, z], _ => simp [pathFor_three, pathFor_four]
    | x :: y :: z :: w :: tail, _ =>
      simp [pathFor_four]
      grind

/-! ## The deletion -/

def ObjectStore.type : ObjectStore → BlobstoreType
  | s3 => .aws
  | azure => .azure
  | gcp => .google
  | openstack => .openStack
  | alibaba => .alibaba

/-- What a deployment over an object store has besides it. -/
structure CacheDeployment where
  others : Blobstore Bucket
  directoryKey : Bytes
  signer : ResourceSigner Bucket
  localResourceSigner : ResourceSigner Bucket
  formats : Formats
  handler : ResourceHandler Bucket
  host : Host

namespace CacheDeployment
variable (d : CacheDeployment) (store : ObjectStore)

def cacheHandler : ResourceHandler Bucket :=
  { d.handler with
    blobstore := (createBuildpackCacheSignURLHandler ⟨store.type, d.directoryKey⟩
      ⟨store.blobstore d.others, d.signer⟩ d.localResourceSigner).1 }

/-- The process when `DELETE /buildpack_cache/entries/{g}` has been answered. -/
def afterDeleteDir (b : Bucket) (g : Guid) : Env Bucket :=
  ((deleteDir d.formats (d.cacheHandler store) g.1).run ⟨d.host, b, .empty⟩).2

def entryKey (guid : Guid) (stack : Bytes) : Bytes :=
  buildpackCacheDirectory ++ pathFor (guid.1 ++ slash :: stack)

/-- A deletion that succeeds removes the entries of its guid and no others. -/
def DeletesJust (b : Bucket) (g : Guid) : Prop :=
  (d.afterDeleteDir store b g).response.status = some 204 →
    (∀ stack, entryKey g stack ∉ (d.afterDeleteDir store b g).ext.objects) ∧
      ∀ guid stack, guid ≠ g → entryKey guid stack ∈ b.objects →
        entryKey guid stack ∈ (d.afterDeleteDir store b g).ext.objects

theorem entry_below_iff (g guid : Guid) (stack : Bytes) :
    buildpackCacheDirectory ++ pathFor g.1 <+: entryKey guid stack ↔ Hits g.1 guid.1 := by
  rw [entryKey, List.prefix_append_right_inj, pathFor_prefix_iff]

theorem deleteDir_cacheHandler (g : Bytes) :
    (d.cacheHandler store).blobstore.deleteDir g =
      store.deleteDir (buildpackCacheDirectory ++ pathFor g) := by
  have hwired : (d.cacheHandler store).blobstore =
      forBlobstoreWithPathPartitioning (forBlobstoreWithPathPrefixing
        (forBlobstoreWithMetricsEmitter (store.blobstore d.others))
        (ascii "buildpack_cache/")) := by
    cases store <;> rfl
  rw [hwired, forBlobstoreWithPathPartitioning_deleteDir]
  rfl

theorem afterDeleteDir_spec (b : Bucket) (g : Guid) :
    ((d.afterDeleteDir store b g).response.status = some 204 ↔
      ¬ store.Fails b (buildpackCacheDirectory ++ pathFor g.1)) ∧
    ((d.afterDeleteDir store b g).response.status = some 204 → ∀ guid stack,
      (entryKey guid stack ∈ (d.afterDeleteDir store b g).ext.objects ↔
        entryKey guid stack ∈ b.objects ∧
          ¬ (Hits g.1 guid.1 ∧ b.removes (entryKey guid stack) = true))) := by
  obtain ⟨r, b', hrun, hdeletes⟩ :=
    store.run_deleteDir b (buildpackCacheDirectory ++ pathFor g.1)
  have hext : (onExt ((d.cacheHandler store).blobstore.deleteDir g.1)).run ⟨d.host, b, .empty⟩ =
      (.returned r, ⟨d.host, b', .empty⟩) := by
    rw [deleteDir_cacheHandler, run_onExt, hrun]
  rcases hdeletes.fails with rfl | hcollected
  · have hafter : d.afterDeleteDir store b g = ((writeHeader 204).run ⟨d.host, b', .empty⟩).2 :=
      congrArg Prod.snd (run_bind_returned hext)
    rw [hafter]
    refine ⟨iff_of_true rfl (hdeletes.succeeds.mp rfl), fun _ guid stack => ?_⟩
    rw [← entry_below_iff]
    exact hdeletes.objects rfl (entryKey guid stack)
  · have hfails : store.Fails b (buildpackCacheDirectory ++ pathFor g.1) := by
      by_contra hnot
      rw [hdeletes.succeeds.mpr hnot] at hcollected
      cases hcollected
    have hstatus : (d.afterDeleteDir store b g).response.status ≠ some 204 := by
      cases r with
      | ok a => cases hcollected
      | error e =>
        cases e with
        | notFound text missingKey => cases hcollected
        | noSpaceLeft =>
          have hafter : d.afterDeleteDir store b g =
              (insufficientStorage.run ⟨d.host, b', .empty⟩).2 :=
            congrArg Prod.snd (run_bind_returned hext)
          rw [hafter]
          exact fun h => absurd h (by decide : (some 507 : Option ℕ) ≠ some 204)
        | _ =>
          have hafter : d.afterDeleteDir store b g = ⟨d.host, b', .empty⟩ :=
            congrArg Prod.snd (run_bind_returned hext)
          rw [hafter]
          exact fun h => nomatch h
    exact ⟨iff_of_false hstatus (not_not.mpr hfails), fun h => absurd h hstatus⟩

/-- What is deleted below the path of a guid is what is stored for it. -/
structure OnlyOwn (b : Bucket) (g : Guid) : Prop where
  own : ∀ stack, entryKey g stack ∈ b.objects →
    4 ≤ g.1.length ∧ b.removes (entryKey g stack) = true
  others : ∀ guid stack, guid ≠ g → entryKey guid stack ∈ b.objects → Hits g.1 guid.1 →
    b.removes (entryKey guid stack) = false

/-- **Deleting the cache of one app deletes just its entries exactly when** its guid is long enough
for them to be found, no other stored guid begins with it, and no service that refuses to delete is
taken to have done so. -/
theorem deletesJust_iff (b : Bucket) (g : Guid) :
    d.DeletesJust store b g ↔
      store.Fails b (buildpackCacheDirectory ++ pathFor g.1) ∨ OnlyOwn b g := by
  obtain ⟨hstatus, hobjects⟩ := d.afterDeleteDir_spec store b g
  by_cases hfails : store.Fails b (buildpackCacheDirectory ++ pathFor g.1)
  · exact iff_of_true (fun hsuccess => absurd hfails (hstatus.mp hsuccess)) (.inl hfails)
  have hsuccess := hstatus.mpr hfails
  have hleft := hobjects hsuccess
  simp only [hfails, false_or]
  constructor
  · intro hjust
    obtain ⟨hown, hothers⟩ := hjust hsuccess
    constructor
    · intro stack hstored
      have hgone := hown stack
      rw [hleft, not_and, not_not] at hgone
      obtain ⟨hhits, hremoves⟩ := hgone hstored
      exact ⟨(hits_self_iff g).mp hhits, hremoves⟩
    · intro guid stack hne hstored hhits
      have hkept := ((hleft guid stack).mp (hothers guid stack hne hstored)).2
      rw [← Bool.not_eq_true]
      exact fun hremoves => hkept ⟨hhits, hremoves⟩
  · intro honly _
    constructor
    · intro stack hmem
      obtain ⟨hstored, hkept⟩ := (hleft g stack).mp hmem
      obtain ⟨hlong, hremoves⟩ := honly.own stack hstored
      exact hkept ⟨(hits_self_iff g).mpr hlong, hremoves⟩
    · intro guid stack hne hstored
      refine (hleft guid stack).mpr ⟨hstored, fun hgone => ?_⟩
      have hrefused := honly.others guid stack hne hstored hgone.1
      rw [hgone.2] at hrefused
      cases hrefused

end CacheDeployment

/-- One bucket, with the entries of apps `abcd` and `abcde`. -/
def twoAppsBucket : Bucket where
  name := ascii "cc-buildpacks"
  objects := [ascii "buildpack_cache/ab/cd/abcd/cflinuxfs3",
    ascii "buildpack_cache/ab/cd/abcde/cflinuxfs3"]
  paging keys := [keys]
  paging_flatten _ := List.append_nil _
  listingFailure := none
  deleteReply _ := .deleted
  containerExists := true
  attributesFailure := none

/-- The same bucket, when no object can be deleted. -/
def lockedBucket : Bucket :=
  { twoAppsBucket with deleteReply := fun _ => .failed (.sys (ascii "AccessDenied")) false }

def abcd : Guid := ⟨ascii "abcd", by decide⟩

def abcde : Guid := ⟨ascii "abcde", by decide⟩

def idleStore : Blobstore Bucket where
  existsBlob _ := pure (.ok false)
  get _ := pure (.error .newNotFoundError)
  put _ _ := pure (.ok ())
  delete _ := pure (.ok ())
  deleteDir _ := pure (.ok ())
  headOrRedirectAsGet _ := pure (.ok [])
  getOrRedirect _ := pure (.ok (none, []))
  copy _ _ := pure (.ok ())

def cacheDeployment : CacheDeployment where
  others := idleStore
  directoryKey := []
  signer := ⟨fun _ _ _ => pure []⟩
  localResourceSigner := ⟨fun _ _ _ => pure []⟩
  formats := plainFormats
  handler := newResourceHandler idleStore idleStore.toNoRedirectBlobstore
    (ascii "buildpack_cache/entries") 0
  host := ⟨fun _ => [], fun _ => none, 0, []⟩

/-- Deleting the cache of app `abcd` on S3 deletes that of app `abcde`; and on Alibaba a deletion
of which nothing came is answered as done. -/
theorem not_deletesJust_abcd :
    ¬ cacheDeployment.DeletesJust .s3 twoAppsBucket abcd ∧
      ¬ cacheDeployment.DeletesJust .alibaba lockedBucket abcd := by
  constructor
  · intro hjust
    have hstatus : (cacheDeployment.afterDeleteDir .s3 twoAppsBucket abcd).response.status =
        some 204 := by decide
    have hkept := (hjust hstatus).2 abcde (ascii "cflinuxfs3") (by decide) (by decide)
    exact absurd hkept (by decide)
  · intro hjust
    have hstatus : (cacheDeployment.afterDeleteDir .alibaba lockedBucket abcd).response.status =
        some 204 := by decide
    exact absurd ((hjust hstatus).1 (ascii "cflinuxfs3")) (by decide)

end BitsService
