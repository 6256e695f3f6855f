import BitsService.Lib.KeyedMap
import BitsService.Lib.OperationRuns
import BitsService.Server.Http
import BitsService.Server.Wiring

/-! # Droplets and the buildpack cache in one bucket

The wiring puts the store of the droplets and the one of the buildpack cache over the same bucket.
The bucket is a map of exact keys; each of the stores is a map of identifiers, and neither notices
the other. -/
namespace BitsService
open GoLib.Effect GoLib.KeyedMap GoLib.OperationRuns
set_option autoImplicit false

/-! ## Identifiers and their keys -/

abbrev Identifier := {identifier : Bytes // identifier ≠ []}

/-- What is left of a key when the directories of the partitioning are taken off. -/
def identifierOf (key : Bytes) : Bytes :=
  key.drop (if 10 ≤ key.length then 6 else if key.length = 8 then 5
    else if key.length = 5 then 3 else 2)

theorem identifierOf_pathFor {identifier : Bytes} (h : identifier ≠ []) :
    identifierOf (pathFor identifier) = identifier := by
  match identifier, h with
  | [a], _ => rfl
  | [a, b], _ => rfl
  | [a, b, c], _ => rfl
  | a :: b :: c :: d :: rest, _ =>
    have hlength : 10 ≤ (pathFor (a :: b :: c :: d :: rest)).length := by
      rw [pathFor_four]
      simp
    rw [identifierOf, if_pos hlength, pathFor_four]
    rfl

theorem pathFor_injective : Function.Injective fun i : Identifier => pathFor i.1 := by
  intro i j h
  have hcut := congrArg identifierOf h
  simp only [identifierOf_pathFor i.2, identifierOf_pathFor j.2] at hcut
  exact Subtype.ext hcut

/-- The first directory of a partitioned path has one byte or two. -/
theorem slash_pathFor {identifier : Bytes} (h : identifier ≠ []) :
    (pathFor identifier)[1]? = some slash ∨ (pathFor identifier)[2]? = some slash := by
  match identifier, h with
  | [a], _ => exact .inl rfl
  | [a, b], _ => exact .inr rfl
  | [a, b, c], _ => exact .inr rfl
  | a :: b :: c :: d :: rest, _ =>
    rw [pathFor_four]
    exact .inr rfl

def buildpackCacheDirectory : Bytes := ascii "buildpack_cache/"

theorem not_directory_prefix_pathFor {identifier : Bytes} (h : identifier ≠ []) (rest : Bytes) :
    ¬ buildpackCacheDirectory ++ rest <+: pathFor identifier := by
  rintro ⟨tail, htail⟩
  have hfirst : (pathFor identifier)[1]? = some 117 := by rw [← htail]; rfl
  have hsecond : (pathFor identifier)[2]? = some 105 := by rw [← htail]; rfl
  rcases slash_pathFor h with hslash | hslash
  · rw [hfirst] at hslash
    exact absurd (Option.some.inj hslash) (by decide)
  · rw [hsecond] at hslash
    exact absurd (Option.some.inj hslash) (by decide)

def dropletKey (i : Identifier) : Bytes := pathFor i.1

def buildpackCacheKey (i : Identifier) : Bytes := buildpackCacheDirectory ++ pathFor i.1

theorem dropletKey_injective : Function.Injective dropletKey := pathFor_injective

theorem buildpackCacheKey_injective : Function.Injective buildpackCacheKey :=
  fun _ _ h => pathFor_injective (List.append_cancel_left h)

theorem dropletKey_ne_buildpackCacheKey (i j : Identifier) :
    dropletKey i ≠ buildpackCacheKey j := fun h =>
  not_directory_prefix_pathFor i.2 (pathFor j.1) ⟨[], (List.append_nil _).trans h.symm⟩

/-! ## A bucket under both stores -/

variable {σ : Type}

/-- A bucket of exact keys. -/
structure KeyExactStore (σ : Type) where
  blobstore : Blobstore σ
  contents : σ → Bytes → Option Bytes
  absence : Absence Bytes GoError
  perform_shows : ∀ op, Shows contents (perform blobstore op) (op.step absence)
  deleteDir_shows : ∀ pre, Shows contents (blobstore.deleteDir pre)
    fun m => (.ok (), fun key => if pre <+: key then none else m key)

namespace KeyExactStore
variable (S : KeyExactStore σ)

def dropletStore : Blobstore σ := forBlobstoreWithPathPartitioning S.blobstore

def buildpackCacheStore : Blobstore σ :=
  forBlobstoreWithPathPartitioning
    (forBlobstoreWithPathPrefixing S.blobstore (ascii "buildpack_cache/"))

/-- The wiring over one bucket, for every backend that is an object store. -/
theorem stores_of_wiring (t : BlobstoreType) (h : t ≠ .localDir ∧ t ≠ .webDAV)
    (directoryKey : Bytes) (signer localResourceSigner : ResourceSigner σ) :
    (createBlobstoreAndSignURLHandler ⟨t, directoryKey⟩ ⟨S.blobstore, signer⟩
        localResourceSigner).1 = S.dropletStore ∧
      (createBuildpackCacheSignURLHandler ⟨t, directoryKey⟩ ⟨S.blobstore, signer⟩
        localResourceSigner).1 = S.buildpackCacheStore := by
  cases t with
  | localDir => exact absurd rfl h.1
  | webDAV => exact absurd rfl h.2
  | _ => exact ⟨rfl, rfl⟩

def droplets (s : σ) : Identifier → Option Bytes := S.contents s ∘ dropletKey

def buildpackCache (s : σ) : Identifier → Option Bytes := S.contents s ∘ buildpackCacheKey

/-! ## The abstract maps -/

inductive CacheOp where
  | entry (op : MapOp Identifier Bytes)
  | deleteDir (pre : Bytes)

def dropletStep : MapOp Identifier Bytes → (Identifier → Option Bytes) →
    MapAnswer Bytes GoError × (Identifier → Option Bytes) :=
  MapOp.step (S.absence.comap dropletKey)

def cacheStep : CacheOp → (Identifier → Option Bytes) →
    MapAnswer Bytes GoError × (Identifier → Option Bytes)
  | .entry op, m => op.step (S.absence.comap buildpackCacheKey) m
  | .deleteDir pre, m =>
    (.done (.ok ()), fun i => if pathFor pre <+: pathFor i.1 then none else m i)

/-- An operation on one of the two stores. -/
def performBucket : MapOp Identifier Bytes ⊕ CacheOp →
    Prog GoError σ (MapAnswer Bytes GoError ⊕ MapAnswer Bytes GoError)
  | .inl op => do pure (.inl (← perform S.dropletStore (op.map Subtype.val)))
  | .inr (.entry op) => do pure (.inr (← perform S.buildpackCacheStore (op.map Subtype.val)))
  | .inr (.deleteDir pre) => do pure (.inr (.done (← S.buildpackCacheStore.deleteDir pre)))

/-! ## What the stores show -/

def sides (m : Bytes → Option Bytes) : (Identifier → Option Bytes) × (Identifier → Option Bytes) :=
  (m ∘ dropletKey, m ∘ buildpackCacheKey)

theorem perform_dropletStore (op : MapOp Identifier Bytes) :
    perform S.dropletStore (op.map Subtype.val) = perform S.blobstore (op.map dropletKey) := by
  rw [dropletStore, forBlobstoreWithPathPartitioning, perform_rewriting, MapOp.map_map]
  rfl

theorem perform_buildpackCacheStore (op : MapOp Identifier Bytes) :
    perform S.buildpackCacheStore (op.map Subtype.val) =
      perform S.blobstore (op.map buildpackCacheKey) := by
  rw [buildpackCacheStore, forBlobstoreWithPathPartitioning, perform_rewriting,
    forBlobstoreWithPathPrefixing, perform_rewriting, MapOp.map_map, MapOp.map_map]
  rfl

theorem deleteDir_buildpackCacheStore (pre : Bytes) :
    S.buildpackCacheStore.deleteDir pre =
      S.blobstore.deleteDir (buildpackCacheDirectory ++ pathFor pre) :=
  forBlobstoreWithPathPartitioning_deleteDir _ pre

theorem performBucket_shows (op : MapOp Identifier Bytes ⊕ CacheOp) :
    Shows (fun s => sides (S.contents s)) (S.performBucket op)
      (onSides S.dropletStep S.cacheStep op) := by
  rcases op with op | op | pre
  · have hperform := (S.perform_shows (op.map dropletKey)).map
      (Sum.inl (β := MapAnswer Bytes GoError))
    rw [← S.perform_dropletStore] at hperform
    refine hperform.comap fun m => ?_
    obtain ⟨hanswer, hdroplets⟩ := op.step_comap S.absence dropletKey_injective m
    have hcache := op.step_disjoint S.absence dropletKey_ne_buildpackCacheKey m
    exact ⟨congrArg Sum.inl hanswer, Prod.ext hdroplets hcache⟩
  · have hperform := (S.perform_shows (op.map buildpackCacheKey)).map
      (Sum.inr (α := MapAnswer Bytes GoError))
    rw [← S.perform_buildpackCacheStore] at hperform
    refine hperform.comap fun m => ?_
    obtain ⟨hanswer, hcache⟩ := op.step_comap S.absence buildpackCacheKey_injective m
    have hdroplets := op.step_disjoint S.absence
      (fun i j => (dropletKey_ne_buildpackCacheKey j i).symm) m
    exact ⟨congrArg Sum.inr hanswer, Prod.ext hdroplets hcache⟩
  · have hdelete := (S.deleteDir_shows (buildpackCacheDirectory ++ pathFor pre)).map fun answer =>
      (Sum.inr (.done answer) : MapAnswer Bytes GoError ⊕ MapAnswer Bytes GoError)
    rw [← S.deleteDir_buildpackCacheStore] at hdelete
    refine hdelete.comap fun m => ⟨rfl, Prod.ext ?_ ?_⟩
    · funext i
      exact if_neg (not_directory_prefix_pathFor i.2 (pathFor pre))
    · funext i
      have hbegin_iff : buildpackCacheDirectory ++ pathFor pre <+: buildpackCacheKey i ↔
          pathFor pre <+: pathFor i.1 := List.prefix_append_right_inj _
      exact if_congr hbegin_iff rfl rfl

/-- The droplets and the buildpack cache are maps of their own. -/
structure IndependentMaps : Prop where
  runs : ∀ ops s, ∃ answers s', (performAll S.performBucket ops).run s = (.returned answers, s') ∧
    (lefts answers, S.droplets s') = runAll S.dropletStep (lefts ops) (S.droplets s) ∧
    (rights answers, S.buildpackCache s') = runAll S.cacheStep (rights ops) (S.buildpackCache s)
  otherDroplets : ∀ op s i, op.target ≠ some i →
    S.droplets ((S.performBucket (.inl op)).run s).2 i = S.droplets s i
  otherEntries : ∀ op s i, op.target ≠ some i →
    S.buildpackCache ((S.performBucket (.inr (.entry op))).run s).2 i = S.buildpackCache s i
  emptied : ∀ s, ∃ s', (S.buildpackCacheStore.deleteDir []).run s = (.returned (.ok ()), s') ∧
    S.buildpackCache s' = (fun _ => none) ∧ S.droplets s' = S.droplets s

/-- **Droplets and the buildpack cache are independent maps in one bucket.** -/
theorem independentMaps : S.IndependentMaps where
  runs := by
    intro ops s
    obtain ⟨s', hrun, hviews⟩ := Shows.performAll S.performBucket_shows ops s
    obtain ⟨hlefts, hrights, hsides⟩ := runAll_onSides S.dropletStep S.cacheStep ops
      (S.droplets s) (S.buildpackCache s)
    have hstate := Prod.mk.inj (hviews.trans hsides)
    exact ⟨_, s', hrun, Prod.ext hlefts hstate.1, Prod.ext hrights hstate.2⟩
  otherDroplets := by
    intro op s i htarget
    obtain ⟨s', hrun, hviews⟩ := S.performBucket_shows (.inl op) s
    rw [hrun]
    have hdroplets := congrFun (Prod.mk.inj hviews).1 i
    exact hdroplets.trans (op.step_other _ (S.droplets s) htarget)
  otherEntries := by
    intro op s i htarget
    obtain ⟨s', hrun, hviews⟩ := S.performBucket_shows (.inr (.entry op)) s
    rw [hrun]
    have hentries := congrFun (Prod.mk.inj hviews).2 i
    exact hentries.trans (op.step_other _ (S.buildpackCache s) htarget)
  emptied := by
    intro s
    obtain ⟨s', hrun, hcontents⟩ := S.deleteDir_shows (buildpackCacheDirectory ++ pathFor []) s
    rw [← S.deleteDir_buildpackCacheStore] at hrun
    refine ⟨s', hrun, ?_, ?_⟩
    · funext i
      have hpre : buildpackCacheDirectory ++ pathFor [] <+: buildpackCacheKey i := by
        rw [pathFor_nil, List.append_nil]
        exact List.prefix_append _ _
      rw [buildpackCache, hcontents]
      simp only [Function.comp_apply, if_pos hpre]
    · funext i
      rw [droplets, hcontents]
      exact if_neg (not_directory_prefix_pathFor i.2 _)

end KeyExactStore

/-! ## A bucket -/

/-- A bucket that is the map itself. -/
def mapBucket : Blobstore (Bytes → Option Bytes) where
  existsBlob key := fun m => (.returned (.ok (m key).isSome), m)
  get key := fun m =>
    (.returned (match m key with
      | none => .error .newNotFoundError
      | some content => .ok (.whole content)), m)
  put key src := fun m => (.returned (.ok ()), Function.update m key (some src))
  delete key := fun m =>
    match m key with
    | none => (.returned (.error .newNotFoundError), m)
    | some _ => (.returned (.ok ()), Function.update m key none)
  deleteDir pre := fun m =>
    (.returned (.ok ()), fun key => if pre <+: key then none else m key)
  headOrRedirectAsGet _ := pure (.ok [])
  getOrRedirect _ := pure (.ok (none, []))
  copy src dest := fun m =>
    match m src with
    | none => (.returned (.error .newNotFoundError), m)
    | some content => (.returned (.ok ()), Function.update m dest (some content))

def mapKeyExactStore : KeyExactStore (Bytes → Option Bytes) where
  blobstore := mapBucket
  contents m := m
  absence := ⟨fun _ => .newNotFoundError, fun _ => .newNotFoundError,
    fun _ => .error .newNotFoundError⟩
  perform_shows := by
    intro op m
    cases op with
    | existsKey key => exact ⟨m, rfl, rfl⟩
    | put key src => exact ⟨_, rfl, rfl⟩
    | get key =>
      cases hkey : m key with
      | none =>
        have hrun : (mapBucket.get key).run m = (.returned (.error .newNotFoundError), m) := by
          simp [mapBucket, Prog.run, hkey]
        refine ⟨m, (run_bind_returned hrun).trans ?_, ?_⟩ <;> simp [MapOp.step, hkey, Except.bind]
      | some content =>
        have hrun : (mapBucket.get key).run m = (.returned (.ok (.whole content)), m) := by
          simp [mapBucket, Prog.run, hkey]
        refine ⟨m, (run_bind_returned hrun).trans ?_, ?_⟩ <;>
          simp [MapOp.step, hkey, Except.bind, Body.readAll, Body.whole, Body.delivered]
    | copy src dest =>
      cases hkey : m src with
      | none =>
        have hrun : (mapBucket.copy src dest).run m =
            (.returned (.error .newNotFoundError), m) := by
          simp [mapBucket, Prog.run, hkey]
        refine ⟨m, (run_bind_returned hrun).trans ?_, ?_⟩ <;>
          simp [MapOp.step, hkey]
      | some content =>
        have hrun : (mapBucket.copy src dest).run m =
            (.returned (.ok ()), Function.update m dest (some content)) := by
          simp [mapBucket, Prog.run, hkey]
        refine ⟨Function.update m dest (some content), (run_bind_returned hrun).trans ?_, ?_⟩ <;>
          simp [MapOp.step, hkey]
    | delete key =>
      cases hkey : m key with
      | none =>
        have hrun : (mapBucket.delete key).run m = (.returned (.error .newNotFoundError), m) := by
          simp [mapBucket, Prog.run, hkey]
        refine ⟨m, (run_bind_returned hrun).trans ?_, ?_⟩ <;> simp [MapOp.step, hkey]
      | some content =>
        have hrun : (mapBucket.delete key).run m =
            (.returned (.ok ()), Function.update m key none) := by
          simp [mapBucket, Prog.run, hkey]
        refine ⟨Function.update m key none, (run_bind_returned hrun).trans ?_, ?_⟩ <;>
          simp [MapOp.step, hkey]
  deleteDir_shows _ m := ⟨_, rfl, rfl⟩

end BitsService
