import BitsService.Blobstores.Interface

/-! # Deleting below a prefix in the object stores

S3, Azure, Google, OpenStack and Alibaba list the keys that begin with a text and delete them one by
one. The services answer by script: how a listing is cut into pages and after how many of them it
fails, and what becomes of the deletion of each key. -/
namespace BitsService
open GoLib.Effect
set_option autoImplicit false

/-! ## The services -/

/-- What a service answers to the deletion of a key. A failed one may have deleted it. -/
inductive DeleteReply where
  | deleted
  | missing
  | failed (e : GoError) (gone : Bool)
  deriving DecidableEq

def DeleteReply.removes : DeleteReply → Bool
  | deleted => true
  | missing => true
  | failed _ gone => gone

structure Bucket where
  name : Bytes
  objects : List Bytes
  paging : List Bytes → List (List Bytes)
  paging_flatten : ∀ keys, (paging keys).flatten = keys
  listingFailure : Option (ℕ × GoError)
  deleteReply : Bytes → DeleteReply
  containerExists : Bool
  attributesFailure : Option GoError

namespace Bucket

/-- The pages that a listing delivers, and the error that ends it. -/
def list (b : Bucket) (pre : Bytes) : List (List Bytes) × Option GoError :=
  let pages := b.paging (b.objects.filter fun key => pre <+: key)
  match b.listingFailure with
  | none => (pages, none)
  | some (n, e) => (pages.take n, some e)

def removes (b : Bucket) (key : Bytes) : Bool := (b.deleteReply key).removes

/-- What is left of `objects` when `keys` have been deleted. -/
def remaining (b : Bucket) (keys : List Bytes) : List Bytes :=
  b.objects.filter fun key => ¬ (key ∈ keys ∧ b.removes key = true)

def after (b : Bucket) (keys : List Bytes) : Bucket := { b with objects := b.remaining keys }

def deleteObject (key : Bytes) : Prog GoError Bucket DeleteReply := fun b =>
  (.returned (b.deleteReply key), b.after [key])

theorem after_nil (b : Bucket) : b.after [] = b := by
  simp [after, remaining]

theorem after_after (b : Bucket) (keys keys' : List Bytes) :
    (b.after keys).after keys' = b.after (keys ++ keys') := by
  have hobjects : (b.after keys).remaining keys' = b.remaining (keys ++ keys') := by
    unfold remaining after
    rw [remaining, List.filter_filter]
    refine List.filter_congr fun key _ => ?_
    simp only [removes, List.mem_append]
    grind
  rw [after, hobjects]
  rfl

theorem mem_objects_after {b : Bucket} {keys : List Bytes} {key : Bytes} :
    key ∈ (b.after keys).objects ↔ key ∈ b.objects ∧ ¬ (key ∈ keys ∧ b.removes key = true) := by
  rw [after, remaining, List.mem_filter, decide_eq_true_eq]

theorem mem_list_flatten {b : Bucket} (h : b.listingFailure = none) (pre key : Bytes) :
    key ∈ (b.list pre).1.flatten ↔ key ∈ b.objects ∧ pre <+: key := by
  simp [list, h, b.paging_flatten]

end Bucket

/-! ## Loops -/

/-- `%v` of a list of errors. -/
def formatErrors (errs : List GoError) : Bytes :=
  ascii "[" ++ ((errs.map GoError.text).intersperse (ascii " ")).flatten ++ ascii "]"

/-- Every key is deleted, and the errors are collected that are not about missing keys. -/
def deleteEach (delete : Bytes → Prog GoError Bucket (Result Unit)) :
    List Bytes → List GoError → Prog GoError Bucket (List GoError)
  | [], deletionErrs => pure deletionErrs
  | key :: keys, deletionErrs => do
    match ← delete key with
    | .ok () => deleteEach delete keys deletionErrs
    | .error (.notFound _ _) => deleteEach delete keys deletionErrs
    | .error e => deleteEach delete keys (deletionErrs ++ [e])

def errorsFromDeleting (pre : Bytes) (deletionErrs : List GoError) : Bytes :=
  ascii "Prefix " ++ pre ++ ascii ", errors from deleting: " ++ formatErrors deletionErrs

/-- The `DeleteDir` of S3, Azure and Google: page after page, until there is none or one fails. -/
def deleteDirByPages (delete : Bytes → Prog GoError Bucket (Result Unit))
    (listingError : List GoError → Bytes) (pre : Bytes) : Prog GoError Bucket (Result Unit) := do
  let b ← getState
  let (pages, e) := b.list pre
  let deletionErrs ← deleteEach delete pages.flatten []
  match e with
  | some e => pure (.error (.wrapped (listingError deletionErrs) e))
  | none =>
    if deletionErrs ≠ [] then pure (.error (.sys (errorsFromDeleting pre deletionErrs)))
    else pure (.ok ())

/-! ## The backends -/

namespace S3

def delete (path : Bytes) : Prog GoError Bucket (Result Unit) := do
  match ← Bucket.deleteObject path with
  | .deleted => pure (.ok ())
  | .missing => pure (.error .newNotFoundError)
  | .failed e _ => pure (.error (.wrapped (ascii "Path " ++ path) e))

def deleteDir (pre : Bytes) : Prog GoError Bucket (Result Unit) :=
  deleteDirByPages delete (errorsFromDeleting pre) pre

end S3

namespace Azure

def delete (path : Bytes) : Prog GoError Bucket (Result Unit) := do
  match ← Bucket.deleteObject path with
  | .failed e _ => pure (.error (.wrapped (ascii "Path " ++ path) e))
  | .missing => pure (.error .newNotFoundError)
  | .deleted => pure (.ok ())

def deleteDir (pre : Bytes) : Prog GoError Bucket (Result Unit) :=
  deleteDirByPages delete (fun _ => ascii "Prefix " ++ pre) pre

end Azure

namespace Gcp

def bucketExists : Prog GoError Bucket (Result Unit) := do
  let b ← getState
  match b.attributesFailure with
  | some e => pure (.error (.wrapped
      (ascii "Error while checking for bucket existence. Bucket '" ++ b.name ++ ascii "'") e))
  | none => pure (.ok ())

def delete (path : Bytes) : Prog GoError Bucket (Result Unit) := do
  match ← Bucket.deleteObject path with
  | .deleted => pure (.ok ())
  | .missing => do
    match ← bucketExists with
    | .error e => pure (.error e)
    | .ok () => pure (.error .newNotFoundError)
  | .failed e _ => pure (.error (.wrapped (ascii "Path " ++ path) e))

def deleteDir (pre : Bytes) : Prog GoError Bucket (Result Unit) :=
  deleteDirByPages delete (fun _ => ascii "Prefix " ++ pre) pre

end Gcp

namespace Openstack

def containerNotFound (b : Bucket) : GoError :=
  .sys (ascii "Container not found: '" ++ b.name ++ ascii "'")

def delete (path : Bytes) : Prog GoError Bucket (Result Unit) := do
  let b ← getState
  if b.containerExists = false then pure (.error (containerNotFound b))
  else
    match ← Bucket.deleteObject path with
    | .missing => pure (.error .newNotFoundError)
    | .failed e _ => pure (.error (.wrapped
        (ascii "Container: '" ++ b.name ++ ascii "', path: '" ++ path ++ ascii "'") e))
    | .deleted => pure (.ok ())

/-- All names are fetched before the first of them is deleted. -/
def deleteDir (pre : Bytes) : Prog GoError Bucket (Result Unit) := do
  let b ← getState
  if b.containerExists = false then pure (.error (containerNotFound b))
  else
    let (pages, e) := b.list pre
    match e with
    | some e => pure (.error (.wrapped
        (ascii "Container: '" ++ b.name ++ ascii "', prefix: '" ++ pre ++ ascii "'") e))
    | none => do
      let deletionErrs ← deleteEach delete pages.flatten []
      if deletionErrs ≠ [] then
        pure (.error (.sys (ascii "Prefix '" ++ pre ++ ascii "', errors from deleting: " ++
          formatErrors deletionErrs)))
      else pure (.ok ())

end Openstack

namespace Alibaba

/-- The service does not say that a key was missing. -/
def delete (resource : Bytes) : Prog GoError Bucket (Result Unit) := do
  match ← Bucket.deleteObject resource with
  | .failed e _ => pure (.error e)
  | _ => pure (.ok ())

def deleteObjects : List Bytes → List GoError → Prog GoError Bucket (List GoError)
  | [], deletionErrs => pure deletionErrs
  | key :: keys, deletionErrs => do
    match ← delete key with
    | .error e => deleteObjects keys (deletionErrs ++ [e])
    | .ok () => deleteObjects keys deletionErrs

/-- The errors of a page take the place of those of the page before. -/
def deletePages : List (List Bytes) → List GoError → Prog GoError Bucket (List GoError)
  | [], deletionErrs => pure deletionErrs
  | page :: pages, _ => do
    let deletionErrs ← deleteObjects page []
    deletePages pages deletionErrs

def deleteDir (pre : Bytes) : Prog GoError Bucket (Result Unit) := do
  let b ← getState
  let (pages, e) := b.list pre
  let deletionErrs ← deletePages pages []
  match e with
  | some e => pure (.error (.wrapped (ascii "Prefix " ++ pre) e))
  | none =>
    -- no length is negative
    if deletionErrs.length < 0 then
      pure (.error (.sys (errorsFromDeleting pre deletionErrs)))
    else pure (.ok ())

end Alibaba

inductive ObjectStore where
  | s3
  | azure
  | gcp
  | openstack
  | alibaba
  deriving DecidableEq

namespace ObjectStore

def delete : ObjectStore → Bytes → Prog GoError Bucket (Result Unit)
  | s3 => S3.delete
  | azure => Azure.delete
  | gcp => Gcp.delete
  | openstack => Openstack.delete
  | alibaba => Alibaba.delete

def deleteDir : ObjectStore → Bytes → Prog GoError Bucket (Result Unit)
  | s3 => S3.deleteDir
  | azure => Azure.deleteDir
  | gcp => Gcp.deleteDir
  | openstack => Openstack.deleteDir
  | alibaba => Alibaba.deleteDir

/-- The backend of an object store, with its other operations. -/
def blobstore (store : ObjectStore) (others : Blobstore Bucket) : Blobstore Bucket :=
  { others with delete := store.delete, deleteDir := store.deleteDir }

/-- Is the deletion of a key reported as failed? -/
def refuses (store : ObjectStore) (b : Bucket) (key : Bytes) : Bool :=
  match store, b.deleteReply key with
  | alibaba, _ => false
  | gcp, .missing => b.attributesFailure.isSome
  | _, .failed _ _ => true
  | _, _ => false

/-- The deletion below a prefix is answered as failed. -/
def Fails (store : ObjectStore) (b : Bucket) (pre : Bytes) : Prop :=
  b.listingFailure ≠ none ∨ (store = openstack ∧ b.containerExists = false) ∨
    ∃ key ∈ b.objects, pre <+: key ∧ store.refuses b key = true

/-! ## What a deletion below a prefix does -/

/-- Is a result an error that `DeleteDir` collects? -/
def collected : Result Unit → Bool
  | .ok () => false
  | .error (.notFound _ _) => false
  | .error _ => true

variable {store : ObjectStore} {b : Bucket}

theorem run_deleteObject (key : Bytes) : (Bucket.deleteObject key).run b =
    (.returned (b.deleteReply key), b.after [key]) := rfl

theorem run_s3_delete (key : Bytes) : ∃ r, (S3.delete key).run b = (.returned r, b.after [key]) ∧
    collected r = s3.refuses b key := by
  unfold S3.delete refuses
  rw [run_bind_returned (run_deleteObject key)]
  cases b.deleteReply key with
  | deleted => exact ⟨_, rfl, rfl⟩
  | missing => exact ⟨_, rfl, rfl⟩
  | failed e gone => exact ⟨_, rfl, rfl⟩

theorem run_azure_delete (key : Bytes) : ∃ r,
    (Azure.delete key).run b = (.returned r, b.after [key]) ∧
      collected r = azure.refuses b key := by
  unfold Azure.delete refuses
  rw [run_bind_returned (run_deleteObject key)]
  cases b.deleteReply key with
  | deleted => exact ⟨_, rfl, rfl⟩
  | missing => exact ⟨_, rfl, rfl⟩
  | failed e gone => exact ⟨_, rfl, rfl⟩

theorem run_gcp_bucketExists (b : Bucket) : ∃ r, Gcp.bucketExists.run b = (.returned r, b) ∧
    r.isOk = b.attributesFailure.isNone ∧ ∀ e, r = .error e → collected (.error e) = true := by
  unfold Gcp.bucketExists
  rw [run_bind_returned (run_getState b)]
  cases b.attributesFailure with
  | none => exact ⟨.ok (), rfl, rfl, fun e h => nomatch h⟩
  | some e =>
    refine ⟨_, rfl, rfl, fun e' h => ?_⟩
    cases h
    rfl

/-- A missing object may be one of a missing bucket. -/
theorem run_gcp_delete (key : Bytes) : ∃ r,
    (Gcp.delete key).run b = (.returned r, b.after [key]) ∧ collected r = gcp.refuses b key := by
  obtain ⟨r, hexists, hok, hcollected⟩ := run_gcp_bucketExists (b.after [key])
  have hattributes : r.isOk = b.attributesFailure.isNone := hok
  unfold Gcp.delete refuses
  rw [run_bind_returned (run_deleteObject key)]
  cases b.deleteReply key with
  | deleted => exact ⟨_, rfl, rfl⟩
  | missing =>
    simp only
    rw [run_bind_returned hexists]
    cases r with
    | ok u =>
      refine ⟨_, rfl, ?_⟩
      rw [← Option.not_isNone, ← hattributes]
      rfl
    | error e =>
      refine ⟨_, rfl, ?_⟩
      rw [← Option.not_isNone, ← hattributes, hcollected e rfl]
      rfl
  | failed e gone => exact ⟨_, rfl, rfl⟩

theorem run_openstack_delete (h : b.containerExists = true) (key : Bytes) : ∃ r,
    (Openstack.delete key).run b = (.returned r, b.after [key]) ∧
      collected r = openstack.refuses b key := by
  unfold Openstack.delete refuses
  rw [run_bind_returned (run_getState b), if_neg (by simp [h]),
    run_bind_returned (run_deleteObject key)]
  cases b.deleteReply key with
  | deleted => exact ⟨_, rfl, rfl⟩
  | missing => exact ⟨_, rfl, rfl⟩
  | failed e gone => exact ⟨_, rfl, rfl⟩

theorem run_delete (h : store = openstack → b.containerExists = true) (hstore : store ≠ alibaba)
    (key : Bytes) : ∃ r, (store.delete key).run b = (.returned r, b.after [key]) ∧
      collected r = store.refuses b key := by
  cases store with
  | s3 => exact run_s3_delete key
  | azure => exact run_azure_delete key
  | gcp => exact run_gcp_delete key
  | openstack => exact run_openstack_delete (h rfl) key
  | alibaba => exact absurd rfl hstore

theorem run_deleteEach (h : store = openstack → b.containerExists = true)
    (hstore : store ≠ alibaba) (keys : List Bytes) (errs : List GoError) :
    ∃ errs', (deleteEach store.delete keys errs).run b = (.returned errs', b.after keys) ∧
      (errs' = [] ↔ errs = [] ∧ ∀ key ∈ keys, store.refuses b key = false) := by
  induction keys generalizing b errs with
  | nil => exact ⟨errs, by rw [b.after_nil]; rfl, by simp⟩
  | cons key keys ih =>
    obtain ⟨r, hrun, hcollected⟩ := run_delete h hstore key
    have hrest : ∀ errs₁, ∃ errs', (deleteEach store.delete keys errs₁).run (b.after [key]) =
        (.returned errs', b.after (key :: keys)) ∧
        (errs' = [] ↔ errs₁ = [] ∧ ∀ key ∈ keys, store.refuses b key = false) := by
      intro errs₁
      have hkeys := @ih (b.after [key]) h errs₁
      rwa [b.after_after] at hkeys
    have hgoes : ∀ errs₁, (errs₁ = [] ↔ errs = [] ∧ store.refuses b key = false) →
        (deleteEach store.delete (key :: keys) errs).run b =
          (deleteEach store.delete keys errs₁).run (b.after [key]) →
        ∃ errs', (deleteEach store.delete (key :: keys) errs).run b =
          (.returned errs', b.after (key :: keys)) ∧
          (errs' = [] ↔ errs = [] ∧ ∀ key' ∈ key :: keys, store.refuses b key' = false) := by
      intro errs₁ herrs hstep
      obtain ⟨errs', hrun', hnil⟩ := hrest errs₁
      refine ⟨errs', hstep.trans hrun', ?_⟩
      rw [hnil, herrs, List.forall_mem_cons, and_assoc]
    cases r with
    | ok a => exact hgoes errs (by simp [← hcollected, collected]) (run_bind_returned hrun)
    | error e =>
      cases e with
      | notFound text missingKey =>
        exact hgoes errs (by simp [← hcollected, collected]) (run_bind_returned hrun)
      | _ => exact hgoes (errs ++ [_]) (by simp [← hcollected, collected]) (run_bind_returned hrun)

/-- What comes back from a deletion below a prefix, and what it leaves. -/
structure Deletes (store : ObjectStore) (b : Bucket) (pre : Bytes) (r : Result Unit)
    (b' : Bucket) : Prop where
  succeeds : r = .ok () ↔ ¬ store.Fails b pre
  fails : r = .ok () ∨ collected r = true
  objects : r = .ok () → ∀ key, key ∈ b'.objects ↔
    key ∈ b.objects ∧ ¬ (pre <+: key ∧ b.removes key = true)

theorem mem_objects_after_list (h : b.listingFailure = none) (pre key : Bytes) :
    key ∈ (b.after (b.list pre).1.flatten).objects ↔
      key ∈ b.objects ∧ ¬ (pre <+: key ∧ b.removes key = true) := by
  rw [Bucket.mem_objects_after, Bucket.mem_list_flatten h]
  grind

theorem no_refusal_iff (h : b.listingFailure = none) (pre : Bytes) :
    (∀ key ∈ (b.list pre).1.flatten, store.refuses b key = false) ↔
      ¬ ∃ key ∈ b.objects, pre <+: key ∧ store.refuses b key = true := by
  simp only [Bucket.mem_list_flatten h, not_exists, not_and, Bool.not_eq_true]
  exact ⟨fun hall key hmem hpre => hall key ⟨hmem, hpre⟩, fun hall key hkey =>
    hall key hkey.1 hkey.2⟩

theorem deletes_of_listingFailure {pre : Bytes} {failure : ℕ × GoError}
    (h : b.listingFailure = some failure) (message : Bytes) (e : GoError) (b' : Bucket) :
    Deletes store b pre (.error (.wrapped message e)) b' where
  succeeds := ⟨fun hok => (nomatch hok), fun hnot => absurd (.inl (by simp [h])) hnot⟩
  fails := .inr rfl
  objects hok := nomatch hok

theorem deletes_of_errs {pre : Bytes} {errs : List GoError} (message : Bytes)
    (hlisting : b.listingFailure = none) (hcontainer : store = openstack → b.containerExists = true)
    (herrs : errs = [] ↔ ∀ key ∈ (b.list pre).1.flatten, store.refuses b key = false) :
    Deletes store b pre (if errs ≠ [] then .error (.sys message) else .ok ())
      (b.after (b.list pre).1.flatten) := by
  rw [no_refusal_iff hlisting] at herrs
  by_cases hnil : errs = []
  · rw [if_neg (not_not.mpr hnil)]
    have hnot : ¬ store.Fails b pre := by
      rintro (hfailure | ⟨hopenstack, hmissing⟩ | hrefused)
      · exact hfailure hlisting
      · rw [hcontainer hopenstack] at hmissing
        cases hmissing
      · exact herrs.mp hnil hrefused
    exact ⟨iff_of_true rfl hnot, .inl rfl, fun _ => mem_objects_after_list hlisting pre⟩
  · rw [if_pos hnil]
    have hrefused := not_not.mp fun hnone => hnil (herrs.mpr hnone)
    exact ⟨iff_of_false (fun hok => (nomatch hok)) (not_not.mpr (.inr (.inr hrefused))), .inr rfl,
      fun hok => nomatch hok⟩

theorem run_deleteDirByPages (store : ObjectStore) (hopenstack : store ≠ openstack)
    (halibaba : store ≠ alibaba) (listingError : List GoError → Bytes) (pre : Bytes) :
    ∃ r b', (deleteDirByPages store.delete listingError pre).run b = (.returned r, b') ∧
      Deletes store b pre r b' := by
  have hcontainer : store = openstack → b.containerExists = true := fun h => absurd h hopenstack
  obtain ⟨errs, hrun, herrs⟩ := run_deleteEach hcontainer halibaba (b.list pre).1.flatten []
  cases hfailure : b.listingFailure with
  | none =>
    refine ⟨_, _, ?_, deletes_of_errs (errorsFromDeleting pre errs) hfailure hcontainer
      (herrs.trans (by simp))⟩
    refine (run_bind_returned (run_getState b)).trans ((run_bind_returned hrun).trans ?_)
    rw [hfailure]
    by_cases hnil : errs ≠ []
    · simp only [if_pos hnil]
      rfl
    · simp only [if_neg hnil]
      rfl
  | some failure =>
    refine ⟨_, b.after (b.list pre).1.flatten, ?_,
      deletes_of_listingFailure hfailure (listingError errs) failure.2 _⟩
    refine (run_bind_returned (run_getState b)).trans ((run_bind_returned hrun).trans ?_)
    rw [hfailure]
    rfl

theorem run_openstack_deleteDir (pre : Bytes) :
    ∃ r b', (Openstack.deleteDir pre).run b = (.returned r, b') ∧ Deletes openstack b pre r b' := by
  cases hexists : b.containerExists with
  | false =>
    refine ⟨.error (Openstack.containerNotFound b), b,
      (run_bind_returned (run_getState b)).trans ?_, ?_, .inr rfl, fun hok => nomatch hok⟩
    · rw [if_pos hexists]
      rfl
    · exact iff_of_false (fun hok => (nomatch hok)) (not_not.mpr (.inr (.inl ⟨rfl, hexists⟩)))
  | true =>
    have hcontainer : openstack = openstack → b.containerExists = true := fun _ => hexists
    obtain ⟨errs, hrun, herrs⟩ := run_deleteEach hcontainer (by simp) (b.list pre).1.flatten []
    cases hfailure : b.listingFailure with
    | none =>
      have hlist : b.list pre = ((b.list pre).1, none) :=
        Prod.ext rfl (by simp [Bucket.list, hfailure])
      refine ⟨_, _, ?_, deletes_of_errs (ascii "Prefix '" ++ pre ++
        ascii "', errors from deleting: " ++ formatErrors errs) hfailure hcontainer
        (herrs.trans (by simp))⟩
      refine (run_bind_returned (run_getState b)).trans ?_
      rw [if_neg (by simp [hexists]), hlist]
      refine (run_bind_returned hrun).trans ?_
      by_cases hnil : errs ≠ []
      · simp only [if_pos hnil]
        rfl
      · simp only [if_neg hnil]
        rfl
    | some failure =>
      have hlist : b.list pre = ((b.list pre).1, some failure.2) :=
        Prod.ext rfl (by simp [Bucket.list, hfailure])
      refine ⟨_, b, ?_, deletes_of_listingFailure hfailure
        (ascii "Container: '" ++ b.name ++ ascii "', prefix: '" ++ pre ++ ascii "'") failure.2 _⟩
      refine (run_bind_returned (run_getState b)).trans ?_
      rw [if_neg (by simp [hexists]), hlist]
      rfl

theorem run_alibaba_delete (key : Bytes) :
    ∃ r, (Alibaba.delete key).run b = (.returned r, b.after [key]) := by
  unfold Alibaba.delete
  rw [run_bind_returned (run_deleteObject key)]
  cases b.deleteReply key with
  | deleted => exact ⟨_, rfl⟩
  | missing => exact ⟨_, rfl⟩
  | failed e gone => exact ⟨_, rfl⟩

theorem run_alibaba_deleteObjects (keys : List Bytes) (errs : List GoError) :
    ∃ errs', (Alibaba.deleteObjects keys errs).run b = (.returned errs', b.after keys) := by
  induction keys generalizing b errs with
  | nil => exact ⟨errs, by rw [b.after_nil]; rfl⟩
  | cons key keys ih =>
    obtain ⟨r, hdelete⟩ := @run_alibaba_delete b key
    have hrest : ∀ errs₁, ∃ errs', (Alibaba.deleteObjects keys errs₁).run (b.after [key]) =
        (.returned errs', b.after (key :: keys)) := by
      intro errs₁
      have hkeys := @ih (b.after [key]) errs₁
      rwa [b.after_after] at hkeys
    cases r with
    | ok u =>
      obtain ⟨errs', hrun⟩ := hrest errs
      exact ⟨errs', (run_bind_returned hdelete).trans hrun⟩
    | error e =>
      obtain ⟨errs', hrun⟩ := hrest (errs ++ [e])
      exact ⟨errs', (run_bind_returned hdelete).trans hrun⟩

theorem run_alibaba_deletePages (pages : List (List Bytes)) (errs : List GoError) :
    ∃ errs', (Alibaba.deletePages pages errs).run b = (.returned errs', b.after pages.flatten) := by
  induction pages generalizing b errs with
  | nil => exact ⟨errs, by rw [List.flatten_nil, b.after_nil]; rfl⟩
  | cons page pages ih =>
    obtain ⟨errs₁, hpage⟩ := @run_alibaba_deleteObjects b page []
    obtain ⟨errs', hpages⟩ := @ih (b.after page) errs₁
    rw [b.after_after] at hpages
    exact ⟨errs', (run_bind_returned hpage).trans hpages⟩

theorem run_alibaba_deleteDir (pre : Bytes) :
    ∃ r b', (Alibaba.deleteDir pre).run b = (.returned r, b') ∧ Deletes alibaba b pre r b' := by
  obtain ⟨errs, hrun⟩ := @run_alibaba_deletePages b (b.list pre).1 []
  cases hfailure : b.listingFailure with
  | none =>
    have hnot : ¬ alibaba.Fails b pre := by
      rintro (hlisting | ⟨hother, -⟩ | ⟨key, -, -, hrefused⟩)
      · exact hlisting hfailure
      · cases hother
      · cases hrefused
    refine ⟨.ok (), b.after (b.list pre).1.flatten, ?_, iff_of_true rfl hnot, .inl rfl,
      fun _ => mem_objects_after_list hfailure pre⟩
    refine (run_bind_returned (run_getState b)).trans ((run_bind_returned hrun).trans ?_)
    rw [hfailure]
    rfl
  | some failure =>
    refine ⟨_, b.after (b.list pre).1.flatten, ?_,
      deletes_of_listingFailure hfailure (ascii "Prefix " ++ pre) failure.2 _⟩
    refine (run_bind_returned (run_getState b)).trans ((run_bind_returned hrun).trans ?_)
    rw [hfailure]
    rfl

/-- **A deletion below a prefix that succeeds** removes what begins with it, but for what the
service kept without the backend saying so. -/
theorem run_deleteDir (store : ObjectStore) (b : Bucket) (pre : Bytes) :
    ∃ r b', (store.deleteDir pre).run b = (.returned r, b') ∧ Deletes store b pre r b' := by
  cases store with
  | s3 => exact run_deleteDirByPages s3 (by simp) (by simp) _ pre
  | azure => exact run_deleteDirByPages azure (by simp) (by simp) _ pre
  | gcp => exact run_deleteDirByPages gcp (by simp) (by simp) _ pre
  | openstack => exact run_openstack_deleteDir pre
  | alibaba => exact run_alibaba_deleteDir pre

end ObjectStore

end BitsService
