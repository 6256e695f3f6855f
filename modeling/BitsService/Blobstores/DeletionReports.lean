import BitsService.Blobstores.PagedDeletion

/-! # What a paged deletion reports

However the pages are listed, every object on them is deleted once, and what is answered is a
function of the errors collected and of the page that could not be listed. Azure, S3 and Google
answer nil just when everything was listed and is gone. -/
namespace BitsService
open GoLib.Effect GoLib.Paging
set_option autoImplicit false

section Loops
variable {σ W : Type} {delete : Bytes → Prog GoError W (Result Unit)} {pre : Bytes}

/-! ## The three loops are one -/

theorem deleteListed_append (keys keys' : List Bytes) (deletionErrs : List GoError) :
    deleteListed delete (keys ++ keys') deletionErrs =
      deleteListed delete keys deletionErrs >>= deleteListed delete keys' := by
  induction keys generalizing deletionErrs with
  | nil => rfl
  | cons key keys ih =>
    simp only [List.cons_append, deleteListed]
    rw [Prog.bind_assoc]
    refine Prog.bind_congr _ (fun r => ?_)
    cases r with
    | ok u => exact ih deletionErrs
    | error e =>
      cases e with
      | notFound text missingKey => exact ih deletionErrs
      | _ => exact ih (deletionErrs ++ [_])

theorem forPages_deleteListed (pages : List (List Bytes)) (deletionErrs : List GoError) :
    forPages (deleteListed delete) pages deletionErrs =
      deleteListed delete pages.flatten deletionErrs := by
  induction pages generalizing deletionErrs with
  | nil => rfl
  | cons page pages ih =>
    rw [List.flatten_cons, deleteListed_append]
    exact Prog.bind_congr _ ih

/-- The answer, once the objects on the fetched pages have been deleted with these errors. -/
def deletionAnswer (pre : Bytes) (listingError : List GoError → Bytes) (pages : Pages)
    (deletionErrs : List GoError) : Result Unit :=
  match listingFailure pages with
  | some e => .error (.wrapped (listingError deletionErrs) e)
  | none => resultOfDeleting pre deletionErrs

theorem azure_deleteDirVia_eq {listBlobs : Bytes → Result BlobListResponse} {pages : Pages}
    (h : Serves (fun marker => (listBlobs marker).map BlobListResponse.page) [] pages) {fuel : ℕ}
    (hfuel : pages.length ≤ fuel) :
    Azure.deleteDirVia delete pre listBlobs fuel =
      deleteListed delete (fetched pages).flatten [] >>= fun deletionErrs =>
        pure (some (deletionAnswer pre (fun _ => ascii "Prefix " ++ pre) pages deletionErrs)) := by
  unfold Azure.deleteDirVia
  rw [walk_eq h _ hfuel, visit_eq, forPages_deleteListed, Prog.bind_assoc, Prog.bind_assoc]
  refine Prog.bind_congr _ (fun deletionErrs => ?_)
  unfold deletionAnswer
  cases listingFailure pages with
  | none => rfl
  | some e => rfl

theorem listObjectsPages_eq_visit {τ : Type} (body : List Bytes → τ → Prog GoError W τ)
    (pages : Pages) (t : τ) :
    S3.listObjectsPages (fun page _ t => do
      let t ← body page t
      pure (true, t)) pages t = visit body pages t := by
  induction pages generalizing t with
  | nil => rfl
  | cons page pages ih =>
    cases page with
    | error e => rfl
    | ok page =>
      simp only [S3.listObjectsPages, visit]
      rw [Prog.bind_assoc]
      exact Prog.bind_congr _ ih

theorem s3_deleteDirVia_eq (pages : Pages) :
    S3.deleteDirVia delete pre pages =
      deleteListed delete (fetched pages).flatten [] >>= fun deletionErrs =>
        pure (deletionAnswer pre (errorsFromDeleting pre) pages deletionErrs) := by
  unfold S3.deleteDirVia
  rw [listObjectsPages_eq_visit, visit_eq, forPages_deleteListed, Prog.bind_assoc]
  refine Prog.bind_congr _ (fun deletionErrs => ?_)
  unfold deletionAnswer
  cases listingFailure pages with
  | none => rfl
  | some e => rfl

theorem deleteNext_append (names : List Bytes) (it : List (Result Bytes))
    (deletionErrs : List GoError) :
    Gcp.deleteNext delete pre (names.map .ok ++ it) deletionErrs =
      deleteListed delete names deletionErrs >>= Gcp.deleteNext delete pre it := by
  induction names generalizing deletionErrs with
  | nil => rfl
  | cons name names ih =>
    simp only [List.map_cons, List.cons_append, Gcp.deleteNext, deleteListed]
    rw [Prog.bind_assoc]
    refine Prog.bind_congr _ (fun r => ?_)
    cases r with
    | ok u => exact ih deletionErrs
    | error e =>
      cases e with
      | notFound text missingKey => exact ih deletionErrs
      | _ => exact ih (deletionErrs ++ [_])

theorem deleteNext_objectIterator (pages : Pages) (deletionErrs : List GoError) :
    Gcp.deleteNext delete pre (Gcp.objectIterator pages) deletionErrs =
      deleteListed delete (fetched pages).flatten deletionErrs >>= fun deletionErrs =>
        pure (deletionAnswer pre (fun _ => ascii "Prefix " ++ pre) pages deletionErrs) := by
  induction pages generalizing deletionErrs with
  | nil => rfl
  | cons page pages ih =>
    cases page with
    | error e => rfl
    | ok page =>
      rw [Gcp.objectIterator, deleteNext_append, fetched_ok, List.flatten_cons,
        deleteListed_append, Prog.bind_assoc]
      exact Prog.bind_congr _ ih

theorem gcp_deleteDirVia_eq (pages : Pages) :
    Gcp.deleteDirVia delete pre pages =
      deleteListed delete (fetched pages).flatten [] >>= fun deletionErrs =>
        pure (deletionAnswer pre (fun _ => ascii "Prefix " ++ pre) pages deletionErrs) :=
  deleteNext_objectIterator pages []

end Loops

/-! ## One bucket behind the three loops -/

theorem deleteEach_eq (delete : Bytes → Prog GoError Bucket (Result Unit)) (keys : List Bytes)
    (deletionErrs : List GoError) :
    deleteEach delete keys deletionErrs = deleteListed delete keys deletionErrs := by
  induction keys generalizing deletionErrs with
  | nil => rfl
  | cons key keys ih =>
    refine Prog.bind_congr _ (fun r => ?_)
    cases r with
    | ok u => exact ih deletionErrs
    | error e =>
      cases e with
      | notFound text missingKey => exact ih deletionErrs
      | _ => exact ih (deletionErrs ++ [_])

theorem run_deleteDirByPages_eq {b : Bucket} {pre : Bytes} {pages : Pages}
    (delete : Bytes → Prog GoError Bucket (Result Unit)) (listingError : List GoError → Bytes)
    (hpages : b.list pre = (fetched pages, listingFailure pages)) :
    (deleteDirByPages delete listingError pre).run b =
      (deleteListed delete (fetched pages).flatten [] >>= fun deletionErrs =>
        pure (deletionAnswer pre listingError pages deletionErrs)).run b := by
  unfold deleteDirByPages
  rw [run_bind_returned (run_getState b), hpages]
  simp only
  rw [deleteEach_eq]
  refine congrArg (Prog.run · b) (Prog.bind_congr _ (fun deletionErrs => ?_))
  unfold deletionAnswer
  cases listingFailure pages with
  | some e => rfl
  | none =>
    unfold resultOfDeleting
    by_cases hnil : deletionErrs ≠ []
    · simp only [if_pos hnil]
    · simp only [if_neg hnil]

/-- Over a bucket whose listing comes in these pages, the loops do what its deletion below a prefix
does. -/
theorem deleteDirVia_bucket {b : Bucket} {pre : Bytes} {pages : Pages}
    (hpages : b.list pre = (fetched pages, listingFailure pages)) :
    (S3.deleteDirVia (S3.deleteVia Bucket.service) pre pages).run b = (S3.deleteDir pre).run b ∧
      (Gcp.deleteDirVia (Gcp.deleteVia Bucket.service) pre pages).run b =
        (Gcp.deleteDir pre).run b ∧
      ∀ listBlobs fuel,
        Serves (fun marker => (listBlobs marker).map BlobListResponse.page) [] pages →
        pages.length ≤ fuel →
        (Azure.deleteDirVia (Azure.deleteVia Bucket.service) pre listBlobs fuel).run b =
          (Azure.deleteDir pre >>= fun r => pure (some r)).run b := by
  refine ⟨?_, ?_, fun listBlobs fuel hserves hfuel => ?_⟩
  · rw [s3_deleteDirVia_eq]
    exact (run_deleteDirByPages_eq S3.delete (errorsFromDeleting pre) hpages).symm
  · rw [gcp_deleteDirVia_eq]
    exact (run_deleteDirByPages_eq Gcp.delete (fun _ => ascii "Prefix " ++ pre) hpages).symm
  · have hassoc := Prog.bind_assoc
      (deleteListed (Azure.deleteVia Bucket.service) (fetched pages).flatten [])
      (fun deletionErrs =>
        pure (deletionAnswer pre (fun _ => ascii "Prefix " ++ pre) pages deletionErrs))
      (fun r => pure (some r))
    rw [azure_deleteDirVia_eq hserves hfuel]
    have hbucket := run_deleteDirByPages_eq Azure.delete (fun _ => ascii "Prefix " ++ pre) hpages
    refine (congrArg (Prog.run · b) hassoc).symm.trans ?_
    exact run_bind_congr hbucket.symm _

/-! ## Attempts -/

/-- What `DeleteDir` does not hold against the deletion of an object. -/
def NilOrNotFound : Result Unit → Prop
  | .ok () => True
  | .error (.notFound _ _) => True
  | .error _ => False

/-- A service that answers the deletions by a script, and then with success. -/
def scriptedService : ObjectService (List DeleteReply) where
  bucketName _ := ascii "bits"
  deleteObject _ script := (script.headD .deleted, script.tail)
  attributes script := (none, script)

def accessDenied : DeleteReply := .failed (.sys (ascii "AccessDenied")) false

section Attempts
variable {σ : Type} {delete : Bytes → Prog GoError σ (Result Unit)}

/-- `delete`, with a note of the key and of what came back. -/
def noting (delete : Bytes → Prog GoError σ (Result Unit)) (key : Bytes) :
    Prog GoError (σ × List (Bytes × Result Unit)) (Result Unit) :=
  recorded (Prod.mk key) (delete key)

/-- Every key is attempted once, in order, whatever became of those before it. -/
theorem run_deleteListed_noting (htotal : ∀ key, Total (delete key)) (keys : List Bytes)
    (deletionErrs : List GoError) (s : σ) (log : List (Bytes × Result Unit)) :
    ∃ deletionErrs' s' attempts,
      (deleteListed (noting delete) keys deletionErrs).run (s, log) =
        (.returned deletionErrs', (s', log ++ attempts)) ∧
      attempts.map Prod.fst = keys ∧
      (deletionErrs' = [] ↔
        deletionErrs = [] ∧ ∀ attempt ∈ attempts, NilOrNotFound attempt.2) := by
  induction keys generalizing deletionErrs s log with
  | nil => exact ⟨deletionErrs, s, [], by simp [deleteListed], rfl, by simp⟩
  | cons key keys ih =>
    obtain ⟨r, s₁, hdelete⟩ := htotal key s
    have hnoted : (noting delete key).run (s, log) = (.returned r, (s₁, log ++ [(key, r)])) :=
      run_recorded_returned hdelete
    -- the rest of the page, from the errors that this deletion leaves
    have hrest : ∀ errs₁, (errs₁ = [] ↔ deletionErrs = [] ∧ NilOrNotFound r) →
        (deleteListed (noting delete) (key :: keys) deletionErrs).run (s, log) =
          (deleteListed (noting delete) keys errs₁).run (s₁, log ++ [(key, r)]) →
        ∃ deletionErrs' s' attempts,
          (deleteListed (noting delete) (key :: keys) deletionErrs).run (s, log) =
            (.returned deletionErrs', (s', log ++ attempts)) ∧
          attempts.map Prod.fst = key :: keys ∧
          (deletionErrs' = [] ↔
            deletionErrs = [] ∧ ∀ attempt ∈ attempts, NilOrNotFound attempt.2) := by
      intro errs₁ herrs hstep
      obtain ⟨errs', s', attempts, hrun, hkeys, hnil⟩ := ih errs₁ s₁ (log ++ [(key, r)])
      refine ⟨errs', s', (key, r) :: attempts, ?_, ?_, ?_⟩
      · rw [hstep, hrun, List.append_assoc]
        rfl
      · rw [List.map_cons, hkeys]
      · rw [hnil, herrs, List.forall_mem_cons, and_assoc]
    cases r with
    | ok u => exact hrest deletionErrs (by simp [NilOrNotFound]) (run_bind_returned hnoted)
    | error e =>
      cases e with
      | notFound text missingKey =>
        exact hrest deletionErrs (by simp [NilOrNotFound]) (run_bind_returned hnoted)
      | _ =>
        exact hrest (deletionErrs ++ [_]) (by simp [NilOrNotFound]) (run_bind_returned hnoted)

theorem deletionAnswer_eq_ok {pre : Bytes} {listingError : List GoError → Bytes} {pages : Pages}
    {deletionErrs : List GoError} :
    deletionAnswer pre listingError pages deletionErrs = .ok () ↔
      (∀ page ∈ pages, page.isOk = true) ∧ deletionErrs = [] := by
  rw [← listingFailure_eq_none]
  unfold deletionAnswer resultOfDeleting
  cases listingFailure pages with
  | some e => simp
  | none =>
    by_cases hnil : deletionErrs = []
    · simp [hnil]
    · simp [hnil]

/-- What is attempted on the pages of a listing, and what is answered: nil just when every page was
fetched and every deletion was answered with nil or `NotFoundError`. -/
structure Reports (pages : Pages) (attempts : List (Bytes × Result Unit)) (r : Result Unit) :
    Prop where
  attempted : attempts.map Prod.fst = (fetched pages).flatten
  honest : r = .ok () ↔
    (∀ page ∈ pages, page.isOk = true) ∧ ∀ attempt ∈ attempts, NilOrNotFound attempt.2

theorem run_deleteListed_reports (htotal : ∀ key, Total (delete key)) (pages : Pages)
    (pre : Bytes) (listingError : List GoError → Bytes) (s : σ) :
    ∃ deletionErrs s' attempts,
      (deleteListed (noting delete) (fetched pages).flatten []).run (s, []) =
        (.returned deletionErrs, (s', attempts)) ∧
      Reports pages attempts (deletionAnswer pre listingError pages deletionErrs) := by
  obtain ⟨errs, s', attempts, hrun, hkeys, hnil⟩ :=
    run_deleteListed_noting htotal (fetched pages).flatten [] s []
  refine ⟨errs, s', attempts, hrun, hkeys, ?_⟩
  rw [deletionAnswer_eq_ok, hnil]
  simp

variable (service : ObjectService σ)

theorem total_deletion (key : Bytes) : Total (service.deletion key) := fun s =>
  ⟨(service.deleteObject key s).1, (service.deleteObject key s).2, rfl⟩

theorem total_azure_deleteVia (key : Bytes) : Total (Azure.deleteVia service key) := by
  refine Total.bind (total_deletion service key) (fun reply => ?_)
  cases reply with
  | deleted => exact Total.pure _
  | missing => exact Total.pure _
  | failed e gone => exact Total.pure _

theorem total_s3_deleteVia (key : Bytes) : Total (S3.deleteVia service key) := by
  refine Total.bind (total_deletion service key) (fun reply => ?_)
  cases reply with
  | deleted => exact Total.pure _
  | missing => exact Total.pure _
  | failed e gone => exact Total.pure _

theorem total_bucketExistsVia : Total (Gcp.bucketExistsVia service) := by
  have hstate : Total (getState : Prog GoError σ σ) := fun s => ⟨s, s, rfl⟩
  have hattributes : Total service.bucketAttributes := fun s =>
    ⟨(service.attributes s).1, (service.attributes s).2, rfl⟩
  refine Total.bind hstate (fun s => Total.bind hattributes (fun failure => ?_))
  cases failure with
  | none => exact Total.pure _
  | some e => exact Total.pure _

theorem total_gcp_deleteVia (key : Bytes) : Total (Gcp.deleteVia service key) := by
  refine Total.bind (total_deletion service key) (fun reply => ?_)
  cases reply with
  | deleted => exact Total.pure _
  | missing =>
    refine Total.bind (total_bucketExistsVia service) (fun r => ?_)
    cases r with
    | ok u => exact Total.pure _
    | error e => exact Total.pure _
  | failed e gone => exact Total.pure _

/-- **A paged deletion reports honestly** on Azure, S3 and Google: for any pages, any of which may
fail, and any answers to the deletions. -/
theorem deleteDirVia_reports (pages : Pages) (pre : Bytes) (s : σ) :
    (∀ listBlobs fuel,
      Serves (fun marker => (listBlobs marker).map BlobListResponse.page) [] pages →
      pages.length ≤ fuel →
      ∃ r s' attempts,
        (Azure.deleteDirVia (noting (Azure.deleteVia service)) pre listBlobs fuel).run (s, []) =
          (.returned (some r), (s', attempts)) ∧ Reports pages attempts r) ∧
    (∃ r s' attempts,
      (S3.deleteDirVia (noting (S3.deleteVia service)) pre pages).run (s, []) =
        (.returned r, (s', attempts)) ∧ Reports pages attempts r) ∧
    ∃ r s' attempts,
      (Gcp.deleteDirVia (noting (Gcp.deleteVia service)) pre pages).run (s, []) =
        (.returned r, (s', attempts)) ∧ Reports pages attempts r := by
  refine ⟨fun listBlobs fuel hserves hfuel => ?_, ?_, ?_⟩
  · obtain ⟨errs, s', attempts, hrun, hreports⟩ := run_deleteListed_reports
      (total_azure_deleteVia service) pages pre (fun _ => ascii "Prefix " ++ pre) s
    refine ⟨_, s', attempts, ?_, hreports⟩
    rw [azure_deleteDirVia_eq hserves hfuel]
    exact run_bind_returned hrun
  · obtain ⟨errs, s', attempts, hrun, hreports⟩ := run_deleteListed_reports
      (total_s3_deleteVia service) pages pre (errorsFromDeleting pre) s
    refine ⟨_, s', attempts, ?_, hreports⟩
    rw [s3_deleteDirVia_eq]
    exact run_bind_returned hrun
  · obtain ⟨errs, s', attempts, hrun, hreports⟩ := run_deleteListed_reports
      (total_gcp_deleteVia service) pages pre (fun _ => ascii "Prefix " ++ pre) s
    refine ⟨_, s', attempts, ?_, hreports⟩
    rw [gcp_deleteDirVia_eq]
    exact run_bind_returned hrun

/-- A listing in two pages of one object each. -/
def twoBlobPages (marker : Bytes) : Result BlobListResponse :=
  if marker = [] then .ok ⟨[ascii "dir/a"], ascii "dir/b"⟩ else .ok ⟨[ascii "dir/b"], []⟩

theorem serves_twoBlobPages :
    Serves (fun marker => (twoBlobPages marker).map BlobListResponse.page) []
      [.ok [ascii "dir/a"], .ok [ascii "dir/b"]] :=
  .more rfl (.last rfl)

theorem deleteDirVia_reports_accessDenied : ∃ r s' attempts,
    (Azure.deleteDirVia (noting (Azure.deleteVia scriptedService)) (ascii "dir") twoBlobPages 2).run
      ([accessDenied], []) = (.returned (some r), (s', attempts)) ∧
    Reports [.ok [ascii "dir/a"], .ok [ascii "dir/b"]] attempts r :=
  (deleteDirVia_reports scriptedService [.ok [ascii "dir/a"], .ok [ascii "dir/b"]] (ascii "dir")
    [accessDenied]).1 twoBlobPages 2 serves_twoBlobPages (by decide)

/-! ## Alibaba -/

/-- What the deletion of an object returns on Alibaba. -/
def Alibaba.outcome : DeleteReply → Result Unit
  | .failed e _ => .error e
  | _ => .ok ()

def attemptOf (reply : Bytes × DeleteReply) : Bytes × Result Unit :=
  (reply.1, Alibaba.outcome reply.2)

theorem run_alibaba_deleteVia (key : Bytes) (s : σ) : (Alibaba.deleteVia service key).run s =
    (.returned (Alibaba.outcome (service.deleteObject key s).1),
      (service.deleteObject key s).2) := by
  have hreply : (service.deletion key).run s =
    (.returned (service.deleteObject key s).1, (service.deleteObject key s).2) := rfl
  unfold Alibaba.deleteVia
  rw [run_bind_returned hreply]
  cases (service.deleteObject key s).1 with
  | deleted => rfl
  | missing => rfl
  | failed e gone => rfl

theorem run_deleteObjectsVia (keys : List Bytes) (deletionErrs : List GoError) (s : σ)
    (log : List (Bytes × Result Unit)) :
    ∃ deletionErrs', (Alibaba.deleteObjectsVia (noting (Alibaba.deleteVia service)) keys
        deletionErrs).run (s, log) =
      (.returned deletionErrs',
        (service.afterAll keys s, log ++ (service.replies keys s).map attemptOf)) := by
  induction keys generalizing deletionErrs s log with
  | nil => exact ⟨deletionErrs, by simp [Alibaba.deleteObjectsVia, ObjectService.replies,
      ObjectService.afterAll]⟩
  | cons key keys ih =>
    have hnoted : (noting (Alibaba.deleteVia service) key).run (s, log) = _ :=
      run_recorded_returned (run_alibaba_deleteVia service key s)
    have hrest : ∀ errs₁, ∃ errs',
        (Alibaba.deleteObjectsVia (noting (Alibaba.deleteVia service)) keys errs₁).run
          ((service.deleteObject key s).2,
            log ++ [(key, Alibaba.outcome (service.deleteObject key s).1)]) =
        (.returned errs', (service.afterAll (key :: keys) s,
          log ++ (service.replies (key :: keys) s).map attemptOf)) := by
      intro errs₁
      obtain ⟨errs', hrun⟩ := ih errs₁ (service.deleteObject key s).2
        (log ++ [(key, Alibaba.outcome (service.deleteObject key s).1)])
      refine ⟨errs', hrun.trans ?_⟩
      rw [List.append_assoc]
      rfl
    simp only [Alibaba.deleteObjectsVia]
    rw [run_bind_returned hnoted]
    generalize Alibaba.outcome (service.deleteObject key s).1 = r at hrest ⊢
    cases r with
    | ok u => exact hrest deletionErrs
    | error e => exact hrest (deletionErrs ++ [e])

theorem run_forPages_deleteObjectsVia (pages : List (List Bytes)) (deletionErrs : List GoError)
    (s : σ) (log : List (Bytes × Result Unit)) :
    ∃ deletionErrs', (forPages (fun objList _ =>
        Alibaba.deleteObjectsVia (noting (Alibaba.deleteVia service)) objList []) pages
        deletionErrs).run (s, log) =
      (.returned deletionErrs', (service.afterAll pages.flatten s,
        log ++ (service.replies pages.flatten s).map attemptOf)) := by
  induction pages generalizing deletionErrs s log with
  | nil => exact ⟨deletionErrs, by simp [forPages, ObjectService.replies, ObjectService.afterAll]⟩
  | cons page pages ih =>
    obtain ⟨errs₁, hpage⟩ := run_deleteObjectsVia service page [] s log
    obtain ⟨errs', hpages⟩ := ih errs₁ (service.afterAll page s)
      (log ++ (service.replies page s).map attemptOf)
    refine ⟨errs', (run_bind_returned hpage).trans (hpages.trans ?_)⟩
    rw [List.flatten_cons, ObjectService.replies_append, ObjectService.afterAll_append,
      List.map_append, List.append_assoc]

def DeleteReply.isFailure : DeleteReply → Bool
  | .failed _ _ => true
  | _ => false

theorem outcome_eq_ok (reply : DeleteReply) :
    Alibaba.outcome reply = .ok () ↔ reply.isFailure = false := by
  cases reply with
  | deleted => exact iff_of_true rfl rfl
  | missing => exact iff_of_true rfl rfl
  | failed e gone => exact iff_of_false (fun h => nomatch h) (fun h => nomatch h)

/-- `DeleteDir` comes to an end, and when it returns nil, every page was listed and every object
on it deleted. -/
def Alibaba.SwallowsNothing (listObjects : Bytes → Result ListObjectsResult) (pages : Pages)
    (pre : Bytes) (s : σ) : Prop :=
  ∀ fuel, pages.length ≤ fuel → ∃ r s' attempts,
    (Alibaba.deleteDirVia (noting (Alibaba.deleteVia service)) pre listObjects fuel).run (s, []) =
      (.returned (some r), (s', attempts)) ∧
    (r = .ok () → (∀ page ∈ pages, page.isOk = true) ∧
      attempts.map Prod.fst = (fetched pages).flatten ∧
      ∀ attempt ∈ attempts, attempt.2 = .ok ())

theorem run_alibaba_deleteDirVia {listObjects : Bytes → Result ListObjectsResult} {pages : Pages}
    (h : Serves (fun marker => (listObjects marker).map ListObjectsResult.page) [] pages)
    (pre : Bytes) (s : σ) {fuel : ℕ} (hfuel : pages.length ≤ fuel) :
    (Alibaba.deleteDirVia (noting (Alibaba.deleteVia service)) pre listObjects fuel).run (s, []) =
      (.returned (some (match listingFailure pages with
        | some e => .error (.wrapped (ascii "Prefix " ++ pre) e)
        | none => .ok ())),
        (service.afterAll (fetched pages).flatten s,
          (service.replies (fetched pages).flatten s).map attemptOf)) := by
  obtain ⟨errs, hpages⟩ := run_forPages_deleteObjectsVia service (fetched pages) [] s []
  unfold Alibaba.deleteDirVia
  rw [walk_eq h _ hfuel, visit_eq, Prog.bind_assoc, Prog.bind_assoc]
  refine (run_bind_returned hpages).trans ?_
  cases listingFailure pages with
  | some e => rfl
  | none => rfl

/-- **Alibaba swallows no failure exactly when** there is none among the answers to the deletions,
or a page cannot be listed. -/
theorem alibaba_swallowsNothing_iff {listObjects : Bytes → Result ListObjectsResult}
    {pages : Pages}
    (h : Serves (fun marker => (listObjects marker).map ListObjectsResult.page) [] pages)
    (pre : Bytes) (s : σ) :
    Alibaba.SwallowsNothing service listObjects pages pre s ↔
      (∃ page ∈ pages, page.isOk = false) ∨
        ∀ reply ∈ service.replies (fetched pages).flatten s, reply.2.isFailure = false := by
  have hrun := fun {fuel : ℕ} (hfuel : pages.length ≤ fuel) =>
    run_alibaba_deleteDirVia service h pre s hfuel
  constructor
  · intro hswallows
    obtain ⟨r, s', attempts, hreturned, hok⟩ := hswallows pages.length le_rfl
    rw [hrun le_rfl] at hreturned
    cases hreturned
    cases hfailure : listingFailure pages with
    | some e =>
      left
      by_contra hall
      push Not at hall
      have hnone : listingFailure pages = none := listingFailure_eq_none.mpr
        (fun page hpage => by simpa using hall page hpage)
      rw [hnone] at hfailure
      cases hfailure
    | none =>
      right
      intro reply hreply
      rw [hfailure] at hok
      have hattempt := (hok rfl).2.2 (attemptOf reply) (List.mem_map_of_mem hreply)
      exact (outcome_eq_ok reply.2).mp hattempt
  · intro hcondition fuel hfuel
    refine ⟨_, _, _, hrun hfuel, fun hok => ?_⟩
    have hnone : listingFailure pages = none := by
      cases hfailure : listingFailure pages with
      | none => rfl
      | some e =>
        rw [hfailure] at hok
        cases hok
    have hlisted := listingFailure_eq_none.mp hnone
    refine ⟨hlisted, ?_, fun attempt hattempt => ?_⟩
    · rw [List.map_map]
      exact service.replies_keys _ s
    · obtain ⟨reply, hreply, rfl⟩ := List.mem_map.mp hattempt
      rcases hcondition with ⟨page, hpage, hfailed⟩ | hall
      · rw [hlisted page hpage] at hfailed
        cases hfailed
      · exact (outcome_eq_ok reply.2).mpr (hall reply hreply)

end Attempts

def oneObjectPage (_ : Bytes) : Result ListObjectsResult := .ok ⟨[ascii "dir/a"], [], false⟩

theorem serves_oneObjectPage :
    Serves (fun marker => (oneObjectPage marker).map ListObjectsResult.page) []
      [.ok [ascii "dir/a"]] :=
  .last rfl

theorem alibaba_swallowsNothing_iff_accessDenied :
    Alibaba.SwallowsNothing scriptedService oneObjectPage [.ok [ascii "dir/a"]] (ascii "dir")
        [accessDenied] ↔
      (∃ page ∈ [(.ok [ascii "dir/a"] : Result (List Bytes))], page.isOk = false) ∨
        ∀ reply ∈ scriptedService.replies [ascii "dir/a"] [accessDenied],
          reply.2.isFailure = false :=
  alibaba_swallowsNothing_iff scriptedService serves_oneObjectPage (ascii "dir") [accessDenied]

/-- The only object of the only page is not deleted, and nil is returned. -/
theorem not_swallowsNothing_accessDenied :
    ¬ Alibaba.SwallowsNothing scriptedService oneObjectPage [.ok [ascii "dir/a"]] (ascii "dir")
      [accessDenied] := by
  intro hswallows
  obtain ⟨r, s', attempts, hrun, hok⟩ := hswallows 1 le_rfl
  have hnil := hrun.symm.trans (run_alibaba_deleteDirVia scriptedService serves_oneObjectPage
    (ascii "dir") [accessDenied] le_rfl)
  cases hnil
  have hattempt := (hok rfl).2.2 (attemptOf (ascii "dir/a", accessDenied))
    (List.mem_singleton.mpr rfl)
  cases hattempt

end BitsService
