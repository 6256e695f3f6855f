import BitsService.Stash.BundleExactness

/-! # The retries of a `Put` to the stash

The attempts for an uploaded entry meet a script: whether its temp file opens, and what `Put` says.
Each attempt takes the name of the file from the variable that it assigns the opened file to, so
that an attempt after one that could not open the file dereferences nil. -/
namespace BitsService
open GoLib.Effect GoLib.Retry
set_option autoImplicit false

/-! ## Scripts -/

/-- What an attempt meets: a temp file that does not open, or one that opens, and what `Put` says
if the size is in range. -/
inductive StashTry where
  | openFails (e : GoError)
  | opens (put : Result Unit)

namespace StashTry

def Opens : StashTry → Prop
  | openFails _ => False
  | opens _ => True

def opened (content : Bytes) : StashTry → Result Bytes
  | openFails e => .error e
  | opens _ => .ok content

def answer : StashTry → Option (Result Unit)
  | openFails _ => none
  | opens put => some put

/-- The captured `tempFile` after the attempt. -/
def tempFile (name : ℕ) : StashTry → Option ℕ
  | openFails _ => none
  | opens _ => some name

section Size
variable (digests : Digests) (minimumSize maximumSize : ℕ) (content : Bytes)

def Succeeds : StashTry → Prop
  | openFails _ => False
  | opens put => InRange minimumSize maximumSize content.length → put = .ok ()

/-- The failure that the attempt returns. -/
def failure : StashTry → Option (Failure GoError)
  | openFails e => some (.transient (e.wrap "Could not open temp file for reading"))
  | opens put =>
    if InRange minimumSize maximumSize content.length then stashPutFailure digests content put
    else none

theorem failure_eq_none_iff (a : StashTry) :
    a.failure digests minimumSize maximumSize content = none ↔
      a.Succeeds minimumSize maximumSize content := by
  cases a with
  | openFails e => simp [failure, Succeeds]
  | opens put =>
    by_cases hsize : InRange minimumSize maximumSize content.length
    · simp [failure, Succeeds, hsize, stashPutFailure_eq_none_iff]
    · simp [failure, Succeeds, hsize]

/-- An attempt that succeeds holds the file that it opened. -/
theorem tempFile_of_failure_eq_none {a : StashTry}
    (h : a.failure digests minimumSize maximumSize content = none) (name : ℕ) :
    a.tempFile name = some name := by
  cases a with
  | openFails e => simp [failure] at h
  | opens put => rfl

end Size
end StashTry

section Attempts
variable {σ : Type} (digests : Digests) (minimumSize maximumSize : ℕ)
  (blobstore : NoRedirectBlobstore σ) (content : Bytes) (name : ℕ)

/-- The attempts from here on meet the script, as far as they are made. -/
structure MeetsScript (script : List StashTry) (w : Env σ) : Prop where
  opens : Answers (openTemp name) (script.map (StashTry.opened content)) w.host
  puts : InRange minimumSize maximumSize content.length →
    Answers (blobstore.put (digests.key content) content) (script.filterMap StashTry.answer) w.ext

/-- The `RetryNotify` for an entry. -/
def stashRetries : Prog GoError (Env σ) (Option GoError × Option ℕ) := do
  let budget ← onHost takeBudget
  retryNotify (stashAttempt digests minimumSize maximumSize blobstore content) budget (some name)

variable {digests minimumSize maximumSize blobstore content name}

theorem MeetsScript.run_stashAttempt {a : StashTry} {script : List StashTry} {w : Env σ}
    (h : MeetsScript digests minimumSize maximumSize blobstore content name (a :: script) w) :
    ∃ w', (stashAttempt digests minimumSize maximumSize blobstore content (some name)).run w =
        (.returned (a.failure digests minimumSize maximumSize content, a.tempFile name), w') ∧
      MeetsScript digests minimumSize maximumSize blobstore content name script w' := by
  obtain ⟨⟨host, hopen, hopens⟩, hputs⟩ := h
  have hopen : (onHost (openTemp name)).run w =
      (.returned (a.opened content), { w with host := host }) := by
    rw [run_onHost, hopen]
  rw [stashAttempt_some, run_bind_returned hopen]
  cases a with
  | openFails e => exact ⟨{ w with host := host }, rfl, hopens, hputs⟩
  | opens put =>
    by_cases hsize : minimumSize ≤ content.length ∧ content.length ≤ maximumSize
    · obtain ⟨s, hput, hputs⟩ := hputs hsize
      have hput : (onExt (blobstore.put (digests.key content) content)).run
          { w with host := host } = (.returned put, { w with host := host, ext := s }) := by
        rw [run_onExt, hput]
      refine ⟨{ w with host := host, ext := s }, ?_, hopens, fun _ => hputs⟩
      simp only [StashTry.opened, StashTry.failure, StashTry.tempFile, if_pos hsize,
        if_pos (show InRange minimumSize maximumSize content.length from hsize)]
      rw [run_bind_returned hput]
      rfl
    · refine ⟨{ w with host := host }, ?_, hopens, fun hc => absurd hc hsize⟩
      simp only [StashTry.opened, StashTry.failure, StashTry.tempFile, if_neg hsize,
        if_neg (show ¬ InRange minimumSize maximumSize content.length from hsize)]
      rfl

/-! ## The loop -/

theorem run_openTemp_withBudgets (name : ℕ) (h : Host) (budgets : List ℕ) :
    (openTemp name).run { h with budgets := budgets } =
      (((openTemp name).run h).1, { ((openTemp name).run h).2 with budgets := budgets }) := by
  unfold openTemp orReturn
  rw [run_bind, run_bind, run_osCall, run_osCall]
  cases (h.faults .openTemp).headD (.ok ()) with
  | error e => rfl
  | ok u =>
    simp only
    rw [run_bind_returned (run_getState _), run_bind_returned (run_getState _)]
    cases h.temps name with
    | none => rfl
    | some content => rfl

theorem answers_openTemp_withBudgets {answers : List (Result Bytes)} {h : Host}
    (hanswers : Answers (openTemp name) answers h) (budgets : List ℕ) :
    Answers (openTemp name) answers { h with budgets := budgets } := by
  induction answers generalizing h with
  | nil => exact trivial
  | cons r answers ih =>
    obtain ⟨h', hrun, hrest⟩ := hanswers
    refine ⟨{ h' with budgets := budgets }, ?_, ih hrest⟩
    rw [run_openTemp_withBudgets, hrun]

theorem MeetsScript.run_takeBudget {script : List StashTry} {w : Env σ}
    (h : MeetsScript digests minimumSize maximumSize blobstore content name script w) :
    ∃ w', (onHost takeBudget).run w = (.returned (w.host.budgets.headD 0), w') ∧
      MeetsScript digests minimumSize maximumSize blobstore content name script w' :=
  ⟨_, rfl, answers_openTemp_withBudgets h.opens _, h.puts⟩

variable (digests minimumSize maximumSize content) in
/-- Every attempt that another one follows could open the file. -/
def OpensBeforeLast : StashTry → List StashTry → Prop
  | _, [] => True
  | a, b :: retries =>
    ∀ e, a.failure digests minimumSize maximumSize content = some (.transient e) →
      a.Opens ∧ OpensBeforeLast b retries

/-- While the file opens, the loop ends as its last attempt does. -/
theorem run_stashRetries_of_opens {first : StashTry} {retries : List StashTry} {w : Env σ}
    (hmeets : MeetsScript digests minimumSize maximumSize blobstore content name
      (first :: retries) w)
    (hbudget : w.host.budgets.headD 0 = retries.length)
    (hopens : OpensBeforeLast digests minimumSize maximumSize content first retries) :
    let last := lastAttempt (StashTry.failure digests minimumSize maximumSize content) first retries
    ∃ w', (stashRetries digests minimumSize maximumSize blobstore content name).run w =
      (.returned ((last.failure digests minimumSize maximumSize content).map Failure.error,
        last.tempFile name), w') := by
  let Meets : StashTry → List StashTry → Option ℕ → Env σ → Prop := fun a retries t w =>
    t = some name ∧
      MeetsScript digests minimumSize maximumSize blobstore content name (a :: retries) w ∧
      OpensBeforeLast digests minimumSize maximumSize content a retries
  have hstep : ∀ a retries t w, Meets a retries t w → ∃ t' w',
      (stashAttempt digests minimumSize maximumSize blobstore content t).run w =
        (.returned (a.failure digests minimumSize maximumSize content, t'), w') ∧
      t' = a.tempFile name ∧ ∀ e b rest,
        a.failure digests minimumSize maximumSize content = some (.transient e) →
          retries = b :: rest → Meets b rest t' w' := by
    rintro a retries t w ⟨rfl, hmeets, hopens⟩
    obtain ⟨w', hrun, hmeets'⟩ := hmeets.run_stashAttempt
    refine ⟨a.tempFile name, w', hrun, rfl, ?_⟩
    rintro e b rest hfails rfl
    obtain ⟨hopen, hopens'⟩ := hopens e hfails
    refine ⟨?_, hmeets', hopens'⟩
    -- the file is open again, so that its name is still there
    cases a with
    | openFails e => exact hopen.elim
    | opens put => rfl
  obtain ⟨w₁, htake, hmeets₁⟩ := hmeets.run_takeBudget
  obtain ⟨t, w', hrun, rfl⟩ := run_retryNotify_script hstep ⟨rfl, hmeets₁, hopens⟩
  refine ⟨w', ?_⟩
  rw [stashRetries, run_bind_returned htake, hbudget]
  exact hrun

theorem run_retryNotify_stash_of_not_opens {a : StashTry} {retries : List StashTry} {w : Env σ}
    (hmeets : MeetsScript digests minimumSize maximumSize blobstore content name (a :: retries) w)
    (hnot : ¬ OpensBeforeLast digests minimumSize maximumSize content a retries) :
    ∃ w', (retryNotify (stashAttempt digests minimumSize maximumSize blobstore content)
      retries.length (some name)).run w = (.panicked .nilDereference, w') := by
  induction retries generalizing a w with
  | nil => exact absurd trivial hnot
  | cons b retries ih =>
    obtain ⟨w₁, hrun, hmeets₁⟩ := hmeets.run_stashAttempt
    simp only [OpensBeforeLast, not_forall] at hnot
    obtain ⟨e, hfails, hnot⟩ := hnot
    rw [hfails] at hrun
    rw [List.length_cons, run_retryNotify_again hrun]
    cases a with
    | openFails e => exact ⟨w₁, run_retryNotify_panicked rfl⟩
    | opens put => exact ih hmeets₁ fun h => hnot ⟨trivial, h⟩

/-- An attempt after one that could not open the file dereferences nil. -/
theorem run_stashRetries_of_not_opens {first : StashTry} {retries : List StashTry} {w : Env σ}
    (hmeets : MeetsScript digests minimumSize maximumSize blobstore content name
      (first :: retries) w)
    (hbudget : w.host.budgets.headD 0 = retries.length)
    (hnot : ¬ OpensBeforeLast digests minimumSize maximumSize content first retries) :
    ∃ w', (stashRetries digests minimumSize maximumSize blobstore content name).run w =
      (.panicked .nilDereference, w') := by
  obtain ⟨w₁, htake, hmeets₁⟩ := hmeets.run_takeBudget
  obtain ⟨w', hrun⟩ := run_retryNotify_stash_of_not_opens hmeets₁ hnot
  refine ⟨w', ?_⟩
  rw [stashRetries, run_bind_returned htake, hbudget]
  exact hrun

/-! ## What follows the loop -/

theorem stashEntry_eq_bind (z : ZipWriter) :
    stashEntry digests minimumSize maximumSize blobstore content name z =
      stashRetries digests minimumSize maximumSize blobstore content name >>= fun r =>
        match r.1, r.2 with
        | some e, _ => pure (.error e)
        | none, none => raise .nilDereference
        | none, some name =>
          onHost (modifyState (Host.removeTemp name)) >>= fun _ => pure (.ok z) :=
  (Prog.bind_assoc _ _ _).symm

theorem stashEntry_of_done {z : ZipWriter} {tempFile : ℕ} {w w' : Env σ}
    (h : (stashRetries digests minimumSize maximumSize blobstore content name).run w =
      (.returned (none, some tempFile), w')) :
    ((stashEntry digests minimumSize maximumSize blobstore content name z).run w).1 =
      .returned (.ok z) := by
  rw [stashEntry_eq_bind, run_bind_returned h]
  rfl

theorem stashEntry_of_failed {z : ZipWriter} {tempFile : Option ℕ} {e : GoError} {w w' : Env σ}
    (h : (stashRetries digests minimumSize maximumSize blobstore content name).run w =
      (.returned (some e, tempFile), w')) :
    ((stashEntry digests minimumSize maximumSize blobstore content name z).run w).1 =
      .returned (.error e) := by
  rw [stashEntry_eq_bind, run_bind_returned h]
  rfl

variable (minimumSize maximumSize) in
/-- Where `Put` returns, the attempts of every number of retries meet a script. -/
theorem exists_meetsScript (hput : Total (blobstore.put (digests.key content) content)) (n : ℕ)
    {w : Env σ} (htemp : w.host.temps name = some content) :
    ∃ script, script.length = n ∧
      MeetsScript digests minimumSize maximumSize blobstore content name script w := by
  induction n generalizing w with
  | zero => exact ⟨[], rfl, trivial, fun _ => trivial⟩
  | succ n ih =>
    obtain ⟨r, host, hopen, htemps, hsrc⟩ := run_openTemp name w.host
    have htemp' : host.temps name = some content := by rw [htemps, htemp]
    cases r with
    | error e =>
      obtain ⟨script, hlength, hmeets⟩ := ih (w := { w with host := host }) htemp'
      exact ⟨.openFails e :: script, congrArg (· + 1) hlength, ⟨host, hopen, hmeets.opens⟩,
        hmeets.puts⟩
    | ok src =>
      obtain rfl : src = content := Option.some.inj ((hsrc src rfl).symm.trans htemp)
      obtain ⟨put, s, hrun⟩ := hput w.ext
      obtain ⟨script, hlength, hmeets⟩ := ih (w := { w with host := host, ext := s }) htemp'
      exact ⟨.opens put :: script, congrArg (· + 1) hlength, ⟨host, hopen, hmeets.opens⟩,
        fun hsize => ⟨s, hrun, hmeets.puts hsize⟩⟩

end Attempts

section Bundle
variable {σ : Type} (digests : Digests) (format : ZipFormat) (minimumSize maximumSize : ℕ)
  (blobstore : NoRedirectBlobstore σ)

/-- What comes before the retries in `bundleUploadedEntry`. -/
def stageEntry (entry : ZipEntry) (z : ZipWriter) :
    Prog GoError (Env σ) (Result (ℕ × ZipWriter)) :=
  orReturn (onHost (z.createHeader (zipEntryHeader entry.header.name entry.header.mode)))
    (.wrap "Could not create header in zip file") fun z =>
  orReturn (onHost (osCall .openEntry)) (.wrap "Could not open zip file entry") fun _ =>
  orReturn (onHost (createTemp (ascii "app-stash"))) (.wrap "Could not create tempfile")
    fun tempFile =>
  orReturn (onHost (copyEntry entry.content tempFile z))
    (.wrap "Could not copy content from zip entry") fun z =>
  orReturn (onHost (osCall .closeTemp)) (.wrap "Could not close temp file") fun _ =>
  orReturn (onHost (osCall .closeEntry)) (.wrap "Could not close zip entry reader") fun _ =>
  pure (.ok (tempFile, z))

/-- Bundling, with these entries before a regular one, comes to the retries of that one. -/
structure ReachesRetries (before : List ZipEntry) (entry : ZipEntry) (w : Env σ) (name : ℕ)
    (z : ZipWriter) (w' : Env σ) : Prop where
  regular : isRegular entry.header.mode = true
  reached : ∃ tempZipFile w₁ z₂ w₂,
    (onHost (createTemp (ascii "bundles"))).run w = (.returned (.ok tempZipFile), w₁) ∧
    (bundleUploaded digests minimumSize maximumSize blobstore before .new).run w₁ =
      (.returned (.ok z₂), w₂) ∧
    (stageEntry entry z₂).run w₂ = (.returned (.ok (name, z)), w')

variable {digests minimumSize maximumSize blobstore} {before : List ZipEntry} {entry : ZipEntry}
  {name : ℕ} {z z' : ZipWriter} {w w' : Env σ}

variable (digests minimumSize maximumSize blobstore) in
/-- When the retries begin, the temp file holds the entry, and they decide how the entry ends. -/
theorem stageEntry_eq_ok (h : (stageEntry entry z).run w = (.returned (.ok (name, z')), w')) :
    w'.host.temps name = some entry.content ∧
      ((bundleUploadedEntry digests minimumSize maximumSize blobstore entry z).run w).1 =
        ((stashEntry digests minimumSize maximumSize blobstore entry.content name z').run
          w').1 := by
  obtain ⟨z₁, w₁, hheader, h⟩ := run_orReturn_eq_ok h
  obtain ⟨u, w₂, hopen, h⟩ := run_orReturn_eq_ok h
  obtain ⟨tempFile, w₃, htemp, h⟩ := run_orReturn_eq_ok h
  obtain ⟨z₄, w₄, hcopy, h⟩ := run_orReturn_eq_ok h
  obtain ⟨u, w₅, hcloseTemp, h⟩ := run_orReturn_eq_ok h
  obtain ⟨u, w₆, hcloseEntry, h⟩ := run_orReturn_eq_ok h
  cases h
  constructor
  · rw [osCall_temps (run_onHost_eq_returned hcloseEntry).1,
      osCall_temps (run_onHost_eq_returned hcloseTemp).1]
    exact copyEntry_eq_ok (run_onHost_eq_returned hcopy).1
  · unfold bundleUploadedEntry
    rw [run_orReturn_ok hheader, run_orReturn_ok hopen, run_orReturn_ok htemp, removingTemp,
      run_ensuring, run_orReturn_ok hcopy, run_orReturn_ok hcloseTemp, run_orReturn_ok hcloseEntry]

/-- Whenever bundling comes to the retries of an entry, they meet a script. -/
theorem ReachesRetries.exists_script
    (h : ReachesRetries digests minimumSize maximumSize blobstore before entry w name z w')
    (hput : Total (blobstore.put (digests.key entry.content) entry.content)) :
    ∃ first retries, w'.host.budgets.headD 0 = retries.length ∧
      MeetsScript digests minimumSize maximumSize blobstore entry.content name (first :: retries)
        w' := by
  obtain ⟨-, tempZipFile, w₁, z₂, w₂, -, -, hstage⟩ := h
  obtain ⟨htemp, -⟩ := stageEntry_eq_ok digests minimumSize maximumSize blobstore hstage
  obtain ⟨script, hlength, hmeets⟩ := exists_meetsScript minimumSize maximumSize hput
    (w'.host.budgets.headD 0 + 1) htemp
  cases script with
  | nil => cases hlength
  | cons first retries => exact ⟨first, retries, (Nat.succ.inj hlength).symm, hmeets⟩

theorem run_bundleUploaded_append {after : List ZipEntry}
    (h : (bundleUploaded digests minimumSize maximumSize blobstore before z).run w =
      (.returned (.ok z'), w')) :
    (bundleUploaded digests minimumSize maximumSize blobstore (before ++ after) z).run w =
      (bundleUploaded digests minimumSize maximumSize blobstore after z').run w' := by
  induction before generalizing z w with
  | nil =>
    cases h
    rfl
  | cons entry before ih =>
    unfold bundleUploaded at h
    rw [List.cons_append, bundleUploaded]
    by_cases hr : isRegular entry.header.mode = true
    · rw [if_pos hr] at h ⊢
      obtain ⟨z₁, w₁, hentry, hrest⟩ := run_orReturn_eq_ok h
      rw [run_orReturn_ok hentry]
      exact ih hrest
    · rw [if_neg hr] at h ⊢
      exact ih h

/-- The error of an entry is returned as it is. -/
theorem ReachesRetries.bundle_error {e : GoError}
    (h : ReachesRetries digests minimumSize maximumSize blobstore before entry w name z w')
    (hstash : ((stashEntry digests minimumSize maximumSize blobstore entry.content name z).run
      w').1 = .returned (.error e)) (after : List ZipEntry) (payload : List Fingerprint) :
    ((createTempZipFileFrom digests format minimumSize maximumSize blobstore payload
      (some (before ++ entry :: after))).run w).1 = .returned (.error e) := by
  obtain ⟨hregular, tempZipFile, w₁, z₂, w₂, htemp, hbefore, hstage⟩ := h
  obtain ⟨-, houtcome⟩ := stageEntry_eq_ok digests minimumSize maximumSize blobstore hstage
  obtain ⟨w₃, hentry⟩ : ∃ w₃, (bundleUploadedEntry digests minimumSize maximumSize blobstore entry
      z₂).run w₂ = (.returned (.error e), w₃) :=
    ⟨_, Prod.ext (houtcome.trans hstash) rfl⟩
  have huploaded : (bundleUploaded digests minimumSize maximumSize blobstore
      (before ++ entry :: after) .new).run w₁ = (.returned (.error e), w₃) := by
    rw [run_bundleUploaded_append hbefore, bundleUploaded, if_pos hregular]
    exact run_orReturn_error hentry
  have hwrite : (writeBundle digests format minimumSize maximumSize blobstore payload
      (some (before ++ entry :: after)) tempZipFile).run w₁ = (.returned (.error e), w₃) :=
    run_orReturn_error huploaded
  unfold createTempZipFileFrom
  rw [run_orReturn_ok htemp, run_bind_returned hwrite]
  rfl

/-! ## Every failure pattern -/

variable (digests minimumSize maximumSize) in
/-- The retries of an entry, what follows them and the whole function end as the last attempt
does: without a nil dereference, with nil if it opened the file and its `Put`, if there is one,
succeeded, and otherwise with its failure, which the caller gets. -/
structure SurvivesFailures (content : Bytes) (last : StashTry)
    (retries : Outcome GoError (Option GoError × Option ℕ))
    (stash : Outcome GoError (Result ZipWriter)) (bundle : Outcome GoError (Result ℕ)) : Prop where
  no_nil : retries ≠ .panicked .nilDereference ∧ stash ≠ .panicked .nilDereference
  ends_nil : (∃ tempFile, retries = .returned (none, tempFile)) ↔
    last.Succeeds minimumSize maximumSize content
  returns_failure : ∀ failure,
    last.failure digests minimumSize maximumSize content = some failure →
      (∃ tempFile, retries = .returned (some failure.error, tempFile)) ∧
        bundle = .returned (.error failure.error)

theorem survivesFailures_of_done {last : StashTry} {bundle : Outcome GoError (Result ℕ)}
    {w₁ : Env σ}
    (hlast : last.failure digests minimumSize maximumSize entry.content = none)
    (hrun : (stashRetries digests minimumSize maximumSize blobstore entry.content name).run w' =
      (.returned (none, some name), w₁)) :
    SurvivesFailures digests minimumSize maximumSize entry.content last
      ((stashRetries digests minimumSize maximumSize blobstore entry.content name).run w').1
      ((stashEntry digests minimumSize maximumSize blobstore entry.content name z).run w').1
      bundle := by
  have hsucceeds := (last.failure_eq_none_iff digests minimumSize maximumSize _).mp hlast
  refine ⟨⟨?_, ?_⟩, ⟨fun _ => hsucceeds, fun _ => ⟨some name, ?_⟩⟩, fun failure hfailure => ?_⟩
  · rw [hrun]
    simp
  · rw [stashEntry_of_done hrun]
    simp
  · rw [hrun]
  · rw [hlast] at hfailure
    cases hfailure

theorem survivesFailures_of_failed {last : StashTry} {failure : Failure GoError}
    {tempFile : Option ℕ} {bundle : Outcome GoError (Result ℕ)} {w₁ : Env σ}
    (hlast : last.failure digests minimumSize maximumSize entry.content = some failure)
    (hrun : (stashRetries digests minimumSize maximumSize blobstore entry.content name).run w' =
      (.returned (some failure.error, tempFile), w₁))
    (hbundle : bundle = .returned (.error failure.error)) :
    SurvivesFailures digests minimumSize maximumSize entry.content last
      ((stashRetries digests minimumSize maximumSize blobstore entry.content name).run w').1
      ((stashEntry digests minimumSize maximumSize blobstore entry.content name z).run w').1
      bundle := by
  refine ⟨⟨?_, ?_⟩, iff_of_false ?_ fun hsucceeds => ?_, fun failure' hfailure => ?_⟩
  · rw [hrun]
    simp
  · rw [stashEntry_of_failed hrun]
    simp
  · rintro ⟨tempFile', hnil⟩
    rw [hrun] at hnil
    cases hnil
  · rw [(last.failure_eq_none_iff digests minimumSize maximumSize _).mpr hsucceeds] at hlast
    cases hlast
  · obtain rfl : failure = failure' := Option.some.inj (hlast.symm.trans hfailure)
    exact ⟨⟨tempFile, congrArg Prod.fst hrun⟩, hbundle⟩

/-- While the file opens, the retries survive. -/
theorem survivesFailures_of_opens (after : List ZipEntry) (payload : List Fingerprint)
    {first : StashTry} {retries : List StashTry}
    (hreach : ReachesRetries digests minimumSize maximumSize blobstore before entry w name z w')
    (hbudget : w'.host.budgets.headD 0 = retries.length)
    (hmeets : MeetsScript digests minimumSize maximumSize blobstore entry.content name
      (first :: retries) w')
    (hopens : OpensBeforeLast digests minimumSize maximumSize entry.content first retries) :
    SurvivesFailures digests minimumSize maximumSize entry.content
      (lastAttempt (StashTry.failure digests minimumSize maximumSize entry.content) first retries)
      ((stashRetries digests minimumSize maximumSize blobstore entry.content name).run w').1
      ((stashEntry digests minimumSize maximumSize blobstore entry.content name z).run w').1
      ((createTempZipFileFrom digests format minimumSize maximumSize blobstore payload
        (some (before ++ entry :: after))).run w).1 := by
  obtain ⟨w₁, hrun⟩ := run_stashRetries_of_opens hmeets hbudget hopens
  generalize lastAttempt (StashTry.failure digests minimumSize maximumSize entry.content) first
    retries = last at hrun ⊢
  cases hlast : last.failure digests minimumSize maximumSize entry.content with
  | none =>
    rw [hlast, last.tempFile_of_failure_eq_none digests minimumSize maximumSize _ hlast] at hrun
    exact survivesFailures_of_done hlast hrun
  | some failure =>
    rw [hlast] at hrun
    exact survivesFailures_of_failed hlast hrun
      (hreach.bundle_error format (stashEntry_of_failed hrun) after payload)

/-- **Every failure pattern**: the retries of an entry survive a script of failures if and only if
every attempt that another one follows could open the file. -/
theorem survivesFailures_iff (after : List ZipEntry) (payload : List Fingerprint)
    (first : StashTry) (retries : List StashTry)
    (hreach : ReachesRetries digests minimumSize maximumSize blobstore before entry w name z w')
    (hbudget : w'.host.budgets.headD 0 = retries.length)
    (hmeets : MeetsScript digests minimumSize maximumSize blobstore entry.content name
      (first :: retries) w') :
    SurvivesFailures digests minimumSize maximumSize entry.content
        (lastAttempt (StashTry.failure digests minimumSize maximumSize entry.content) first retries)
        ((stashRetries digests minimumSize maximumSize blobstore entry.content name).run w').1
        ((stashEntry digests minimumSize maximumSize blobstore entry.content name z).run w').1
        ((createTempZipFileFrom digests format minimumSize maximumSize blobstore payload
          (some (before ++ entry :: after))).run w).1 ↔
      OpensBeforeLast digests minimumSize maximumSize entry.content first retries := by
  refine ⟨fun h => ?_, survivesFailures_of_opens format after payload hreach hbudget hmeets⟩
  by_contra hnot
  obtain ⟨w₁, hrun⟩ := run_stashRetries_of_not_opens hmeets hbudget hnot
  exact h.no_nil.1 (congrArg Prod.fst hrun)

end Bundle

def greetingEntry : ZipEntry := ⟨zipEntryHeader (ascii "greeting.txt") 0o644, ascii "hello"⟩

/-- A process with time for one retry, in which these calls fail. -/
def retryingOnce (opens puts : List (Result Unit)) : Env MapStore where
  host := ⟨fun c => if c = .openTemp then opens else [], fun _ => none, 0, [1]⟩
  ext := ⟨fun _ => none, [], puts⟩
  response := .empty

def brokenPipe : GoError := .sys (ascii "broken pipe")

def tooManyOpenFiles : GoError := .sys (ascii "open /tmp/app-stash1: too many open files")

/-- The file cannot be opened at the last attempt. -/
theorem survivesFailures_iff_lastOpen :
    ∃ z w',
      ReachesRetries helloDigests 0 100 mapBlobstore [] greetingEntry
        (retryingOnce [.ok (), .error tooManyOpenFiles] [.error brokenPipe]) 1 z w' ∧
      MeetsScript helloDigests 0 100 mapBlobstore greetingEntry.content 1
        [.opens (.error brokenPipe), .openFails tooManyOpenFiles] w' ∧
      (SurvivesFailures helloDigests 0 100 greetingEntry.content
          (lastAttempt (StashTry.failure helloDigests 0 100 greetingEntry.content)
            (.opens (.error brokenPipe)) [.openFails tooManyOpenFiles])
          ((stashRetries helloDigests 0 100 mapBlobstore greetingEntry.content 1).run w').1
          ((stashEntry helloDigests 0 100 mapBlobstore greetingEntry.content 1 z).run w').1
          ((createTempZipFileFrom helloDigests plainFormat 0 100 mapBlobstore []
            (some [greetingEntry])).run
            (retryingOnce [.ok (), .error tooManyOpenFiles] [.error brokenPipe])).1 ↔
        OpensBeforeLast helloDigests 0 100 greetingEntry.content (.opens (.error brokenPipe))
          [.openFails tooManyOpenFiles]) := by
  have hreach : ReachesRetries helloDigests 0 100 mapBlobstore [] greetingEntry
      (retryingOnce [.ok (), .error tooManyOpenFiles] [.error brokenPipe]) 1 _ _ :=
    ⟨by decide, _, _, _, _, rfl, rfl, rfl⟩
  have hiff := fun hmeets => survivesFailures_iff plainFormat [] [] (.opens (.error brokenPipe))
    [.openFails tooManyOpenFiles] hreach rfl hmeets
  refine ⟨_, _, hreach, ?hmeets, hiff ?hmeets⟩
  exact ⟨⟨_, rfl, _, rfl, trivial⟩, fun _ => ⟨_, rfl, trivial⟩⟩

/-- The file cannot be opened at the first attempt, and would open at the second one. -/
theorem not_survivesFailures_reopen :
    ∃ z w',
      ReachesRetries helloDigests 0 100 mapBlobstore [] greetingEntry
        (retryingOnce [.error tooManyOpenFiles] []) 1 z w' ∧
      MeetsScript helloDigests 0 100 mapBlobstore greetingEntry.content 1
        [.openFails tooManyOpenFiles, .opens (.ok ())] w' ∧
      ((createTempZipFileFrom helloDigests plainFormat 0 100 mapBlobstore []
        (some [greetingEntry])).run (retryingOnce [.error tooManyOpenFiles] [])).1 =
        .panicked .nilDereference ∧
      ¬ SurvivesFailures helloDigests 0 100 greetingEntry.content
        (lastAttempt (StashTry.failure helloDigests 0 100 greetingEntry.content)
          (.openFails tooManyOpenFiles) [.opens (.ok ())])
        ((stashRetries helloDigests 0 100 mapBlobstore greetingEntry.content 1).run w').1
        ((stashEntry helloDigests 0 100 mapBlobstore greetingEntry.content 1 z).run w').1
        ((createTempZipFileFrom helloDigests plainFormat 0 100 mapBlobstore []
          (some [greetingEntry])).run (retryingOnce [.error tooManyOpenFiles] [])).1 := by
  have hreach : ReachesRetries helloDigests 0 100 mapBlobstore [] greetingEntry
      (retryingOnce [.error tooManyOpenFiles] []) 1 _ _ :=
    ⟨by decide, _, _, _, _, rfl, rfl, rfl⟩
  refine ⟨_, _, hreach, ?_, rfl, fun h => h.no_nil.1 rfl⟩
  exact ⟨⟨_, rfl, _, rfl, trivial⟩, fun _ => ⟨_, rfl, trivial⟩⟩

end BitsService
