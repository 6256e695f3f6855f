import BitsService.Stash.BundleInvariant

/-! # The temp files of a bundle

Which of the temp files that were made since some moment are left. Each entry that is stashed has
one, which is removed on every way out; the temp zip file is left when it is returned, and when
bundling panics. -/
namespace BitsService
open GoLib.Effect GoLib.Retry
set_option autoImplicit false

/-- Of the temp files made since the next one was `start`, those of `names` are left. -/
structure Left (start : ℕ) (names : Set ℕ) (h : Host) : Prop where
  started : start ≤ h.next
  made : ∀ n ∈ names, start ≤ n ∧ n < h.next
  left : ∀ n, start ≤ n → n < h.next → (h.temps n ≠ none ↔ n ∈ names)

section Host
variable {start name : ℕ} {names : Set ℕ} {h : Host}

theorem left_empty (h : Host) : Left h.next ∅ h :=
  ⟨le_refl _, fun _ hn => absurd hn (Set.notMem_empty _), fun n h1 h2 => absurd h1 (by omega)⟩

theorem Left.removeTemp (hh : Left start (insert name names) h) (hname : name ∉ names) :
    Left start names (h.removeTemp name) := by
  refine ⟨hh.started, fun n hn => hh.made n (Set.mem_insert_of_mem _ hn), fun n h1 h2 => ?_⟩
  by_cases hn : n = name
  · subst hn
    simp [Host.removeTemp, hname]
  · have hleft := hh.left n h1 h2
    simp only [Set.mem_insert_iff, hn, false_or] at hleft
    simpa [Host.removeTemp, hn] using hleft

theorem Left.removeTemp_again (hh : Left start names h) (hname : name ∉ names) :
    Left start names (h.removeTemp name) := by
  refine ⟨hh.started, hh.made, fun n h1 h2 => ?_⟩
  by_cases hn : n = name
  · subst hn
    simp [Host.removeTemp, hname]
  · simpa [Host.removeTemp, hn] using hh.left n h1 h2

theorem Left.setTemp (hh : Left start names h) (hname : name ∈ names) (content : Bytes) :
    Left start names { h with temps := Function.update h.temps name (some content) } := by
  refine ⟨hh.started, hh.made, fun n h1 h2 => ?_⟩
  by_cases hn : n = name
  · subst hn
    simp [hname]
  · simpa [hn] using hh.left n h1 h2

theorem keeps_left_osCall (c : OsCall) : Keeps (Left start names) (osCall c) :=
  fun _ h => ⟨h.started, h.made, h.left⟩

theorem keptByCalls_left : KeptByCalls (Left start names) := fun c _ => keeps_left_osCall c

theorem keeps_left_takeBudget : Keeps (Left start names) takeBudget :=
  fun _ h => ⟨h.started, h.made, h.left⟩

theorem keeps_left_writeTemp (hname : name ∈ names) (content : Bytes) :
    Keeps (Left start names) (writeTemp name content) :=
  keeps_orReturn (keeps_left_osCall _) fun _ =>
    Keeps.bind (Keeps.modifyState fun _ h => h.setTemp hname content) fun _ => Keeps.pure _ _

theorem wp_createTemp (pre : Bytes) (hh : Left start names h) :
    wp (createTemp pre) (fun r h' => match r with
      | .error _ => Left start names h'
      | .ok name => name ∉ names ∧ Left start (insert name names) h') (fun _ => False) h := by
  by_cases hpre : NamesTemp pre
  swap
  · obtain ⟨e, he⟩ := createTemp_of_not_names hpre
    rw [he]
    exact hh
  rw [createTemp_of_names hpre]
  refine wp_orReturn.mpr (wp_of_returned (run_osCall .tempFile h) ?_)
  have hcall : Left start names ((osCall .tempFile).run h).2 := keeps_left_osCall _ h hh
  cases (h.faults .tempFile).headD (.ok ()) with
  | error e => exact hcall
  | ok u =>
    have hnew : h.next ∉ names := fun hmem => absurd (hh.made _ hmem).2 (lt_irrefl _)
    refine ⟨hnew, Nat.le_succ_of_le hh.started, fun n hn => ?_, fun n h1 h2 => ?_⟩
    · rcases hn with rfl | hn
      · exact ⟨hh.started, Nat.lt_succ_self _⟩
      · exact ⟨(hh.made n hn).1, Nat.lt_succ_of_lt (hh.made n hn).2⟩
    · by_cases hn : n = h.next
      · subst hn
        simp
      · have hlt : n < h.next := by
          have : n < h.next + 1 := h2
          omega
        simpa [hn] using hh.left n h1 hlt

end Host

theorem keeps_left_close {start : ℕ} {names : Set ℕ} (format : ZipFormat) (z : ZipWriter) :
    Keeps (Left start names) (z.close format) := by
  unfold ZipWriter.close
  cases z.broken with
  | some e => exact Keeps.pure _ _
  | none =>
    refine Keeps.bind (keeps_left_osCall _) fun r => ?_
    cases r with
    | error e => exact Keeps.pure _ _
    | ok u => exact Keeps.pure _ _

/-! ## Bundling -/

section Bundle
variable {σ : Type} {digests : Digests} {blobstore : NoRedirectBlobstore σ}
  {minimumSize maximumSize start name : ℕ} {names : Set ℕ} {w : Env σ}

def Leaves (start : ℕ) (names : Set ℕ) : Env σ → Prop := OfHost (Left start names)

theorem keeps_leaves_onHost {α : Type} {m : Prog GoError Host α} (h : Keeps (Left start names) m) :
    Keeps (Leaves start names) (onHost m : Prog GoError (Env σ) α) := keeps_onHost_ofHost h

theorem keeps_leaves_onExt {α : Type} (m : Prog GoError σ α) :
    Keeps (Leaves start names) (onExt m) := keeps_onExt_ofHost _ m

/-- Besides `names`, the temp file `name` is left, or it is not. -/
def LeavesOr (start name : ℕ) (names : Set ℕ) (w : Env σ) : Prop :=
  Leaves start (insert name names) w ∨ Leaves start names w

theorem LeavesOr.removeTemp (hname : name ∉ names) (h : LeavesOr start name names w) :
    Leaves start names { w with host := w.host.removeTemp name } := by
  rcases h with h | h
  · exact Left.removeTemp h hname
  · exact Left.removeTemp_again h hname

theorem leads_leavesOr_stashEntry (hname : name ∉ names) (content : Bytes) (z : ZipWriter) :
    Leads (Leaves start (insert name names)) (LeavesOr start name names)
      (stashEntry digests minimumSize maximumSize blobstore content name z) := by
  refine Leads.bind (keeps_leaves_onHost keeps_left_takeBudget) (fun _ h => .inl h) fun budget => ?_
  have hloop : Keeps (Leaves start (insert name names))
      (retryNotify (stashAttempt digests minimumSize maximumSize blobstore content) budget
        (some name)) := keptByCalls_left.retryStash content budget _
  have hret : Returns (fun r => r.2 = none ∨ r.2 = some name)
      (retryNotify (stashAttempt digests minimumSize maximumSize blobstore content) budget
        (some name)) := by
    refine returns_retryNotify (T := fun t => t = none ∨ t = some name) (fun t ht => ?_) budget
      (.inr rfl)
    rcases ht with rfl | rfl
    · exact Returns.raise _
    · exact returns_stashAttempt minimumSize maximumSize content name
  intro w hw
  refine bind_leaves (fun e w' h => .inl (hloop.of_run h hw)) (fun r w' h => ?_)
  have hw' := hloop.of_run h hw
  have hr := hret w r w' h
  obtain ⟨e, tempFile⟩ := r
  cases e with
  | some e => exact .inl hw'
  | none =>
    rcases hr with rfl | rfl
    · exact .inl hw'
    · exact .inr (Left.removeTemp hw' hname)

theorem keeps_left_copyEntry (hname : name ∈ names) (content : Bytes) (z : ZipWriter) :
    Keeps (Left start names) (copyEntry content name z) := by
  refine keeps_orReturn (keeps_left_osCall _) fun _ =>
    Keeps.bind (keptByCalls_left.write z content) fun r => ?_
  obtain ⟨r, z'⟩ := r
  cases r with
  | error e => exact Keeps.pure _ _
  | ok u => exact keeps_orReturn (keeps_left_writeTemp hname content) fun _ => Keeps.pure _ _

/-- A temp file that is removed on every way out. -/
theorem keeps_leaves_withTemp {α : Type} (pre : Bytes) {onError : GoError → GoError}
    {body : ℕ → Prog GoError (Env σ) (Result α)}
    (hbody : ∀ name, name ∉ names →
      Leads (Leaves start (insert name names)) (LeavesOr start name names) (body name)) :
    Keeps (Leaves start names)
      (orReturn (onHost (createTemp pre)) onError fun name => removingTemp name (body name)) := by
  refine keeps_of_wp fun w hw => wp_orReturn.mpr ((wp_zoom _).mpr
    ((wp_createTemp _ hw).mono (fun r h' hleft => ?_) (fun _ h => h.elim)))
  cases r with
  | error e => exact hleft
  | ok name =>
    obtain ⟨hname, hleft⟩ := hleft
    have hremoved : Leads (Leaves start (insert name names)) (Leaves start names)
        (removingTemp name (body name)) := fun w hw => (hbody name hname w hw).removeTemp hname
    exact wp_of_leads hremoved hleft

theorem keeps_leaves_bundleUploadedEntry (entry : ZipEntry) (z : ZipWriter) :
    Keeps (Leaves start names)
      (bundleUploadedEntry digests minimumSize maximumSize blobstore entry z) := by
  refine keeps_orReturn (keeps_leaves_onHost (keptByCalls_left.createHeader z _)) fun z =>
    keeps_orReturn (keeps_leaves_onHost (keeps_left_osCall _)) fun _ =>
      keeps_leaves_withTemp _ fun tempFile hname => ?_
  have hor : ∀ w : Env σ, Leaves start (insert tempFile names) w →
      LeavesOr start tempFile names w := fun _ h => .inl h
  exact leads_orReturn (keeps_leaves_onHost (keeps_left_copyEntry (Set.mem_insert _ _) _ z)) hor
    fun z => leads_orReturn (keeps_leaves_onHost (keeps_left_osCall _)) hor fun _ =>
      leads_orReturn (keeps_leaves_onHost (keeps_left_osCall _)) hor fun _ =>
        leads_leavesOr_stashEntry hname entry.content z

theorem keeps_leaves_bundleUploaded (entries : List ZipEntry) (z : ZipWriter) :
    Keeps (Leaves start names)
      (bundleUploaded digests minimumSize maximumSize blobstore entries z) := by
  induction entries generalizing z with
  | nil => exact Keeps.pure _ _
  | cons entry entries ih =>
    unfold bundleUploaded
    split
    · exact keeps_orReturn (keeps_leaves_bundleUploadedEntry entry z) fun z => ih z
    · exact ih z

theorem keeps_leaves_writeBundle {format : ZipFormat} {bundlesPayload : List Fingerprint}
    {zipReader : Option (List ZipEntry)} (hname : name ∈ names) :
    Keeps (Leaves start names) (writeBundle digests format minimumSize maximumSize blobstore
      bundlesPayload zipReader name) :=
  keeps_orReturn (keeps_leaves_bundleUploaded _ _) fun z =>
    keeps_orReturn (keptByCalls_left.bundlePayload keeps_left_takeBudget _ z) fun z =>
      Keeps.bind (keeps_leaves_onHost (keeps_left_close format z)) fun content =>
        Keeps.bind (keeps_leaves_onHost (Keeps.modifyState fun _ h => h.setTemp hname content))
          fun _ => Keeps.pure _ _

/-- **What bundling leaves behind**: the temp zip file, when it is returned and when bundling
panics, and nothing when an error is returned. -/
theorem wp_leaves_createTempZipFileFrom {format : ZipFormat} {bundlesPayload : List Fingerprint}
    {zipReader : Option (List ZipEntry)} (hw : Leaves start names w) :
    wp (createTempZipFileFrom digests format minimumSize maximumSize blobstore bundlesPayload
      zipReader) (fun r w' => match r with
        | .error _ => Leaves start names w'
        | .ok name => name ∉ names ∧ Leaves start (insert name names) w')
      (fun w' => ∃ name, name ∉ names ∧ Leaves start (insert name names) w') w := by
  refine wp_orReturn.mpr ((wp_zoom _).mpr
    ((wp_createTemp _ hw).mono (fun r h' hleft => ?_) (fun _ h => h.elim)))
  cases r with
  | error e => exact hleft
  | ok tempZipFile =>
    obtain ⟨hname, hleft⟩ := hleft
    refine wp_bind_of_keeps (keeps_leaves_writeBundle (Set.mem_insert _ _)) hleft
      (fun r w₁ hw₁ => ?_) (fun w₁ hw₁ => ⟨tempZipFile, hname, hw₁⟩)
    cases r with
    | error e => exact Left.removeTemp hw₁ hname
    | ok u => exact ⟨hname, hw₁⟩

end Bundle

end BitsService
