import BitsService.Resources.CCUpdater
import BitsService.Resources.UploadAnswers
import BitsService.Resources.UploadProtocol

/-! # Running out of space

Every request that writes stops at the first call that returns that there is no space left. The
answer is 507, except for a request for a bundle, which panics. -/
namespace BitsService
open GoLib.Effect GoLib.Retry StoreCall
set_option autoImplicit false

variable {σ : Type} {formats : Formats} {w : Env (σ × List StoreCall)}

/-! ## Uploads of entries -/

theorem Stashing.spacious {sent status : Option ℕ} {calls : List StoreCall}
    (h : Stashing sent calls status) : Spacious calls := by
  intro c hc hfull
  obtain ⟨key, o, rfl, ho⟩ := h.calls c hc
  exact ho hfull

theorem StashFull.full {sent status : Option ℕ} {calls : List StoreCall}
    (h : StashFull sent calls status) : Full calls := by
  obtain ⟨earlier, key, hearlier, hcalls⟩ := h
  exact ⟨earlier, .stashPut key outOfSpace, hearlier.spacious, rfl, hcalls⟩

/-- If a call ran out of space, it was the last one, and the answer's status says so. -/
def Tells (unwritten : ℕ) : Env (σ × List StoreCall) → Prop :=
  OnLedger fun calls status => Spacious calls ∨ Full calls ∧ status.getD unwritten = 507

theorem Stashing.tells {sent : Option ℕ} (hw : OnLedger (Stashing sent) w) (unwritten : ℕ) :
    Tells unwritten w :=
  .inl hw.spacious

section Entries
variable {handler : AppStashHandler σ} {request : Request}

theorem wp_copyTo {digests : Digests} {zipFileEntry : ZipEntry} (hw : OnLedger (Stashing none) w) :
    wp (copyTo digests handler.noting.blobstore zipFileEntry)
      (fun r => AfterStashing none (errorOf r)) (OnLedger (Stashing none)) w := by
  refine wp_orReturn_onHost hw fun _ _ hw => wp_orReturn_onHost hw fun _ _ hw =>
    wp_removingTemp.mpr <| wp_orReturn_onHost hw fun sha _ hw =>
      wp_orReturn_onHost hw fun entryFileRead _ hw => ?_
  refine (wp_stashPut hw).bind (fun r w' h => ?_) (fun _ h => h)
  rcases h with hw' | ⟨hr, hfull⟩
  · split
    · exact .inl hw'
    · exact .inl hw'
    · exact .inl hw'
  · cases r with
    | ok u => cases hr
    | error e =>
      cases hr
      exact .inr ⟨rfl, hfull⟩

/-- An answer to a request that put to the stash, or tried to. -/
theorem Stashing.tells_of_answered {status : ℕ} {w' : Env (σ × List StoreCall)}
    (hw : OnLedger (Stashing none) w) (h : Answered status w w') : Tells 200 w' :=
  Stashing.tells (Stashing.answered hw h) 200

theorem AfterStashing.tells_of_insufficientStorage {w' : Env (σ × List StoreCall)}
    {e : Option GoError} (hw : AfterStashing none e w) (h : Answered 507 w w') : Tells 200 w' := by
  rcases hw with hw | ⟨-, hfull⟩
  · exact Stashing.tells_of_answered hw h
  · have hanswered := StashFull.answered hfull h
    refine .inr ⟨hanswered.full, ?_⟩
    obtain ⟨earlier, key, hearlier, -⟩ := hanswered
    rw [hearlier.status]
    rfl

theorem AfterStashing.stashing {e : Option GoError} (h : AfterStashing none e w)
    (he : e ≠ some .noSpaceLeft) : OnLedger (Stashing none) w :=
  h.resolve_right fun h => he h.1

theorem wp_copyEntries {entries : List ZipEntry} (hw : OnLedger (Stashing none) w) :
    wp (copyEntries formats handler.noting entries)
      (fun r => match r with
        | none => Tells 200
        | some _ => OnLedger (Stashing none))
      (OnLedger (Stashing none)) w := by
  induction entries generalizing w with
  | nil => exact hw
  | cons zipFileEntry entries ih =>
    unfold copyEntries
    by_cases hregular : isRegular zipFileEntry.header.mode = true
    · rw [if_pos hregular]
      refine (wp_copyTo hw).bind (fun r w' h => ?_) (fun _ h => h)
      split
      · exact wp_bind.mpr (wp_insufficientStorage fun w₁ h₁ => h.tells_of_insufficientStorage h₁)
      · rename_i e hspace
        exact h.stashing fun he => hspace (Option.some.inj he)
      · refine (ih (h.stashing (by simp [errorOf]))).bind (fun r w₁ h₁ => ?_) (fun _ h => h)
        cases r with
        | none => exact h₁
        | some fingerprints => exact h₁
    · rw [if_neg hregular]
      exact ih hw

theorem wp_postUploadedEntries {tempZipFile : ℕ} (hw : OnLedger (Stashing none) w) :
    wp (postUploadedEntries formats handler.noting tempZipFile) (fun _ => Tells 200) (Tells 500)
      w := by
  refine wp_bind_of_keeps ((hostBlind_onLedger _).keeps_onHost _) hw (fun opened w₁ hw₁ => ?_)
    (fun _ h => Stashing.tells h 500)
  split
  · exact wp_badRequest fun w' h => Stashing.tells_of_answered hw₁ h
  · refine (wp_copyEntries hw₁).bind (fun r w₂ h => ?_) (fun _ h => Stashing.tells h 500)
    cases r with
    | none => exact h
    | some fingerprints => exact wp_writeHeader_write fun w' h' => Stashing.tells_of_answered h h'

theorem wp_postEntries (hw : OnLedger (Stashing none) w) :
    wp (postEntries formats handler.noting request) (fun _ => Tells 200) (Tells 500) w := by
  have hhalt : ∀ w : Env (σ × List StoreCall), OnLedger (Stashing none) w → Tells 500 w :=
    fun _ h => Stashing.tells h 500
  refine wp_bind.mpr (wp_handleBodySizeLimits (fun request' hlimited => ?_)
    (fun status w' _ _ h => Stashing.tells_of_answered hw h))
  simp only
  split
  · exact wp_badRequest fun w' h => Stashing.tells_of_answered hw h
  · exact wp_badRequest fun w' h => Stashing.tells_of_answered hw h
  · refine wp_bind_of_keeps ((hostBlind_onLedger _).keeps_onHost _) hw (fun r w₁ hw₁ => ?_) hhalt
    refine wp_bind.mpr (wp_panicOnError.mpr ?_)
    cases r with
    | error e => exact hhalt w₁ hw₁
    | ok tempZipFile =>
      refine wp_removingTemp.mpr (wp_bind_of_keeps ((hostBlind_onLedger _).keeps_onHost _) hw₁
        (fun r w₂ hw₂ => ?_) hhalt)
      refine wp_bind.mpr (wp_panicOnError.mpr ?_)
      cases r with
      | error e => exact hhalt w₂ hw₂
      | ok u => exact wp_postUploadedEntries hw₂

/-! ## Bundles -/

/-- A request for a bundle that ran out of space was not answered. -/
def StopsUnanswered : Env (σ × List StoreCall) → Prop :=
  OnLedger fun calls status => Stops calls ∧ status = none

theorem Stashing.stopsUnanswered (h : OnLedger (Stashing none) w) : StopsUnanswered w :=
  ⟨.inl h.spacious, h.status⟩

theorem AfterStashing.stopsUnanswered {e : Option GoError} (h : AfterStashing none e w) :
    StopsUnanswered w := by
  rcases h with h | ⟨-, h⟩
  · exact Stashing.stopsUnanswered h
  · have hfull : Full w.ext.2 := StashFull.full h
    obtain ⟨earlier, key, hearlier, -⟩ := h
    exact ⟨.inr hfull, hearlier.status⟩

/-- An answer leaves the calls as they are. -/
theorem Stashing.spacious_of_answered {status : ℕ} {w' : Env (σ × List StoreCall)}
    (hw : OnLedger (Stashing none) w) (h : Answered status w w') :
    OnLedger (fun calls _ => Spacious calls) w' :=
  (Stashing.answered hw h).spacious

theorem wp_sendBundle {tempZipFilename : ℕ} (hw : OnLedger (Stashing none) w) :
    wp (sendBundle tempZipFilename) (fun _ => OnLedger fun calls _ => Spacious calls)
      StopsUnanswered w := by
  refine wp_removingTemp.mpr (wp_bind_of_keeps ((hostBlind_onLedger _).keeps_onHost _) hw
    (fun opened w₁ hw₁ => ?_) (fun _ h => Stashing.stopsUnanswered h))
  refine wp_bind.mpr (wp_panicOnError.mpr ?_)
  cases opened with
  | error e => exact Stashing.stopsUnanswered hw₁
  | ok content =>
    refine wp_bind_of_keeps ((hostBlind_onLedger _).keeps_onHost _) hw₁ (fun r w₂ hw₂ => ?_)
      (fun _ h => Stashing.stopsUnanswered h)
    refine wp_bind.mpr (wp_panicOnError.mpr ?_)
    cases r with
    | error e => exact Stashing.stopsUnanswered hw₂
    | ok u => exact Stashing.spacious hw₂

theorem wp_bundleAndSend {body : Bytes} {zipReader : Option (List ZipEntry)}
    (hw : OnLedger (Stashing none) w) :
    wp (bundleAndSend formats handler.noting body zipReader)
      (fun _ => OnLedger fun calls _ => Spacious calls) StopsUnanswered w := by
  unfold bundleAndSend
  split
  · exact wp_writeHeader_write fun w' h => Stashing.spacious_of_answered hw h
  split
  · exact wp_writeHeader_write fun w' h => Stashing.spacious_of_answered hw h
  refine (wp_createTempZipFileFrom hw).bind (fun r w₁ h => ?_)
    (fun _ h => Stashing.stopsUnanswered h)
  split
  · have hw₁ : OnLedger (Stashing none) w₁ := h.stashing (by simp [errorOf])
    exact wp_writeHeader_write fun w' h => Stashing.spacious_of_answered hw₁ h
  · exact h.stopsUnanswered
  · exact wp_sendBundle (h.stashing (by simp [errorOf]))

theorem wp_postBundles (hw : OnLedger (Stashing none) w) :
    wp (postBundles formats handler.noting request)
      (fun _ => OnLedger fun calls _ => Spacious calls) StopsUnanswered w := by
  have hbad : ∀ (message : Bytes), wp (badRequest message [])
      (fun _ => OnLedger fun calls _ => Spacious calls) StopsUnanswered w :=
    fun message => wp_badRequest fun w' h => Stashing.spacious_of_answered hw h
  refine wp_bind.mpr (wp_handleBodySizeLimits (fun request' hlimited => ?_)
    (fun status w' _ _ h => Stashing.spacious_of_answered hw h))
  simp only
  split
  · refine wp_bind.mpr (wp_panicOnError.mpr ?_)
    cases request'.formFile (ascii "resources") with
    | error e => exact Stashing.stopsUnanswered hw
    | ok resources =>
      cases resources with
      | none => exact hbad _
      | some resources =>
        refine wp_bind.mpr (wp_panicOnError.mpr ?_)
        cases request'.formFile (ascii "application") with
        | error e => exact Stashing.stopsUnanswered hw
        | ok zipFile =>
          cases zipFile with
          | none => exact hbad _
          | some zipFile =>
            simp only
            cases formats.zip.decode zipFile with
            | error text => exact Stashing.stopsUnanswered hw
            | ok zipReader => exact wp_bundleAndSend hw
  · refine wp_bind.mpr (wp_panicOnError.mpr ?_)
    cases request'.body.readAll with
    | error e => exact Stashing.stopsUnanswered hw
    | ok body => exact wp_bundleAndSend hw

end Entries

/-! ## Every request that writes -/

theorem Tells.stops {unwritten : ℕ} (h : Tells unwritten w) : Stops w.ext.2 :=
  h.imp_right And.left

theorem stops_of_wp {m : Prog GoError (Env (σ × List StoreCall)) Unit}
    (h : wp m (fun _ => Tells 200) (Tells 500) w) : Stops (m.run w).2.ext.2 :=
  wp.after (I := fun w' : Env (σ × List StoreCall) => Stops w'.ext.2)
    (h.mono (fun _ _ h => Tells.stops h) (fun _ h => Tells.stops h))

theorem tells_of_judged {reports : Prop} (hreports : reports) {success : List StoreCall}
    {unwritten : ℕ} (h : Judged reports success unwritten w) : Tells unwritten w := by
  rcases h with ⟨-, hspace, -⟩ | ⟨-, hspace, -⟩
  · exact .inl hspace
  · exact hspace.imp_right fun h => ⟨h.1, h.2 hreports⟩

/-- A request to one of the endpoints that write. -/
inductive WriteRequest (σ : Type) where
  | addOrReplaceWithDigestInHeader (handler : ResourceHandler σ) (request : Request)
      (identifier : Bytes)
  | addOrReplace (handler : ResourceHandler σ) (request : Request) (identifier : Bytes)
  | copySourceGuid (handler : ResourceHandler σ) (request : Request) (identifier : Bytes)
  | postEntries (handler : AppStashHandler σ) (request : Request)
  | postBundles (handler : AppStashHandler σ) (request : Request)

namespace WriteRequest

def serve (formats : Formats) : WriteRequest σ → Prog GoError (Env (σ × List StoreCall)) Unit
  | addOrReplaceWithDigestInHeader handler request identifier =>
    BitsService.addOrReplaceWithDigestInHeader formats handler.noting request identifier
  | addOrReplace handler request identifier =>
    BitsService.addOrReplace formats handler.noting request identifier
  | copySourceGuid handler request identifier =>
    BitsService.copySourceGuid formats handler.noting request identifier
  | postEntries handler request => BitsService.postEntries formats handler.noting request
  | postBundles handler request => BitsService.postBundles formats handler.noting request

/-- The answer comes after the last call. -/
def Synchronous : WriteRequest σ → Prop
  | addOrReplace _ request _ => request.queryGet (ascii "async") ≠ ascii "true"
  | _ => True

def IsPostBundles : WriteRequest σ → Prop
  | postBundles _ _ => True
  | _ => False

/-- The updater of an upload can be told that it failed. -/
def ReportsFailures : WriteRequest σ → Prop
  | addOrReplace handler _ _ => handler.updater.ReportsFailures
  | _ => True

/-- A put or a copy that returns that there is no space left is the last one of its request, and a
synchronous answer has status 507. -/
def TellsOutOfSpace (formats : Formats) (write : WriteRequest σ) (host : Host) (s : σ) : Prop :=
  let run := (write.serve formats).run (begun host s)
  Stops run.2.ext.2 ∧
    (write.Synchronous → (∃ c ∈ run.2.ext.2, c.OutOfSpace) → finalStatus run = 507)

variable {host : Host} {s : σ}

theorem tellsOutOfSpace_of_stops {write : WriteRequest σ}
    (hstops : Stops ((write.serve formats).run (begun host s)).2.ext.2)
    (htells : write.Synchronous → wp (write.serve formats) (fun _ => Tells 200) (Tells 500)
      (begun host s)) : TellsOutOfSpace formats write host s := by
  refine ⟨hstops, fun hsync hfull => ?_⟩
  obtain ⟨c, hc, hfull⟩ := hfull
  have htells := finalStatus_of_wp
    (p := fun calls status => Spacious calls ∨ Full calls ∧ status = 507) (htells hsync)
  exact (htells.resolve_left fun hspace => hspace c hc hfull).2

/-- Without a call, a copy of nothing tells all there is to tell. -/
theorem wp_copySourceGuid_tells {handler : ResourceHandler σ} {request : Request}
    {identifier : Bytes} :
    wp (BitsService.copySourceGuid formats handler.noting request identifier) (fun _ => Tells 200)
      (Tells 500) (begun host s) := by
  by_cases hsource : BitsService.copySource formats handler request = some []
  · exact wp_of_returned (run_copySourceGuid_of_empty hsource)
      (.inl fun c (hc : c ∈ []) => absurd hc List.not_mem_nil)
  · exact (wp_copySourceGuid hsource ⟨rfl, rfl⟩).mono
      (fun _ _ h => tells_of_judged trivial h) (fun _ h => tells_of_judged trivial h)

/-- What a request for a bundle does once the stash is full. -/
theorem postBundles_spec (formats : Formats) (handler : AppStashHandler σ) (request : Request)
    (host : Host) (s : σ) :
    TellsOutOfSpace formats (postBundles handler request) host s ↔
      ∀ c ∈ (((postBundles handler request).serve formats).run (begun host s)).2.ext.2,
        ¬ c.OutOfSpace := by
  have hstart : OnLedger (Stashing none) (begun host s) :=
    ⟨fun c hc => absurd hc List.not_mem_nil, rfl⟩
  have hwp : wp ((postBundles handler request).serve formats)
      (fun _ => OnLedger fun calls _ => Spacious calls) StopsUnanswered (begun host s) :=
    wp_postBundles hstart
  unfold TellsOutOfSpace
  rcases hrun : ((postBundles handler request).serve formats).run (begun host s) with ⟨u | e, w'⟩
  · have hspace : Spacious w'.ext.2 := hwp.returned hrun
    exact ⟨fun _ => hspace, fun _ =>
      ⟨.inl hspace, fun _ ⟨c, hc, hfull⟩ => absurd hfull (hspace c hc)⟩⟩
  · obtain ⟨hstops, hstatus⟩ := hwp.panicked hrun
    constructor
    · rintro ⟨-, htells⟩ c hc hfull
      have h507 := htells trivial ⟨c, hc, hfull⟩
      simp [finalStatus, hstatus] at h507
    · exact fun hspace =>
        ⟨hstops, fun _ ⟨c, hc, hfull⟩ => absurd hfull (hspace c hc)⟩

variable (formats host s) in
/-- **Running out of space is told, save by a request for a bundle**: at every endpoint that writes,
a put or a copy that returns that there is no space left is the last one, and a synchronous answer
has status 507, unless it is a request for a bundle that ran out of space. -/
theorem tellsOutOfSpace_iff (write : WriteRequest σ) (hreports : write.ReportsFailures) :
    TellsOutOfSpace formats write host s ↔
      ¬ (write.IsPostBundles ∧
        ∃ c ∈ ((write.serve formats).run (begun host s)).2.ext.2, c.OutOfSpace) := by
  have hfresh : OnLedger Fresh (begun host s) := ⟨rfl, rfl⟩
  have hstart : OnLedger (Stashing none) (begun host s) :=
    ⟨fun c hc => absurd hc List.not_mem_nil, rfl⟩
  have hother : ¬ write.IsPostBundles → TellsOutOfSpace formats write host s →
      (TellsOutOfSpace formats write host s ↔ ¬ (write.IsPostBundles ∧
        ∃ c ∈ ((write.serve formats).run (begun host s)).2.ext.2, c.OutOfSpace)) :=
    fun hnot htells => ⟨fun _ h => hnot h.1, fun _ => htells⟩
  cases write with
  | addOrReplaceWithDigestInHeader handler request identifier =>
    have hwp : wp ((addOrReplaceWithDigestInHeader handler request identifier).serve formats)
        (fun _ => Tells 200) (Tells 500) (begun host s) :=
      (wp_addOrReplaceWithDigestInHeader hfresh).mono
        (fun _ _ h => tells_of_judged trivial h) (fun _ h => tells_of_judged trivial h)
    exact hother (fun h => h) (tellsOutOfSpace_of_stops (stops_of_wp hwp) fun _ => hwp)
  | addOrReplace handler request identifier =>
    refine hother (fun h => h) (tellsOutOfSpace_of_stops ?_ fun hsync => ?_)
    · have hwp : wp ((addOrReplace handler request identifier).serve formats)
          (fun _ => OnLedger fun calls _ => Stops calls) (OnLedger fun calls _ => Stops calls)
          (begun host s) := wp_addOrReplace_stops hstart
      exact hwp.after
    · exact (wp_addOrReplace_sync hsync hstart).mono
        (fun _ _ h => tells_of_judged hreports h) (fun _ h => tells_of_judged hreports h)
  | copySourceGuid handler request identifier =>
    exact hother (fun h => h) (tellsOutOfSpace_of_stops (stops_of_wp wp_copySourceGuid_tells)
      fun _ => wp_copySourceGuid_tells)
  | postEntries handler request =>
    exact hother (fun h => h) (tellsOutOfSpace_of_stops (stops_of_wp (wp_postEntries hstart))
      fun _ => wp_postEntries hstart)
  | postBundles handler request =>
    rw [postBundles_spec]
    exact ⟨fun h hfull => hfull.2.elim fun c hc => h c hc.1 hc.2,
      fun h c hc hfull => h ⟨trivial, c, hc, hfull⟩⟩

end WriteRequest

/-! ## The updaters -/

theorem reportsFailures_nullUpdater : (nullUpdater : Updater σ).ReportsFailures :=
  fun _ _ _ _ _ => Total.pure _

/-- A request that could be made for the first notification can be made for the last one. -/
theorem CCUpdater.reportsFailures (updater : CCUpdater σ)
    (hsend : ∀ request, Total (updater.httpClient.send request)) :
    updater.toUpdater.ReportsFailures := by
  intro guid s s' hrun e
  refine total_update hsend ?_
  by_contra hnew
  have hnotify : (updater.notifyProcessingUpload guid).run s = (.returned (.ok ()), s') := hrun
  rw [CCUpdater.notifyProcessingUpload, CCUpdater.update, if_neg hnew] at hnotify
  cases hnotify

/-! ## A bundle for which there is no space -/

def fullStore : MapStore := ⟨fun _ => none, [], [.error .noSpaceLeft]⟩

theorem tellsOutOfSpace_hello :
    WriteRequest.TellsOutOfSpace plainFormats (.addOrReplace buildpacks helloUpload (ascii "ruby"))
      ⟨fun _ => [], fun _ => none, 0, [1]⟩ fullStore :=
  (WriteRequest.tellsOutOfSpace_iff plainFormats ⟨fun _ => [], fun _ => none, 0, [1]⟩ fullStore
    (.addOrReplace buildpacks helloUpload (ascii "ruby")) reportsFailures_nullUpdater).mpr
    fun h => h.1

def smallFiles : AppStashHandler MapStore := ⟨mapBlobstore, 0, 0, 100⟩

def greeting : List ZipEntry := [⟨zipEntryHeader (ascii "greeting.txt") 0o644, ascii "hello"⟩]

def bundleOfHello : Request where
  contentLength := 100
  header _ := ascii "multipart/form-data; boundary=x"
  query := []
  body := ⟨[], none⟩
  form := .ok ⟨[], [(ascii "resources", plainJson.marshal []),
    (ascii "application", plainFormat.encode greeting)]⟩

theorem run_postBundles_bundleOfHello (w : Env (MapStore × List StoreCall)) :
    (postBundles plainFormats smallFiles.noting bundleOfHello).run w =
      (createTempZipFileFrom helloDigests plainFormat 0 100 smallFiles.noting.blobstore []
        (some greeting) >>= answerBundle).run w := by
  have hresources : bundleOfHello.formFile (ascii "resources") =
      .ok (some (plainJson.marshal [])) := rfl
  have happlication : bundleOfHello.formFile (ascii "application") =
      .ok (some (plainFormat.encode greeting)) := rfl
  rw [run_postBundles_form plainFormats smallFiles.noting rfl (by decide) hresources happlication
    (plainFormat.decode_encode (by decide))]
  rw [bundleAndSend_eq plainFormats smallFiles.noting (plainJson.unmarshal_marshal []) rfl]
  rfl

theorem not_tellsOutOfSpace_bundle :
    ¬ WriteRequest.TellsOutOfSpace plainFormats (.postBundles smallFiles bundleOfHello)
      ⟨fun _ => [], fun _ => none, 0, [1]⟩ fullStore := by
  obtain ⟨w', hcreate, hcalls⟩ : ∃ w', (createTempZipFileFrom helloDigests plainFormat 0 100
      smallFiles.noting.blobstore [] (some greeting)).run
        (begun ⟨fun _ => [], fun _ => none, 0, [1]⟩ fullStore) =
          (.returned (.error .noSpaceLeft), w') ∧
      w'.ext.2 = [.stashPut (helloDigests.key (ascii "hello")) outOfSpace] := ⟨_, rfl, rfl⟩
  rw [WriteRequest.postBundles_spec]
  intro h
  have hrun : ((WriteRequest.postBundles smallFiles bundleOfHello).serve plainFormats).run
      (begun ⟨fun _ => [], fun _ => none, 0, [1]⟩ fullStore) = (.panicked .noSpaceLeft, w') :=
    (run_postBundles_bundleOfHello _).trans (run_bind_returned hcreate)
  rw [hrun, hcalls] at h
  exact h _ (List.mem_singleton.mpr rfl) rfl

end BitsService
