import BitsService.Resources.Handler
import BitsService.Stash.AppStashHandler

/-! # What a request did, and what it was answered

Every call that writes to a blobstore or to the app stash is noted with how it ended, and so is the
notification of a finished upload. The status that the client gets is the one that was written; it
is 500 for a panic before any was, and 200 if none was written at all. -/
namespace BitsService
open GoLib.Effect GoLib.Retry
set_option autoImplicit false

variable {σ : Type}

/-! ## Noting -/

inductive StoreCall where
  | stashPut (key : Bytes) (o : Outcome GoError (Result Unit))
  | put (path : Bytes) (o : Outcome GoError (Result Unit))
  | copy (src dest : Bytes) (o : Outcome GoError (Result Unit))
  | delete (path : Bytes) (o : Outcome GoError (Result Unit))
  | notifyUploadSucceeded (guid : Bytes) (o : Outcome GoError (Result Unit))

namespace StoreCall

def outOfSpace : Outcome GoError (Result Unit) := .returned (.error .noSpaceLeft)

def succeeded : Outcome GoError (Result Unit) := .returned (.ok ())

/-- A put or a copy that returned that there is no space left. -/
def OutOfSpace : StoreCall → Prop
  | .stashPut _ o => o = outOfSpace
  | .put _ o => o = outOfSpace
  | .copy _ _ o => o = outOfSpace
  | .delete _ _ => False
  | .notifyUploadSucceeded _ _ => False

end StoreCall

open StoreCall

def NoRedirectBlobstore.noting (blobstore : NoRedirectBlobstore σ) :
    NoRedirectBlobstore (σ × List StoreCall) :=
  { blobstore.zoom (fstPart σ (List StoreCall)) with
    put := fun key src => noted (.stashPut key) (blobstore.put key src) }

def Blobstore.noting (blobstore : Blobstore σ) : Blobstore (σ × List StoreCall) :=
  { blobstore.zoom (fstPart σ (List StoreCall)) with
    put := fun path src => noted (.put path) (blobstore.put path src)
    copy := fun src dest => noted (.copy src dest) (blobstore.copy src dest)
    delete := fun path => noted (.delete path) (blobstore.delete path) }

def Updater.noting (updater : Updater σ) : Updater (σ × List StoreCall) where
  notifyProcessingUpload guid :=
    GoLib.Effect.zoom (fstPart σ _) (updater.notifyProcessingUpload guid)
  notifyUploadSucceeded guid sha1 sha256 :=
    noted (.notifyUploadSucceeded guid) (updater.notifyUploadSucceeded guid sha1 sha256)
  notifyUploadFailed guid e :=
    GoLib.Effect.zoom (fstPart σ _) (updater.notifyUploadFailed guid e)

def ResourceHandler.noting (handler : ResourceHandler σ) :
    ResourceHandler (σ × List StoreCall) :=
  { handler with
    blobstore := handler.blobstore.noting
    appStashBlobstore := handler.appStashBlobstore.noting
    updater := handler.updater.noting }

def AppStashHandler.noting (handler : AppStashHandler σ) :
    AppStashHandler (σ × List StoreCall) :=
  { handler with blobstore := handler.blobstore.noting }

/-- A request before anything was done for it. -/
def begun (host : Host) (s : σ) : Env (σ × List StoreCall) := ⟨host, (s, []), .empty⟩

/-- The status of the answer behind the panic middleware. -/
def finalStatus (run : Outcome GoError Unit × Env (σ × List StoreCall)) : ℕ :=
  run.2.response.status.getD (match run.1 with
    | .returned () => 200
    | .panicked _ => 500)

theorem finalStatus_eq_clientStatus (run : Outcome GoError Unit × Env (σ × List StoreCall)) :
    finalStatus run = clientStatus run := rfl

/-! ## The ledger

Predicates of the noted calls and of the status written so far. -/

def OnLedger (p : List StoreCall → Option ℕ → Prop) : Env (σ × List StoreCall) → Prop := fun w =>
  p w.ext.2 w.response.status

/-- What is known of the status of a program that returns, and of one that panics, is known of the
status that the client gets. -/
theorem finalStatus_of_wp {p : List StoreCall → ℕ → Prop}
    {m : Prog GoError (Env (σ × List StoreCall)) Unit} {w : Env (σ × List StoreCall)}
    (h : wp m (fun _ => OnLedger fun calls status => p calls (status.getD 200))
      (OnLedger fun calls status => p calls (status.getD 500)) w) :
    p (m.run w).2.ext.2 (finalStatus (m.run w)) := by
  rcases hrun : m.run w with ⟨u | e, w'⟩
  · exact h.returned hrun
  · exact h.panicked hrun

theorem hostBlind_onLedger (p : List StoreCall → Option ℕ → Prop) :
    HostBlind (OnLedger p : Env (σ × List StoreCall) → Prop) := fun _ _ h => h

theorem keeps_onExt_zoom (p : List StoreCall → Option ℕ → Prop) {α : Type} (m : Prog GoError σ α) :
    Keeps (OnLedger p) (onExt (zoom (fstPart σ (List StoreCall)) m)) := fun _ h => h

theorem run_onExt_zoom_eq_returned {α : Type} {m : Prog GoError σ α}
    {w w' : Env (σ × List StoreCall)} {a : α}
    (h : (onExt (zoom (fstPart σ (List StoreCall)) m)).run w = (.returned a, w')) :
    m.run w.ext.1 = (.returned a, w'.ext.1) := by
  rw [run_onExt, run_zoom] at h
  obtain ⟨hout, rfl⟩ := Prod.mk.inj h
  exact Prod.ext hout rfl

/-- A noted call ends somehow. -/
theorem wp_onExt_noted {α : Type} {call : Outcome GoError α → StoreCall} {m : Prog GoError σ α}
    {R : α → Env (σ × List StoreCall) → Prop} {E : Env (σ × List StoreCall) → Prop}
    {w : Env (σ × List StoreCall)}
    (hR : ∀ a s, R a { w with ext := (s, w.ext.2 ++ [call (.returned a)]) })
    (hE : ∀ e s, E { w with ext := (s, w.ext.2 ++ [call (.panicked e)]) }) :
    wp (onExt (noted call m)) R E w :=
  (wp_zoom _).mpr (wp_noted hR hE)

theorem keeps_onExt_noted {p : List StoreCall → Option ℕ → Prop} {α : Type}
    {call : Outcome GoError α → StoreCall} {m : Prog GoError σ α}
    (h : ∀ calls status o, p calls status → p (calls ++ [call o]) status) :
    Keeps (OnLedger p) (onExt (noted call m)) :=
  keeps_of_wp fun _ hw => wp_onExt_noted (fun _ _ => h _ _ _ hw) (fun _ _ => h _ _ _ hw)

/-! ## Stashing

Until a put to the app stash runs out of space, every noted call is one that did not; after it there
is no other. -/

structure Stashing (sent : Option ℕ) (calls : List StoreCall) (status : Option ℕ) : Prop where
  calls : ∀ c ∈ calls, ∃ key o, c = .stashPut key o ∧ o ≠ outOfSpace
  status : status = sent

def StashFull (sent : Option ℕ) (calls : List StoreCall) (status : Option ℕ) : Prop :=
  ∃ earlier key, Stashing sent earlier status ∧ calls = earlier ++ [.stashPut key outOfSpace]

/-- What is known once stashing has ended with the error `e`, if there was one. -/
def AfterStashing (sent : Option ℕ) (e : Option GoError) (w : Env (σ × List StoreCall)) : Prop :=
  OnLedger (Stashing sent) w ∨ e = some .noSpaceLeft ∧ OnLedger (StashFull sent) w

theorem Stashing.append {sent status : Option ℕ} {calls : List StoreCall}
    (h : Stashing sent calls status) {o : Outcome GoError (Result Unit)} (ho : o ≠ outOfSpace)
    (key : Bytes) : Stashing sent (calls ++ [.stashPut key o]) status := by
  refine ⟨fun c hc => ?_, h.status⟩
  rcases List.mem_append.mp hc with hc | hc
  · exact h.calls c hc
  · exact ⟨key, o, List.mem_singleton.mp hc, ho⟩

section Stash
variable {sent : Option ℕ} {blobstore : NoRedirectBlobstore σ} {digests : Digests}
  {w : Env (σ × List StoreCall)}

theorem wp_stashPut {key src : Bytes} (hw : OnLedger (Stashing sent) w) :
    wp (onExt (blobstore.noting.put key src)) (fun r => AfterStashing sent (errorOf r))
      (OnLedger (Stashing sent)) w := by
  refine wp_onExt_noted (fun r s => ?_) (fun e s => hw.append (by simp [outOfSpace]) key)
  by_cases hr : r = .error .noSpaceLeft
  · subst hr
    exact .inr ⟨rfl, w.ext.2, key, hw, rfl⟩
  · exact .inl (hw.append (by simpa [outOfSpace] using hr) key)

theorem keeps_stashing_get (key : Bytes) :
    Keeps (OnLedger (Stashing sent)) (onExt (blobstore.noting.get key)) := keeps_onExt_zoom _ _

theorem wp_stashAttempt {minimumSize maximumSize : ℕ} {content : Bytes} {tempFile : Option ℕ}
    (hw : OnLedger (Stashing sent) w) :
    wp (stashAttempt digests minimumSize maximumSize blobstore.noting content tempFile)
      (fun r w' => AfterStashing sent (r.1.map Failure.error) w' ∧
        ∀ e, r.1 = some (.transient e) → OnLedger (Stashing sent) w')
      (OnLedger (Stashing sent)) w := by
  cases tempFile with
  | none => exact hw
  | some name =>
    rw [stashAttempt_some]
    refine wp_bind_of_keeps ((hostBlind_onLedger _).keeps_onHost _) hw (fun r w₁ hw₁ => ?_)
      (fun _ h => h)
    cases r with
    | error e => exact ⟨.inl hw₁, fun _ _ => hw₁⟩
    | ok src =>
      by_cases hsize : minimumSize ≤ content.length ∧ content.length ≤ maximumSize
      · simp only [if_pos hsize]
        refine (wp_stashPut hw₁).bind (fun r w₂ h => ?_) (fun _ h => h)
        rcases h with hw₂ | ⟨hr, hfull⟩
        · exact ⟨.inl hw₂, fun _ _ => hw₂⟩
        · cases r with
          | ok u => cases hr
          | error e =>
            cases hr
            exact ⟨.inr ⟨rfl, hfull⟩, fun _ h => by cases h⟩
      · simp only [if_neg hsize]
        exact ⟨.inl hw₁, fun _ _ => hw₁⟩

theorem wp_stashEntry {minimumSize maximumSize : ℕ} {content : Bytes} {tempFile : ℕ}
    {z : ZipWriter} (hw : OnLedger (Stashing sent) w) :
    wp (stashEntry digests minimumSize maximumSize blobstore.noting content tempFile z)
      (fun r => AfterStashing sent (errorOf r)) (OnLedger (Stashing sent)) w := by
  refine wp_bind_of_keeps ((hostBlind_onLedger _).keeps_onHost _) hw (fun budget w₁ hw₁ => ?_)
    (fun _ h => h)
  refine (wp_retryNotify (fun _ => OnLedger (Stashing sent)) (fun r => AfterStashing sent r.1)
    (fun t w h => wp_stashAttempt h) budget hw₁).bind (fun r w₂ h => ?_) (fun _ h => h)
  obtain ⟨e, tempFile⟩ := r
  cases e with
  | some e => exact h
  | none =>
    rcases h with hw₂ | ⟨he, -⟩
    · cases tempFile with
      | none => exact hw₂
      | some name => exact .inl hw₂
    · cases he

/-- A step on the host whose error ends the stashing. -/
theorem wp_orReturn_onHost {α β : Type} {m : Prog GoError Host (Result α)}
    {onError : GoError → GoError} {k : α → Prog GoError (Env (σ × List StoreCall)) (Result β)}
    (hw : OnLedger (Stashing sent) w)
    (hk : ∀ a w', OnLedger (Stashing sent) w' → wp (k a) (fun r => AfterStashing sent (errorOf r))
      (OnLedger (Stashing sent)) w') :
    wp (orReturn (onHost m) onError k) (fun r => AfterStashing sent (errorOf r))
      (OnLedger (Stashing sent)) w := by
  refine wp_orReturn.mpr ((wp_of_keeps ((hostBlind_onLedger _).keeps_onHost m) hw).mono
    (fun r w' hw' => ?_) (fun _ h => h))
  cases r with
  | error e => exact .inl hw'
  | ok a => exact hk a w' hw'

theorem wp_bundleUploadedEntry {minimumSize maximumSize : ℕ} {entry : ZipEntry} {z : ZipWriter}
    (hw : OnLedger (Stashing sent) w) :
    wp (bundleUploadedEntry digests minimumSize maximumSize blobstore.noting entry z)
      (fun r => AfterStashing sent (errorOf r)) (OnLedger (Stashing sent)) w :=
  wp_orReturn_onHost hw fun _ _ hw => wp_orReturn_onHost hw fun _ _ hw =>
    wp_orReturn_onHost hw fun _ _ hw => wp_removingTemp.mpr <|
      wp_orReturn_onHost hw fun _ _ hw => wp_orReturn_onHost hw fun _ _ hw =>
        wp_orReturn_onHost hw fun _ _ hw => wp_stashEntry hw

theorem wp_bundleUploaded {minimumSize maximumSize : ℕ} {entries : List ZipEntry} {z : ZipWriter}
    (hw : OnLedger (Stashing sent) w) :
    wp (bundleUploaded digests minimumSize maximumSize blobstore.noting entries z)
      (fun r => AfterStashing sent (errorOf r)) (OnLedger (Stashing sent)) w := by
  induction entries generalizing z w with
  | nil => exact .inl hw
  | cons entry entries ih =>
    unfold bundleUploaded
    by_cases hregular : isRegular entry.header.mode = true
    · rw [if_pos hregular]
      refine wp_orReturn.mpr ((wp_bundleUploadedEntry hw).mono (fun r w' h => ?_) (fun _ h => h))
      cases r with
      | error e => exact h
      | ok z =>
        rcases h with hw' | ⟨he, -⟩
        · exact ih hw'
        · cases he
    · rw [if_neg hregular]
      exact ih hw

/-- **Bundling stops at a full stash**: a put that runs out of space is the last one, and its error
is returned as it is. -/
theorem wp_createTempZipFileFrom {format : ZipFormat} {minimumSize maximumSize : ℕ}
    {bundlesPayload : List Fingerprint} {zipReader : Option (List ZipEntry)}
    (hw : OnLedger (Stashing sent) w) :
    wp (createTempZipFileFrom digests format minimumSize maximumSize blobstore.noting bundlesPayload
      zipReader) (fun r => AfterStashing sent (errorOf r)) (OnLedger (Stashing sent)) w := by
  refine wp_orReturn_onHost hw fun tempZipFile w₁ hw₁ => ?_
  have hwrite : wp (writeBundle digests format minimumSize maximumSize blobstore.noting
      bundlesPayload zipReader tempZipFile) (fun r => AfterStashing sent (errorOf r))
      (OnLedger (Stashing sent)) w₁ := by
    refine wp_orReturn.mpr ((wp_bundleUploaded hw₁).mono (fun r w₂ h => ?_) (fun _ h => h))
    cases r with
    | error e => exact h
    | ok z =>
      rcases h with hw₂ | ⟨he, -⟩
      · refine (wp_of_keeps (keeps_orReturn (keeps_bundlePayload (hostBlind_onLedger _)
          keeps_stashing_get bundlesPayload z) fun z => Keeps.bind
            ((hostBlind_onLedger _).keeps_onHost _) fun content => Keeps.bind
            ((hostBlind_onLedger _).keeps_onHost _) fun _ => Keeps.pure _ _) hw₂).mono
          (fun _ _ h => .inl h) (fun _ h => h)
      · cases he
  refine hwrite.bind (fun r w₂ h => ?_) (fun _ h => h)
  cases r with
  | error e => exact h
  | ok u =>
    rcases h with hw₂ | ⟨he, -⟩
    · exact .inl hw₂
    · cases he

end Stash

end BitsService
