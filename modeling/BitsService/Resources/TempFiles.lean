import BitsService.Resources.Agreement
import BitsService.Stash.BundleTemps

/-! # The temp files of an upload

An upload's temp file is removed once its bits are being stored. Whatever goes wrong between its
creation and that leaves it behind. -/
namespace BitsService
open GoLib.Effect GoLib.Retry
set_option autoImplicit false

variable {σ : Type}

/-! ## Where an upload loses its temp file -/

/-- The next call of this kind fails. -/
def Host.Fails (h : Host) (c : OsCall) : Prop := ∃ e, (h.faults c).headD (.ok ()) = .error e

/-- The temp file is made, but the bits do not get into it: the bundling of a package panics, or
other bits cannot be written. -/
def PanicsWriting (formats : Formats) (handler : ResourceHandler σ) (request : Request)
    (file : Bytes) (w : Env σ) : Prop :=
  if handler.resourceType = ascii "package" then
    ∃ bundlesPayload zipReader,
      packageContents formats (request.formValue (ascii "resources")) file =
        some (bundlesPayload, zipReader) ∧
      ∃ e w', (createTempZipFileFrom formats.digests formats.zip handler.minimumSize
        handler.maximumSize handler.appStashBlobstore bundlesPayload (some zipReader)).run w =
          (.panicked e, w')
  else ¬ w.host.Fails .tempFile ∧ w.host.Fails .writeTemp

/-- The digests of the bits cannot be computed, or the updater does not accept that they are
processed. -/
def Interrupted (handler : ResourceHandler σ) (identifier : Bytes) (w : Env σ) : Prop :=
  w.host.Fails .openTemp ∨ w.host.Fails .readTemp ∨
    ¬ ∃ s, (handler.updater.notifyProcessingUpload identifier).run w.ext =
      (.returned (.ok ()), s)

/-- The file that an upload goes on with after the limits. -/
def fileWithinLimits (handler : ResourceHandler σ) (request : Request) : Option (Request × Bytes) :=
  (request.limited handler.maxBodySizeLimit).bind fun request =>
    match uploadedFile request handler.resourceType with
    | .ok (some file) => some (request, file)
    | _ => none

def LosesTempFile (formats : Formats) (handler : ResourceHandler σ) (request : Request)
    (identifier : Bytes) (w : Env σ) : Prop :=
  (∃ request' file, fileWithinLimits handler request = some (request', file) ∧
    PanicsWriting formats handler request' file w) ∨
  ∃ request' tempFilename w', (receiveUpload formats handler request).run w =
    (.returned (some (request', tempFilename)), w') ∧ Interrupted handler identifier w'

/-- No temp file that was made in between is left. -/
def NoTempLeft (w w' : Env σ) : Prop :=
  ∀ n, w.host.next ≤ n → n < w'.host.next → w'.host.temps n = none

/-! ## The temp file of the bits -/

section Host
variable {start name : ℕ} {names : Set ℕ} {h : Host} {c c' : OsCall}

def Host.used (h : Host) (c : OsCall) : Host :=
  { h with faults := Function.update h.faults c (h.faults c).tail }

@[simp] theorem Host.used_temps : (h.used c).temps = h.temps := rfl

@[simp] theorem Host.used_next : (h.used c).next = h.next := rfl

theorem Host.used_fails (hc : c' ≠ c) : (h.used c).Fails c' ↔ h.Fails c' := by
  simp [Host.Fails, Host.used, hc]

theorem Left.used (hh : Left start names h) : Left start names (h.used c) :=
  ⟨hh.started, hh.made, hh.left⟩

theorem wp_osCall {R : Result Unit → Host → Prop} {E : Host → Prop}
    (hfails : ∀ e, h.Fails c → R (.error e) (h.used c))
    (hok : ¬ h.Fails c → R (.ok ()) (h.used c)) : wp (osCall c) R E h := by
  refine wp_of_returned (run_osCall c h) ?_
  unfold Host.Fails at hfails hok
  cases hhead : (h.faults c).headD (.ok ()) with
  | error e =>
    rw [hhead] at hfails
    exact hfails e ⟨e, rfl⟩
  | ok u =>
    rw [hhead] at hok
    exact hok fun hfail => by cases hfail.choose_spec

/-- Exactly one of the temp files made since is left if `p`, and none of them otherwise. -/
def LeftIff (p : Prop) (start : ℕ) (h : Host) : Prop :=
  p ∧ (∃ name, Left start {name} h) ∨ ¬ p ∧ Left start ∅ h

/-- The temp file of bits that are no package. -/
theorem wp_createTempFileWithContent {content : Bytes} (hh : Left start ∅ h) :
    wp (createTempFileWithContent content)
      (fun r h' => match r with
        | .error _ => LeftIff (¬ h.Fails .tempFile ∧ h.Fails .writeTemp) start h'
        | .ok name => ¬ (¬ h.Fails .tempFile ∧ h.Fails .writeTemp) ∧ Left start {name} h')
      (fun _ => False) h := by
  have hmade : wp (createTemp (ascii "bits")) (fun r h' => (match r with
      | .error _ => h.Fails .tempFile
      | .ok _ => ¬ h.Fails .tempFile ∧ (h'.Fails .writeTemp ↔ h.Fails .writeTemp)))
      (fun _ => False) h := by
    rw [createTemp_of_names (by decide)]
    exact wp_orReturn.mpr (wp_osCall (fun e hfails => hfails)
      (fun hok => ⟨hok, Host.used_fails (by decide : OsCall.writeTemp ≠ .tempFile)⟩))
  refine wp_orReturn.mpr (((wp_createTemp _ hh).and hmade).mono (fun r h₁ hr => ?_)
    (fun _ h => h.1))
  cases r with
  | error e => exact .inr ⟨fun h => h.1 hr.2, hr.1⟩
  | ok name =>
    obtain ⟨⟨-, hleft⟩, htemp, hwrite⟩ := hr
    rw [insert_empty_eq] at hleft
    refine wp_orReturn.mpr (wp_orReturn.mpr (wp_osCall (fun e hfails => ?_) (fun hok => ?_)))
    · exact .inl ⟨⟨htemp, hwrite.mp hfails⟩, name, hleft.used⟩
    · exact ⟨fun h => hok (hwrite.mpr h.2), hleft.used.setTemp rfl content⟩

theorem wp_shaSums {digests : Digests} (hh : Left start {name} h) :
    wp (shaSums digests name)
      (fun r h' => Left start {name} h' ∧ match r with
        | .error _ => h.Fails .openTemp ∨ h.Fails .readTemp
        | .ok _ => ¬ (h.Fails .openTemp ∨ h.Fails .readTemp))
      (fun _ => False) h := by
  have hcontent : h.temps name ≠ none :=
    (hh.left name (hh.made name rfl).1 (hh.made name rfl).2).mpr rfl
  refine wp_orReturn.mpr (wp_orReturn.mpr (wp_osCall (fun e hfails => ?_) (fun hopen => ?_)))
  · exact ⟨hh.used, .inl hfails⟩
  · refine wp_bind.mpr (wp_getState.mpr ?_)
    obtain ⟨content, hcontent⟩ := Option.ne_none_iff_exists'.mp hcontent
    simp only [Host.used_temps, hcontent]
    refine wp_orReturn.mpr (wp_osCall (fun e hfails => ?_) (fun hread => ?_))
    · exact ⟨hh.used.used, .inr ((Host.used_fails (by decide)).mp hfails)⟩
    · exact ⟨hh.used.used, fun h => h.elim hopen fun h =>
        hread ((Host.used_fails (by decide)).mpr h)⟩

end Host

/-! ## The upload -/

section Upload
variable {formats : Formats} {handler : ResourceHandler σ} {request : Request} {file : Bytes}
  {identifier : Bytes} {start : ℕ} {w : Env σ}

def LeavesIff (p : Prop) (start : ℕ) : Env σ → Prop := OfHost (LeftIff p start)

theorem Leaves.answered {names : Set ℕ} {status : ℕ} {w' : Env σ} (hw : Leaves start names w)
    (h : Answered status w w') : Leaves start names w' := by
  unfold Leaves OfHost
  rw [h.host]
  exact hw

theorem wp_leaves_completePackageWithResources (hpackage : handler.resourceType = ascii "package")
    (hw : Leaves start ∅ w) :
    wp (completePackageWithResources formats handler (request.formValue (ascii "resources")) file)
      (fun r w' => ¬ PanicsWriting formats handler request file w ∧ match r with
        | .error _ => Leaves start ∅ w'
        | .ok name => Leaves start {name} w')
      (LeavesIff (PanicsWriting formats handler request file w) start) w := by
  have hnone : packageContents formats (request.formValue (ascii "resources")) file = none →
      ¬ PanicsWriting formats handler request file w := by
    intro hcontents h
    rw [PanicsWriting, if_pos hpackage, hcontents] at h
    obtain ⟨bundlesPayload, zipReader, h, -⟩ := h
    cases h
  refine wp_completePackageWithResources (fun h _ => ⟨hnone h, hw⟩) (fun h => .inr ⟨hnone h, hw⟩)
    fun bundlesPayload zipReader hcontents => wp_of_run (fun r w' hrun => ?_) (fun e w' hrun => ?_)
  · have hwrites : ¬ PanicsWriting formats handler request file w := by
      intro h
      rw [PanicsWriting, if_pos hpackage, hcontents] at h
      obtain ⟨bundlesPayload', zipReader', h, e, w'', hpanic⟩ := h
      cases h
      rw [hrun] at hpanic
      cases hpanic
    have hleft := (wp_leaves_createTempZipFileFrom hw).returned hrun
    cases r with
    | ok name =>
      simp only [insert_empty_eq] at hleft
      exact ⟨hwrites, hleft.2⟩
    | error e =>
      cases e with
      | notFound text missingKey => exact fun _ => ⟨hwrites, hleft⟩
      | noSpaceLeft => exact ⟨hwrites, hleft⟩
      | stateForbidden => exact .inr ⟨hwrites, hleft⟩
      | input text => exact .inr ⟨hwrites, hleft⟩
      | sys text => exact .inr ⟨hwrites, hleft⟩
      | wrapped message cause => exact .inr ⟨hwrites, hleft⟩
      | withStack cause => exact .inr ⟨hwrites, hleft⟩
  · obtain ⟨name, -, hleft⟩ := (wp_leaves_createTempZipFileFrom hw).panicked hrun
    rw [insert_empty_eq] at hleft
    refine .inl ⟨?_, name, hleft⟩
    rw [PanicsWriting, if_pos hpackage]
    exact ⟨bundlesPayload, zipReader, hcontents, e, w', hrun⟩

theorem wp_leaves_receiveBits (hw : Leaves start ∅ w) :
    wp (receiveBits formats handler request file)
      (fun r w' => ¬ PanicsWriting formats handler request file w ∧ match r with
        | none => Leaves start ∅ w'
        | some name => Leaves start {name} w')
      (LeavesIff (PanicsWriting formats handler request file w) start) w := by
  unfold receiveBits
  by_cases hpackage : handler.resourceType = ascii "package"
  · rw [if_pos hpackage]
    refine (wp_leaves_completePackageWithResources hpackage hw).bind (fun r w₁ h => ?_)
      (fun _ h => h)
    obtain ⟨hwrites, hleft⟩ := h
    split
    · exact wp_writeHeader_write_bind fun w' h => ⟨hwrites, hleft.answered h⟩
    · exact wp_bind.mpr (wp_insufficientStorage fun w' h => ⟨hwrites, hleft.answered h⟩)
    · exact .inr ⟨hwrites, hleft⟩
    · exact ⟨hwrites, hleft⟩
  · unfold PanicsWriting
    simp only [if_neg hpackage]
    refine wp_bind.mpr ((wp_zoom _).mpr ((wp_createTempFileWithContent hw).mono
      (fun r h' hr => ?_) (fun _ h => h.elim)))
    refine wp_bind.mpr (wp_panicOnError.mpr ?_)
    cases r with
    | error e => exact hr
    | ok name => exact hr

theorem wp_leaves_receiveUpload (hw : Leaves start ∅ w) :
    wp (receiveUpload formats handler request)
      (fun r w' => (¬ ∃ request' file, fileWithinLimits handler request = some (request', file) ∧
          PanicsWriting formats handler request' file w) ∧ match r with
        | none => Leaves start ∅ w'
        | some (_, name) => Leaves start {name} w')
      (LeavesIff (∃ request' file, fileWithinLimits handler request = some (request', file) ∧
        PanicsWriting formats handler request' file w) start) w := by
  refine wp_bind.mpr (wp_handleBodySizeLimits (fun request' hlimited => ?_)
    (fun status w' hlimited _ h => ⟨?_, hw.answered h⟩))
  · have hfile : fileWithinLimits handler request =
        match uploadedFile request' handler.resourceType with
        | .ok (some file) => some (request', file)
        | _ => none := by
      rw [fileWithinLimits, hlimited, Option.bind_some]
    rw [hfile]
    refine wp_bind.mpr (wp_panicOnError.mpr ?_)
    cases uploadedFile request' handler.resourceType with
    | error e => exact .inr ⟨by simp, hw⟩
    | ok file =>
      cases file with
      | none => exact wp_bind.mpr (wp_badRequest fun w' h => ⟨by simp, hw.answered h⟩)
      | some file =>
        have hiff : (∃ request'' file', some (request', file) = some (request'', file') ∧
            PanicsWriting formats handler request'' file' w) ↔
            PanicsWriting formats handler request' file w := by
          constructor
          · rintro ⟨_, _, ⟨rfl, rfl⟩, h⟩
            exact h
          · exact fun h => ⟨_, _, rfl, h⟩
        simp only [hiff]
        refine (wp_leaves_receiveBits hw).bind (fun r w' h => ?_) (fun _ h => h)
        cases r with
        | none => exact h
        | some tempFilename => exact h
  · rintro ⟨request', file, h, -⟩
    rw [fileWithinLimits, hlimited] at h
    cases h

theorem keptByAnswers_leaves (start : ℕ) (names : Set ℕ) :
    KeptByAnswers (Leaves start names : Env σ → Prop) := keptByAnswers_of_blind fun _ _ h => h

theorem keeps_leaves_answer {names : Set ℕ} (digests : Digests) (e : Option GoError)
    (statusCode : ℕ) (body : ResponseBody) :
    Keeps (Leaves start names : Env σ → Prop)
      (writeResponseBasedOn digests [] e statusCode none (some body) []) :=
  (keptByAnswers_leaves start names).writeResponseBasedOn digests [] e statusCode none (some body)
    (fun _ _ h => h) (fun _ _ _ h => h) []

theorem leads_leaves_removingTemp {α : Type} {name : ℕ} {m : Prog GoError (Env σ) α}
    (hm : Keeps (Leaves start {name}) m) :
    Leads (Leaves start {name}) (Leaves start ∅) (removingTemp name m) := by
  intro w hw
  have hkept : Left start (insert name ∅) (m.run w).2.host := by
    rw [insert_empty_eq]
    exact hm w hw
  exact hkept.removeTemp (Set.notMem_empty name)

/-- While its bits are stored, an upload has its temp file; after that it has none. -/
theorem leads_leaves_uploadResource {name : ℕ} (sha1Sum sha256Sum : Bytes) :
    Leads (Leaves start {name}) (Leaves start ∅)
      (uploadResource handler name identifier sha1Sum sha256Sum) := by
  refine leads_leaves_removingTemp (Keeps.bind (keeps_leaves_onHost keeps_left_takeBudget)
    fun budget => Keeps.bind (keeps_uploadLoop handler
      (keeps_leaves_onHost (keptByCalls_left.openTemp name)) (fun _ _ => keeps_leaves_onExt _)
      identifier budget) fun r => ?_)
  obtain ⟨e, u⟩ := r
  cases e with
  | some e =>
    exact Keeps.bind (Keeps.bind (keeps_leaves_onExt _) fun _ => Keeps.pure _ _) fun _ =>
      Keeps.pure _ _
  | none => exact keeps_orReturn (keeps_leaves_onExt _) fun _ => Keeps.pure _ _

theorem wp_leaves_uploadAndAnswer {name : ℕ} {sha1 sha256 : Bytes} (hw : Leaves start {name} w) :
    wp (uploadAndAnswer formats handler request identifier name sha1 sha256)
      (fun _ => Leaves start ∅) (Leaves start ∅) w := by
  unfold uploadAndAnswer
  by_cases hasync : request.queryGet (ascii "async") = ascii "true"
  · rw [if_pos hasync]
    refine wp_bind.mpr (wp_writeResponseBasedOn_done fun w₁ h => ?_)
    exact (wp_of_leads (leads_leaves_uploadResource sha1 sha256) (hw.answered h)).bind
      (fun _ _ h => h) (fun _ h => h)
  · rw [if_neg hasync]
    exact (wp_of_leads (leads_leaves_uploadResource sha1 sha256) hw).bind
      (fun r w₁ hw₁ => wp_of_keeps (keeps_leaves_answer _ _ _ _) hw₁) (fun _ h => h)

theorem wp_leaves_storeBits {name : ℕ} (hw : Leaves start {name} w) :
    wp (storeBits formats handler request identifier name)
      (fun _ => LeavesIff (Interrupted handler identifier w) start)
      (LeavesIff (Interrupted handler identifier w) start) w := by
  refine wp_bind.mpr ((wp_zoom _).mpr ((wp_shaSums hw).mono (fun sums h₁ hsums => ?_)
    (fun _ h => h.elim)))
  obtain ⟨hleft, hsums⟩ := hsums
  refine wp_bind.mpr (wp_panicOnError.mpr ?_)
  cases sums with
  | error e => exact .inl ⟨hsums.imp_right Or.inl, name, hleft⟩
  | ok sums =>
    -- the updater is asked in the state in which the bits were complete
    have hrefused : ∀ (o : Outcome GoError (Result Unit)) (w' : Env σ),
        (handler.updater.notifyProcessingUpload identifier).run w.ext = (o, w'.ext) →
        o ≠ .returned (.ok ()) → Leaves start {name} w' →
        LeavesIff (Interrupted handler identifier w) start w' := by
      intro o w' hrun ho hw'
      refine .inl ⟨.inr (.inr ?_), name, hw'⟩
      rintro ⟨s, hok⟩
      rw [hrun] at hok
      exact ho (congrArg Prod.fst hok)
    refine wp_bind.mpr (wp_of_run (fun r w₂ hrun => ?_) (fun e w₂ hrun => ?_))
    · have hw₂ : Leaves start {name} w₂ := (keeps_leaves_onExt _).of_run hrun hleft
      have hnotify := (run_onExt_eq_outcome hrun).1
      unfold handleNotificationError
      split
      · exact wp_bind.mpr (wp_writeHeader_write_bind fun w' h => hrefused _ _
          (by rw [h.ext]; exact hnotify) (by simp) (hw₂.answered h))
      · exact wp_bind.mpr (wp_writeHeader_write_bind fun w' h => hrefused _ _
          (by rw [h.ext]; exact hnotify) (by simp) (hw₂.answered h))
      · exact hrefused _ _ hnotify (by simp_all) hw₂
      · have hstored : ¬ Interrupted handler identifier w := fun h => by
          rcases h with h | h | h
          · exact hsums (.inl h)
          · exact hsums (.inr h)
          · exact h ⟨_, hnotify⟩
        exact wp_bind.mpr ((wp_leaves_uploadAndAnswer hw₂).mono (fun _ _ h => .inr ⟨hstored, h⟩)
          (fun _ h => .inr ⟨hstored, h⟩))
    · exact hrefused _ _ (run_onExt_eq_outcome hrun).1 (by simp)
        ((keeps_leaves_onExt _).of_run hrun hleft)

theorem LeavesIff.noneLeft_iff {p : Prop} {w' : Env σ} (h : LeavesIff p w.host.next w') :
    NoTempLeft w w' ↔ ¬ p := by
  rcases h with ⟨hp, name, hleft⟩ | ⟨hp, hleft⟩
  · refine ⟨fun hnone => absurd ?_ ((hleft.left name (hleft.made name rfl).1
      (hleft.made name rfl).2).mpr rfl), fun h => absurd hp h⟩
    exact hnone name (hleft.made name rfl).1 (hleft.made name rfl).2
  · refine ⟨fun _ => hp, fun _ n h1 h2 => ?_⟩
    by_contra hn
    exact absurd ((hleft.left n h1 h2).mp hn) (Set.notMem_empty n)

theorem LeavesIff.congr {p q : Prop} (h : LeavesIff p start w) (hpq : p ↔ q) :
    LeavesIff q start w := by
  unfold LeavesIff OfHost LeftIff at h ⊢
  rwa [← hpq]

theorem leavesIff_addOrReplace (formats : Formats) (handler : ResourceHandler σ)
    (request : Request) (identifier : Bytes) (w : Env σ) :
    LeavesIff (LosesTempFile formats handler request identifier w) w.host.next
      ((addOrReplace formats handler request identifier).run w).2 := by
  have hreceive := @wp_leaves_receiveUpload σ formats handler request w.host.next w
    (left_empty w.host)
  unfold addOrReplace
  rcases hrun : (receiveUpload formats handler request).run w with ⟨r | e, w₁⟩
  · obtain ⟨hwrites, hleft⟩ := hreceive.returned hrun
    rw [run_bind_returned hrun]
    cases r with
    | none =>
      refine .inr ⟨?_, hleft⟩
      rintro (h | ⟨request', name, w', h, -⟩)
      · exact hwrites h
      · rw [hrun] at h
        cases h
    | some r =>
      obtain ⟨request', name⟩ := r
      have hstore : LeavesIff (Interrupted handler identifier w₁) w.host.next
          ((storeBits formats handler request' identifier name).run w₁).2 :=
        wp.after (wp_leaves_storeBits hleft)
      refine hstore.congr ⟨fun h => .inr ⟨request', name, w₁, hrun, h⟩, ?_⟩
      rintro (h | ⟨request'', name', w', h, hinterrupted⟩)
      · exact absurd h hwrites
      · rw [hrun] at h
        cases h
        exact hinterrupted
  · rw [run_bind_panicked hrun]
    refine (hreceive.panicked hrun).congr ⟨Or.inl, ?_⟩
    rintro (h | ⟨request', name, w', h, -⟩)
    · exact h
    · rw [hrun] at h
      cases h

/-- **Temp files outlive an upload exactly when it stops between receiving and storing**: its
bundling panics or its bits cannot be written, their digests cannot be computed, or the updater does
not accept that they are processed. -/
theorem noTempLeft_iff (formats : Formats) (handler : ResourceHandler σ) (request : Request)
    (identifier : Bytes) (w : Env σ) :
    NoTempLeft w ((addOrReplace formats handler request identifier).run w).2 ↔
      ¬ LosesTempFile formats handler request identifier w :=
  (leavesIff_addOrReplace formats handler request identifier w).noneLeft_iff

end Upload

/-! ## A package that is no longer to be updated -/

def plainPackages : ResourceHandler (MapStore × CloudController) :=
  (newResourceHandler inmemoryBlobstore mapBlobstore (ascii "package") 0).updatingCC stagingUpdater

/-- The Cloud Controller answers that the package cannot be updated. -/
def refusedUpload : Env (MapStore × CloudController) :=
  ⟨⟨fun _ => [], fun _ => none, 0, []⟩, (⟨fun _ => none, [], []⟩, ⟨[.ok 422], []⟩), .empty⟩

theorem not_noTempLeft_refused :
    ¬ NoTempLeft refusedUpload
      ((addOrReplace plainFormats plainPackages emptyPackage (ascii "app")).run
        refusedUpload).2 := by
  have hlost : LosesTempFile plainFormats plainPackages emptyPackage (ascii "app")
      refusedUpload := by
    have hreceive : (receiveUpload plainFormats plainPackages emptyPackage).run refusedUpload =
      (.returned (some (emptyPackage, 0)), _) := rfl
    refine .inr ⟨emptyPackage, 0, _, hreceive, .inr (.inr ?_)⟩
    rintro ⟨s, h⟩
    have hforbidden : (plainPackages.updater.notifyProcessingUpload (ascii "app")).run
        refusedUpload.ext = (.returned (.error .stateForbidden), _) := rfl
    have hok := hforbidden.symm.trans h
    cases hok
  exact fun h => (leavesIff_addOrReplace plainFormats plainPackages emptyPackage (ascii "app")
    refusedUpload).noneLeft_iff.mp h hlost

end BitsService
