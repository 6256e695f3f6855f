import BitsService.Stash.MatchedBundles
import BitsService.Stash.SharedStash

/-! # Bundles while others use the stash

What has been put to the stash before a request begins is there for all of it. So a client that asks
for matches, and then has a package bundled from what matches and from the files that do not, gets
the package that it would get alone; and a receipt bundles what was uploaded. -/
namespace BitsService
open GoLib GoLib.Effect GoLib.Interference GoLib.Interleaving GoLib.Retry
set_option autoImplicit false

/-! ## Bundles from a stash that takes what is put -/

section Bundle
variable {σ : Type} {digests : Digests} (minimumSize maximumSize : ℕ)
  {blobstore : NoRedirectBlobstore σ} {I : σ → Prop} {w : Env σ}

/-- In the states `I`, the stash takes a content. -/
def TakesUpload (digests : Digests) (blobstore : NoRedirectBlobstore σ) (I : σ → Prop)
    (content : Bytes) : Prop :=
  ∀ s, I s → ∃ s', (blobstore.put (digests.key content) content).run s =
    (.returned (.ok ()), s') ∧ I s'

theorem run_stashAttempt_of_accepts {content : Bytes}
    (hput : TakesUpload digests blobstore I content)
    (hw : Steady I w) {name : ℕ} (hc : w.host.temps name = some content) :
    ∃ w', (stashAttempt digests minimumSize maximumSize blobstore content (some name)).run w =
      (.returned (none, some name), w') ∧ Steady I w' ∧ w'.host = w.host := by
  rw [stashAttempt_some, run_bind_returned (run_onHost_of (hw.1.run_openTemp hc))]
  simp only
  by_cases hsize : minimumSize ≤ content.length ∧ content.length ≤ maximumSize
  · obtain ⟨s, hrun, hs⟩ := hput w.ext hw.2
    have hstored : (onExt (blobstore.put (digests.key content) content)).run w =
        (.returned (.ok ()), { w with ext := s }) := by
      rw [run_onExt, hrun]
    rw [if_pos hsize, run_bind_returned hstored]
    exact ⟨_, rfl, ⟨hw.1, hs⟩, rfl⟩
  · rw [if_neg hsize]
    exact ⟨w, rfl, hw, rfl⟩

theorem run_stashEntry_of_accepts {content : Bytes} (hput : TakesUpload digests blobstore I content)
    (hw : Steady I w) {name : ℕ} (hc : w.host.temps name = some content) (z : ZipWriter) :
    ∃ w', (stashEntry digests minimumSize maximumSize blobstore content name z).run w =
      (.returned (.ok z), w') ∧ Steady I w' := by
  let w₁ : Env σ := { w with host := { w.host with budgets := w.host.budgets.tail } }
  have hw₁ : Steady I w₁ := hw
  obtain ⟨w₂, hrun, hw₂, -⟩ := run_stashAttempt_of_accepts minimumSize maximumSize hput hw₁ hc
  unfold stashEntry
  rw [run_bind_returned (run_onHost_of (m := takeBudget) rfl),
    run_bind_returned (run_retryNotify_done _ hrun)]
  exact ⟨_, rfl, hw₂⟩

theorem run_bundleUploadedEntry_of_accepts {entry : ZipEntry}
    (hput : TakesUpload digests blobstore I entry.content) (hr : isRegular entry.header.mode = true)
    (hfits : FitsZip entry.header.name) (es : List ZipEntry) (hw : Steady I w) : ∃ w',
      (bundleUploadedEntry digests minimumSize maximumSize blobstore entry ⟨es, none⟩).run w =
        (.returned (.ok ⟨es ++ [uploadedEntry entry], none⟩), w') ∧ Steady I w' := by
  let header := ZipWriter.completeHeader (zipEntryHeader entry.header.name entry.header.mode)
  have hd : isDirName entry.header.name = false := isDirName_of_isRegular hr
  let w₁ : Env σ := { w with host := { w.host with
    temps := Function.update w.host.temps w.host.next (some []), next := w.host.next + 1 } }
  let w₂ : Env σ := { w₁ with host := { w₁.host with
    temps := Function.update w₁.host.temps w.host.next (some entry.content) } }
  have hw₁ : Steady I w₁ := hw
  have hw₂ : Steady I w₂ := hw
  obtain ⟨w₃, hstash, hw₃⟩ := run_stashEntry_of_accepts minimumSize maximumSize hput hw₂
    (Function.update_self _ _ _) (ZipWriter.opened es header entry.content)
  refine ⟨{ w₃ with host := w₃.host.removeTemp w.host.next }, ?_, hw₃⟩
  unfold bundleUploadedEntry
  rw [run_orReturn_ok (run_onHost_of (hw.1.run_createHeader es hfits _)),
    run_orReturn_ok (run_onHost_of (hw.1.run_osCall .openEntry)),
    run_orReturn_ok (run_onHost_of (hw.1.run_createTemp (by decide)))]
  refine run_removingTemp ?_
  refine (run_orReturn_ok (run_onHost_of (hw₁.1.run_copyEntry es header hd
    entry.content w.host.next))).trans ?_
  refine (run_orReturn_ok (run_onHost_of (hw₂.1.run_osCall .closeTemp))).trans ?_
  exact (run_orReturn_ok (run_onHost_of (hw₂.1.run_osCall .closeEntry))).trans hstash

theorem run_bundleUploaded_of_accepts {entries : List ZipEntry}
    (hput : ∀ entry ∈ entries, TakesUpload digests blobstore I entry.content)
    (hfits : ∀ entry ∈ entries, FitsZip entry.header.name) (es : List ZipEntry)
    (hw : Steady I w) : ∃ w',
      (bundleUploaded digests minimumSize maximumSize blobstore entries ⟨es, none⟩).run w =
        (.returned (.ok ⟨es ++ (regularEntries (some entries)).map uploadedEntry, none⟩), w') ∧
      Steady I w' := by
  induction entries generalizing es w with
  | nil => exact ⟨w, by simp [bundleUploaded, regularEntries], hw⟩
  | cons entry entries ih =>
    obtain ⟨hentry, hentries⟩ := List.forall_mem_cons.mp hput
    obtain ⟨hname, hnames⟩ := List.forall_mem_cons.mp hfits
    unfold bundleUploaded
    by_cases hr : isRegular entry.header.mode = true
    · obtain ⟨w₁, hrun, hw₁⟩ :=
        run_bundleUploadedEntry_of_accepts minimumSize maximumSize hentry hr hname es hw
      obtain ⟨w₂, hrest, hw₂⟩ := ih hentries hnames (es ++ [uploadedEntry entry]) hw₁
      rw [if_pos hr, run_orReturn_ok hrun, hrest, regularEntries_cons_of_regular entries hr]
      exact ⟨w₂, by simp, hw₂⟩
    · rw [if_neg hr, regularEntries_cons_of_not_regular entries hr]
      exact ih hentries hnames es hw

/-- **A bundle of uploaded entries and of what is served.** -/
theorem run_createTempZipFileFrom_of_accepts (format : ZipFormat) {view : Bytes → Result Body}
    {payload : List Fingerprint} {entries : List ZipEntry}
    (hput : ∀ entry ∈ entries, TakesUpload digests blobstore I entry.content)
    (hfits : ∀ entry ∈ entries, FitsZip entry.header.name)
    (hreads : ∀ f ∈ payload, Reads blobstore I f.sha1 (view f.sha1))
    (hserved : ∀ f ∈ payload, FitsZip f.fn ∧ Served view f) (hw : Steady I w) :
    ∃ name w', (createTempZipFileFrom digests format minimumSize maximumSize blobstore payload
        (some entries)).run w = (.returned (.ok name), w') ∧ Steady I w' ∧
      w'.host.temps name = some (format.encode
        ((regularEntries (some entries)).map uploadedEntry ++ payload.map (servedEntry view))) := by
  let w₁ : Env σ := { w with host := { w.host with
    temps := Function.update w.host.temps w.host.next (some []), next := w.host.next + 1 } }
  have hw₁ : Steady I w₁ := hw
  obtain ⟨w₂, huploaded, hw₂⟩ :=
    run_bundleUploaded_of_accepts minimumSize maximumSize hput hfits [] hw₁
  obtain ⟨r, w₃, hbundle, hw₃, hr, hz⟩ := run_bundlePayload_of_reads hreads hw₂
    ([] ++ (regularEntries (some entries)).map uploadedEntry)
  cases r with
  | error e => exact absurd (hr.mpr hserved) (by simp)
  | ok z =>
    obtain rfl := hz z rfl
    let zip := format.encode
      ((regularEntries (some entries)).map uploadedEntry ++ payload.map (servedEntry view))
    let w₄ : Env σ := { w₃ with host := { w₃.host with
      temps := Function.update w₃.host.temps w.host.next (some zip) } }
    have hwrite : (writeBundle digests format minimumSize maximumSize blobstore payload
        (some entries) w.host.next).run w₁ = (.returned (.ok ()), w₄) := by
      unfold writeBundle
      refine (run_orReturn_ok huploaded).trans ((run_orReturn_ok hbundle).trans ?_)
      exact run_bind_returned (run_onHost_of (hw₃.1.run_close _ format))
    refine ⟨w.host.next, w₄, ?_, hw₃, Function.update_self _ _ _⟩
    unfold createTempZipFileFrom
    rw [run_orReturn_ok (run_onHost_of (hw.1.run_createTemp (by decide)))]
    exact run_bind_returned hwrite

end Bundle

/-! ## Matches from a stash that changes -/

section Matches
variable {σ : Type} {formats : Formats} {handler : AppStashHandler σ} {I : σ → Prop}
  {low up : Bytes → Prop} {w : Env σ}

/-- In the states `I`, asking finds every key of `low`, and none but those of `up`. -/
def FindsWithin (blobstore : NoRedirectBlobstore σ) (I : σ → Prop) (low up : Bytes → Prop) : Prop :=
  ∀ key s, I s → ∃ found s', (blobstore.existsBlob key).run s = (.returned (.ok found), s') ∧ I s' ∧
    (low key → found = true) ∧ (found = true → up key)

/-- What is answered: fingerprints of the right size, of which none of `low` is left out, and none
is in but those of `up`. -/
structure MatchedWithin (minimumSize maximumSize : ℕ) (low up : Bytes → Prop)
    (fingerprints matched : List Fingerprint) : Prop where
  sublist : matched.Sublist fingerprints
  inRange : ∀ f ∈ matched, InRange minimumSize maximumSize f.size
  isUp : ∀ f ∈ matched, up f.sha1
  all : ∀ f ∈ fingerprints, InRange minimumSize maximumSize f.size → low f.sha1 → f ∈ matched

section
variable {minimumSize maximumSize : ℕ}

theorem MatchedWithin.skip {f : Fingerprint} {fingerprints matched : List Fingerprint}
    (h : MatchedWithin minimumSize maximumSize low up fingerprints matched)
    (hskip : ¬ (InRange minimumSize maximumSize f.size ∧ low f.sha1)) :
    MatchedWithin minimumSize maximumSize low up (f :: fingerprints) matched where
  sublist := h.sublist.cons f
  inRange := h.inRange
  isUp := h.isUp
  all g hg hsize hlow := by
    rcases List.mem_cons.mp hg with rfl | hg
    · exact absurd ⟨hsize, hlow⟩ hskip
    · exact h.all g hg hsize hlow

theorem MatchedWithin.take {f : Fingerprint} {fingerprints matched : List Fingerprint}
    (h : MatchedWithin minimumSize maximumSize low up fingerprints matched)
    (hsize : InRange minimumSize maximumSize f.size) (hup : up f.sha1) :
    MatchedWithin minimumSize maximumSize low up (f :: fingerprints) (f :: matched) where
  sublist := h.sublist.cons_cons f
  inRange := List.forall_mem_cons.mpr ⟨hsize, h.inRange⟩
  isUp := List.forall_mem_cons.mpr ⟨hup, h.isUp⟩
  all g hg hsize hlow := by
    rcases List.mem_cons.mp hg with rfl | hg
    · exact List.mem_cons_self
    · exact List.mem_cons_of_mem _ (h.all g hg hsize hlow)

end

theorem run_matchedFingerprints_within (hfinds : FindsWithin handler.blobstore I low up)
    (fingerprints : List Fingerprint) (hw : Steady I w) :
    ∃ matched w', (matchedFingerprints handler fingerprints).run w = (.returned matched, w') ∧
      Steady I w' ∧ w'.response = w.response ∧
      MatchedWithin handler.minimumSize handler.maximumSize low up fingerprints matched := by
  induction fingerprints generalizing w with
  | nil => exact ⟨[], w, rfl, hw, rfl, ⟨.slnil, by simp, by simp, by simp⟩⟩
  | cons f fingerprints ih =>
    have hskip : (f.size < handler.minimumSize ∨ handler.maximumSize < f.size) ↔
        ¬ InRange handler.minimumSize handler.maximumSize f.size := by
      unfold InRange
      omega
    unfold matchedFingerprints
    by_cases hsize : InRange handler.minimumSize handler.maximumSize f.size
    · obtain ⟨found, s, hrun, hs, hlow, hup⟩ := hfinds f.sha1 w.ext hw.2
      let w₁ : Env σ := { w with ext := s }
      have hw₁ : Steady I w₁ := ⟨hw.1, hs⟩
      have hexists : (onExt (handler.blobstore.existsBlob f.sha1)).run w =
          (.returned (.ok found), w₁) := by
        rw [run_onExt, hrun]
      obtain ⟨matched, w₂, hrest, hw₂, hresponse, hmatched⟩ := ih hw₁
      rw [if_neg fun h => hskip.mp h hsize, run_bind_returned hexists,
        run_bind_returned (run_panicOnError_ok found w₁), run_bind_returned hrest]
      cases found with
      | true => exact ⟨f :: matched, w₂, rfl, hw₂, hresponse, hmatched.take hsize (hup rfl)⟩
      | false =>
        exact ⟨matched, w₂, rfl, hw₂, hresponse,
          hmatched.skip fun h => Bool.false_ne_true (hlow h.2)⟩
    · obtain ⟨matched, w₁, hrest, hw₁, hresponse, hmatched⟩ := ih hw
      rw [if_pos (hskip.mpr hsize)]
      exact ⟨matched, w₁, hrest, hw₁, hresponse, hmatched.skip fun h => hsize h.1⟩

variable (handler) in
theorem run_postMatches_within (hfinds : FindsWithin handler.blobstore I low up) {text : Bytes}
    (hlimit : handler.maxBodySizeLimit = 0 ∨ text.length ≤ handler.maxBodySizeLimit)
    {fingerprints : List Fingerprint} (hne : fingerprints ≠ [])
    (hjson : formats.json.unmarshal text = some fingerprints) (hw : Steady I w)
    (hresponse : w.response = .empty) :
    ∃ matched w', (postMatches formats handler (jsonRequest text)).run w = (.returned (), w') ∧
      w'.response = ⟨some 200, [], [.raw (formats.json.marshal matched)]⟩ ∧
      MatchedWithin handler.minimumSize handler.maximumSize low up fingerprints matched := by
  obtain ⟨matched, w₁, hrun, -, hsame, hmatched⟩ :=
    run_matchedFingerprints_within hfinds fingerprints hw
  obtain ⟨f, rest, rfl⟩ := List.exists_cons_of_ne_nil hne
  refine ⟨matched, { w₁ with response := ⟨some 200, [], [.raw (formats.json.marshal matched)]⟩ },
    ?_, rfl, hmatched⟩
  rw [run_postMatches_of_cons hlimit hjson, run_bind_returned hrun, run_write, hsame, hresponse]
  rfl

end Matches

/-! ## A bundle from a form -/

section Form
variable {σ : Type} {formats : Formats} {handler : AppStashHandler σ} {I : σ → Prop}
  {view : Bytes → Result Body} {w : Env σ}

/-- A request for a bundle of fingerprints and of the entries of an archive. -/
structure BundleForm (formats : Formats) (maxBodySizeLimit : ℕ) (request : Request)
    (resources : Bytes) (entries : List ZipEntry) : Prop where
  limited : (request.limited maxBodySizeLimit).isSome = true
  contentType : ascii "multipart/form-data" <:+: request.header (ascii "Content-Type")
  resourcesFile : request.formFile (ascii "resources") = .ok (some resources)
  applicationFile : request.formFile (ascii "application") =
    .ok (some (formats.zip.encode entries))

theorem run_postBundles_of_form {request : Request} {resources : Bytes} {entries : List ZipEntry}
    (h : BundleForm formats handler.maxBodySizeLimit request resources entries)
    (hfits : ∀ entry ∈ entries, FitsZip entry.header.name) (w : Env σ) :
    (postBundles formats handler request).run w =
      (bundleAndSend formats handler resources (some entries)).run w := by
  obtain ⟨request', hlimited⟩ := Option.isSome_iff_exists.mp h.limited
  have hsame := eq_of_limited hlimited
  have htype : ascii "multipart/form-data" <:+: request'.header (ascii "Content-Type") := by
    rw [hsame]
    exact h.contentType
  have hresources : request'.formFile (ascii "resources") = .ok (some resources) := by
    rw [hsame]
    exact h.resourcesFile
  have happlication : request'.formFile (ascii "application") =
      .ok (some (formats.zip.encode entries)) := by
    rw [hsame]
    exact h.applicationFile
  unfold postBundles
  rw [run_bind_returned (run_handleBodySizeLimits hlimited w)]
  simp only [if_pos htype, hresources, happlication]
  rw [run_bind_returned (run_panicOnError_ok _ w)]
  simp only
  rw [run_bind_returned (run_panicOnError_ok _ w)]
  simp only [formats.zip.decode_encode hfits]

variable (handler) in
theorem run_postBundles_of_accepts {request : Request} {resources : Bytes}
    {entries : List ZipEntry} {payload : List Fingerprint}
    (hform : BundleForm formats handler.maxBodySizeLimit request resources entries)
    (hjson : formats.json.unmarshal resources = some payload)
    (hkeys : anyKeyMissingIn payload = none)
    (hput : ∀ entry ∈ entries, TakesUpload formats.digests handler.blobstore I entry.content)
    (hfits : ∀ entry ∈ entries, FitsZip entry.header.name)
    (hreads : ∀ f ∈ payload, Reads handler.blobstore I f.sha1 (view f.sha1))
    (hserved : ∀ f ∈ payload, FitsZip f.fn ∧ Served view f) (hw : Steady I w)
    (hresponse : w.response = .empty) :
    ∃ w', (postBundles formats handler request).run w = (.returned (), w') ∧
      w'.response = ⟨some 200, [], [.raw (formats.zip.encode
        ((regularEntries (some entries)).map uploadedEntry ++
          payload.map (servedEntry view)))]⟩ := by
  obtain ⟨name, w₁, hrun, hw₁, htemp⟩ := run_createTempZipFileFrom_of_accepts
    handler.minimumSize handler.maximumSize formats.zip hput hfits hreads hserved hw
  have hempty : w₁.response = .empty :=
    (keeps_createTempZipFileFrom (I := fun w : Env σ => w.response = .empty) (fun _ _ h => h)
      (fun _ _ h => h) (fun _ _ h => h) formats.zip handler.minimumSize handler.maximumSize
      payload (some entries)).of_run hrun hresponse
  rw [run_postBundles_of_form hform hfits, bundleAndSend_eq formats handler hjson hkeys,
    run_bind_returned hrun, answerBundle, run_sendBundle_of_temp hw₁.1 htemp, hempty]
  exact ⟨_, rfl, rfl⟩

end Form

/-! ## A request along a history -/

section Along
variable {σ τ ι : Type} [DecidableEq ι] (d : StashDeployment σ τ) {I : σ → Prop}
  {held : σ → Bytes → Option Bytes}

/-- The stash along the rest of a history is in `R` from the first step of `me` on. -/
def StashDeployment.SettledIn (me : ι) (R : σ → Prop) (s : SharedService ι StashCall σ × τ) :
    Prop :=
  StaysIn (StashCall.effect d.appStash.blobstore) me R s.1

variable {d} {me : ι} {R : σ → Prop}

theorem StashDeployment.run_along_of_returned {α : Type} {m : Prog GoError σ α} {a : α}
    (hm : ∀ s, R s → ∃ s', m.run s = (.returned a, s') ∧ R s') (call : StashCall)
    {s : SharedService ι StashCall σ × τ} (hs : d.SettledIn me R s) :
    ∃ s', (zoom (fstPart _ τ) (Interference.along (StashCall.effect d.appStash.blobstore) me call
      m)).run s = (.returned a, s') ∧ d.SettledIn me R s' := by
  obtain ⟨v, hrun, hv⟩ := StaysIn.run_along_returned hs call hm
  refine ⟨(v, s.2), ?_, hv⟩
  rw [run_zoom]
  exact congrArg (fun r => (r.1, (r.2, s.2))) hrun

variable (hstash : AtomicStash d.appStash.blobstore I held)
include hstash

variable (me) in
theorem StashDeployment.reads_stashOf {contents : List Bytes} {content : Bytes}
    (hmem : content ∈ contents) :
    Reads (d.stashOf me) (d.SettledIn me (AtomicStash.Has d.formats.digests I held contents))
      (d.formats.digests.key content) (.ok (.whole content)) := by
  intro s hs
  refine d.run_along_of_returned (fun s hs => ?_) _ hs
  obtain ⟨s', hrun, hs', hheld⟩ := hstash.get (d.formats.digests.key content) s hs.1
  rw [heldReads, hs.2 content hmem] at hrun
  refine ⟨s', hrun, hs', fun c hc => ?_⟩
  rw [hheld]
  exact hs.2 c hc

theorem StashDeployment.accepts_stashOf {contents : List Bytes} {content : Bytes}
    (htold : ∀ c ∈ contents, d.formats.digests.key content = d.formats.digests.key c →
      content = c) :
    TakesUpload d.formats.digests (d.stashOf me)
      (d.SettledIn me (AtomicStash.Has d.formats.digests I held contents)) content := by
  intro s hs
  refine d.run_along_of_returned (fun s hs => ?_) _ hs
  obtain ⟨s', hrun, hs', hheld⟩ := hstash.put (d.formats.digests.key content) content s hs.1
  refine ⟨s', hrun, ?_⟩
  have hhas : AtomicStash.Has d.formats.digests I held contents
      ((StashCall.put (d.formats.digests.key content) content).effect d.appStash.blobstore s) :=
    hstash.effect_has rfl htold hs
  rw [StashCall.effect, hrun] at hhas
  exact hhas

/-- What has been put before the first step of a request, it finds. -/
theorem StashDeployment.settledIn_has {before later : List (ι × StashCall)} {s₀ : σ} (hs₀ : I s₀)
    {contents : List Bytes} (hsteps : ∀ step ∈ before ++ later, step.2.Stashes d.formats.digests ∧
      AtomicStash.ToldFrom d.formats.digests contents step.2)
    (hput : ∀ content ∈ contents, held s₀ (d.formats.digests.key content) = some content ∨
      ∃ i, (i, .put (d.formats.digests.key content) content) ∈ before)
    (hme : ofParty me before = []) (own : τ) :
    d.SettledIn me (AtomicStash.Has d.formats.digests I held contents)
      (.start s₀ (before ++ later), own) :=
  ⟨before, later, rfl, hme, hstash.after_has hs₀
      (fun step h => hsteps step (List.mem_append_left _ h)) hput,
    fun step h _ => hstash.effect_has (hsteps step (List.mem_append_right _ h)).1
      (hsteps step (List.mem_append_right _ h)).2⟩

variable (me) in
/-- Asking finds what has been put before the first step of a request, and nothing that is not put
by the end. -/
theorem StashDeployment.findsWithin_stashOf {before later : List (ι × StashCall)} {s₀ : σ}
    (hs₀ : I s₀) (hsteps : ∀ step ∈ before ++ later, step.2.Stashes d.formats.digests)
    (hme : ofParty me before = []) (own : τ) :
    ∃ J, J (.start s₀ (before ++ later), own) ∧ FindsWithin (d.stashOf me) J
      (AtomicStash.Known held s₀ before) (AtomicStash.Known held s₀ (before ++ later)) := by
  let R : σ → Prop := fun s => I s ∧ ∀ key,
    (AtomicStash.Known held s₀ before key → (held s key).isSome = true) ∧
      ((held s key).isSome = true → AtomicStash.Known held s₀ (before ++ later) key)
  have hbefore : ∀ step ∈ before, step.2.Stashes d.formats.digests :=
    fun step h => hsteps step (List.mem_append_left _ h)
  refine ⟨d.SettledIn me R, ⟨before, later, rfl, hme, ⟨?_, fun key => ?_⟩, ?_⟩, ?_⟩
  · exact after_keeps (fun step h s => hstash.effect_keeps (hbefore step h)) hs₀
  · have hafter := hstash.after_isSome_iff hbefore hs₀ key
    refine ⟨hafter.mpr, fun h => ?_⟩
    refine (hafter.mp h).imp_right ?_
    rintro ⟨i, src, hmem⟩
    exact ⟨i, src, List.mem_append_left _ hmem⟩
  · rintro ⟨i, call⟩ hstep s ⟨hs, hkeys⟩
    have hcall := hsteps (i, call) (List.mem_append_right _ hstep)
    refine ⟨hstash.effect_keeps hcall hs, fun key => ?_⟩
    rw [hstash.effect_isSome_iff hcall hs key]
    refine ⟨fun h => .inl ((hkeys key).1 h), ?_⟩
    rintro (hheld | ⟨src, rfl⟩)
    · exact (hkeys key).2 hheld
    · exact .inr ⟨i, src, List.mem_append_right _ hstep⟩
  · intro key s hs
    obtain ⟨v, ahead, hv, hrun, hsettled⟩ :=
      StaysIn.run_along hs (.existsBlob key) (d.appStash.blobstore.existsBlob key)
    obtain ⟨v', hexists, hv', hheld⟩ := hstash.existsBlob key v hv.1
    rw [hexists] at hrun
    have hsettled' : d.SettledIn me R
        (⟨v', ahead, s.1.made ++ [.existsBlob key]⟩, s.2) :=
      hsettled v' ⟨hv', fun k => by rw [hheld]; exact hv.2 k⟩
    refine ⟨(held v key).isSome, _, ?_, hsettled', (hv.2 key).1, (hv.2 key).2⟩
    rw [StashDeployment.stashOf, NoRedirectBlobstore.zoom, run_zoom]
    exact congrArg (fun r => (r.1, (r.2, s.2))) hrun

end Along

/-! ## The two requests of a client -/

section Client
variable {σ τ ι : Type} [DecidableEq ι] {d : StashDeployment σ τ} {I : σ → Prop}
  {held : σ → Bytes → Option Bytes} {parties : ι → StashParty τ} {s₀ : σ}

/-- **What matches while others use the stash**: of the fingerprints of the right size, all whose
keys were put before the request, and none whose keys are not put by the end. -/
theorem StashDeployment.answers_matches (hstash : AtomicStash d.appStash.blobstore I held)
    (hs₀ : I s₀) {before later : List (ι × StashCall)}
    (hconcurrent : d.Concurrent parties s₀ (before ++ later)) {me : ι}
    (hme : ofParty me before = []) (hhost : (parties me).host.Faultless) {text : Bytes}
    (hrequest : (parties me).request = .postMatches (jsonRequest text))
    (hlimit : d.appStash.maxBodySizeLimit = 0 ∨ text.length ≤ d.appStash.maxBodySizeLimit)
    {fingerprints : List Fingerprint} (hne : fingerprints ≠ [])
    (hjson : d.formats.json.unmarshal text = some fingerprints) :
    ∃ matched, (d.ends (parties me) s₀ (before ++ later) me).response =
        ⟨some 200, [], [.raw (d.formats.json.marshal matched)]⟩ ∧
      MatchedWithin d.appStash.minimumSize d.appStash.maximumSize
        (AtomicStash.Known held s₀ before) (AtomicStash.Known held s₀ (before ++ later))
        fingerprints matched := by
  obtain ⟨J, hJ, hfinds⟩ :=
    d.findsWithin_stashOf me hstash hs₀ hconcurrent.stashes hme (parties me).own
  have hw : Steady J ((parties me).begins s₀ (before ++ later)) := ⟨hhost, hJ⟩
  obtain ⟨matched, w', hrun, hresponse, hmatched⟩ :=
    run_postMatches_within (d.appStashOf me) hfinds hlimit hne hjson hw rfl
  refine ⟨matched, ?_, hmatched⟩
  rw [StashDeployment.ends, hrequest, serve, hrun]
  exact hresponse

/-- SHA-1 tells some files from each other, from what the stash holds under its keys, and from all
that is put. -/
structure FilesToldApart (digests : Digests) (held : Bytes → Option Bytes)
    (history : List (ι × StashCall)) (files : List ZipEntry) : Prop where
  addressed : ∀ k b, held k = some b → digests.key b = k
  noCollisions : NoCollisions digests held files
  puts : ∀ step ∈ history, AtomicStash.ToldFrom digests (files.map ZipEntry.content) step.2

omit [DecidableEq ι] in
/-- A known key of one of the files is that of its content. -/
theorem FilesToldApart.content_of_known {digests : Digests} {history : List (ι × StashCall)}
    {files : List ZipEntry} (h : FilesToldApart digests (held s₀) history files)
    {steps : List (ι × StashCall)} (hsub : ∀ step ∈ steps, step ∈ history)
    (hstashes : ∀ step ∈ history, step.2.Stashes digests) {f : ZipEntry} (hf : f ∈ files)
    (hknown : AtomicStash.Known held s₀ steps (digests.key f.content)) :
    held s₀ (digests.key f.content) = some f.content ∨
      ∃ i, (i, .put (digests.key f.content) f.content) ∈ steps := by
  rcases hknown with hheld | ⟨i, src, hmem⟩
  · obtain ⟨b, hb⟩ := Option.isSome_iff_exists.mp hheld
    have hsame : b = f.content :=
      h.noCollisions f hf b (.inr ⟨_, hb⟩) (h.addressed _ _ hb)
    exact .inl (hb.trans (congrArg some hsame))
  · have hkey : digests.key f.content = digests.key src := hstashes _ (hsub _ hmem)
    have hsame : src = f.content :=
      h.puts _ (hsub _ hmem) f.content (List.mem_map_of_mem hf) hkey.symm
    rw [hsame] at hmem
    exact .inr ⟨i, hmem⟩

theorem filter_mem_of_sublist {α : Type} [DecidableEq α] {l m : List α} (h : m.Sublist l)
    (hl : l.Nodup) : l.filter (· ∈ m) = m := by
  have hfilter : m.Sublist (l.filter (· ∈ m)) := by
    have hself : m.filter (· ∈ m) = m := List.filter_eq_self.mpr fun a ha => by simpa using ha
    have hsub := h.filter (· ∈ m)
    rwa [hself] at hsub
  have hnodup : (l.filter (· ∈ m)).Nodup := hl.filter _
  have hperm : (l.filter (· ∈ m)).Perm m :=
    (List.perm_ext_iff_of_nodup hnodup (h.nodup hl)).mpr fun a => by
      simp only [List.mem_filter, decide_eq_true_eq]
      exact ⟨fun ha => ha.2, fun ha => ⟨h.subset ha, ha⟩⟩
  exact (hfilter.eq_of_length hperm.length_eq.symm).symm

theorem Application.nodup_fingerprints (app : Application) (digests : Digests) :
    (app.files.map (ZipEntry.fingerprint digests)).Nodup := by
  have hnames : ((app.files.map (ZipEntry.fingerprint digests)).map Fingerprint.fn).Nodup := by
    rw [List.map_map]
    exact app.names_nodup
  exact hnames.of_map

/-- The files of an application that are in an answer to a request for matches. -/
def Application.stashed (app : Application) (digests : Digests) (matched : List Fingerprint) :
    List ZipEntry := app.files.filter fun f => f.fingerprint digests ∈ matched

theorem Application.map_stashed (app : Application) {digests : Digests}
    {matched : List Fingerprint}
    (h : matched.Sublist (app.files.map (ZipEntry.fingerprint digests))) :
    (app.stashed digests matched).map (ZipEntry.fingerprint digests) = matched :=
  List.filter_map.symm.trans (filter_mem_of_sublist h (app.nodup_fingerprints digests))

theorem Application.perm_stashed (app : Application) (digests : Digests)
    (matched : List Fingerprint) :
    (unmatched digests matched app.files ++ app.stashed digests matched).Perm app.files := by
  have hrest : unmatched digests matched app.files =
      app.files.filter fun f => !decide (f.fingerprint digests ∈ matched) := by
    refine List.filter_congr fun f _ => ?_
    simp
  rw [hrest]
  exact List.perm_append_comm.trans (List.filter_append_perm _ app.files)

theorem Application.file_uploadedEntry (app : Application) {f : ZipEntry} (hf : f ∈ app.files) :
    (uploadedEntry f).file = f.file := by
  have hmode : (uploadedEntry f).header.mode = f.header.mode :=
    mode_completeHeader (app.not_dir f hf) (app.mode_bits f hf)
  rw [ZipEntry.file, hmode]
  rfl

/-- What does not match, and what is served for what does, are the files of the application. -/
theorem Application.perm_bundled (app : Application) (digests : Digests)
    {matched : List Fingerprint}
    (hmatched : matched.Sublist (app.files.map (ZipEntry.fingerprint digests)))
    {m : Bytes → Option Bytes}
    (hm : ∀ f ∈ app.stashed digests matched, m (digests.key f.content) = some f.content) :
    (((regularEntries (some (unmatched digests matched app.files))).map uploadedEntry ++
      matched.map (servedEntry (heldReads m))).map ZipEntry.file).Perm
        (app.files.map ZipEntry.file) := by
  let stashed := app.stashed digests matched
  let rest := unmatched digests matched app.files
  have hmap : stashed.map (ZipEntry.fingerprint digests) = matched := app.map_stashed hmatched
  have hstashed : ∀ f ∈ stashed, f ∈ app.files := fun f hf => (List.mem_filter.mp hf).1
  have hrest : ∀ f ∈ rest, f ∈ app.files := fun f hf => (List.mem_filter.mp hf).1
  have hregular : regularEntries (some rest) = rest :=
    List.filter_eq_self.mpr fun f hf => (app.mode_bits f (hrest f hf)).isRegular
  have huploaded : (rest.map uploadedEntry).map ZipEntry.file = rest.map ZipEntry.file := by
    rw [List.map_map]
    exact List.map_congr_left fun f hf => app.file_uploadedEntry (hrest f hf)
  have hbundled : (matched.map (servedEntry (heldReads m))).map ZipEntry.file =
      stashed.map ZipEntry.file := by
    rw [← hmap, List.map_map, List.map_map]
    refine List.map_congr_left fun f hf => ?_
    exact file_servedEntry digests (app.mode_bits f (hstashed f hf)).isRegular (hm f hf)
  rw [hregular, List.map_append, huploaded, hbundled, ← List.map_append]
  exact (app.perm_stashed digests matched).map ZipEntry.file

/-- What holds of the puts of other files holds of those of some of them. -/
theorem toldFrom_of_subset {digests : Digests} {contents contents' : List Bytes}
    (hsub : ∀ c ∈ contents, c ∈ contents') {call : StashCall}
    (h : AtomicStash.ToldFrom digests contents' call) :
    AtomicStash.ToldFrom digests contents call := by
  cases call with
  | put key src => exact fun c hc => h c (hsub c hc)
  | _ => trivial

/-- The request for a bundle, by a client that has the answer `text` to a request for matches. -/
def BundlesWith (d : StashDeployment σ τ) (app : Application) (party : StashParty τ)
    (text : Bytes) (matched : List Fingerprint) : Prop :=
  ∃ request, party.request = .postBundles request ∧
    BundleForm d.formats d.appStash.maxBodySizeLimit request text
      (unmatched d.formats.digests matched app.files)

/-- The answer to a request is an archive of exactly these files. -/
def AnswersFiles (formats : Formats) (response : Response) (files : List ZipEntry) : Prop :=
  ∃ file es, response = ⟨some 200, [], [.raw file]⟩ ∧ formats.zip.decode file = .ok es ∧
    (es.map ZipEntry.file).Perm (files.map ZipEntry.file)

/-- **A bundle while others use the stash**: files whose contents were put before the request are
bundled with those that come with it, whatever is put besides. -/
theorem StashDeployment.answers_bundle (hstash : AtomicStash d.appStash.blobstore I held)
    (hs₀ : I s₀) (app : Application) {before later : List (ι × StashCall)}
    (hconcurrent : d.Concurrent parties s₀ (before ++ later))
    (htold : FilesToldApart d.formats.digests (held s₀) (before ++ later) app.files) {me : ι}
    (hme : ofParty me before = []) (hhost : (parties me).host.Faultless)
    {matched : List Fingerprint}
    (hmatched : matched.Sublist (app.files.map (ZipEntry.fingerprint d.formats.digests)))
    (hknown : ∀ f ∈ matched, AtomicStash.Known held s₀ before f.sha1)
    (hrequest : BundlesWith d app (parties me) (d.formats.json.marshal matched) matched) :
    AnswersFiles d.formats (d.ends (parties me) s₀ (before ++ later) me).response app.files := by
  let digests := d.formats.digests
  let stashed := app.stashed digests matched
  let rest := unmatched digests matched app.files
  obtain ⟨request, hpost, hform⟩ := hrequest
  have hmap : stashed.map (ZipEntry.fingerprint digests) = matched := app.map_stashed hmatched
  have hstashed : ∀ f ∈ stashed, f ∈ app.files := fun f hf => (List.mem_filter.mp hf).1
  have hrest : ∀ f ∈ rest, f ∈ app.files := fun f hf => (List.mem_filter.mp hf).1
  -- the stash has the contents of the stashed files from the first step of the request on
  have hsub : ∀ step ∈ before, step ∈ before ++ later := fun _ h => List.mem_append_left _ h
  have hput : ∀ content ∈ stashed.map ZipEntry.content,
      held s₀ (digests.key content) = some content ∨
        ∃ i, (i, .put (digests.key content) content) ∈ before := by
    intro content hcontent
    obtain ⟨f, hf, rfl⟩ := List.mem_map.mp hcontent
    refine htold.content_of_known hsub hconcurrent.stashes (hstashed f hf) ?_
    have hmem : f.fingerprint digests ∈ matched := by
      rw [← hmap]
      exact List.mem_map_of_mem hf
    exact hknown _ hmem
  have hputs : ∀ step ∈ before ++ later, step.2.Stashes digests ∧
      AtomicStash.ToldFrom digests (stashed.map ZipEntry.content) step.2 := by
    intro step hstep
    refine ⟨hconcurrent.stashes step hstep, toldFrom_of_subset (fun c hc => ?_)
      (htold.puts step hstep)⟩
    obtain ⟨f, hf, rfl⟩ := List.mem_map.mp hc
    exact List.mem_map_of_mem (hstashed f hf)
  let J := d.SettledIn me
    (AtomicStash.Has digests I held (stashed.map ZipEntry.content))
  have hw : Steady J ((parties me).begins s₀ (before ++ later)) :=
    ⟨hhost, d.settledIn_has hstash hs₀ hputs hput hme (parties me).own⟩
  let view : Bytes → Result Body := heldReads
    (held (after (StashCall.effect d.appStash.blobstore) before s₀))
  have hhas := hstash.after_has hs₀ (fun step h => hputs step (hsub step h)) hput
  have hview : ∀ f ∈ stashed, held (after (StashCall.effect d.appStash.blobstore) before s₀)
      (digests.key f.content) = some f.content :=
    fun f hf => hhas.2 _ (List.mem_map_of_mem hf)
  have hreads : ∀ f ∈ matched, Reads (d.stashOf me) J f.sha1 (view f.sha1) := by
    rw [← hmap]
    intro g hg
    obtain ⟨f, hf, rfl⟩ := List.mem_map.mp hg
    have hread := d.reads_stashOf me hstash
      (List.mem_map_of_mem (f := ZipEntry.content) hf)
    show Reads (d.stashOf me) J (digests.key f.content) (heldReads _ (digests.key f.content))
    rw [heldReads, hview f hf]
    exact hread
  have hfits : ∀ f ∈ rest, FitsZip f.header.name := fun f hf => app.name_fits f (hrest f hf)
  have hserved : ∀ f ∈ matched, FitsZip f.fn ∧ Served view f := by
    rw [← hmap]
    intro g hg
    obtain ⟨f, hf, rfl⟩ := List.mem_map.mp hg
    exact ⟨app.name_fits f (hstashed f hf),
      served_fingerprint digests (app.mode_bits f (hstashed f hf)).isRegular (hview f hf)⟩
  have hbundled : ∀ e ∈ (regularEntries (some rest)).map uploadedEntry ++
      matched.map (servedEntry view), FitsZip e.header.name := by
    rw [List.forall_mem_append, List.forall_mem_map, List.forall_mem_map]
    exact ⟨fun f hf => hfits f (List.mem_of_mem_filter hf), fun f hf => (hserved f hf).1⟩
  have haccepts : ∀ f ∈ rest, TakesUpload digests (d.stashOf me) J f.content := fun f hf =>
    d.accepts_stashOf hstash fun c hc hkey => by
      obtain ⟨g, hg, rfl⟩ := List.mem_map.mp hc
      exact htold.noCollisions g (hstashed g hg) f.content (.inl ⟨f, hrest f hf, rfl⟩) hkey
  have hjson : d.formats.json.unmarshal (d.formats.json.marshal matched) = some matched := by
    rw [← hmap]
    exact unmarshal_fingerprints app d.formats hstashed
  have hkeys : anyKeyMissingIn matched = none := by
    rw [← hmap]
    exact anyKeyMissingIn_fingerprints digests fun f hf => app.name_ne f (hstashed f hf)
  obtain ⟨w', hrun, hresponse⟩ := run_postBundles_of_accepts (d.appStashOf me) hform hjson
    hkeys haccepts hfits hreads hserved hw rfl
  refine ⟨_, (regularEntries (some rest)).map uploadedEntry ++ matched.map (servedEntry view), ?_,
    d.formats.zip.decode_encode hbundled, app.perm_bundled digests hmatched hview⟩
  rw [StashDeployment.ends, hpost, serve, hrun]
  exact hresponse

/-- **Resource matching is transparent while others use the stash**: what matches is bundled with
the files that do not, whatever other requests do before, between and during the two requests of
the client. -/
theorem StashDeployment.matching_transparent_concurrently
    (hstash : AtomicStash d.appStash.blobstore I held) (hs₀ : I s₀) (app : Application)
    {before later : List (ι × StashCall)}
    (hconcurrent : d.Concurrent parties s₀ (before ++ later))
    (htold : FilesToldApart d.formats.digests (held s₀) (before ++ later) app.files)
    {asking bundling : ι} (hasking : (parties asking).host.Faultless)
    (hbundling : (parties bundling).host.Faultless) (hme : ofParty bundling before = [])
    (hask : (parties asking).request = .postMatches (jsonRequest (d.formats.json.marshal
      (app.files.map (ZipEntry.fingerprint d.formats.digests)))))
    (hlimit : d.appStash.maxBodySizeLimit = 0 ∨ (d.formats.json.marshal
      (app.files.map (ZipEntry.fingerprint d.formats.digests))).length ≤
        d.appStash.maxBodySizeLimit) :
    ∃ matched, matched.Sublist (app.files.map (ZipEntry.fingerprint d.formats.digests)) ∧
      (d.ends (parties asking) s₀ before asking).response =
        ⟨some 200, [], [.raw (d.formats.json.marshal matched)]⟩ ∧
      (BundlesWith d app (parties bundling) (d.formats.json.marshal matched) matched →
        AnswersFiles d.formats (d.ends (parties bundling) s₀ (before ++ later) bundling).response
          app.files) := by
  have hfirst : ∀ step ∈ [] ++ before, step.2.Stashes d.formats.digests :=
    fun step h => hconcurrent.stashes step (List.mem_append_left _ (by simpa using h))
  obtain ⟨J, hJ, hfinds⟩ :=
    d.findsWithin_stashOf asking hstash hs₀ hfirst rfl (parties asking).own
  have hw : Steady J ((parties asking).begins s₀ before) := ⟨hasking, hJ⟩
  obtain ⟨matched, w', hrun, hresponse, hmatched⟩ :=
    run_postMatches_within (d.appStashOf asking) hfinds hlimit
      (by simpa using app.files_ne) (unmarshal_fingerprints app d.formats fun _ h => h) hw rfl
  refine ⟨matched, hmatched.sublist, ?_, fun hbundles => ?_⟩
  · rw [StashDeployment.ends, hask, serve, hrun]
    exact hresponse
  · exact d.answers_bundle hstash hs₀ app hconcurrent htold hme hbundling hmatched.sublist
      hmatched.isUp hbundles

end Client

/-! ## Three clients -/

inductive StashClient where
  | uploading
  | asking
  | bundling
  deriving DecidableEq

def sharedMapStash : StashDeployment MapStore MapStore :=
  ⟨plainFormats, mapAppStash 0 0 100, inmemoryBlobstore, nullUpdater, 0⟩

def emptyStash : MapStore := ⟨fun _ => none, [], []⟩

def helloMatch : List Fingerprint :=
  (twoFiles.files.take 1).map (ZipEntry.fingerprint helloDigests)

def bundleUpload (matched : List Fingerprint) : Request where
  contentLength := 0
  header key := if key = ascii "Content-Type" then ascii "multipart/form-data" else []
  query := []
  body := ⟨[], none⟩
  form := .ok ⟨[], [(ascii "resources", plainJson.marshal matched),
    (ascii "application",
      plainFormat.encode (unmatched helloDigests matched twoFiles.files))]⟩

def twoFilesRequest : StashClient → StashRequest
  | .uploading => .postEntries (entriesUpload plainFormats greetingFile)
  | .asking => .postMatches (jsonRequest (sharedMapStash.formats.json.marshal
      (twoFiles.files.map (ZipEntry.fingerprint sharedMapStash.formats.digests))))
  | .bundling => .postBundles (bundleUpload helloMatch)

def twoFilesClients (client : StashClient) : StashParty MapStore :=
  ⟨twoFilesRequest client, (Env.fresh ()).host, emptyStash⟩

def uploadingSteps : List (StashClient × StashCall) :=
  [(.uploading, .put (helloDigests.key (ascii "hello")) (ascii "hello"))]

def askingSteps : List (StashClient × StashCall) :=
  [(.asking, .existsBlob (helloDigests.key (ascii "hello"))),
    (.asking, .existsBlob (helloDigests.key (ascii "exec")))]

def bundlingSteps : List (StashClient × StashCall) :=
  [(.bundling, .put (helloDigests.key (ascii "exec")) (ascii "exec")),
    (.bundling, .get (helloDigests.key (ascii "hello")))]

theorem concurrent_twoFiles : sharedMapStash.Concurrent twoFilesClients emptyStash
    (uploadingSteps ++ (askingSteps ++ bundlingSteps)) := by
  intro client
  cases client with
  | uploading => exact ⟨[], by decide +kernel⟩
  | asking => exact ⟨[], by decide +kernel⟩
  | bundling => exact ⟨[], by decide +kernel⟩

theorem StashDeployment.answers_matches_twoFiles : ∃ matched,
    (sharedMapStash.ends (twoFilesClients .asking) emptyStash
        (uploadingSteps ++ (askingSteps ++ bundlingSteps)) .asking).response =
      ⟨some 200, [], [.raw (sharedMapStash.formats.json.marshal matched)]⟩ ∧
    MatchedWithin 0 100 (AtomicStash.Known MapStore.contents emptyStash uploadingSteps)
      (AtomicStash.Known MapStore.contents emptyStash
        (uploadingSteps ++ (askingSteps ++ bundlingSteps)))
      (twoFiles.files.map (ZipEntry.fingerprint sharedMapStash.formats.digests)) matched := by
  have hme : ofParty StashClient.asking uploadingSteps = [] := rfl
  have hhost : (twoFilesClients .asking).host.Faultless := fun _ => rfl
  have hstash : AtomicStash sharedMapStash.appStash.blobstore MapStore.Faultless
      MapStore.contents := atomicStash_mapBlobstore
  have hrequest : (twoFilesClients .asking).request = .postMatches (jsonRequest
      (sharedMapStash.formats.json.marshal
        (twoFiles.files.map (ZipEntry.fingerprint sharedMapStash.formats.digests)))) := rfl
  have hne : twoFiles.files.map (ZipEntry.fingerprint sharedMapStash.formats.digests) ≠ [] :=
    List.cons_ne_nil _ _
  have hjson := @unmarshal_fingerprints twoFiles sharedMapStash.formats twoFiles.files fun _ h => h
  exact StashDeployment.answers_matches hstash ⟨rfl, rfl⟩ concurrent_twoFiles hme hhost hrequest
    (.inl rfl) hne hjson

theorem filesToldApart_twoFiles : FilesToldApart helloDigests emptyStash.contents
    (uploadingSteps ++ (askingSteps ++ bundlingSteps)) twoFiles.files where
  addressed _ _ h := nomatch h
  noCollisions := by
    rintro f hf b (⟨g, hg, rfl⟩ | ⟨k, hk⟩) hkey
    · have hkeys : ∀ f ∈ twoFiles.files, ∀ g ∈ twoFiles.files,
          helloDigests.key g.content = helloDigests.key f.content → g.content = f.content := by
        decide
      exact hkeys f hf g hg hkey
    · cases hk
  puts := by
    have htold : ∀ step ∈ bundlingSteps ++ uploadingSteps, ∀ key src, step.2 = .put key src →
        ∀ c ∈ twoFiles.files.map ZipEntry.content,
          helloDigests.key src = helloDigests.key c → src = c := by
      intro step hstep
      simp only [bundlingSteps, uploadingSteps, List.cons_append, List.nil_append, List.mem_cons,
        List.not_mem_nil, or_false] at hstep
      rcases hstep with rfl | rfl | rfl
      · rintro _ _ ⟨⟩
        decide
      · rintro _ _ ⟨⟩
      · rintro _ _ ⟨⟩
        decide
    rintro ⟨client, call⟩ hstep
    cases call with
    | put key src =>
      refine htold (client, .put key src) ?_ key src rfl
      simp only [uploadingSteps, askingSteps, bundlingSteps, List.cons_append, List.nil_append,
        List.mem_cons, List.not_mem_nil, or_false, Prod.mk.injEq, reduceCtorEq, and_false,
        false_or] at hstep ⊢
      rcases hstep with h | h
      · exact .inr h
      · exact .inl h
    | _ => trivial

theorem bundlesWith_twoFiles : BundlesWith sharedMapStash twoFiles (twoFilesClients .bundling)
    (plainJson.marshal helloMatch) helloMatch :=
  ⟨bundleUpload helloMatch, rfl, rfl, List.infix_rfl, rfl, rfl⟩

/-- `hello` matches, and is bundled with the other file. -/
theorem StashDeployment.matching_transparent_concurrently_twoFiles :
    (sharedMapStash.ends (twoFilesClients .asking) emptyStash (uploadingSteps ++ askingSteps)
        .asking).response = ⟨some 200, [], [.raw (plainJson.marshal helloMatch)]⟩ ∧
      AnswersFiles plainFormats (sharedMapStash.ends (twoFilesClients .bundling) emptyStash
        (uploadingSteps ++ askingSteps ++ bundlingSteps) .bundling).response twoFiles.files := by
  have hstash : AtomicStash sharedMapStash.appStash.blobstore MapStore.Faultless
      MapStore.contents := atomicStash_mapBlobstore
  have hmatching : ∃ matched,
      matched.Sublist (twoFiles.files.map (ZipEntry.fingerprint helloDigests)) ∧
      (sharedMapStash.ends (twoFilesClients .asking) emptyStash (uploadingSteps ++ askingSteps)
          .asking).response = ⟨some 200, [], [.raw (plainJson.marshal matched)]⟩ ∧
        (BundlesWith sharedMapStash twoFiles (twoFilesClients .bundling)
            (plainJson.marshal matched) matched →
          AnswersFiles plainFormats (sharedMapStash.ends (twoFilesClients .bundling) emptyStash
            (uploadingSteps ++ askingSteps ++ bundlingSteps) .bundling).response twoFiles.files) :=
    StashDeployment.matching_transparent_concurrently hstash ⟨rfl, rfl⟩ twoFiles
      (by rw [List.append_assoc]; exact concurrent_twoFiles)
      (by rw [List.append_assoc]; exact filesToldApart_twoFiles) (fun _ => rfl) (fun _ => rfl) rfl
      rfl (.inl rfl)
  obtain ⟨matched, hsublist, hasked, hbundled⟩ := hmatching
  have hhello : (sharedMapStash.ends (twoFilesClients .asking) emptyStash
      (uploadingSteps ++ askingSteps) .asking).response =
        ⟨some 200, [], [.raw (plainJson.marshal helloMatch)]⟩ := by
    decide +kernel
  -- the text of the answer tells what matches
  have htext : plainJson.marshal matched = plainJson.marshal helloMatch := by
    rw [hhello] at hasked
    simpa using hasked.symm
  have hcoerce : ∀ f ∈ twoFiles.files.map (ZipEntry.fingerprint helloDigests), f.coerce = f := by
    decide +kernel
  have hread : matched.map Fingerprint.coerce = helloMatch.map Fingerprint.coerce := by
    simpa only [plainJson.unmarshal_marshal, Option.some.injEq] using
      congrArg plainJson.unmarshal htext
  have hmatched : matched = helloMatch := by
    rw [List.map_congr_left fun f hf => hcoerce f (hsublist.subset hf), List.map_id'] at hread
    exact hread
  subst hmatched
  exact ⟨hhello, hbundled bundlesWith_twoFiles⟩

end BitsService
