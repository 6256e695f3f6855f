import BitsService.Stash.BundleExactness

/-! # Which entries of an uploaded archive are stashed

Those of the right size, one after the other, each offered until a `Put` takes it or the retries are
over. Whatever fails, the entries that were stashed are the first ones of them. -/
namespace BitsService
open GoLib.Effect GoLib.Retry
set_option autoImplicit false

/-! ## Offers -/

abbrev Offer := Bytes × Bytes

/-- The blobstore, with a note of every key and content that a `Put` is called with. -/
def NoRedirectBlobstore.recordingPuts {σ : Type} (blobstore : NoRedirectBlobstore σ) :
    NoRedirectBlobstore (σ × List Offer) :=
  { blobstore.zoom (fstPart σ (List Offer)) with
    put := fun key src => noted (fun _ => (key, src)) (blobstore.put key src) }

/-- The contents were offered in turn under their own keys, each once or more often. -/
inductive OfferedInTurn (digests : Digests) : List Bytes → List Offer → Prop where
  | nothing : OfferedInTurn digests [] []
  | first {contents : List Bytes} {offers : List Offer} (h : OfferedInTurn digests contents offers)
      (content : Bytes) : OfferedInTurn digests (contents ++ [content])
        (offers ++ [(digests.key content, content)])
  | again {contents : List Bytes} {content : Bytes} {offers : List Offer}
      (h : OfferedInTurn digests (contents ++ [content]) offers) :
      OfferedInTurn digests (contents ++ [content]) (offers ++ [(digests.key content, content)])

theorem OfferedInTurn.mem {digests : Digests} {contents : List Bytes} {offers : List Offer}
    (h : OfferedInTurn digests contents offers) :
    ∀ offer ∈ offers, offer.2 ∈ contents ∧ offer.1 = digests.key offer.2 := by
  induction h with
  | nothing => exact fun offer ho => absurd ho List.not_mem_nil
  | first _ content ih =>
    intro offer ho
    rcases List.mem_append.mp ho with ho | ho
    · obtain ⟨hmem, hkey⟩ := ih offer ho
      exact ⟨List.mem_append_left _ hmem, hkey⟩
    · rw [List.mem_singleton.mp ho]
      exact ⟨List.mem_append_right _ List.mem_cons_self, rfl⟩
  | again _ ih =>
    intro offer ho
    rcases List.mem_append.mp ho with ho | ho
    · exact ih offer ho
    · rw [List.mem_singleton.mp ho]
      exact ⟨List.mem_append_right _ List.mem_cons_self, rfl⟩

/-! ## What has been stashed so far -/

section Progress
variable (digests : Digests) (minimumSize maximumSize : ℕ)

/-- The stash with one more content after the other, each under its own key. -/
def bindContents (contents : Bytes → Option Bytes) (cs : List Bytes) : Bytes → Option Bytes :=
  cs.foldl (fun contents c => Function.update contents (digests.key c) (some c)) contents

theorem bindContents_append (contents : Bytes → Option Bytes) (cs : List Bytes) (c : Bytes) :
    bindContents digests contents (cs ++ [c]) =
      Function.update (bindContents digests contents cs) (digests.key c) (some c) := by
  simp [bindContents]

/-- The content, if it is of the right size. -/
def ifInRange (c : Bytes) : List Bytes :=
  if InRange minimumSize maximumSize c.length then [c] else []

/-- The contents of the regular entries that are of the right size. -/
def inRangeContents (entries : List ZipEntry) : List Bytes :=
  ((entries.filter fun e => isRegular e.header.mode).map ZipEntry.content).filter fun c =>
    InRange minimumSize maximumSize c.length

abbrev Recorded := Env (MapStore × List Offer)

variable (old : Bytes → Option Bytes)

/-- `stashed` is what the stash has besides `old`, and `offered` is what it was offered. -/
structure Stashed (stashed offered : List Bytes) (w : Recorded) : Prop where
  contents : w.ext.1.contents = bindContents digests old stashed
  offers : OfferedInTurn digests offered w.ext.2

/-- Of `all`, the first ones are stashed, and those and at most one more were offered. -/
def StashedUpTo (all : List Bytes) (w : Recorded) : Prop :=
  ∃ stashed offered, stashed <+: offered ∧ offered <+: all ∧ Stashed digests old stashed offered w

variable {digests minimumSize maximumSize old} {stashed offered all : List Bytes} {w : Recorded}

theorem Stashed.upTo (h : Stashed digests old stashed stashed w) :
    StashedUpTo digests old stashed w := ⟨stashed, stashed, List.prefix_rfl, List.prefix_rfl, h⟩

theorem StashedUpTo.append (h : StashedUpTo digests old all w) (more : List Bytes) :
    StashedUpTo digests old (all ++ more) w := by
  obtain ⟨stashed, offered, hstashed, hoffered, h⟩ := h
  exact ⟨stashed, offered, hstashed, hoffered.trans (List.prefix_append _ _), h⟩

theorem hostBlind_stashed : HostBlind (Stashed digests old stashed offered) :=
  fun _ _ h => ⟨h.contents, h.offers⟩

theorem hostBlind_stashedUpTo : HostBlind (StashedUpTo digests old all) := by
  rintro w host ⟨stashed, offered, hstashed, hoffered, h⟩
  exact ⟨stashed, offered, hstashed, hoffered, hostBlind_stashed w host h⟩

/-- What the ending of a stage says about what is stashed. -/
def Staged (digests : Digests) (old : Bytes → Option Bytes) {α : Type} (all : List Bytes) :
    Result α → Recorded → Prop
  | .ok _, w => Stashed digests old all all w
  | .error _, w => StashedUpTo digests old all w

theorem Staged.upTo {α : Type} {r : Result α} (h : Staged digests old all r w) :
    StashedUpTo digests old all w := by
  cases r with
  | error e => exact h
  | ok a => exact Stashed.upTo h

theorem wp_orReturn_stashed {α β : Type} {m : Prog GoError Host (Result α)}
    {onError : GoError → GoError} {k : α → Prog GoError Recorded (Result β)} {cs : List Bytes}
    (hw : Stashed digests old cs cs w)
    (hk : ∀ a w', Stashed digests old cs cs w' → m.run w.host = (.returned (.ok a), w'.host) →
      wp (k a) (Staged digests old (cs ++ all)) (StashedUpTo digests old (cs ++ all)) w') :
    wp (orReturn (onHost m) onError k) (Staged digests old (cs ++ all))
      (StashedUpTo digests old (cs ++ all)) w := by
  have hkeep : wp (onHost m) (fun _ => Stashed digests old cs cs) (Stashed digests old cs cs) w :=
    wp_of_keeps (hostBlind_stashed.keeps_onHost m) hw
  refine wp_orReturn.mpr (wp_of_run (fun r w' hrun => ?_) (fun e w' hrun => ?_))
  · have hw' := hkeep.returned hrun
    cases r with
    | error e => exact hw'.upTo.append all
    | ok a => exact hk a w' hw' (run_onHost_eq_returned hrun).1
  · exact (hkeep.panicked hrun).upTo.append all

theorem wp_removingTemp_staged {α : Type} {m : Prog GoError Recorded (Result α)} {name : ℕ}
    (h : wp m (Staged digests old all) (StashedUpTo digests old all) w) :
    wp (removingTemp name m) (Staged digests old all) (StashedUpTo digests old all) w := by
  refine wp_removingTemp.mpr (h.mono (fun r w' hr => ?_)
    (fun w' hr => hostBlind_stashedUpTo w' _ hr))
  cases r with
  | error e => exact hostBlind_stashedUpTo w' _ hr
  | ok a => exact hostBlind_stashed w' _ hr

/-! ## One entry -/

/-- `c` is being stashed: it has been offered without success, or not yet. -/
def Trying (digests : Digests) (minimumSize maximumSize : ℕ) (old : Bytes → Option Bytes)
    (cs : List Bytes) (c : Bytes) (w : Recorded) : Prop :=
  Stashed digests old cs cs w ∨
    InRange minimumSize maximumSize c.length ∧ Stashed digests old cs (cs ++ [c]) w

variable {cs : List Bytes} {c : Bytes}

theorem ifInRange_pos (hc : InRange minimumSize maximumSize c.length) :
    ifInRange minimumSize maximumSize c = [c] := if_pos hc

theorem ifInRange_neg (hc : ¬ InRange minimumSize maximumSize c.length) :
    ifInRange minimumSize maximumSize c = [] := if_neg hc

theorem Trying.upTo (h : Trying digests minimumSize maximumSize old cs c w) :
    StashedUpTo digests old (cs ++ ifInRange minimumSize maximumSize c) w := by
  rcases h with h | ⟨hc, h⟩
  · exact h.upTo.append _
  · rw [ifInRange_pos hc]
    exact ⟨cs, cs ++ [c], List.prefix_append _ _, List.prefix_rfl, h⟩

theorem Trying.withHost (h : Trying digests minimumSize maximumSize old cs c w) (host : Host) :
    Trying digests minimumSize maximumSize old cs c { w with host := host } := by
  rcases h with h | ⟨hc, h⟩
  · exact .inl (hostBlind_stashed w host h)
  · exact .inr ⟨hc, hostBlind_stashed w host h⟩

theorem Trying.contents_eq (h : Trying digests minimumSize maximumSize old cs c w) :
    w.ext.1.contents = bindContents digests old cs := by
  rcases h with h | ⟨-, h⟩
  · exact h.contents
  · exact h.contents

theorem Trying.offers (h : Trying digests minimumSize maximumSize old cs c w) :
    OfferedInTurn digests (cs ++ [c]) (w.ext.2 ++ [(digests.key c, c)]) := by
  rcases h with h | ⟨-, h⟩
  · exact h.offers.first c
  · exact h.offers.again

theorem wp_put_recordingPuts (h : Trying digests minimumSize maximumSize old cs c w) :
    wp (onExt (mapBlobstore.recordingPuts.put (digests.key c) c)) (fun r w' =>
      w'.host = w.host ∧ match r with
        | .ok _ => Stashed digests old (cs ++ [c]) (cs ++ [c]) w'
        | .error _ => Stashed digests old cs (cs ++ [c]) w') (fun _ => False) w := by
  have hrun : (onExt (mapBlobstore.recordingPuts.put (digests.key c) c)).run w =
      (((mapBlobstore.put (digests.key c) c).run w.ext.1).1,
        { w with ext := (((mapBlobstore.put (digests.key c) c).run w.ext.1).2,
          w.ext.2 ++ [(digests.key c, c)]) }) := rfl
  cases hscript : w.ext.1.putScript.headD (.ok ()) with
  | error e =>
    rw [run_mapBlobstore_put_error hscript] at hrun
    exact wp_of_returned hrun ⟨rfl, h.contents_eq, h.offers⟩
  | ok u =>
    rw [run_mapBlobstore_put_ok hscript] at hrun
    refine wp_of_returned hrun ⟨rfl, ?_, h.offers⟩
    rw [bindContents_append, ← h.contents_eq]

theorem wp_stashAttempt_trying {name : ℕ} {tempFile : Option ℕ}
    (hname : tempFile = none ∨ tempFile = some name) (htemp : w.host.temps name = some c)
    (h : Trying digests minimumSize maximumSize old cs c w) :
    wp (stashAttempt digests minimumSize maximumSize mapBlobstore.recordingPuts c tempFile)
      (fun r w' => (r.2 = none ∨ r.2 = some name) ∧ w'.host.temps name = some c ∧ match r.1 with
        | none => Stashed digests old (cs ++ ifInRange minimumSize maximumSize c)
            (cs ++ ifInRange minimumSize maximumSize c) w'
        | some _ => Trying digests minimumSize maximumSize old cs c w')
      (StashedUpTo digests old (cs ++ ifInRange minimumSize maximumSize c)) w := by
  rcases hname with rfl | rfl
  · exact h.upTo
  obtain ⟨r, h₁, hopen, htemps, hsrc⟩ := run_openTemp name w.host
  have htemp₁ : h₁.temps name = some c := (congrFun htemps name).trans htemp
  have h₁' := h.withHost h₁
  have hopen : (onHost (openTemp name)).run w = (.returned r, { w with host := h₁ }) := by
    rw [run_onHost, hopen]
  rw [stashAttempt_some]
  refine wp_bind.mpr (wp_of_returned hopen ?_)
  cases r with
  | error e => exact ⟨.inl rfl, htemp₁, h₁'⟩
  | ok src =>
    -- what is offered is what the temp file holds
    obtain rfl : src = c := Option.some.inj ((hsrc src rfl).symm.trans htemp)
    simp only
    by_cases hc : minimumSize ≤ src.length ∧ src.length ≤ maximumSize
    · rw [if_pos hc]
      refine (wp_put_recordingPuts h₁').bind (fun r w₂ hput => ?_) (fun _ hno => hno.elim)
      obtain ⟨hhost, hput⟩ := hput
      have htemp₂ : w₂.host.temps name = some src := by rw [hhost, htemp₁]
      refine ⟨.inr rfl, htemp₂, ?_⟩
      cases r with
      | error e =>
        split
        · next hfails => exact absurd hfails (by simp [stashPutFailure_eq_none_iff])
        · exact .inr ⟨hc, hput⟩
      | ok u =>
        rw [ifInRange_pos hc]
        exact hput
    · rw [if_neg hc]
      refine ⟨.inr rfl, htemp₁, ?_⟩
      rw [ifInRange_neg hc, List.append_nil]
      rcases h₁' with h | ⟨hc', -⟩
      · exact h
      · exact absurd hc' hc

/-- What the ending of the retries of an entry says about what is stashed. -/
def Retried (digests : Digests) (old : Bytes → Option Bytes) (all : List Bytes) :
    Option GoError → Recorded → Prop
  | none, w => Stashed digests old all all w
  | some _, w => StashedUpTo digests old all w

theorem wp_stashEntry_staged {name : ℕ} {z : ZipWriter} (htemp : w.host.temps name = some c)
    (h : Stashed digests old cs cs w) :
    wp (stashEntry digests minimumSize maximumSize mapBlobstore.recordingPuts c name z)
      (Staged digests old (cs ++ ifInRange minimumSize maximumSize c))
      (StashedUpTo digests old (cs ++ ifInRange minimumSize maximumSize c)) w := by
  let Inv : Option ℕ → Recorded → Prop := fun t w => (t = none ∨ t = some name) ∧
    w.host.temps name = some c ∧ Trying digests minimumSize maximumSize old cs c w
  let R : Option GoError × Option ℕ → Recorded → Prop := fun r =>
    Retried digests old (cs ++ ifInRange minimumSize maximumSize c) r.1
  let w₁ : Recorded := { w with host := { w.host with budgets := w.host.budgets.tail } }
  have hbudget : (onHost takeBudget).run w = (.returned (w.host.budgets.headD 0), w₁) := rfl
  have hw₁ : Inv (some name) w₁ := ⟨.inr rfl, htemp, .inl (hostBlind_stashed w _ h)⟩
  unfold stashEntry
  refine wp_bind.mpr (wp_of_returned hbudget ?_)
  refine (wp_retryNotify Inv R (fun t w hw => ?_) _ hw₁).bind (fun r w₂ hr => ?_) (fun _ h => h)
  · refine (wp_stashAttempt_trying hw.1 hw.2.1 hw.2.2).mono (fun r w' hr => ?_) (fun _ h => h)
    obtain ⟨r, t⟩ := r
    cases r with
    | none => exact ⟨hr.2.2, fun e he => absurd he (by simp)⟩
    | some f => exact ⟨Trying.upTo hr.2.2, fun e _ => ⟨hr.1, hr.2.1, hr.2.2⟩⟩
  · obtain ⟨r, t⟩ := r
    cases r with
    | some e => exact hr
    | none =>
      cases t with
      | none => exact Stashed.upTo hr
      | some name => exact hostBlind_stashed w₂ _ hr

theorem wp_bundleUploadedEntry_staged {entry : ZipEntry} {z : ZipWriter}
    (h : Stashed digests old cs cs w) :
    wp (bundleUploadedEntry digests minimumSize maximumSize mapBlobstore.recordingPuts entry z)
      (Staged digests old (cs ++ ifInRange minimumSize maximumSize entry.content))
      (StashedUpTo digests old (cs ++ ifInRange minimumSize maximumSize entry.content)) w := by
  refine wp_orReturn_stashed h fun z w₁ h₁ _ => ?_
  refine wp_orReturn_stashed h₁ fun _ w₂ h₂ _ => ?_
  refine wp_orReturn_stashed h₂ fun tempFile w₃ h₃ _ => ?_
  refine wp_removingTemp_staged ?_
  refine wp_orReturn_stashed h₃ fun z w₄ h₄ hcopy => ?_
  refine wp_orReturn_stashed h₄ fun _ w₅ h₅ hcloseTemp => ?_
  refine wp_orReturn_stashed h₅ fun _ w₆ h₆ hcloseEntry => ?_
  refine wp_stashEntry_staged ?_ h₆
  rw [osCall_temps hcloseEntry, osCall_temps hcloseTemp]
  exact copyEntry_eq_ok hcopy

/-! ## The loop, and the whole function -/

theorem inRangeContents_cons_regular {entry : ZipEntry} (entries : List ZipEntry)
    (hr : isRegular entry.header.mode = true) :
    inRangeContents minimumSize maximumSize (entry :: entries) =
      ifInRange minimumSize maximumSize entry.content ++
        inRangeContents minimumSize maximumSize entries := by
  by_cases hc : InRange minimumSize maximumSize entry.content.length
  · simp [inRangeContents, ifInRange, hr, hc]
  · simp [inRangeContents, ifInRange, hr, hc]

theorem wp_bundleUploaded_staged (entries : List ZipEntry) {z : ZipWriter}
    (h : Stashed digests old cs cs w) :
    wp (bundleUploaded digests minimumSize maximumSize mapBlobstore.recordingPuts entries z)
      (Staged digests old (cs ++ inRangeContents minimumSize maximumSize entries))
      (StashedUpTo digests old (cs ++ inRangeContents minimumSize maximumSize entries)) w := by
  induction entries generalizing z cs w with
  | nil =>
    have hnil : cs ++ inRangeContents minimumSize maximumSize [] = cs := List.append_nil cs
    rw [hnil]
    exact h
  | cons entry entries ih =>
    unfold bundleUploaded
    by_cases hr : isRegular entry.header.mode = true
    · rw [if_pos hr, inRangeContents_cons_regular entries hr, ← List.append_assoc]
      refine wp_orReturn.mpr ((wp_bundleUploadedEntry_staged h).mono (fun r w' hr => ?_)
        (fun w' hr => hr.append _))
      cases r with
      | error e => exact StashedUpTo.append hr _
      | ok z => exact ih hr
    · have hskip : inRangeContents minimumSize maximumSize (entry :: entries) =
          inRangeContents minimumSize maximumSize entries := by
        simp [inRangeContents, hr]
      rw [if_neg hr, hskip]
      exact ih h

theorem keeps_stashed_get (key : Bytes) : Keeps (Stashed digests old stashed offered)
    (onExt (mapBlobstore.recordingPuts.get key)) := fun _ h => ⟨h.contents, h.offers⟩

/-- Nothing after the loop over the uploaded archive puts anything into the stash. -/
theorem keeps_stashed_payload (format : ZipFormat) (payload : List Fingerprint) (z : ZipWriter)
    (tempZipFile : ℕ) : Keeps (Stashed digests old stashed offered)
      (orReturn (bundlePayload mapBlobstore.recordingPuts payload z) id fun z => do
        let content ← onHost (z.close format)
        onHost (setTemp tempZipFile (some content))
        pure (.ok ())) :=
  keeps_orReturn (keeps_bundlePayload (I := Stashed digests old stashed offered) hostBlind_stashed
    keeps_stashed_get payload z) fun _ => Keeps.bind (hostBlind_stashed.keeps_onHost _) fun _ =>
      Keeps.bind (hostBlind_stashed.keeps_onHost _) fun _ => Keeps.pure _ _

theorem wp_writeBundle_staged (format : ZipFormat) (payload : List Fingerprint)
    (zipReader : Option (List ZipEntry)) (tempZipFile : ℕ)
    (h : Stashed digests old [] [] w) :
    wp (writeBundle digests format minimumSize maximumSize mapBlobstore.recordingPuts payload
      zipReader tempZipFile)
      (Staged digests old (inRangeContents minimumSize maximumSize (zipReader.getD [])))
      (StashedUpTo digests old (inRangeContents minimumSize maximumSize (zipReader.getD [])))
      w := by
  refine wp_orReturn.mpr ((wp_bundleUploaded_staged (zipReader.getD []) h).mono
    (fun r w₁ hr => ?_) (fun w₁ hr => hr))
  cases r with
  | error e => exact hr
  | ok z =>
    refine (wp_of_keeps (keeps_stashed_payload format payload z tempZipFile) hr).mono
      (fun r w₂ h₂ => ?_) (fun w₂ h₂ => h₂.upTo)
    cases r with
    | error e => exact h₂.upTo
    | ok u => exact h₂

variable (digests minimumSize maximumSize) in
theorem wp_createTempZipFileFrom_staged (format : ZipFormat) (payload : List Fingerprint)
    (zipReader : Option (List ZipEntry)) (h : Stashed digests old [] [] w) :
    wp (createTempZipFileFrom digests format minimumSize maximumSize mapBlobstore.recordingPuts
      payload zipReader)
      (Staged digests old (inRangeContents minimumSize maximumSize (zipReader.getD [])))
      (StashedUpTo digests old (inRangeContents minimumSize maximumSize (zipReader.getD [])))
      w := by
  refine wp_orReturn_stashed h fun tempZipFile w₁ h₁ _ => ?_
  refine (wp_writeBundle_staged format payload zipReader tempZipFile h₁).bind (fun r w₂ hr => ?_)
    (fun w₂ hr => hr)
  cases r with
  | error e => exact hostBlind_stashedUpTo w₂ _ hr
  | ok u => exact hr

end Progress

/-- The process with no `Put` noted yet. -/
def recording (w : Env MapStore) : Recorded := ⟨w.host, (w.ext, []), w.response⟩

/-- **What is stashed**: when bundling succeeds, exactly the regular entries of the right size, each
under its SHA-1; however it ends, the first ones of them. Every `Put`, the first one for an entry
or a later one, offers the whole content of such an entry under its SHA-1, one entry after the
other. -/
theorem stashesInRange (digests : Digests) (format : ZipFormat) (minimumSize maximumSize : ℕ)
    (payload : List Fingerprint) (zipReader : Option (List ZipEntry)) (w : Env MapStore) :
    let inRange := inRangeContents minimumSize maximumSize (zipReader.getD [])
    let run := (createTempZipFileFrom digests format minimumSize maximumSize
      mapBlobstore.recordingPuts payload zipReader).run (recording w)
    (∀ name, run.1 = .returned (.ok name) →
      run.2.ext.1.contents = bindContents digests w.ext.contents inRange ∧
        OfferedInTurn digests inRange run.2.ext.2) ∧
      (∃ stashed, stashed <+: inRange ∧
        run.2.ext.1.contents = bindContents digests w.ext.contents stashed) ∧
      (∃ offered, offered <+: inRange ∧ OfferedInTurn digests offered run.2.ext.2) ∧
      ∀ offer ∈ run.2.ext.2, offer.2 ∈ inRange ∧ offer.1 = digests.key offer.2 := by
  intro inRange run
  have hstart : Stashed digests w.ext.contents [] [] (recording w) := ⟨rfl, .nothing⟩
  have hstaged := wp_createTempZipFileFrom_staged digests minimumSize maximumSize format payload
    zipReader hstart
  have hupTo : StashedUpTo digests w.ext.contents inRange run.2 :=
    (hstaged.mono (fun _ _ hr => hr.upTo) (fun _ hr => hr)).after
  obtain ⟨stashed, offered, hstashed, hoffered, h⟩ := hupTo
  refine ⟨fun name hok => ?_, ⟨stashed, hstashed.trans hoffered, h.contents⟩,
    ⟨offered, hoffered, h.offers⟩, fun offer ho => ?_⟩
  · have hall : Stashed digests w.ext.contents inRange inRange run.2 :=
      hstaged.returned (Prod.ext hok rfl)
    exact ⟨hall.contents, hall.offers⟩
  · obtain ⟨hmem, hkey⟩ := h.offers.mem offer ho
    exact ⟨hoffered.subset hmem, hkey⟩

end BitsService
