import BitsService.Blobstores.GcpUpload

/-! # What a failed upload leaves behind

An upload that fails before its commit should leave the blob that was there. Azure has replaced it
by an empty one before the first byte is read, and Google's deferred `Close` commits what had been
written when the copy broke off. -/
namespace BitsService
open GoLib.Effect GoLib.Reading
set_option autoImplicit false

variable {ρ : Type} {src : Reader ρ UInt8 GoError}

/-! ## Reads and the calls that take them

Each read that delivers something is handed to one call of the service. -/

/-- The coming calls take what was read, if anything. -/
def Taken (data : Bytes) (faults : List (Option GoError)) : Prop :=
  data = [] ∨ faults.headD none = none

def spent (data : Bytes) (faults : List (Option GoError)) : List (Option GoError) :=
  if data = [] then faults else faults.tail

theorem not_taken_iff {data : Bytes} {faults : List (Option GoError)} :
    ¬ Taken data faults ↔ data ≠ [] ∧ ∃ e, faults.headD none = some e := by
  unfold Taken
  rw [not_or, ← Option.ne_none_iff_exists']

/-! ## Azure -/

namespace Azure
open AzureContainer

/-- Reading the source and staging what was read fails before the source comes to its end. -/
inductive Breaks (src : Reader ρ UInt8 GoError) (putBlockSize : ℕ) :
    ρ → List (Option GoError) → Prop
  | read {s faults e} (h : src.error putBlockSize s = some e) (he : e.text ≠ ascii "EOF") :
      Breaks src putBlockSize s faults
  | block {s faults} (h : ∀ e, src.error putBlockSize s = some e → e.text = ascii "EOF")
      (hnot : ¬ Taken (src.data putBlockSize s) faults) : Breaks src putBlockSize s faults
  | more {s faults} (h : src.error putBlockSize s = none)
      (htaken : Taken (src.data putBlockSize s) faults)
      (hrest : Breaks src putBlockSize (src.next putBlockSize s)
        (spent (src.data putBlockSize s) faults)) : Breaks src putBlockSize s faults

variable {putBlockSize : ℕ} {path : Bytes} {s : ρ} {c : AzureContainer}

/-- The two containers answer the same. -/
structure SameView (c c' : AzureContainer) : Prop where
  name : c'.name = c.name
  blobs : c'.blobs = c.blobs
  found : c'.found = c.found

theorem SameView.refl (c : AzureContainer) : SameView c c := ⟨rfl, rfl, rfl⟩

/-- A round in which the service takes what was read. -/
theorem run_uploadBlock_taken {data : Bytes} (h : Taken data c.faults) (path : Bytes) (i : ℕ)
    (ids : List Bytes) :
    ∃ ids' c', (uploadBlock path i data ids).run c = (.returned (.ok ids'), c') ∧
      c'.faults = spent data c.faults := by
  unfold uploadBlock spent
  by_cases hdata : data = []
  · rw [if_pos hdata, if_pos hdata]
    exact ⟨ids, c, rfl, rfl⟩
  · rw [if_neg hdata, if_neg hdata]
    have hhead := h.resolve_left hdata
    exact ⟨_, _, run_orReturn_ok (run_putBlock path (blockID i) data hhead), rfl⟩

theorem run_uploadBlock_refused {data : Bytes} (h : ¬ Taken data c.faults) (path : Bytes) (i : ℕ)
    (ids : List Bytes) :
    ∃ e c', (uploadBlock path i data ids).run c = (.returned (.error e), c') := by
  obtain ⟨hdata, e, he⟩ := not_taken_iff.mp h
  unfold uploadBlock
  rw [if_neg hdata]
  exact ⟨_, _, run_orReturn_error (run_write_failed he)⟩

theorem keeps_putBlock (c₀ : AzureContainer) (path id data : Bytes) :
    Keeps (SameView c₀) (putBlock path id data) := by
  intro c hc
  cases hhead : c.faults.headD none with
  | none =>
    rw [run_putBlock path id data hhead]
    exact ⟨hc.name, hc.blobs, hc.found⟩
  | some e =>
    unfold putBlock
    rw [run_write_failed hhead]
    exact ⟨hc.name, hc.blobs, hc.found⟩

theorem keeps_uploadBlock (c₀ : AzureContainer) (path : Bytes) (i : ℕ) (data : Bytes)
    (ids : List Bytes) : Keeps (SameView c₀) (uploadBlock path i data ids) := by
  unfold uploadBlock
  split
  · exact Keeps.pure _ _
  · exact keeps_orReturn (keeps_putBlock c₀ path _ data) (fun _ => Keeps.pure _ _)

/-- Staging shows in no answer. -/
theorem keeps_putBlocks (c₀ : AzureContainer) (path : Bytes) (fuel i : ℕ) (s : ρ)
    (ids : List Bytes) : Keeps (SameView c₀) (putBlocks src putBlockSize path fuel i s ids) := by
  induction fuel generalizing i s ids with
  | zero => exact Keeps.pure _ _
  | succ fuel ih =>
    unfold putBlocks
    cases src.error putBlockSize s with
    | none =>
      refine Keeps.bind (keeps_uploadBlock c₀ path i _ ids) (fun r => ?_)
      cases r with
      | error e => exact Keeps.pure _ _
      | ok ids' => exact ih (i + 1) _ ids'
    | some e =>
      by_cases he : e.text = ascii "EOF"
      · simp only [if_pos he]
        exact Keeps.bind (keeps_uploadBlock c₀ path i _ ids) (fun r => Keeps.pure _ _)
      · simp only [if_neg he]
        exact Keeps.pure _ _

theorem breaks_of_run {fuel i : ℕ} {ids : List Bytes} {e : GoError} {c' : AzureContainer}
    (h : (putBlocks src putBlockSize path fuel i s ids).run c =
      (.returned (some (.error e)), c')) : Breaks src putBlockSize s c.faults := by
  induction fuel generalizing i s ids c with
  | zero => cases h
  | succ fuel ih =>
    unfold putBlocks at h
    by_cases htaken : Taken (src.data putBlockSize s) c.faults
    · obtain ⟨ids', c₁, hrun, hfaults⟩ := run_uploadBlock_taken htaken path i ids
      cases hread : src.error putBlockSize s with
      | none =>
        simp only [hread] at h
        rw [run_bind_returned hrun] at h
        have hrest := ih h
        rw [hfaults] at hrest
        exact .more hread htaken hrest
      | some e' =>
        by_cases he : e'.text = ascii "EOF"
        · simp only [hread, if_pos he] at h
          rw [run_bind_returned hrun] at h
          cases h
        · exact .read hread he
    · cases hread : src.error putBlockSize s with
      | none => exact .block (fun e' he' => by rw [hread] at he'; cases he') htaken
      | some e' =>
        by_cases he : e'.text = ascii "EOF"
        · refine .block (fun e'' he'' => ?_) htaken
          rw [hread] at he''
          cases he''
          exact he
        · exact .read hread he

theorem run_of_breaks {faults : List (Option GoError)} (h : Breaks src putBlockSize s faults)
    (hfaults : c.faults = faults) (path : Bytes) (i : ℕ) (ids : List Bytes) :
    ∃ fuel e c', (putBlocks src putBlockSize path fuel i s ids).run c =
      (.returned (some (.error e)), c') := by
  induction h generalizing c i ids with
  | @read s faults e hread he =>
    refine ⟨1, .wrapped (ascii "put block failed: " ++ path) e, c, ?_⟩
    simp only [putBlocks, hread, if_neg he]
    rfl
  | @block s faults hread hnot =>
    rw [← hfaults] at hnot
    obtain ⟨e, c', hrun⟩ := run_uploadBlock_refused hnot path i ids
    refine ⟨1, e, c', ?_⟩
    cases herror : src.error putBlockSize s with
    | none =>
      simp only [putBlocks, herror]
      rw [run_bind_returned hrun]
      rfl
    | some e' =>
      simp only [putBlocks, herror, if_pos (hread e' herror)]
      rw [run_bind_returned hrun]
      rfl
  | @more s faults hread htaken hrest ih =>
    rw [← hfaults] at htaken
    obtain ⟨ids', c₁, hrun, hfaults₁⟩ := run_uploadBlock_taken htaken path i ids
    obtain ⟨fuel, e, c', hrest⟩ := ih (by rw [hfaults₁, hfaults]) (i + 1) ids'
    refine ⟨fuel + 1, e, c', ?_⟩
    simp only [putBlocks, hread]
    rw [run_bind_returned hrun]
    exact hrest

/-- What `Exists` and `Get` answer. -/
def answers (c : AzureContainer) (path : Bytes) :
    Outcome GoError (Result Bool) × Outcome GoError (Result Body) :=
  (((existsBlob path).run c).1, ((get path).run c).1)

/-- An error raised before the commit is what `Put` returns, and the path answers as before. -/
def KeepsOnFailure (src : Reader ρ UInt8 GoError) (putBlockSize : ℕ) (path : Bytes) (s : ρ)
    (c : AzureContainer) : Prop :=
  ∀ fuel e c', (stageBlocks src putBlockSize path fuel s).run c =
      (.returned (some (.error e)), c') →
    (put src putBlockSize path fuel s).run c = (.returned (some (.error e)), c') ∧
      answers c' path = answers c path

theorem answers_of_sameView {c c' : AzureContainer} (h : SameView c c') (path : Bytes) :
    answers c' path = answers c path := by
  simp only [answers, existsBlob, get, notFoundError, Prog.run, h.name, h.blobs, h.found]

theorem answers_emptyBlob_iff {c₁ : AzureContainer} (path : Bytes)
    (hblobs : c₁.blobs = Function.update c.blobs path (some [])) :
    answers c₁ path = answers c path ↔ (c.blobs path).map blobContent = some [] := by
  have hempty : c₁.blobs path = some [] := by rw [hblobs, Function.update_self]
  have hcontent : blobContent [] = [] := rfl
  simp only [answers, existsBlob, get, Prog.run, hempty, hcontent]
  cases hblob : c.blobs path with
  | none => simp
  | some blob =>
    simp only [Option.isSome_some, Option.map_some, Option.some.injEq, Prod.mk.injEq, true_and,
      Outcome.returned.injEq, Except.ok.injEq]
    constructor
    · intro h
      have hdelivered := congrArg Body.delivered h
      rw [Body.delivered_whole, Body.delivered_whole] at hdelivered
      exact hdelivered.symm
    · intro h
      rw [h]

/-- **A failed upload to Azure leaves the blob exactly when** the empty blob cannot be created in
the first place, nothing fails after that, or the blob was an empty one. -/
theorem keepsOnFailure_iff (src : Reader ρ UInt8 GoError) (putBlockSize : ℕ) (path : Bytes)
    (s : ρ) (c : AzureContainer) : KeepsOnFailure src putBlockSize path s c ↔
      c.faults.headD none ≠ none ∨ ¬ Breaks src putBlockSize s c.faults.tail ∨
        (c.blobs path).map blobContent = some [] := by
  cases hhead : c.faults.headD none with
  | some e =>
    have hcreate : (createBlockBlob path).run c = (.returned (.error e), _) :=
      run_write_failed hhead
    refine iff_of_true (fun fuel e' c' hstage => ?_) (.inl (by simp))
    have hname : (stageBlocks src putBlockSize path fuel s).run c = _ := run_bind_returned hcreate
    have hview : SameView c c' := by
      rw [hname] at hstage
      cases hstage
      exact ⟨rfl, rfl, rfl⟩
    exact ⟨run_bind_returned hstage, answers_of_sameView hview path⟩
  | none =>
    have hcreate := run_createBlockBlob path hhead
    have hstage : ∀ fuel, (stageBlocks src putBlockSize path fuel s).run c =
        (putBlocks src putBlockSize path fuel 0 s []).run { c with
          blobs := Function.update c.blobs path (some [])
          faults := c.faults.tail } := fun fuel => run_bind_returned hcreate
    have hview : ∀ fuel e c', (stageBlocks src putBlockSize path fuel s).run c =
        (.returned (some (.error e)), c') →
        c'.blobs = Function.update c.blobs path (some []) := by
      intro fuel e c' hrun
      rw [hstage] at hrun
      exact ((keeps_putBlocks _ path fuel 0 s []).of_run hrun (SameView.refl _)).blobs
    simp only [ne_eq, not_true_eq_false, false_or]
    constructor
    · intro hkeeps
      by_cases hbreaks : Breaks src putBlockSize s c.faults.tail
      · right
        obtain ⟨fuel, e, c', hrun⟩ := run_of_breaks (c := { c with
          blobs := Function.update c.blobs path (some [])
          faults := c.faults.tail }) hbreaks rfl path 0 []
        have hstaged := (hstage fuel).trans hrun
        exact (answers_emptyBlob_iff path (hview fuel e c' hstaged)).mp
          (hkeeps fuel e c' hstaged).2
      · exact .inl hbreaks
    · intro hcondition fuel e c' hstaged
      have hbreaks := hstaged
      rw [hstage] at hbreaks
      have hempty := hcondition.resolve_left (not_not.mpr (breaks_of_run hbreaks))
      exact ⟨run_bind_returned hstaged,
        (answers_emptyBlob_iff path (hview fuel e c' hstaged)).mpr hempty⟩

end Azure

/-! ## Google -/

namespace GcsUpload
open GcsBucket

theorem run_call_ok {g : GcsBucket} {effect : GcsBucket → GcsBucket}
    (hhead : g.faults.headD none = none) :
    (call effect).run g = (.returned (.ok ()), effect { g with faults := g.faults.tail }) := by
  unfold call Prog.run
  simp only [hhead]

theorem run_call_failed {g : GcsBucket} {effect : GcsBucket → GcsBucket} {e : GoError}
    (hhead : g.faults.headD none = some e) :
    (call effect).run g = (.returned (.error e), { g with faults := g.faults.tail }) := by
  unfold call Prog.run
  simp only [hhead]

/-- Copying the source to the writer fails, when `written` has been written; the calls after that
end as in the second list. -/
inductive CopyBreaks (src : Reader ρ UInt8 GoError) :
    ρ → List (Option GoError) → Bytes → List (Option GoError) → Prop
  | write {s faults} (hnot : ¬ Taken (src.data copyBufferSize s) faults) :
      CopyBreaks src s faults [] faults.tail
  | read {s faults e} (htaken : Taken (src.data copyBufferSize s) faults)
      (h : src.error copyBufferSize s = some e) (he : e ≠ ioEOF) :
      CopyBreaks src s faults (src.data copyBufferSize s)
        (spent (src.data copyBufferSize s) faults)
  | more {s faults written faults'} (htaken : Taken (src.data copyBufferSize s) faults)
      (h : src.error copyBufferSize s = none)
      (hrest : CopyBreaks src (src.next copyBufferSize s) (spent (src.data copyBufferSize s) faults)
        written faults') :
      CopyBreaks src s faults (src.data copyBufferSize s ++ written) faults'

variable {s : ρ} {g : GcsBucket} {path : Bytes}

theorem run_writeChunk_taken {data : Bytes} (h : Taken data g.faults) :
    (writeChunk data).run g = (.returned (.ok ()), { g with faults := spent data g.faults }) := by
  unfold writeChunk spent
  by_cases hdata : data = []
  · rw [if_pos hdata, if_pos hdata]
    rfl
  · rw [if_neg hdata, if_neg hdata]
    exact run_call_ok (h.resolve_left hdata)

theorem run_writeChunk_refused {data : Bytes} (h : ¬ Taken data g.faults) :
    ∃ e, (writeChunk data).run g = (.returned (.error e), { g with faults := g.faults.tail }) := by
  obtain ⟨hdata, e, he⟩ := not_taken_iff.mp h
  unfold writeChunk
  rw [if_neg hdata]
  exact ⟨e, run_call_failed he⟩

/-- A copy that breaks off has written what was read until then, and shows in no answer. -/
theorem copyBreaks_of_run {fuel : ℕ} {written total : Bytes} {e : GoError} {g' : GcsBucket}
    (h : (copy src fuel s written).run g = (.returned (some (some e, total)), g')) :
    ∃ more faults', total = written ++ more ∧ g' = { g with faults := faults' } ∧
      CopyBreaks src s g.faults more faults' := by
  induction fuel generalizing s written g with
  | zero => cases h
  | succ fuel ih =>
    unfold copy at h
    by_cases htaken : Taken (src.data copyBufferSize s) g.faults
    · rw [run_bind_returned (run_writeChunk_taken htaken)] at h
      cases hread : src.error copyBufferSize s with
      | none =>
        simp only [hread] at h
        obtain ⟨more, faults', rfl, rfl, hbreaks⟩ := ih h
        exact ⟨_, faults', List.append_assoc _ _ _, rfl, .more htaken hread hbreaks⟩
      | some e' =>
        by_cases he : e' = ioEOF
        · simp only [hread, if_pos he] at h
          cases h
        · simp only [hread, if_neg he] at h
          cases h
          exact ⟨_, _, rfl, rfl, .read htaken hread he⟩
    · obtain ⟨e', hrun⟩ := run_writeChunk_refused htaken
      rw [run_bind_returned hrun] at h
      cases h
      exact ⟨[], _, (List.append_nil _).symm, rfl, .write htaken⟩

theorem run_of_copyBreaks {faults faults' : List (Option GoError)} {more : Bytes}
    (h : CopyBreaks src s faults more faults') (hfaults : g.faults = faults) (written : Bytes) :
    ∃ fuel e, (copy src fuel s written).run g =
      (.returned (some (some e, written ++ more)), { g with faults := faults' }) := by
  induction h generalizing g written with
  | @write s faults hnot =>
    rw [← hfaults] at hnot ⊢
    obtain ⟨e, hrun⟩ := run_writeChunk_refused hnot
    refine ⟨1, e, ?_⟩
    unfold copy
    rw [run_bind_returned hrun, List.append_nil]
    rfl
  | @read s faults e htaken hread he =>
    rw [← hfaults] at htaken ⊢
    refine ⟨1, e, ?_⟩
    unfold copy
    rw [run_bind_returned (run_writeChunk_taken htaken)]
    simp only [hread, if_neg he]
    rfl
  | @more s faults more faults' htaken hread hrest ih =>
    rw [← hfaults] at htaken
    obtain ⟨fuel, e, hrun⟩ := ih
      (g := { g with faults := spent (src.data copyBufferSize s) faults }) rfl (written ++ src.data copyBufferSize s)
    refine ⟨fuel + 1, e, ?_⟩
    unfold copy
    rw [run_bind_returned (run_writeChunk_taken htaken), hfaults]
    simp only [hread]
    rw [hrun, List.append_assoc]

theorem run_bucketExists_ok (hhead : g.faults.headD none = none) :
    bucketExists.run g = (.returned (.ok ()), { g with faults := g.faults.tail }) := by
  unfold bucketExists
  rw [run_bind_returned (run_getState g)]
  exact run_orReturn_ok (run_call_ok hhead)

theorem run_bucketExists_failed {e : GoError} (hhead : g.faults.headD none = some e) :
    ∃ e', bucketExists.run g = (.returned (.error e'), { g with faults := g.faults.tail }) := by
  unfold bucketExists
  rw [run_bind_returned (run_getState g)]
  exact ⟨_, run_orReturn_error (run_call_failed hhead)⟩

theorem run_closeWriter_ok (path written : Bytes) (hhead : g.faults.headD none = none) :
    (closeWriter path written).run g = (.returned (.ok ()), { g with
      objects := Function.update g.objects path (some written)
      faults := g.faults.tail }) :=
  run_call_ok hhead

/-- The deferred `Close` after a copy that broke off. -/
theorem run_put_of_broken {fuel : ℕ} {e : GoError} {total : Bytes} {g₁ : GcsBucket}
    (hhead : g.faults.headD none = none)
    (hcopy : (copy src fuel s []).run { g with faults := g.faults.tail } =
      (.returned (some (some e, total)), g₁)) :
    (put src path fuel s).run g =
      (.returned (some (.error (.wrapped (ascii "Path " ++ path) e))),
        ((closeWriter path total).run g₁).2) := by
  unfold put
  rw [run_bind_returned (run_bucketExists_ok hhead)]
  simp only
  rw [run_bind_returned hcopy]
  have hfinish : (finish path (some e, total)).run g₁ =
    (.returned (.error (.wrapped (ascii "Path " ++ path) e), false), g₁) := rfl
  refine (run_bind_returned hfinish).trans ?_
  have hdeferred : ∃ r, (safeClose false (closeWriter path total)).run g₁ =
      (.returned (r, true), ((closeWriter path total).run g₁).2) := by
    cases hclose : g₁.faults.headD none with
    | none =>
      have hrun := run_closeWriter_ok path total hclose
      rw [hrun]
      exact ⟨_, run_bind_returned hrun⟩
    | some e' =>
      have hrun : (closeWriter path total).run g₁ = (.returned (.error e'), _) :=
        run_call_failed hclose
      rw [hrun]
      exact ⟨_, run_bind_returned hrun⟩
  obtain ⟨r, hclosed⟩ := hdeferred
  exact run_bind_returned hclosed

/-- What `Exists` and `Get` answer, when nothing fails any more. -/
def answers (g : GcsBucket) (path : Bytes) :
    Outcome GoError (Result Bool) × Outcome GoError (Result Body) :=
  (((existsBlob path).run { g with faults := [] }).1, ((get path).run { g with faults := [] }).1)

theorem answers_eq (g : GcsBucket) (path : Bytes) : answers g path = match g.objects path with
    | some content => (.returned (.ok true), .returned (.ok (.whole content)))
    | none => (.returned (.ok false), .returned (.error .newNotFoundError)) := by
  have hbucket : bucketExists.run { g with faults := [] } =
      (.returned (.ok ()), { g with faults := [] }) := run_bucketExists_ok rfl
  unfold answers existsBlob get
  rw [run_bind_returned (run_getState _), run_bind_returned (run_getState _)]
  cases hobject : g.objects path with
  | some content => rfl
  | none =>
    simp only
    rw [run_orReturn_ok hbucket, run_orReturn_ok hbucket]
    rfl

theorem answers_congr {g g' : GcsBucket} (h : g'.objects path = g.objects path) :
    answers g' path = answers g path := by
  rw [answers_eq, answers_eq, h]

theorem answers_stored_iff {g' : GcsBucket} {content : Bytes}
    (h : g'.objects path = some content) :
    answers g' path = answers g path ↔ g.objects path = some content := by
  constructor
  · intro hanswers
    rw [answers_eq, answers_eq, h] at hanswers
    cases hobject : g.objects path with
    | none =>
      rw [hobject] at hanswers
      cases hanswers
    | some content' =>
      rw [hobject] at hanswers
      cases hanswers
      rfl
  · intro hobject
    exact answers_congr (h.trans hobject.symm)

/-- The bucket is not there, or the copy breaks off. -/
def FailsEarly (src : Reader ρ UInt8 GoError) (s : ρ) (g : GcsBucket) (fuel : ℕ) : Prop :=
  (∃ e g₁, bucketExists.run g = (.returned (.error e), g₁)) ∨
    ∃ g₁ e total g₂, bucketExists.run g = (.returned (.ok ()), g₁) ∧
      (copy src fuel s []).run g₁ = (.returned (some (some e, total)), g₂)

/-- An error raised before the commit is returned by `Put`, and the path answers as before. -/
def KeepsOnFailure (src : Reader ρ UInt8 GoError) (path : Bytes) (s : ρ) (g : GcsBucket) : Prop :=
  ∀ fuel, FailsEarly src s g fuel →
    ∃ e g', (put src path fuel s).run g = (.returned (some (.error e)), g') ∧
      answers g' path = answers g path

/-- **A failed upload to Google leaves the blob exactly when** the bucket cannot be found, the copy
does not break off, the deferred `Close` fails as well, or what it commits is what was there. -/
theorem keepsOnFailure_iff (src : Reader ρ UInt8 GoError) (path : Bytes) (s : ρ)
    (g : GcsBucket) : KeepsOnFailure src path s g ↔
      g.faults.headD none ≠ none ∨
        ∀ written faults', CopyBreaks src s g.faults.tail written faults' →
          faults'.headD none ≠ none ∨ g.objects path = some written := by
  cases hhead : g.faults.headD none with
  | some e =>
    obtain ⟨e', hexists⟩ := run_bucketExists_failed hhead
    refine iff_of_true (fun fuel _ => ⟨e', _, run_bind_returned hexists, answers_congr rfl⟩)
      (.inl (by simp))
  | none =>
    simp only [ne_eq, not_true_eq_false, false_or]
    -- what the deferred call makes of a copy that broke off
    have hput : ∀ fuel e written faults', (copy src fuel s []).run { g with
        faults := g.faults.tail } = (.returned (some (some e, written)),
          { g with faults := faults' }) →
        ∃ g', (put src path fuel s).run g =
            (.returned (some (.error (.wrapped (ascii "Path " ++ path) e))), g') ∧
          (answers g' path = answers g path ↔
            ¬ faults'.headD none = none ∨ g.objects path = some written) := by
      intro fuel e written faults' hcopy
      refine ⟨_, run_put_of_broken hhead hcopy, ?_⟩
      cases hclose : faults'.headD none with
      | none =>
        rw [run_closeWriter_ok (g := { g with faults := faults' }) path written hclose,
          answers_stored_iff (Function.update_self path (some written) g.objects)]
        simp
      | some e' =>
        have hrun : (closeWriter path written).run { g with faults := faults' } =
          (.returned (.error e'), _) := run_call_failed hclose
        rw [hrun]
        exact iff_of_true (answers_congr rfl) (.inl (by simp))
    constructor
    · intro hkeeps written faults' hbreaks
      obtain ⟨fuel, e, hcopy⟩ := run_of_copyBreaks (g := { g with faults := g.faults.tail })
        hbreaks rfl []
      obtain ⟨g', hrun, hanswers⟩ := hput fuel e written faults' hcopy
      obtain ⟨e', g'', hrun', hsame⟩ := hkeeps fuel
        (.inr ⟨_, e, _, _, run_bucketExists_ok hhead, hcopy⟩)
      rw [hrun] at hrun'
      cases hrun'
      exact hanswers.mp hsame
    · intro hcondition fuel hearly
      rcases hearly with ⟨e, g₁, hexists⟩ | ⟨g₁, e, total, g₂, hexists, hcopy⟩
      · rw [run_bucketExists_ok hhead] at hexists
        cases hexists
      · rw [run_bucketExists_ok hhead] at hexists
        cases hexists
        obtain ⟨more, faults', htotal, rfl, hbreaks⟩ := copyBreaks_of_run hcopy
        rw [List.nil_append] at htotal
        subst htotal
        obtain ⟨g', hrun, hanswers⟩ := hput fuel e total faults' hcopy
        exact ⟨_, g', hrun, hanswers.mpr (hcondition total faults' hbreaks)⟩

end GcsUpload

/-! ## Both -/

/-- **A failed upload leaves the previous blob in place** on Azure and Google exactly under these
conditions. -/
theorem failedUpload_keepsBlob_iff (src : Reader ρ UInt8 GoError) (path : Bytes) (s : ρ) :
    (∀ putBlockSize c, Azure.KeepsOnFailure src putBlockSize path s c ↔
      c.faults.headD none ≠ none ∨ ¬ Azure.Breaks src putBlockSize s c.faults.tail ∨
        (c.blobs path).map blobContent = some []) ∧
    ∀ g, GcsUpload.KeepsOnFailure src path s g ↔
      g.faults.headD none ≠ none ∨
        ∀ written faults', GcsUpload.CopyBreaks src s g.faults.tail written faults' →
          faults'.headD none ≠ none ∨ g.objects path = some written :=
  ⟨fun putBlockSize c => Azure.keepsOnFailure_iff src putBlockSize path s c,
    fun g => GcsUpload.keepsOnFailure_iff src path s g⟩

/-- A source that breaks after its first three bytes. -/
def brokenSource : List (Bytes × Option GoError) :=
  [(ascii "new", some (.sys (ascii "connection reset")))]

def containerWithOld : AzureContainer :=
  { Azure.emptyContainer with
    blobs := Function.update (fun _ => none) (ascii "guid")
      (some [⟨ascii "MDAwMDA=", ascii "old"⟩]) }

def bucketWithOld : GcsBucket where
  name := ascii "bits"
  objects := Function.update (fun _ => none) (ascii "guid") (some (ascii "old"))
  faults := []

/-- Azure is left with an empty blob, and Google with the first half of the new one. -/
theorem not_keepsOnFailure_brokenSource :
    ¬ Azure.KeepsOnFailure (scripted ioEOF) 1024 (ascii "guid") brokenSource containerWithOld ∧
      ¬ GcsUpload.KeepsOnFailure (scripted ioEOF) (ascii "guid") brokenSource bucketWithOld := by
  constructor
  · intro hkeeps
    have hsame := (hkeeps 1 _ _ rfl).2
    exact absurd hsame (by decide)
  · intro hkeeps
    obtain ⟨e, g', hrun, hsame⟩ := hkeeps 1 (.inr ⟨_, _, _, _, rfl, rfl⟩)
    cases hrun
    exact absurd hsame (by decide)

end BitsService
