import BitsService.Blobstores.Interface
import BitsService.Foundations.Archive

/-! # The zip writer

Entries are written one after the other to a file. A failed write is remembered and fails all later
ones; `Close` says so, but whoever closes without looking is left with a file cut off. -/
namespace BitsService
open GoLib.Effect
set_option autoImplicit false

/-- The entries written so far, the last one still open, and the error that a failed write leaves
behind for all later ones. -/
structure ZipWriter where
  entries : List ZipEntry
  broken : Option GoError
  deriving DecidableEq

namespace ZipWriter

def new : ZipWriter := ⟨[], none⟩

/-- `CreateHeader` completes the header: directories are stored, and the version byte is set. -/
def completeHeader (h : FileHeader) : FileHeader :=
  { h with
    method := if isDirName h.name then 0 else h.method
    creatorVersion := (h.creatorVersion &&& 0xff00) ||| 20 }

def errLongName : GoError := .sys (ascii "zip: FileHeader.Name too long")

/-- The entry before is completed first. -/
def createHeader (z : ZipWriter) (h : FileHeader) : Prog GoError Host (Result ZipWriter) :=
  match z.broken with
  | some e => pure (.error e)
  | none => orReturn (osCall .zipHeader) id fun _ =>
      if FitsZip h.name then pure (.ok { z with entries := z.entries ++ [⟨completeHeader h, []⟩] })
      else pure (.error errLongName)

def current (z : ZipWriter) : Option ZipEntry := z.entries.getLast?

def append (z : ZipWriter) (chunk : Bytes) : ZipWriter :=
  match z.current with
  | none => z
  | some e => { z with
      entries := z.entries.dropLast ++ [{ e with content := e.content ++ chunk }] }

/-- The open entry is one for a directory, which takes no content. -/
def inDirectory (z : ZipWriter) : Bool :=
  match z.current with
  | none => false
  | some e => isDirName e.header.name

def write (z : ZipWriter) (chunk : Bytes) : Prog GoError Host (Result Unit × ZipWriter) :=
  if chunk = [] then pure (.ok (), z)
  else if z.inDirectory then pure (.error (.sys (ascii "zip: write to directory")), z)
  else match z.broken with
    | some e => pure (.error e, z)
    | none => do
      match ← osCall .zipWrite with
      | .error e => pure (.error e, { z with broken := some e })
      | .ok () => pure (.ok (), z.append chunk)

def copyChunks (failure : Option GoError) :
    List Bytes → ZipWriter → Prog GoError Host (Result Unit × ZipWriter)
  | [], z => pure (match failure with
      | some e => .error e
      | none => .ok (), z)
  | chunk :: chunks, z => do
    let (r, z) ← z.write chunk
    match r with
    | .error e => pure (.error e, z)
    | .ok () => copyChunks failure chunks z

def copyFrom (z : ZipWriter) (b : Body) : Prog GoError Host (Result Unit × ZipWriter) :=
  copyChunks b.failure b.chunks z

def close (format : ZipFormat) (z : ZipWriter) : Prog GoError Host Bytes :=
  match z.broken with
  | some _ => pure (format.truncated z.entries)
  | none => do
    match ← osCall .zipClose with
    | .error _ => pure (format.truncated z.entries)
    | .ok () => pure (format.encode z.entries)

end ZipWriter

/-! ## What the calls keep -/

/-- Every call keeps `J` but the one that closes the archive. -/
def KeptByCalls (J : Host → Prop) : Prop := ∀ c, c ≠ .zipClose → Keeps J (osCall c)

/-- Whether `J` holds does not depend on the temp files. -/
def IgnoresTemps (J : Host → Prop) : Prop :=
  ∀ h temps next, J h → J { h with temps := temps, next := next }

namespace KeptByCalls
variable {J : Host → Prop} (hJ : KeptByCalls J)
include hJ

theorem openTemp (name : ℕ) : Keeps J (openTemp name) := by
  refine keeps_orReturn (hJ _ (by decide)) fun _ => Keeps.bind (Keeps.getState _) fun h => ?_
  cases h.temps name with
  | none => exact Keeps.pure _ _
  | some content => exact Keeps.pure _ _

theorem createTemp (htemps : IgnoresTemps J) (pre : Bytes) : Keeps J (createTemp pre) := by
  unfold BitsService.createTemp
  split
  · exact Keeps.pure _ _
  split
  · exact Keeps.pure _ _
  exact keeps_orReturn (hJ _ (by decide)) fun _ => Keeps.bind (Keeps.getState _) fun _ =>
    Keeps.bind (Keeps.modifyState fun h => htemps h _ _) fun _ => Keeps.pure _ _

theorem writeTemp (htemps : IgnoresTemps J) (name : ℕ) (content : Bytes) :
    Keeps J (writeTemp name content) :=
  keeps_orReturn (hJ _ (by decide)) fun _ =>
    Keeps.bind (Keeps.modifyState fun h => htemps h _ _) fun _ => Keeps.pure _ _

theorem createHeader (z : ZipWriter) (header : FileHeader) : Keeps J (z.createHeader header) := by
  unfold ZipWriter.createHeader
  cases z.broken with
  | some e => exact Keeps.pure _ _
  | none =>
    refine keeps_orReturn (hJ _ (by decide)) fun _ => ?_
    split
    · exact Keeps.pure _ _
    · exact Keeps.pure _ _

theorem write (z : ZipWriter) (chunk : Bytes) : Keeps J (z.write chunk) := by
  unfold ZipWriter.write
  split
  · exact Keeps.pure _ _
  split
  · exact Keeps.pure _ _
  cases z.broken with
  | some e => exact Keeps.pure _ _
  | none =>
    refine Keeps.bind (hJ _ (by decide)) fun r => ?_
    cases r with
    | error e => exact Keeps.pure _ _
    | ok u => exact Keeps.pure _ _

theorem copyChunks (failure : Option GoError) (chunks : List Bytes) (z : ZipWriter) :
    Keeps J (ZipWriter.copyChunks failure chunks z) := by
  induction chunks generalizing z with
  | nil => exact Keeps.pure _ _
  | cons chunk chunks ih =>
    refine Keeps.bind (hJ.write z chunk) fun r => ?_
    obtain ⟨r, z'⟩ := r
    cases r with
    | error e => exact Keeps.pure _ _
    | ok u => exact ih z'

end KeptByCalls

/-- No call before `Close` uses up what is scripted for its last flush. -/
theorem keptByCalls_zipClose (script : List (Result Unit)) :
    KeptByCalls fun h => h.faults .zipClose = script := by
  intro c hc h hscript
  rw [run_osCall]
  exact (Function.update_of_ne (Ne.symm hc) _ _).trans hscript

/-! ## Writing when the disk takes everything -/

def Host.Succeeds (h : Host) (c : OsCall) : Prop := ∀ r ∈ h.faults c, r = .ok ()

def Host.TakesZips (h : Host) : Prop := h.Succeeds .zipWrite ∧ h.Succeeds .zipClose

/-- The flush that the next `Close` ends with goes through. -/
def Host.Flushes (h : Host) : Prop := (h.faults .zipClose).headD (.ok ()) = .ok ()

theorem succeeds_osCall {c c' : OsCall} {h : Host} (hs : h.Succeeds c') :
    ((osCall c).run h).2.Succeeds c' := by
  intro r hr
  by_cases hc : c' = c
  · subst hc
    exact hs r (List.mem_of_mem_tail (by simpa [osCall, Prog.run] using hr))
  · exact hs r (by simpa [osCall, Prog.run, hc] using hr)

theorem keeps_takesZips_osCall (c : OsCall) : Keeps Host.TakesZips (osCall c) :=
  fun _ h => ⟨succeeds_osCall h.1, succeeds_osCall h.2⟩

theorem keptByCalls_takesZips : KeptByCalls Host.TakesZips := fun c _ => keeps_takesZips_osCall c

theorem keeps_takesZips_takeBudget : Keeps Host.TakesZips takeBudget := fun _ h => h

theorem Host.TakesZips.flushes {h : Host} (hh : h.TakesZips) : h.Flushes := by
  unfold Host.Flushes
  cases hf : h.faults .zipClose with
  | nil => rfl
  | cons r rs =>
    have hr : r = .ok () := hh.2 r (by simp [hf])
    rw [List.headD_cons, hr]

theorem ignoresTemps_takesZips : IgnoresTemps Host.TakesZips := fun _ _ _ h => h

theorem run_osCall_of_succeeds {c : OsCall} {h : Host} (hs : h.Succeeds c) :
    (osCall c).run h = (.returned (.ok ()), ((osCall c).run h).2) := by
  refine Prod.ext ?_ rfl
  cases hf : h.faults c with
  | nil => simp [osCall, Prog.run, hf]
  | cons r rs =>
    have hr : r = .ok () := hs r (by simp [hf])
    simp [osCall, Prog.run, hf, hr]

namespace ZipWriter

def opened (es : List ZipEntry) (h : FileHeader) (content : Bytes) : ZipWriter :=
  ⟨es ++ [⟨h, content⟩], none⟩

variable (es : List ZipEntry) (h : FileHeader) (content : Bytes)

@[simp] theorem opened_entries : (opened es h content).entries = es ++ [⟨h, content⟩] := rfl

@[simp] theorem opened_broken : (opened es h content).broken = none := rfl

@[simp] theorem opened_inDirectory : (opened es h content).inDirectory = isDirName h.name := by
  simp [inDirectory, current, opened]

@[simp] theorem opened_append (chunk : Bytes) :
    (opened es h content).append chunk = opened es h (content ++ chunk) := by
  simp [append, current, opened]

def taken (h : FileHeader) (b : Bytes) : Bytes := if isDirName h.name then [] else b

@[simp] theorem taken_nil : taken h [] = [] := by
  simp [taken]

theorem taken_append (a b : Bytes) : taken h (a ++ b) = taken h a ++ taken h b := by
  by_cases hd : isDirName h.name = true <;> simp [taken, hd]

theorem taken_of_fits {b : Bytes} (hb : isDirName h.name = true → b = []) : taken h b = b := by
  by_cases hd : isDirName h.name = true
  · rw [taken, if_pos hd, hb hd]
  · rw [taken, if_neg hd]

/-! ## What went through, on any host -/

theorem createHeader_eq_ok {z z' : ZipWriter} {host host' : Host}
    (hrun : (z.createHeader h).run host = (.returned (.ok z'), host')) :
    FitsZip h.name ∧ z' = opened z.entries (completeHeader h) [] := by
  unfold createHeader at hrun
  cases hb : z.broken with
  | some e =>
    rw [hb] at hrun
    cases hrun
  | none =>
    rw [hb] at hrun
    obtain ⟨u, host₁, -, hk⟩ := run_orReturn_eq_ok hrun
    split at hk
    · next hfits =>
      cases hk
      exact ⟨hfits, rfl⟩
    · cases hk

theorem write_eq_ok {host host' : Host} {chunk : Bytes} {z' : ZipWriter}
    (hrun : ((opened es h content).write chunk).run host = (.returned (.ok (), z'), host')) :
    z' = opened es h (content ++ chunk) := by
  unfold write at hrun
  by_cases hc : chunk = []
  · rw [if_pos hc] at hrun
    cases hrun
    rw [hc, List.append_nil]
  rw [if_neg hc, opened_inDirectory] at hrun
  by_cases hd : isDirName h.name = true
  · rw [if_pos hd] at hrun
    cases hrun
  rw [if_neg hd, opened_broken] at hrun
  obtain ⟨r, host₁, -, hrest⟩ := run_bind_eq_returned hrun
  cases r with
  | error e => cases hrest
  | ok u =>
    cases hrest
    exact opened_append es h content chunk

theorem close_eq_encode {z : ZipWriter} {format : ZipFormat} {host host' : Host} {file : Bytes}
    (hz : z.broken = none) (hh : host.Flushes)
    (hrun : (z.close format).run host = (.returned file, host')) :
    file = format.encode z.entries := by
  unfold close at hrun
  rw [hz] at hrun
  have hcall : (osCall .zipClose).run host =
      (.returned (.ok ()), ((osCall .zipClose).run host).2) := by
    rw [run_osCall, show (host.faults .zipClose).headD (.ok ()) = .ok () from hh]
  simp only at hrun
  rw [run_bind_returned hcall] at hrun
  cases hrun
  rfl

theorem close_eq_truncated {z : ZipWriter} {format : ZipFormat} {host host' : Host} {file : Bytes}
    (hz : ¬ (z.broken = none ∧ host.Flushes))
    (hrun : (z.close format).run host = (.returned file, host')) :
    file = format.truncated z.entries := by
  unfold close at hrun
  cases hb : z.broken with
  | some e =>
    rw [hb] at hrun
    cases hrun
    rfl
  | none =>
    rw [hb] at hrun
    obtain ⟨r, host₁, hcall, hrest⟩ := run_bind_eq_returned hrun
    cases r with
    | error e =>
      cases hrest
      rfl
    | ok u =>
      rw [run_osCall] at hcall
      exact absurd ⟨hb, Outcome.returned.inj (Prod.mk.inj hcall).1⟩ hz

/-! ## The headers written so far -/

def headers (z : ZipWriter) : List FileHeader := z.entries.map ZipEntry.header

@[simp] theorem headers_opened : (opened es h content).headers = es.map ZipEntry.header ++ [h] := by
  simp [headers]

@[simp] theorem headers_append (z : ZipWriter) (chunk : Bytes) :
    (z.append chunk).headers = z.headers := by
  unfold append current
  cases hlast : z.entries.getLast? with
  | none => rfl
  | some e =>
    obtain ⟨es, hes⟩ := List.getLast?_eq_some_iff.mp hlast
    simp [headers, hes]

theorem returns_write_headers (z : ZipWriter) (chunk : Bytes) :
    Returns (fun r => r.2.headers = z.headers) (z.write chunk) := by
  unfold write
  split
  · exact Returns.pure rfl
  split
  · exact Returns.pure rfl
  cases z.broken with
  | some e => exact Returns.pure rfl
  | none =>
    refine Returns.bind fun r => ?_
    cases r with
    | error e => exact Returns.pure rfl
    | ok u => exact Returns.pure (headers_append z chunk)

theorem returns_copyChunks_headers (failure : Option GoError) (chunks : List Bytes)
    (z : ZipWriter) :
    Returns (fun r => r.2.headers = z.headers) (copyChunks failure chunks z) := by
  induction chunks generalizing z with
  | nil => exact Returns.pure rfl
  | cons chunk chunks ih =>
    intro host r host' hrun
    obtain ⟨⟨r₁, z₁⟩, host₁, hwrite, hrest⟩ := run_bind_eq_returned hrun
    have hz₁ : z₁.headers = z.headers := returns_write_headers z chunk _ _ _ hwrite
    cases r₁ with
    | error e =>
      cases hrest
      exact hz₁
    | ok u =>
      have hr : r.2.headers = z₁.headers := ih z₁ _ _ _ hrest
      exact hr.trans hz₁

/-! ## What is written when the disk takes everything -/

theorem run_write {host : Host} (hh : host.TakesZips) (chunk : Bytes) :
    ∃ r host', ((opened es h content).write chunk).run host =
        (.returned (r, opened es h (content ++ taken h chunk)), host') ∧
      host'.TakesZips ∧ host'.temps = host.temps ∧
      (r = .ok () ↔ isDirName h.name = true → chunk = []) := by
  by_cases hc : chunk = []
  · subst hc
    refine ⟨.ok (), host, ?_, hh, rfl, by simp⟩
    simp [write, taken]
  by_cases hd : isDirName h.name = true
  · refine ⟨.error (.sys (ascii "zip: write to directory")), host, ?_, hh, rfl, ?_⟩
    · simp only [write, if_neg hc, opened_inDirectory, hd, if_true, taken, List.append_nil]
      rfl
    · simp [hd, hc]
  · have hrun := run_osCall_of_succeeds hh.1
    refine ⟨.ok (), ((osCall .zipWrite).run host).2, ?_, keeps_takesZips_osCall _ host hh, rfl, ?_⟩
    · simp only [write, if_neg hc, opened_inDirectory, if_neg hd, opened_broken, taken]
      rw [run_bind_returned hrun]
      simp
    · simp [hd]

theorem run_copyFrom {host : Host} (hh : host.TakesZips) (b : Body) :
    ∃ r host', ((opened es h content).copyFrom b).run host =
        (.returned (r, opened es h (content ++ taken h b.delivered)), host') ∧
      host'.TakesZips ∧ host'.temps = host.temps ∧
      (r = .ok () ↔ b.failure = none ∧ (isDirName h.name = true → b.delivered = [])) := by
  obtain ⟨chunks, failure⟩ := b
  unfold copyFrom
  induction chunks generalizing content host with
  | nil =>
    refine ⟨match failure with | some e => .error e | none => .ok (), host, ?_, hh, rfl, ?_⟩
    · simp only [copyChunks, taken, Body.delivered, List.flatten_nil, ite_self, List.append_nil]
      rfl
    · cases failure <;> simp [Body.delivered]
  | cons chunk chunks ih =>
    obtain ⟨r, host₁, hrun, hh₁, htemps, hr⟩ := run_write es h content hh chunk
    simp only [copyChunks]
    rw [run_bind_returned hrun]
    cases r with
    | error e =>
      have hne : isDirName h.name = true ∧ chunk ≠ [] := by simpa using hr
      refine ⟨.error e, host₁, ?_, hh₁, htemps, ?_⟩
      · simp only [taken, hne.1, if_true]
        rfl
      · simp [Body.delivered, hne]
    | ok u =>
      have hchunk : isDirName h.name = true → chunk = [] := hr.mp rfl
      obtain ⟨r, host₂, hrun₂, hh₂, htemps₂, hr₂⟩ := ih (content ++ taken h chunk) hh₁
      refine ⟨r, host₂, ?_, hh₂, htemps₂.trans htemps, ?_⟩
      · simp only
        rw [hrun₂]
        by_cases hd : isDirName h.name = true <;> simp [taken, hd, Body.delivered]
      · rw [hr₂]
        simp only [Body.delivered, List.flatten_cons]
        constructor
        · rintro ⟨hf, hrest⟩
          exact ⟨hf, fun hd => by rw [hchunk hd, hrest hd]; rfl⟩
        · rintro ⟨hf, hall⟩
          exact ⟨hf, fun hd => (List.append_eq_nil_iff.mp (hall hd)).2⟩

theorem run_close {host : Host} (hh : host.TakesZips) (format : ZipFormat) :
    ∃ host', (close format ⟨es, none⟩).run host = (.returned (format.encode es), host') ∧
      host'.TakesZips := by
  refine ⟨((osCall .zipClose).run host).2, ?_, keeps_takesZips_osCall _ host hh⟩
  simp only [close]
  rw [run_bind_returned (run_osCall_of_succeeds hh.2)]
  rfl

end ZipWriter

end BitsService
