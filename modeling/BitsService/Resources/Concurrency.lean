import BitsService.Lib.Interleaving
import BitsService.Resources.CCUpdater
import BitsService.Resources.UploadProtocol

/-! # Concurrent uploads of one package

Every upload makes its own calls, in its own order; the calls of several uploads interleave. The
Cloud Controller rejects every notification once it has recorded how an upload ended, but the bits
are in the blobstore before it is asked. -/
namespace BitsService
open GoLib.Effect GoLib.Interleaving
set_option autoImplicit false

/-! ## The shared state -/

/-- What the Cloud Controller has recorded for the package. -/
inductive CCRecord where
  | pending
  | ready (sha1 sha256 : Bytes)
  | failed
  deriving DecidableEq

structure Shared where
  record : CCRecord
  blob : Option Bytes
  deriving DecidableEq

namespace Shared

def answer (s : Shared) : Result Unit :=
  match s.record with
  | .pending => .ok ()
  | _ => .error .stateForbidden

/-- A call takes effect, if what it returned is what it returns here. -/
def step (s : Shared) : ServiceCall → Option Shared
  | .notifyProcessingUpload _ r => if r = s.answer then some s else none
  | .put _ src (.ok ()) => some { s with blob := some src }
  | .put _ _ (.error _) => some s
  | .notifyUploadSucceeded _ sha1 sha256 r =>
    if r = s.answer then
      some (if r = .ok () then { s with record := .ready sha1 sha256 } else s)
    else none
  | .notifyUploadFailed _ _ r =>
    if r = s.answer then some (if r = .ok () then { s with record := .failed } else s) else none
  | .other _ => some s

def run (s : Shared) : List ServiceCall → Option Shared
  | [] => some s
  | call :: calls =>
    match s.step call with
    | none => none
    | some s' => run s' calls

/-! What one call, and what a list of calls does to the shared state. -/

theorem step_eq_some {s s' : Shared} {call : ServiceCall} (h : s.step call = some s') :
    (s' = s ∧ (∀ path src, call ≠ .put path src (.ok ())) ∧
        ∀ guid sha1 sha256, call ≠ .notifyUploadSucceeded guid sha1 sha256 (.ok ())) ∨
      (∃ path src, call = .put path src (.ok ()) ∧ s' = { s with blob := some src }) ∨
      (∃ guid sha1 sha256, call = .notifyUploadSucceeded guid sha1 sha256 (.ok ()) ∧
        s.record = .pending ∧ s' = { s with record := .ready sha1 sha256 }) ∨
      (∃ guid e, call = .notifyUploadFailed guid e (.ok ()) ∧ s.record = .pending ∧
        s' = { s with record := .failed }) := by
  have hpending : (.ok () : Result Unit) = s.answer → s.record = .pending := by
    intro hok
    unfold answer at hok
    cases hrecord : s.record with
    | pending => rfl
    | ready sha1 sha256 => simp [hrecord] at hok
    | failed => simp [hrecord] at hok
  cases call with
  | notifyProcessingUpload guid r =>
    simp only [step] at h
    split at h
    · cases h
      exact .inl ⟨rfl, by simp, by simp⟩
    · cases h
  | put path src r =>
    cases r with
    | error e =>
      cases h
      exact .inl ⟨rfl, by simp, by simp⟩
    | ok u =>
      cases h
      exact .inr (.inl ⟨path, src, rfl, rfl⟩)
  | notifyUploadSucceeded guid sha1 sha256 r =>
    simp only [step] at h
    split at h
    · next hr =>
      cases r with
      | error e =>
        cases h
        exact .inl ⟨rfl, by simp, by simp⟩
      | ok u =>
        cases h
        exact .inr (.inr (.inl ⟨guid, sha1, sha256, rfl, hpending hr, rfl⟩))
    · cases h
  | notifyUploadFailed guid e r =>
    simp only [step] at h
    split at h
    · next hr =>
      cases r with
      | error e =>
        cases h
        exact .inl ⟨rfl, by simp, by simp⟩
      | ok u =>
        cases h
        exact .inr (.inr (.inr ⟨guid, e, rfl, hpending hr, rfl⟩))
    · cases h
  | other path =>
    cases h
    exact .inl ⟨rfl, by simp, by simp⟩

theorem run_append (s : Shared) (calls calls' : List ServiceCall) :
    s.run (calls ++ calls') = (s.run calls).bind fun s' => s'.run calls' := by
  induction calls generalizing s with
  | nil => rfl
  | cons call calls ih =>
    rw [List.cons_append, run, run]
    cases s.step call with
    | none => rfl
    | some s' => exact ih s'

theorem run_cons_eq_some {s s' : Shared} {call : ServiceCall} {calls : List ServiceCall}
    (h : s.run (call :: calls) = some s') :
    ∃ s₁, s.step call = some s₁ ∧ s₁.run calls = some s' := by
  rw [run] at h
  cases hstep : s.step call with
  | none =>
    rw [hstep] at h
    cases h
  | some s₁ =>
    rw [hstep] at h
    exact ⟨s₁, rfl, h⟩

theorem run_blob {calls : List ServiceCall} {s s' : Shared} (h : s.run calls = some s') :
    s'.blob = s.blob ∨ ∃ path src, .put path src (.ok ()) ∈ calls ∧ s'.blob = some src := by
  induction calls generalizing s with
  | nil =>
    cases h
    exact .inl rfl
  | cons call calls ih =>
    obtain ⟨s₁, hstep, hrun⟩ := run_cons_eq_some h
    rcases ih hrun with heq | ⟨path, src, hmem, heq⟩
    · rw [heq]
      rcases step_eq_some hstep with ⟨rfl, -⟩ | ⟨path, src, rfl, rfl⟩ | ⟨_, _, _, -, -, rfl⟩ |
        ⟨_, _, -, -, rfl⟩
      · exact .inl rfl
      · exact .inr ⟨path, src, List.mem_cons_self, rfl⟩
      · exact .inl rfl
      · exact .inl rfl
    · exact .inr ⟨path, src, List.mem_cons_of_mem _ hmem, heq⟩

theorem run_record_of_decided {calls : List ServiceCall} {s s' : Shared} (h : s.run calls = some s')
    (hdecided : s.record ≠ .pending) : s'.record = s.record := by
  induction calls generalizing s with
  | nil =>
    cases h
    rfl
  | cons call calls ih =>
    obtain ⟨s₁, hstep, hrun⟩ := run_cons_eq_some h
    rcases step_eq_some hstep with ⟨rfl, -⟩ | ⟨path, src, rfl, rfl⟩ | ⟨_, _, _, -, hpending, -⟩ |
      ⟨_, _, -, hpending, -⟩
    · exact ih hrun hdecided
    · have hkept := ih hrun hdecided
      exact hkept
    · exact absurd hpending hdecided
    · exact absurd hpending hdecided

theorem run_record_ready {calls : List ServiceCall} {s s' : Shared} {sha1 sha256 : Bytes}
    (h : s.run calls = some s') (hready : s'.record = .ready sha1 sha256) :
    s.record = .ready sha1 sha256 ∨
      ∃ guid, .notifyUploadSucceeded guid sha1 sha256 (.ok ()) ∈ calls := by
  induction calls generalizing s with
  | nil =>
    cases h
    exact .inl hready
  | cons call calls ih =>
    obtain ⟨s₁, hstep, hrun⟩ := run_cons_eq_some h
    rcases ih hrun with hrecord | ⟨guid, hmem⟩
    · rcases step_eq_some hstep with ⟨rfl, -⟩ | ⟨path, src, rfl, rfl⟩ |
        ⟨guid, sha1', sha256', rfl, -, rfl⟩ | ⟨guid, e, rfl, -, rfl⟩
      · exact .inl hrecord
      · exact .inl hrecord
      · cases hrecord
        exact .inr ⟨guid, List.mem_cons_self⟩
      · cases hrecord
    · exact .inr ⟨guid, List.mem_cons_of_mem _ hmem⟩

theorem run_record_of_accepted {calls : List ServiceCall} {s s' : Shared} {guid sha1 sha256 : Bytes}
    (h : s.run calls = some s')
    (hmem : .notifyUploadSucceeded guid sha1 sha256 (.ok ()) ∈ calls) :
    s'.record = .ready sha1 sha256 := by
  induction calls generalizing s with
  | nil => cases hmem
  | cons call calls ih =>
    obtain ⟨s₁, hstep, hrun⟩ := run_cons_eq_some h
    rcases List.mem_cons.mp hmem with rfl | hlater
    · rcases step_eq_some hstep with ⟨-, -, hne⟩ | ⟨_, _, heq, -⟩ | ⟨_, _, _, heq, -, rfl⟩ |
        ⟨_, _, heq, -⟩
      · exact absurd rfl (hne guid sha1 sha256)
      · cases heq
      · cases heq
        exact run_record_of_decided hrun (by simp)
      · cases heq
    · exact ih hrun hlater

/-- The checksums of a package that is ready are those of its blob. -/
def ChecksumsMatch (digests : Digests) (s : Shared) : Prop :=
  ∀ sha1 sha256, s.record = .ready sha1 sha256 → ∃ content, s.blob = some content ∧
    sha1 = hexEncode (digests.sha1 content) ∧ sha256 = hexEncode (digests.sha256 content)

end Shared

/-! ## The uploads -/

/-- An upload: a handler, a request to it, and what surrounds them. -/
structure Upload where
  services : Type
  handler : ResourceHandler services
  returns : handler.CallsReturn
  request : Request
  host : Host
  start : services

namespace Upload
variable (formats : Formats) (guid : Bytes) (u : Upload)

def calls : List ServiceCall :=
  ((addOrReplace formats u.handler.recording u.request guid).run
    ⟨u.host, (u.start, []), .empty⟩).2.ext.2

def bits : Option Bytes :=
  uploadedBits formats u.handler.recording u.request ⟨u.host, (u.start, []), .empty⟩

theorem calls_follow :
    (u.bits formats = none ∧ u.calls formats guid = []) ∨
      ∃ content, u.bits formats = some content ∧
        UploadTrace formats.digests guid content (u.calls formats guid) := by
  have hfollows := addOrReplace_follows u.returns formats u.request guid u.host u.start
  cases hbits : u.bits formats with
  | none =>
    have hbits' : uploadedBits formats u.handler.recording u.request
      ⟨u.host, (u.start, []), .empty⟩ = none := hbits
    rw [hbits'] at hfollows
    exact .inl ⟨rfl, hfollows.1⟩
  | some content =>
    have hbits' : uploadedBits formats u.handler.recording u.request
      ⟨u.host, (u.start, []), .empty⟩ = some content := hbits
    rw [hbits'] at hfollows
    exact .inr ⟨content, rfl, hfollows.1⟩

end Upload

/-! ## Interleaved calls -/

namespace UploadTrace
variable {digests : Digests} {guid content : Bytes} {calls : List ServiceCall}

theorem src_eq (h : UploadTrace digests guid content calls) {path src : Bytes} {r : Result Unit}
    (hmem : .put path src r ∈ calls) : src = content := by
  cases h with
  | nothing => cases hmem
  | refused e => simp at hmem
  | stored calls h =>
    cases h with
    | succeeded failures r' hspace =>
      simp [failingPuts] at hmem
      rcases hmem with ⟨e, -, -, rfl, -⟩ | ⟨-, rfl, -⟩ <;> rfl
    | failed failures e r' hspace =>
      simp [failingPuts] at hmem
      obtain ⟨e, -, -, rfl, -⟩ := hmem
      rfl

theorem eq_of_succeeded (h : UploadTrace digests guid content calls) {guid' sha1 sha256 : Bytes}
    {r : Result Unit} (hmem : .notifyUploadSucceeded guid' sha1 sha256 r ∈ calls) :
    sha1 = hexEncode (digests.sha1 content) ∧ sha256 = hexEncode (digests.sha256 content) ∧
      ∃ before, calls = before ++ [.put guid content (.ok ()),
          .notifyUploadSucceeded guid' sha1 sha256 r] ∧
        (∀ path src, .put path src (.ok ()) ∉ before) ∧
        ∀ r', .notifyUploadSucceeded guid' sha1 sha256 r' ∉ before := by
  cases h with
  | nothing => cases hmem
  | refused e => simp at hmem
  | stored calls h =>
    cases h with
    | succeeded failures r' hspace =>
      simp [failingPuts] at hmem
      obtain ⟨rfl, rfl, rfl, rfl⟩ := hmem
      refine ⟨rfl, rfl,
        .notifyProcessingUpload guid' (.ok ()) :: failingPuts guid' content failures, by simp, ?_,
        ?_⟩
      · simp [failingPuts]
      · simp [failingPuts]
    | failed failures e r' hspace =>
      simp [failingPuts] at hmem

end UploadTrace

section Interleaved
variable {ι : Type} [DecidableEq ι] {formats : Formats} {guid : Bytes} {uploads : ι → Upload}
  {history : List (ι × ServiceCall)}

def SameChecksums (digests : Digests) (content content' : Bytes) : Prop :=
  hexEncode (digests.sha1 content) = hexEncode (digests.sha1 content') ∧
    hexEncode (digests.sha256 content) = hexEncode (digests.sha256 content')

/-- After the put of an upload that is accepted as ready, no put of other bits takes effect. -/
def NotOvertaken (digests : Digests) (history : List (ι × ServiceCall)) : Prop :=
  ∀ i before path content after guid sha1 sha256,
    history = before ++ (i, .put path content (.ok ())) :: after →
    (i, .notifyUploadSucceeded guid sha1 sha256 (.ok ())) ∈ after →
    ∀ j path' content', (j, .put path' content' (.ok ())) ∈ after →
      SameChecksums digests content content'

/-- Different uploads have bits with different checksums. -/
def DifferentBits (formats : Formats) (uploads : ι → Upload) : Prop :=
  ∀ i j content content', (uploads i).bits formats = some content →
    (uploads j).bits formats = some content' →
      SameChecksums formats.digests content content' → i = j

theorem trace_of_mem (hinter : Interleaves (fun i => (uploads i).calls formats guid) history)
    {i : ι} {call : ServiceCall} (hmem : (i, call) ∈ history) :
    ∃ content, (uploads i).bits formats = some content ∧
      UploadTrace formats.digests guid content ((uploads i).calls formats guid) := by
  rcases (uploads i).calls_follow formats guid with ⟨-, hnil⟩ | htrace
  · have hcall : call ∈ (uploads i).calls formats guid :=
      (hinter i).subset (mem_ofParty.mpr hmem)
    rw [hnil] at hcall
    cases hcall
  · exact htrace

theorem split_of_accepted (hinter : Interleaves (fun i => (uploads i).calls formats guid) history)
    {i : ι} {guid' sha1 sha256 : Bytes} {r : Result Unit}
    (hmem : (i, .notifyUploadSucceeded guid' sha1 sha256 r) ∈ history) :
    ∃ content before after, (uploads i).bits formats = some content ∧
      sha1 = hexEncode (formats.digests.sha1 content) ∧
      sha256 = hexEncode (formats.digests.sha256 content) ∧
      history = before ++ (i, .put guid content (.ok ())) :: after ∧
      (i, .notifyUploadSucceeded guid' sha1 sha256 r) ∈ after ∧
      (∀ path src, (i, .put path src (.ok ())) ∉ before) ∧
      ∀ path src, (i, .put path src (.ok ())) ∉ after := by
  obtain ⟨content, hbits, htrace⟩ := trace_of_mem hinter hmem
  have hmade := hinter i
  have hcall := mem_ofParty.mpr hmem
  obtain ⟨hsha1, hsha256, first, hcalls, hput, honce⟩ :=
    htrace.eq_of_succeeded (hmade.subset hcall)
  -- the announcement is the last call, so the upload has made all of its calls
  have hall : ofParty i history = first ++ .put guid content (.ok ()) ::
      [.notifyUploadSucceeded guid' sha1 sha256 r] := by
    obtain ⟨rest, hrest⟩ := hmade
    simp only [hcalls] at hrest
    rcases List.eq_nil_or_concat rest with rfl | ⟨rest', last, rfl⟩
    · rw [List.append_nil] at hrest
      exact hrest
    · have hearlier := congrArg List.dropLast hrest
      rw [List.concat_eq_append, ← List.append_assoc, List.dropLast_concat, List.append_cons first,
        List.dropLast_concat] at hearlier
      have hmem' : .notifyUploadSucceeded guid' sha1 sha256 r ∈
          first ++ [ServiceCall.put guid content (.ok ())] := by
        rw [← hearlier]
        exact List.mem_append_left _ hcall
      rcases List.mem_append.mp hmem' with hfirst | hlast
      · exact absurd hfirst (honce r)
      · simp at hlast
  obtain ⟨before, after, rfl, hbefore, hafter⟩ := ofParty_eq_append_cons hall
  refine ⟨content, before, after, hbits, hsha1, hsha256, rfl, ?_, ?_, ?_⟩
  · rw [← mem_ofParty, hafter]
    exact List.mem_cons_self
  · intro path src hmem'
    rw [← mem_ofParty, hbefore] at hmem'
    exact hput path src hmem'
  · intro path src hmem'
    rw [← mem_ofParty, hafter] at hmem'
    simp at hmem'

omit [DecidableEq ι] in
theorem run_split {s s' : Shared} {before after : List (ι × ServiceCall)} {i : ι}
    {path content : Bytes}
    (hrun : s.run ((before ++ (i, .put path content (.ok ())) :: after).map Prod.snd) = some s') :
    ∃ s₁ : Shared, s₁.blob = some content ∧ s₁.run (after.map Prod.snd) = some s' := by
  rw [List.map_append, Shared.run_append] at hrun
  obtain ⟨s₀, -, hrest⟩ := Option.bind_eq_some_iff.mp hrun
  obtain ⟨s₁, hstep, hafter⟩ := Shared.run_cons_eq_some hrest
  cases hstep
  exact ⟨_, rfl, hafter⟩

variable (hinter : Interleaves (fun i => (uploads i).calls formats guid) history)
  {blob : Option Bytes} {s : Shared}
  (hrun : Shared.run ⟨.pending, blob⟩ (history.map Prod.snd) = some s)
include hinter hrun

theorem checksumsMatch_of_notOvertaken (h : NotOvertaken formats.digests history) :
    s.ChecksumsMatch formats.digests := by
  intro sha1 sha256 hready
  rcases Shared.run_record_ready hrun hready with hstart | ⟨guid', haccepted⟩
  · cases hstart
  obtain ⟨⟨i, call⟩, hmem, rfl⟩ := List.mem_map.mp haccepted
  obtain ⟨content, before, after, -, rfl, rfl, rfl, hlater, -, -⟩ := split_of_accepted hinter hmem
  obtain ⟨s₁, hblob, hafter⟩ := run_split hrun
  rcases Shared.run_blob hafter with hkept | ⟨path, src, hput, hwritten⟩
  · exact ⟨content, hkept.trans hblob, rfl, rfl⟩
  · obtain ⟨⟨j, call⟩, hmem', rfl⟩ := List.mem_map.mp hput
    obtain ⟨h1, h256⟩ := h i before guid content after _ _ _ rfl hlater j path src hmem'
    exact ⟨src, hwritten, h1, h256⟩

theorem notOvertaken_of_checksumsMatch (hbits : DifferentBits formats uploads)
    (h : s.ChecksumsMatch formats.digests) : NotOvertaken formats.digests history := by
  intro i before path content after guid' sha1 sha256 hsplit hlater j path' content' hput
  have hmem : (i, .notifyUploadSucceeded guid' sha1 sha256 (.ok ())) ∈ history := by
    rw [hsplit]
    exact List.mem_append_right _ (List.mem_cons_of_mem _ hlater)
  obtain ⟨bits, before', after', hbits_i, rfl, rfl, hsplit', -, hnot_before, hnot_after⟩ :=
    split_of_accepted hinter hmem
  -- the put of an upload that is accepted is its only one
  have hmem' : (i, .put path content (.ok ())) ∈
      before' ++ (i, .put guid bits (.ok ())) :: after' := by
    rw [← hsplit', hsplit]
    exact List.mem_append_right _ List.mem_cons_self
  obtain ⟨rfl, rfl⟩ : path = guid ∧ content = bits := by
    rcases List.mem_append.mp hmem' with hb | hm
    · exact absurd hb (hnot_before path content)
    · rcases List.mem_cons.mp hm with heq | ha
      · cases heq
        exact ⟨rfl, rfl⟩
      · exact absurd ha (hnot_after path content)
  obtain ⟨-, -, rfl⟩ : before' = before ∧ _ ∧ after' = after :=
    (List.append_cons_inj_of_notMem (hnot_before path content) (hnot_after path content)).mp
      (hsplit'.symm.trans hsplit)
  by_contra hother
  -- the later put of other bits, and what is stored in the end
  obtain ⟨between, rest, rfl⟩ := List.append_of_mem hput
  rw [hsplit] at hrun
  obtain ⟨s₁, -, hafter⟩ := run_split hrun
  obtain ⟨s₂, hblob, hrest⟩ := run_split hafter
  have hready : s.record = .ready (hexEncode (formats.digests.sha1 content))
      (hexEncode (formats.digests.sha256 content)) := by
    have hcall := List.mem_map_of_mem (f := Prod.snd) hmem
    rw [hsplit] at hcall
    exact Shared.run_record_of_accepted hrun hcall
  obtain ⟨final, hfinal, h1, h256⟩ := h _ _ hready
  rcases Shared.run_blob hrest with hkept | ⟨path'', src, hsrc, hwritten⟩
  · have heq : final = content' := by
      rw [hkept, hblob] at hfinal
      exact (Option.some.inj hfinal).symm
    rw [heq] at h1 h256
    exact hother ⟨h1, h256⟩
  · have heq : final = src := by
      rw [hwritten] at hfinal
      exact (Option.some.inj hfinal).symm
    rw [heq] at h1 h256
    obtain ⟨⟨k, call⟩, hmem_k, rfl⟩ := List.mem_map.mp hsrc
    have hlate : (k, .put path'' src (.ok ())) ∈
        between ++ (j, .put path' content' (.ok ())) :: rest :=
      List.mem_append_right _ (List.mem_cons_of_mem _ hmem_k)
    have hhistory : (k, .put path'' src (.ok ())) ∈ history := by
      rw [hsplit]
      exact List.mem_append_right _ (List.mem_cons_of_mem _ hlate)
    obtain ⟨bits_k, hbits_k, htrace⟩ := trace_of_mem hinter hhistory
    obtain rfl : src = bits_k := htrace.src_eq ((hinter k).subset (mem_ofParty.mpr hhistory))
    obtain rfl : i = k := hbits i k content src hbits_i hbits_k ⟨h1, h256⟩
    exact hnot_after path'' src hlate

/-- **Checksums of concurrent uploads**: what the Cloud Controller records as ready has the
checksums of the blob, in every state that an interleaving reaches, if no put of other bits takes
effect after the one of the upload that is accepted. Uploads of different bits that overtake each
other end in the opposite. -/
theorem checksumsMatch_iff :
    (NotOvertaken formats.digests history → s.ChecksumsMatch formats.digests) ∧
      (DifferentBits formats uploads → s.ChecksumsMatch formats.digests →
        NotOvertaken formats.digests history) :=
  ⟨checksumsMatch_of_notOvertaken hinter hrun, notOvertaken_of_checksumsMatch hinter hrun⟩

end Interleaved

/-! ## Two uploads of one package -/

def lengthDigests : Digests where
  sha1 b := List.replicate 19 0 ++ [UInt8.ofNat b.length]
  sha256 b := List.replicate 31 0 ++ [UInt8.ofNat b.length]
  sha1_length b := by simp

def lengthFormats : Formats := ⟨lengthDigests, plainFormat, plainJson⟩

theorem callsReturn_updatingCC {σ : Type} {handler : ResourceHandler σ}
    {updater : CCUpdater CloudController}
    (hput : ∀ path src, Total (handler.blobstore.put path src))
    (hclient : updater.httpClient = scriptedClient)
    (hnew : ∀ guid, updater.newRequest updater.method (updater.url guid) = true) :
    (handler.updatingCC updater).CallsReturn where
  put path src := (hput path src).zoom
  notifyProcessingUpload guid := (total_update (total_send hclient) (hnew guid)).zoom
  notifyUploadSucceeded guid _ _ := (total_update (total_send hclient) (hnew guid)).zoom
  notifyUploadFailed guid _ := (total_update (total_send hclient) (hnew guid)).zoom

def productionUpdater : CCUpdater CloudController :=
  ⟨scriptedClient, ascii "https://api.internal", ascii "PATCH", fun _ _ => true⟩

/-- The upload of a package to an empty store, over a Cloud Controller with these answers. -/
def packageUpload (entries : List ZipEntry) (answers : List (Result ℕ)) : Upload where
  services := MapStore × CloudController
  handler := (newResourceHandler inmemoryBlobstore mapBlobstore (ascii "package") 0).updatingCC
    productionUpdater
  returns := callsReturn_updatingCC total_mapBlobstore_put rfl fun _ => rfl
  request := ⟨0, fun _ => [], [], ⟨[], none⟩,
    .ok ⟨[], [(ascii "bits", plainFormat.encode entries)]⟩⟩
  host := ⟨fun _ => [], fun _ => none, 0, []⟩
  start := (⟨fun _ => none, [], []⟩, ⟨answers, []⟩)

def twoUploads : Bool → Upload
  | false => packageUpload [] [.ok 200, .ok 200]
  | true => packageUpload [⟨⟨ascii "a", 8, 0, 0⟩, []⟩] [.ok 200, .ok 422]

def firstBits : Bytes := ((twoUploads false).bits lengthFormats).getD []

def secondBits : Bytes := ((twoUploads true).bits lengthFormats).getD []

/-- Both uploads begin, the first one is put and accepted, and then the second one is put. -/
def overtaken : List (Bool × ServiceCall) :=
  [(false, .notifyProcessingUpload (ascii "app") (.ok ())),
    (true, .notifyProcessingUpload (ascii "app") (.ok ())),
    (false, .put (ascii "app") firstBits (.ok ())),
    (false, .notifyUploadSucceeded (ascii "app") (hexEncode (lengthDigests.sha1 firstBits))
      (hexEncode (lengthDigests.sha256 firstBits)) (.ok ())),
    (true, .put (ascii "app") secondBits (.ok ())),
    (true, .notifyUploadSucceeded (ascii "app") (hexEncode (lengthDigests.sha1 secondBits))
      (hexEncode (lengthDigests.sha256 secondBits)) (.error .stateForbidden))]

def afterOvertaken : Shared :=
  ⟨.ready (hexEncode (lengthDigests.sha1 firstBits)) (hexEncode (lengthDigests.sha256 firstBits)),
    some secondBits⟩

theorem ofParty_overtaken (i : Bool) :
    ofParty i overtaken = (twoUploads i).calls lengthFormats (ascii "app") := by
  cases i with
  | false => rfl
  | true => rfl

theorem checksumsMatch_iff_overtaken :
    (NotOvertaken lengthDigests overtaken → afterOvertaken.ChecksumsMatch lengthDigests) ∧
      (DifferentBits lengthFormats twoUploads → afterOvertaken.ChecksumsMatch lengthDigests →
        NotOvertaken lengthDigests overtaken) :=
  @checksumsMatch_iff _ _ lengthFormats _ _ _
    (fun i => ⟨[], (List.append_nil _).trans (ofParty_overtaken i)⟩) none _ rfl

/-- In every complete interleaving of uploads of one package, what is ready has its checksums. -/
def ReadyMatches (formats : Formats) (guid : Bytes) : Prop :=
  ∀ (ι : Type) [DecidableEq ι] (uploads : ι → Upload) (history : List (ι × ServiceCall))
    (blob : Option Bytes) (s : Shared), (∀ i, ofParty i history = (uploads i).calls formats guid) →
    Shared.run ⟨.pending, blob⟩ (history.map Prod.snd) = some s → s.ChecksumsMatch formats.digests

theorem not_readyMatches : ¬ ReadyMatches lengthFormats (ascii "app") := by
  intro h
  have hrun : Shared.run ⟨.pending, none⟩ (overtaken.map Prod.snd) = some afterOvertaken := rfl
  obtain ⟨final, hfinal, h1, -⟩ :=
    h Bool twoUploads overtaken none afterOvertaken ofParty_overtaken hrun _ _ rfl
  cases hfinal
  exact absurd h1 (by decide)

end BitsService
