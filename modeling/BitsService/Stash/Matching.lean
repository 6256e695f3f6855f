import BitsService.Resources.Handler
import BitsService.Stash.AppStashHandler
import BitsService.Stash.BundleSuccess

/-! # Resource matching

A client asks which files of an application the stash has, and uploads the others only. Over a
stash without faults the package is the one that a full upload makes, and the stash has all files of
the right size from then on. -/
namespace BitsService
open GoLib.Effect
set_option autoImplicit false

/-! ## Contents in the stash -/

section Contents
variable (digests : Digests) (minimumSize maximumSize : ℕ) (contents : Bytes → Option Bytes)

theorem stashContent_eq_some {content k b : Bytes}
    (h : stashContent digests minimumSize maximumSize contents content k = some b) :
    contents k = some b ∨ b = content ∧ digests.key b = k := by
  unfold stashContent at h
  split at h
  · by_cases hk : k = digests.key content
    · subst hk
      rw [Function.update_self] at h
      cases h
      exact .inr ⟨rfl, rfl⟩
    · rw [Function.update_of_ne hk] at h
      exact .inl h
  · exact .inl h

theorem stashContent_isSome {k : Bytes} (h : (contents k).isSome = true) (content : Bytes) :
    (stashContent digests minimumSize maximumSize contents content k).isSome = true := by
  unfold stashContent
  split
  · by_cases hk : k = digests.key content
    · rw [hk, Function.update_self]
      rfl
    · rw [Function.update_of_ne hk]
      exact h
  · exact h

theorem stashContent_self {content : Bytes} (h : InRange minimumSize maximumSize content.length) :
    (stashContent digests minimumSize maximumSize contents content (digests.key content)).isSome
      = true := by
  rw [stashContent, if_pos h, Function.update_self]
  rfl

theorem stashUploads_cons (entry : ZipEntry) (entries : List ZipEntry) :
    stashUploads digests minimumSize maximumSize contents (entry :: entries) =
      stashUploads digests minimumSize maximumSize
        (if isRegular entry.header.mode = true then
          stashContent digests minimumSize maximumSize contents entry.content else contents)
        entries := by
  unfold stashUploads
  by_cases hr : isRegular entry.header.mode = true <;> simp [hr]

variable (entries : List ZipEntry)

/-- Whatever the stash has after an upload it had before, or it is an uploaded content under its own
key. -/
theorem stashUploads_eq_some {k b : Bytes}
    (h : stashUploads digests minimumSize maximumSize contents entries k = some b) :
    contents k = some b ∨ (∃ e ∈ entries, e.content = b) ∧ digests.key b = k := by
  induction entries generalizing contents with
  | nil => exact .inl h
  | cons entry entries ih =>
    rw [stashUploads_cons] at h
    rcases ih _ h with hold | ⟨⟨e, he, hb⟩, hk⟩
    · split at hold
      · rcases stashContent_eq_some digests minimumSize maximumSize contents hold with
          hold | ⟨rfl, hk⟩
        · exact .inl hold
        · exact .inr ⟨⟨entry, List.mem_cons_self, rfl⟩, hk⟩
      · exact .inl hold
    · exact .inr ⟨⟨e, List.mem_cons_of_mem _ he, hb⟩, hk⟩

theorem stashUploads_isSome {k : Bytes} (h : (contents k).isSome = true) :
    (stashUploads digests minimumSize maximumSize contents entries k).isSome = true := by
  induction entries generalizing contents with
  | nil => exact h
  | cons entry entries ih =>
    rw [stashUploads_cons]
    apply ih
    split
    · exact stashContent_isSome digests minimumSize maximumSize contents h entry.content
    · exact h

theorem stashUploads_of_mem {entry : ZipEntry} (hmem : entry ∈ entries)
    (hr : isRegular entry.header.mode = true)
    (hsize : InRange minimumSize maximumSize entry.content.length) :
    (stashUploads digests minimumSize maximumSize contents entries
      (digests.key entry.content)).isSome = true := by
  induction entries generalizing contents with
  | nil => cases hmem
  | cons e entries ih =>
    rw [stashUploads_cons]
    rcases List.mem_cons.mp hmem with rfl | hmem
    · apply stashUploads_isSome
      rw [if_pos hr]
      exact stashContent_self digests minimumSize maximumSize contents hsize
    · exact ih _ hmem

end Contents

/-! ## Fingerprints of files -/

/-- An application: regular files, under names that a package can hold, which is an archive. -/
structure Application where
  files : List ZipEntry
  files_ne : files ≠ []
  name_fits : ∀ f ∈ files, FitsZip f.header.name
  names_nodup : (files.map fun f => f.header.name).Nodup
  name_ne : ∀ f ∈ files, f.header.name ≠ []
  name_valid : ∀ f ∈ files, validUtf8 f.header.name = true
  not_dir : ∀ f ∈ files, isDirName f.header.name = false
  mode_bits : ∀ f ∈ files, IsFileBits f.header.mode

/-- The true fingerprint of a file, its mode in octal. -/
def ZipEntry.fingerprint (digests : Digests) (f : ZipEntry) : Fingerprint :=
  ⟨f.header.name, digests.key f.content, f.content.length, formatInt 8 f.header.mode.toNat⟩

theorem IsFileBits.toNat_lt {mode : FileMode} (h : IsFileBits mode) : mode.toNat < 2 ^ 31 := by
  have hand : mode.toNat &&& (modePerm ||| modeSetgid ||| modeSetuid ||| modeSticky).toNat =
      mode.toNat := congrArg UInt32.toNat h
  rw [← hand]
  exact Nat.and_lt_two_pow _ (by decide)

theorem fileModeFrom_formatInt {mode : FileMode} (h : mode.toNat < 2 ^ 31) :
    fileModeFrom (formatInt 8 mode.toNat) = mode := by
  unfold fileModeFrom
  rw [parseInt_formatInt_ofNat (by decide) (by decide) h]
  have hmod : ((mode.toNat : ℤ) % 4294967296).toNat = mode.toNat := by omega
  simp [UInt32.ofInt, hmod]

theorem mode_completeHeader {name : Bytes} (hn : isDirName name = false) {mode : FileMode}
    (hm : IsFileBits mode) :
    (ZipWriter.completeHeader (zipEntryHeader name mode)).mode = mode := by
  rw [mode_completeHeader_zipEntryHeader, hn, if_neg Bool.false_ne_true,
    unixModeToFileMode_fileModeToUnixMode hm]

theorem formatDigits_ascii {base : ℕ} (hb : 0 < base) (hb' : base ≤ 36) (fuel n : ℕ) :
    ∀ c ∈ formatDigits base fuel n, c < 0x80 := by
  have hdigit : ∀ d, d < 36 → digitByte d < 0x80 := by decide
  induction fuel generalizing n with
  | zero => exact fun c hc => absurd hc List.not_mem_nil
  | succ fuel ih =>
    intro c hc
    unfold formatDigits at hc
    split at hc
    · next hn =>
      rw [List.mem_singleton] at hc
      subst hc
      exact hdigit n (by omega)
    · rcases List.mem_append.mp hc with hc | hc
      · exact ih _ c hc
      · rw [List.mem_singleton] at hc
        subst hc
        exact hdigit _ ((Nat.mod_lt n hb).trans_le hb')

theorem key_ascii (digests : Digests) (content : Bytes) :
    ∀ c ∈ digests.key content, c < 0x80 := by
  intro c hc
  obtain ⟨d, hd, rfl⟩ := hexEncode_digits hc
  have hdigit : ∀ d, d < 16 → digitByte d < 0x80 := by decide
  exact hdigit d hd

theorem coerce_fingerprint (digests : Digests) {f : ZipEntry} (h : validUtf8 f.header.name = true) :
    (f.fingerprint digests).coerce = f.fingerprint digests := by
  have hmode : coerceUtf8 (formatInt 8 f.header.mode.toNat) = formatInt 8 f.header.mode.toNat :=
    coerceUtf8_of_ascii (formatDigits_ascii (by decide) (by decide) _ _)
  simp only [Fingerprint.coerce, ZipEntry.fingerprint, coerceUtf8_of_valid h,
    coerceUtf8_of_ascii (key_ascii digests f.content), hmode]

/-! ## The two requests -/

def jsonRequest (body : Bytes) : Request where
  contentLength := body.length
  header _ := []
  query := []
  body := .whole body
  form := .error (.sys (ascii "request Content-Type isn't multipart/form-data"))

def mapAppStash (maxBodySizeLimit minimumSize maximumSize : ℕ) : AppStashHandler MapStore :=
  ⟨mapBlobstore, maxBodySizeLimit, minimumSize, maximumSize⟩

def ResourceHandler.onMapStash (packages : ResourceHandler MapStore)
    (minimumSize maximumSize : ℕ) : ResourceHandler MapStore :=
  { packages with
    appStashBlobstore := mapBlobstore
    minimumSize := minimumSize
    maximumSize := maximumSize }

/-- The fingerprints that match: those of the right size that the stash has. -/
def isMatch (minimumSize maximumSize : ℕ) (contents : Bytes → Option Bytes) (f : Fingerprint) :
    Bool := decide (InRange minimumSize maximumSize f.size) && (contents f.sha1).isSome

section Requests
variable (formats : Formats) (maxBodySizeLimit minimumSize maximumSize : ℕ)

theorem run_handleBodySizeLimits_json {σ : Type} {body : Bytes}
    (hlimit : maxBodySizeLimit = 0 ∨ body.length ≤ maxBodySizeLimit) (w : Env σ) :
    (handleBodySizeLimits (jsonRequest body) maxBodySizeLimit).run w =
      (.returned (some (jsonRequest body)), w) := by
  unfold handleBodySizeLimits
  by_cases h0 : maxBodySizeLimit = 0
  · rw [if_pos h0]
    rfl
  have hle : body.length ≤ maxBodySizeLimit := hlimit.resolve_left h0
  have hlength : (jsonRequest body).contentLength = (body.length : ℤ) := rfl
  rw [if_neg h0, if_neg (by rw [hlength]; omega), if_neg (by rw [hlength]; omega), hlength]
  have hbody : (jsonRequest body).body.limit ((body.length : ℤ)).toNat = .whole body := by
    simp [jsonRequest, Body.limit, Body.whole, Body.delivered]
  rw [hbody]
  rfl

theorem run_readAll_json {σ : Type} (body : Bytes) (w : Env σ) :
    (panicOnError (jsonRequest body).body.readAll).run w = (.returned body, w) := by
  simp [jsonRequest, Body.readAll, Body.whole, Body.delivered]

variable {formats} in
theorem run_postMatches_of_cons {σ : Type} {handler : AppStashHandler σ} {body : Bytes}
    {f : Fingerprint} {fingerprints : List Fingerprint}
    (hlimit : handler.maxBodySizeLimit = 0 ∨ body.length ≤ handler.maxBodySizeLimit)
    (hjson : formats.json.unmarshal body = some (f :: fingerprints)) (w : Env σ) :
    (postMatches formats handler (jsonRequest body)).run w =
      (matchedFingerprints handler (f :: fingerprints) >>= fun matched =>
        write (.raw (formats.json.marshal matched))).run w := by
  unfold postMatches
  rw [run_bind_returned (run_handleBodySizeLimits_json handler.maxBodySizeLimit hlimit w)]
  refine (run_bind_returned (run_readAll_json body w)).trans ?_
  rw [hjson]

theorem run_matchedFingerprints (fingerprints : List Fingerprint) (w : Env MapStore) :
    (matchedFingerprints (mapAppStash maxBodySizeLimit minimumSize maximumSize)
        fingerprints).run w =
      (.returned (fingerprints.filter (isMatch minimumSize maximumSize w.ext.contents)), w) := by
  induction fingerprints with
  | nil => rfl
  | cons entry fingerprints ih =>
    let handler := mapAppStash maxBodySizeLimit minimumSize maximumSize
    have hskip : (entry.size < handler.minimumSize ∨ handler.maximumSize < entry.size) ↔
        ¬ InRange minimumSize maximumSize entry.size := by
      simp only [InRange, handler, mapAppStash]
      omega
    unfold matchedFingerprints
    by_cases hsize : InRange minimumSize maximumSize entry.size
    · rw [if_neg (fun h => hskip.mp h hsize)]
      have hexists : (onExt (handler.blobstore.existsBlob entry.sha1)).run w =
          (.returned (.ok (w.ext.contents entry.sha1).isSome), w) := rfl
      rw [run_bind_returned hexists, run_bind_returned (run_panicOnError_ok _ w),
        run_bind_returned ih]
      by_cases hfound : (w.ext.contents entry.sha1).isSome = true <;>
        simp [isMatch, hsize, hfound]
    · rw [if_pos (hskip.mpr hsize), ih]
      simp [isMatch, hsize]

theorem run_postMatches {body : Bytes} {fingerprints : List Fingerprint}
    (hlimit : maxBodySizeLimit = 0 ∨ body.length ≤ maxBodySizeLimit)
    (hbody : formats.json.unmarshal body = some fingerprints) (hne : fingerprints ≠ [])
    (w : Env MapStore) :
    (postMatches formats (mapAppStash maxBodySizeLimit minimumSize maximumSize)
      (jsonRequest body)).run { w with response := .empty } = (.returned (), { w with
        response := ⟨some 200, [], [.raw (formats.json.marshal (fingerprints.filter
          (isMatch minimumSize maximumSize w.ext.contents)))]⟩ }) := by
  obtain ⟨f, fs, rfl⟩ := List.exists_cons_of_ne_nil hne
  rw [run_postMatches_of_cons hlimit hbody]
  exact run_bind_returned
    (run_matchedFingerprints maxBodySizeLimit minimumSize maximumSize (f :: fs) _)

/-- An upload with resources ends as its bundling does. -/
theorem run_completePackageWithResources (packages : ResourceHandler MapStore) {resources : Bytes}
    {payload : List Fingerprint} {files : List ZipEntry} {w w' : Env MapStore} {name : ℕ}
    (hfits : ∀ e ∈ files, FitsZip e.header.name)
    (hresources : (if resources = [] then some [] else formats.json.unmarshal resources) =
      some payload)
    (hkeys : anyKeyMissingIn payload = none)
    (hrun : (createTempZipFileFrom formats.digests formats.zip minimumSize maximumSize mapBlobstore
      payload (some files)).run w = (.returned (.ok name), w')) :
    (completePackageWithResources formats (packages.onMapStash minimumSize maximumSize) resources
      (formats.zip.encode files)).run w = (.returned (.ok name), w') := by
  unfold completePackageWithResources
  rw [hresources]
  simp only [hkeys, formats.zip.decode_encode hfits]
  exact run_bind_returned hrun

end Requests

/-! ## Archives as maps -/

def filesNamed (es : List ZipEntry) (name : Bytes) : List (Bytes × FileMode) :=
  (es.filter fun e => e.header.name = name).map fun e => (e.content, e.header.mode)

theorem filesNamed_of_perm {es es' : List ZipEntry} (h : es.Perm es')
    (hn : (es.map fun e => e.header.name).Nodup) (name : Bytes) :
    filesNamed es name = filesNamed es' name := by
  have hperm := h.filter (fun e => decide (e.header.name = name))
  have hlen : (es.filter fun e => e.header.name = name).length ≤ 1 := by
    have hnodup := (List.filter_sublist (p := fun e => decide (e.header.name = name)) (l := es)).map
      (fun e : ZipEntry => e.header.name) |>.nodup hn
    have hrep : (es.filter fun e => e.header.name = name).map (fun e => e.header.name) =
        List.replicate (es.filter fun e => e.header.name = name).length name := by
      rw [List.eq_replicate_iff]
      refine ⟨List.length_map _, fun a ha => ?_⟩
      obtain ⟨e, he, rfl⟩ := List.mem_map.mp ha
      simpa using (List.mem_filter.mp he).2
    rw [hrep, List.nodup_replicate] at hnodup
    exact hnodup
  have heq : (es.filter fun e => e.header.name = name) =
      es'.filter fun e => e.header.name = name := by
    cases hes : es.filter fun e => e.header.name = name with
    | nil =>
      rw [hes] at hperm
      exact (List.nil_perm.mp hperm).symm
    | cons e rest =>
      rw [hes] at hperm hlen
      have hrest : rest = [] := List.eq_nil_of_length_eq_zero (by simpa using hlen)
      subst hrest
      exact List.singleton_perm.mp hperm
  rw [filesNamed, filesNamed, heq]

/-! ## The flow of a client -/

section Flow
variable (formats : Formats) (packages : ResourceHandler MapStore)
  (maxBodySizeLimit minimumSize maximumSize : ℕ)

def askMatches (files : List ZipEntry) (w : Env MapStore) : Env MapStore :=
  ((postMatches formats (mapAppStash maxBodySizeLimit minimumSize maximumSize)
    (jsonRequest (formats.json.marshal (files.map (ZipEntry.fingerprint formats.digests))))).run
      { w with response := .empty }).2

def answerText (w : Env MapStore) : Bytes :=
  match w.response.body with
  | [.raw text] => text
  | _ => []

/-- The fingerprints in an answer with status 200. -/
def answeredMatches (w : Env MapStore) : Option (List Fingerprint) :=
  if w.response.status = some 200 then formats.json.unmarshal (answerText w) else none

/-- The files that the client still has to upload. -/
def unmatched (digests : Digests) (matched : List Fingerprint) (files : List ZipEntry) :
    List ZipEntry := files.filter fun f => f.fingerprint digests ∉ matched

/-- An upload of some files with some resources makes a package of these entries. -/
def MakesPackage (resources : Bytes) (files : List ZipEntry) (w : Env MapStore)
    (es : List ZipEntry) (w' : Env MapStore) : Prop :=
  ∃ temp zipFile,
    (completePackageWithResources formats (packages.onMapStash minimumSize maximumSize) resources
      (formats.zip.encode files)).run w = (.returned (.ok temp), w') ∧
    w'.host.temps temp = some zipFile ∧ formats.zip.decode zipFile = .ok es

/-- Uploading what does not match, with what matches as resources, makes the package of a full
upload, and afterwards all files of the right size match. -/
def MatchingTransparent (files : List ZipEntry) (w : Env MapStore) : Prop :=
  ∃ matched es w' es₀ w₀,
    answeredMatches formats (askMatches formats maxBodySizeLimit minimumSize maximumSize files w) =
      some matched ∧
    MakesPackage formats packages minimumSize maximumSize
      (answerText (askMatches formats maxBodySizeLimit minimumSize maximumSize files w))
      (unmatched formats.digests matched files)
      (askMatches formats maxBodySizeLimit minimumSize maximumSize files w) es w' ∧
    MakesPackage formats packages minimumSize maximumSize [] files w es₀ w₀ ∧
    (∀ name, filesNamed es name = filesNamed es₀ name) ∧
    answeredMatches formats (askMatches formats maxBodySizeLimit minimumSize maximumSize files w') =
      some ((files.filter fun f => InRange minimumSize maximumSize f.content.length).map
        (ZipEntry.fingerprint formats.digests))

/-- The SHA-1s of the files tell them from each other and from what is in the stash. -/
def NoCollisions (digests : Digests) (contents : Bytes → Option Bytes) (files : List ZipEntry) :
    Prop :=
  ∀ f ∈ files, ∀ b, ((∃ g ∈ files, g.content = b) ∨ ∃ k, contents k = some b) →
    digests.key b = digests.key f.content → b = f.content

variable {formats} {packages} {maxBodySizeLimit minimumSize maximumSize} (app : Application)
  {w : Env MapStore}

theorem unmarshal_fingerprints (formats : Formats) {files : List ZipEntry}
    (hfiles : ∀ f ∈ files, f ∈ app.files) :
    formats.json.unmarshal
        (formats.json.marshal (files.map (ZipEntry.fingerprint formats.digests))) =
      some (files.map (ZipEntry.fingerprint formats.digests)) := by
  rw [formats.json.unmarshal_marshal, List.map_map]
  exact congrArg some (List.map_congr_left fun f hf =>
    coerce_fingerprint formats.digests (app.name_valid f (hfiles f hf)))

/-- The files that match. -/
def matchingFiles (digests : Digests) (minimumSize maximumSize : ℕ)
    (contents : Bytes → Option Bytes) (files : List ZipEntry) : List ZipEntry :=
  files.filter fun f => isMatch minimumSize maximumSize contents (f.fingerprint digests)

theorem askMatches_eq (hlimit : maxBodySizeLimit = 0 ∨ (formats.json.marshal
      (app.files.map (ZipEntry.fingerprint formats.digests))).length ≤ maxBodySizeLimit) :
    askMatches formats maxBodySizeLimit minimumSize maximumSize app.files w = { w with
      response := ⟨some 200, [], [.raw (formats.json.marshal
        ((matchingFiles formats.digests minimumSize maximumSize w.ext.contents app.files).map
          (ZipEntry.fingerprint formats.digests)))]⟩ } := by
  have hne : app.files.map (ZipEntry.fingerprint formats.digests) ≠ [] := by
    simpa using app.files_ne
  rw [askMatches, run_postMatches formats maxBodySizeLimit minimumSize maximumSize hlimit
    (unmarshal_fingerprints app formats fun _ h => h) hne, List.filter_map]
  rfl

theorem answeredMatches_eq (hlimit : maxBodySizeLimit = 0 ∨ (formats.json.marshal
      (app.files.map (ZipEntry.fingerprint formats.digests))).length ≤ maxBodySizeLimit) :
    answeredMatches formats
        (askMatches formats maxBodySizeLimit minimumSize maximumSize app.files w)
      = some ((matchingFiles formats.digests minimumSize maximumSize w.ext.contents app.files).map
          (ZipEntry.fingerprint formats.digests)) := by
  rw [askMatches_eq app hlimit]
  exact unmarshal_fingerprints app formats fun f hf => (List.mem_filter.mp hf).1

theorem payloadEntry_eq {f : ZipEntry} (hf : f ∈ app.files) {stored : Bytes}
    (hstored : stored = f.content) :
    (⟨payloadHeader (f.fingerprint formats.digests), stored⟩ : ZipEntry) = uploadedEntry f := by
  subst hstored
  rw [payloadHeader, ZipEntry.fingerprint,
    fileModeFrom_formatInt (app.mode_bits f hf).toNat_lt]
  rfl

theorem payloadEntries_faultless (contents : Bytes → Option Bytes) (payload : List Fingerprint) :
    payloadEntries contents [] payload =
      payload.map fun f => ⟨payloadHeader f, (contents f.sha1).getD []⟩ := by
  induction payload with
  | nil => rfl
  | cons f payload ih =>
    rw [payloadEntries, List.map_cons, ← ih]
    simp [deliveredBefore, afterSuccess]

/-- **A package of files and fingerprints**: the files that are uploaded and those that the stash
has, all written alike. -/
theorem makesPackage (stashed uploaded : List ZipEntry) (hw : Smooth w)
    (hstashed : ∀ f ∈ stashed, f ∈ app.files) (huploaded : ∀ f ∈ uploaded, f ∈ app.files)
    (haddressed : ∀ k b, w.ext.contents k = some b → formats.digests.key b = k)
    (hcollisions : NoCollisions formats.digests w.ext.contents app.files)
    (hfound : ∀ f ∈ stashed, (w.ext.contents (formats.digests.key f.content)).isSome = true)
    (resources : Bytes)
    (hresources : (if resources = [] then some [] else formats.json.unmarshal resources) =
      some (stashed.map (ZipEntry.fingerprint formats.digests))) :
    ∃ w', MakesPackage formats packages minimumSize maximumSize resources uploaded w
        ((uploaded ++ stashed).map uploadedEntry) w' ∧ Smooth w' ∧
      w'.ext.contents =
        stashUploads formats.digests minimumSize maximumSize w.ext.contents uploaded := by
  let payload := stashed.map (ZipEntry.fingerprint formats.digests)
  let after := stashUploads formats.digests minimumSize maximumSize w.ext.contents uploaded
  have hafter : ∀ f ∈ stashed, after (formats.digests.key f.content) = some f.content := by
    intro f hf
    obtain ⟨b, hb⟩ := Option.isSome_iff_exists.mp (stashUploads_isSome formats.digests minimumSize
      maximumSize w.ext.contents uploaded (hfound f hf))
    have hb' : b = f.content := by
      rcases stashUploads_eq_some formats.digests minimumSize maximumSize w.ext.contents uploaded hb
        with hold | ⟨⟨g, hg, hgb⟩, hkey⟩
      · exact hcollisions f (hstashed f hf) b (.inr ⟨_, hold⟩) (haddressed _ _ hold)
      · exact hcollisions f (hstashed f hf) b (.inl ⟨g, huploaded g hg, hgb⟩) hkey
    exact hb.trans (congrArg some hb')
  have hkeys : anyKeyMissingIn payload = none := by
    rw [anyKeyMissingIn_eq_none_iff]
    intro g hg
    obtain ⟨f, hf, rfl⟩ := List.mem_map.mp hg
    refine ⟨List.ne_nil_of_length_pos ?_, app.name_ne f (hstashed f hf)⟩
    simp only [ZipEntry.fingerprint, Digests.key, hexEncode_length, formats.digests.sha1_length]
    decide
  have hfits : ∀ f ∈ uploaded, FitsZip f.header.name := fun f hf =>
    app.name_fits f (huploaded f hf)
  obtain ⟨name, w', hrun, hw'⟩ := run_createTempZipFileFrom_of_smooth formats.digests minimumSize
    maximumSize formats.zip payload (some uploaded) hw hfits (fun g hg => by
      obtain ⟨f, hf, rfl⟩ := List.mem_map.mp hg
      exact ⟨Option.isSome_iff_exists.mpr ⟨_, hafter f hf⟩, app.not_dir f (hstashed f hf),
        app.name_fits f (hstashed f hf)⟩)
  obtain ⟨hcontents, htemp, -⟩ := createTempZipFileFrom_eq_ok formats.digests formats.zip
    minimumSize maximumSize hw.1.takesZips hrun
  have hregular : regularEntries (some uploaded) = uploaded :=
    List.filter_eq_self.mpr fun f hf => (app.mode_bits f (huploaded f hf)).isRegular
  have hpayload : payloadEntries w'.ext.contents w.ext.getScript payload =
      stashed.map uploadedEntry := by
    rw [hw.2.1, payloadEntries_faultless, List.map_map]
    refine List.map_congr_left fun f hf => ?_
    have hget : (w'.ext.contents (formats.digests.key f.content)).getD [] = f.content := by
      rw [hcontents]
      exact congrArg (Option.getD · []) (hafter f hf)
    exact payloadEntry_eq app (hstashed f hf) hget
  rw [hregular, hpayload, ← List.map_append] at htemp
  have hnames : ∀ e ∈ (uploaded ++ stashed).map uploadedEntry, FitsZip e.header.name := by
    rw [List.forall_mem_map, List.forall_mem_append]
    exact ⟨hfits, fun f hf => app.name_fits f (hstashed f hf)⟩
  exact ⟨w', ⟨name, _, run_completePackageWithResources formats minimumSize maximumSize packages
    hfits hresources hkeys hrun, htemp, formats.zip.decode_encode hnames⟩, hw', hcontents⟩

theorem perm_files (minimumSize maximumSize : ℕ) (digests : Digests)
    (contents : Bytes → Option Bytes) (files : List ZipEntry) :
    (unmatched digests ((matchingFiles digests minimumSize maximumSize contents files).map
        (ZipEntry.fingerprint digests)) files ++
      matchingFiles digests minimumSize maximumSize contents files).Perm files := by
  have hrest : unmatched digests ((matchingFiles digests minimumSize maximumSize contents files).map
      (ZipEntry.fingerprint digests)) files =
        files.filter fun f =>
          !isMatch minimumSize maximumSize contents (f.fingerprint digests) := by
    refine List.filter_congr fun f hf => ?_
    have hmem : f.fingerprint digests ∈ (matchingFiles digests minimumSize maximumSize contents
        files).map (ZipEntry.fingerprint digests) ↔
          isMatch minimumSize maximumSize contents (f.fingerprint digests) = true := by
      constructor
      · intro h
        obtain ⟨g, hg, hgf⟩ := List.mem_map.mp h
        rw [← hgf]
        exact (List.mem_filter.mp hg).2
      · exact fun h => List.mem_map_of_mem (List.mem_filter.mpr ⟨hf, h⟩)
    by_cases h : isMatch minimumSize maximumSize contents (f.fingerprint digests) = true
    · simp [hmem, h]
    · simp [hmem, h]
  rw [hrest]
  exact List.perm_append_comm.trans (List.filter_append_perm _ files)

theorem uploadedEntry_names (files : List ZipEntry) :
    (files.map uploadedEntry).map (fun e => e.header.name) = files.map fun f => f.header.name := by
  rw [List.map_map]
  rfl

theorem matchingFiles_after (contents : Bytes → Option Bytes) (digests : Digests) :
    matchingFiles digests minimumSize maximumSize
        (stashUploads digests minimumSize maximumSize contents (unmatched digests
          ((matchingFiles digests minimumSize maximumSize contents app.files).map
            (ZipEntry.fingerprint digests)) app.files)) app.files =
      app.files.filter fun f => InRange minimumSize maximumSize f.content.length := by
  refine List.filter_congr fun f hf => ?_
  by_cases hsize : InRange minimumSize maximumSize f.content.length
  · -- the file was in the stash before, or it is one of those that were uploaded
    have hstashed : (stashUploads digests minimumSize maximumSize contents (unmatched digests
        ((matchingFiles digests minimumSize maximumSize contents app.files).map
          (ZipEntry.fingerprint digests)) app.files) (digests.key f.content)).isSome = true := by
      rcases List.mem_append.mp ((perm_files minimumSize maximumSize digests contents
        app.files).mem_iff.mpr hf) with hrest | hmatch
      · exact stashUploads_of_mem digests minimumSize maximumSize contents _ hrest
          (app.mode_bits f hf).isRegular hsize
      · have hisMatch := (List.mem_filter.mp hmatch).2
        rw [isMatch, Bool.and_eq_true] at hisMatch
        exact stashUploads_isSome digests minimumSize maximumSize contents _ hisMatch.2
    simp [isMatch, ZipEntry.fingerprint, hsize, hstashed]
  · simp [isMatch, ZipEntry.fingerprint, hsize]

/-- **Resource matching is transparent.** -/
theorem matching_transparent (formats : Formats) (packages : ResourceHandler MapStore)
    (maxBodySizeLimit minimumSize maximumSize : ℕ) (app : Application) (w : Env MapStore)
    (hhost : w.host.Faultless) (hstore : w.ext.Faultless)
    (haddressed : ∀ k b, w.ext.contents k = some b → formats.digests.key b = k)
    (hcollisions : NoCollisions formats.digests w.ext.contents app.files)
    (hlimit : maxBodySizeLimit = 0 ∨ (formats.json.marshal
      (app.files.map (ZipEntry.fingerprint formats.digests))).length ≤ maxBodySizeLimit) :
    MatchingTransparent formats packages maxBodySizeLimit minimumSize maximumSize app.files w := by
  have hw : Smooth w := ⟨hhost, hstore⟩
  let stashed := matchingFiles formats.digests minimumSize maximumSize w.ext.contents app.files
  let matched := stashed.map (ZipEntry.fingerprint formats.digests)
  have hask : askMatches formats maxBodySizeLimit minimumSize maximumSize app.files w = _ :=
    askMatches_eq app hlimit
  have hanswer := @unmarshal_fingerprints app formats stashed fun f hf => (List.mem_filter.mp hf).1
  obtain ⟨w', hpackage, hw', hcontents⟩ := makesPackage app stashed
    (unmatched formats.digests matched app.files)
    (w := askMatches formats maxBodySizeLimit minimumSize maximumSize app.files w)
    (by rw [hask]; exact hw) (fun f hf => (List.mem_filter.mp hf).1)
    (fun f hf => (List.mem_filter.mp hf).1) (by rw [hask]; exact haddressed)
    (by rw [hask]; exact hcollisions)
    (fun f hf => by
      have hisMatch := (List.mem_filter.mp hf).2
      rw [isMatch, Bool.and_eq_true] at hisMatch
      rw [hask]
      exact hisMatch.2)
    (formats.json.marshal matched) (by rw [if_neg (formats.json.marshal_ne _)]; exact hanswer)
  obtain ⟨w₀, hfull, -⟩ := makesPackage app [] app.files hw
    (fun f hf => absurd hf List.not_mem_nil) (fun f hf => hf) haddressed hcollisions
    (fun f hf => absurd hf List.not_mem_nil) [] rfl
  rw [List.append_nil] at hfull
  have hperm := perm_files minimumSize maximumSize
    formats.digests w.ext.contents app.files
  have hafter : answeredMatches formats
      (askMatches formats maxBodySizeLimit minimumSize maximumSize app.files w') = _ :=
    answeredMatches_eq app hlimit
  have hext : (askMatches formats maxBodySizeLimit minimumSize maximumSize app.files w).ext =
      w.ext := by rw [hask]
  rw [hcontents, hext, matchingFiles_after] at hafter
  refine ⟨matched, (unmatched formats.digests matched app.files ++ stashed).map uploadedEntry, w',
    app.files.map uploadedEntry, w₀, answeredMatches_eq app hlimit, ?_, hfull, fun name => ?_,
    hafter⟩
  · have htext :
        answerText (askMatches formats maxBodySizeLimit minimumSize maximumSize app.files w)
          = formats.json.marshal matched := by rw [hask]; rfl
    rw [htext]
    exact hpackage
  · refine filesNamed_of_perm (hperm.map uploadedEntry) ?_ name
    rw [uploadedEntry_names]
    exact ((hperm.map _).nodup_iff).mpr app.names_nodup

end Flow

/-! ## Two files, one of them in the stash -/

def twoFiles : Application where
  files := [⟨zipEntryHeader (ascii "greeting.txt") 0o644, ascii "hello"⟩,
    ⟨zipEntryHeader (ascii "run") 0o755, ascii "exec"⟩]
  files_ne := by decide
  name_fits := by decide
  names_nodup := by decide
  name_ne := by decide
  name_valid := by decide
  not_dir := by decide
  mode_bits := by decide

theorem helloStash_addressed (k b : Bytes) (h : (helloStash []).ext.contents k = some b) :
    helloDigests.key b = k := by
  simp only [helloStash] at h
  split at h
  · next hk =>
    cases h
    exact hk.symm
  · cases h

theorem noCollisions_twoFiles :
    NoCollisions helloDigests (helloStash []).ext.contents twoFiles.files := by
  intro f hf b hb hkey
  have hknown : b = ascii "hello" ∨ b = ascii "exec" := by
    rcases hb with ⟨g, hg, rfl⟩ | ⟨k, hk⟩
    · simp only [twoFiles, List.mem_cons, List.not_mem_nil, or_false] at hg
      rcases hg with rfl | rfl
      · exact .inl rfl
      · exact .inr rfl
    · simp only [helloStash] at hk
      split at hk
      · cases hk
        exact .inl rfl
      · cases hk
  simp only [twoFiles, List.mem_cons, List.not_mem_nil, or_false] at hf
  rcases hf with rfl | rfl <;> rcases hknown with rfl | rfl
  · rfl
  · exact absurd hkey (by decide)
  · exact absurd hkey (by decide)
  · rfl

theorem matching_transparent_twoFiles :
    (helloStash []).host.Faultless ∧ (helloStash []).ext.Faultless ∧
      MatchingTransparent plainFormats
        (newResourceHandler inmemoryBlobstore mapBlobstore (ascii "package") 0) 0 1 100
        twoFiles.files (helloStash []) :=
  ⟨fun _ => rfl, ⟨rfl, rfl⟩, matching_transparent plainFormats
    (newResourceHandler inmemoryBlobstore mapBlobstore (ascii "package") 0) 0 1 100 twoFiles
    (helloStash []) (fun _ => rfl) ⟨rfl, rfl⟩ helloStash_addressed noCollisions_twoFiles
    (.inl rfl)⟩

end BitsService
