import BitsService.Lib.ContentAddressed
import BitsService.Lib.Sha1
import BitsService.Stash.Addressing
import BitsService.Stash.ServedBundles

/-! # Receipts

The answer to an upload of entries is the list of their fingerprints, which can be sent back as it
is to have them bundled. There is one if temp files can be named after the entries. Over a stash
without faults the bundle has the regular entries of the archive again, with their names and modes,
and with their contents as far as SHA-1 tells these from each other. -/
namespace BitsService
open GoLib GoLib.Effect GoLib.LexicalPath
set_option autoImplicit false

/-! ## A stash without faults -/

/-- In the states `I` nothing fails, and the stash is a content-addressed store. -/
structure HoldsContents {σ : Type} (digests : Digests) (blobstore : NoRedirectBlobstore σ)
    (I : σ → Prop) (held : σ → Bytes → Option Bytes) : Prop where
  put : ∀ content s, I s → ∃ s', (blobstore.put (digests.key content) content).run s =
      (.returned (.ok ()), s') ∧ I s' ∧
    ContentAddressed.Agree digests.key (held s') (ContentAddressed.put digests.key (held s) content)
  get : ∀ x s stored, I s → held s (digests.key x) = some stored →
    ∃ s', (blobstore.get (digests.key x)).run s = (.returned (.ok (.whole stored)), s') ∧ I s' ∧
      held s' = held s

theorem holdsContents_mapBlobstore (digests : Digests) :
    HoldsContents digests mapBlobstore MapStore.Faultless MapStore.contents where
  put content s hs := by
    refine ⟨_, run_mapBlobstore_put_ok (by rw [hs.2]; rfl) (digests.key content) content,
      ⟨hs.1, by rw [hs.2]; rfl⟩, fun x => rfl⟩
  get x s stored hs hstored := by
    refine ⟨{ s with getScript := s.getScript.tail }, ?_, ⟨by rw [hs.1]; rfl, hs.2⟩, rfl⟩
    rw [run_mapBlobstore_get, hs.1, hstored]
    rfl

/-! ## The upload of entries -/

theorem Host.Faultless.run_copyCalculatingSha {h : Host} (hh : h.Faultless) (digests : Digests)
    (writer : ℕ) (content : Bytes) : (copyCalculatingSha digests writer content).run h =
      (.returned (.ok (digests.key content)),
        { h with temps := Function.update h.temps writer (some content) }) := by
  refine (run_orReturn_ok (hh.run_osCall .readEntry)).trans ?_
  exact run_orReturn_ok (hh.run_writeTemp writer content)

section Upload
variable {σ : Type} {formats : Formats} {handler : AppStashHandler σ} {I : σ → Prop}
  {held : σ → Bytes → Option Bytes}
  (hstash : HoldsContents formats.digests handler.blobstore I held)
include hstash

theorem run_copyTo_of_holds {entry : ZipEntry} (hname : NamesTemp (filepathBase entry.header.name))
    {w : Env σ} (hw : Steady I w) :
    ∃ w', (copyTo formats.digests handler.blobstore entry).run w =
        (.returned (.ok (formats.digests.key entry.content)), w') ∧ Steady I w' ∧
      w'.response = w.response ∧ ContentAddressed.Agree formats.digests.key (held w'.ext)
        (ContentAddressed.put formats.digests.key (held w.ext) entry.content) := by
  obtain ⟨s, hput, hs, hheld⟩ := hstash.put entry.content w.ext hw.2
  let w₁ : Env σ := { w with host := { w.host with
    temps := Function.update w.host.temps w.host.next (some []), next := w.host.next + 1 } }
  let w₂ : Env σ := { w₁ with host := { w₁.host with
    temps := Function.update w₁.host.temps w.host.next (some entry.content) } }
  let w₃ : Env σ := { w₂ with ext := s }
  have hw₁ : w₁.host.Faultless := hw.1
  have hw₂ : w₂.host.Faultless := hw.1
  have hopen : (openTemp w.host.next).run w₂.host = (.returned (.ok entry.content), w₂.host) :=
    hw₂.run_openTemp (Function.update_self _ _ _)
  have hstored : (onExt (handler.blobstore.put (formats.digests.key entry.content)
      entry.content)).run w₂ = (.returned (.ok ()), w₃) := by
    rw [run_onExt, hput]
  refine ⟨{ w₃ with host := w₃.host.removeTemp w.host.next }, ?_, ⟨hw.1, hs⟩, rfl, hheld⟩
  unfold copyTo
  rw [run_orReturn_ok (run_onHost_of (hw.1.run_osCall .openEntry)),
    run_orReturn_ok (run_onHost_of (hw.1.run_createTemp hname))]
  refine run_removingTemp ?_
  refine (run_orReturn_ok (run_onHost_of (hw₁.run_copyCalculatingSha formats.digests w.host.next
    entry.content))).trans ?_
  refine (run_orReturn_ok (run_onHost_of hopen)).trans ?_
  exact run_bind_returned hstored

variable (formats handler) in
omit hstash in
/-- An entry that no temp file can be named after ends the upload. -/
theorem run_copyTo_of_not_names {entry : ZipEntry}
    (hname : ¬ NamesTemp (filepathBase entry.header.name)) {w : Env σ} (hw : w.host.Faultless) :
    ∃ e, (copyTo formats.digests handler.blobstore entry).run w =
      (.returned (.error (.withStack e)), w) := by
  obtain ⟨e, he⟩ := createTemp_of_not_names hname
  refine ⟨e, ?_⟩
  unfold copyTo
  rw [run_orReturn_ok (run_onHost_of (hw.run_osCall .openEntry)), he]
  rfl

/-- Every regular entry has a name that a temp file can be named after. -/
def EntriesNameTemps (entries : List ZipEntry) : Prop :=
  ∀ e ∈ regularEntries (some entries), NamesTemp (filepathBase e.header.name)

instance (entries : List ZipEntry) : Decidable (EntriesNameTemps entries) :=
  inferInstanceAs (Decidable (∀ _ ∈ _, _))

theorem run_copyEntries_of_not_names {entries : List ZipEntry} (hnames : ¬ EntriesNameTemps entries)
    {w : Env σ} (hw : Steady I w) :
    ∃ e w', (copyEntries formats handler entries).run w = (.panicked e, w') := by
  induction entries generalizing w with
  | nil => exact absurd (List.forall_mem_nil _) hnames
  | cons entry entries ih =>
    unfold copyEntries
    by_cases hregular : isRegular entry.header.mode = true
    · rw [EntriesNameTemps, regularEntries_cons_of_regular entries hregular,
        List.forall_mem_cons] at hnames
      rw [if_pos hregular]
      by_cases hname : NamesTemp (filepathBase entry.header.name)
      · obtain ⟨w₁, hcopy, hw₁, -, -⟩ := run_copyTo_of_holds hstash hname hw
        obtain ⟨e, w₂, hrest⟩ := ih (fun h => hnames ⟨hname, h⟩) hw₁
        rw [run_bind_returned hcopy]
        exact ⟨e, w₂, run_bind_panicked hrest⟩
      · obtain ⟨e, hcopy⟩ := run_copyTo_of_not_names formats handler hname hw.1
        rw [run_bind_returned hcopy]
        exact ⟨_, w, rfl⟩
    · rw [EntriesNameTemps, regularEntries_cons_of_not_regular entries hregular] at hnames
      rw [if_neg hregular]
      exact ih hnames hw

/-- **The upload of entries**: the fingerprints are those of the regular entries, and these are put
to the stash in their order. -/
theorem run_copyEntries_of_holds {entries : List ZipEntry} (hnames : EntriesNameTemps entries)
    {w : Env σ} (hw : Steady I w) :
    ∃ w', (copyEntries formats handler entries).run w = (.returned (some
        ((regularEntries (some entries)).map (ZipEntry.fingerprint formats.digests))), w') ∧
      Steady I w' ∧ w'.response = w.response ∧
      ContentAddressed.Agree formats.digests.key (held w'.ext)
        (ContentAddressed.putAll formats.digests.key (held w.ext)
          ((regularEntries (some entries)).map ZipEntry.content)) := by
  induction entries generalizing w with
  | nil => exact ⟨w, rfl, hw, rfl, fun x => rfl⟩
  | cons entry entries ih =>
    unfold copyEntries
    by_cases hregular : isRegular entry.header.mode = true
    · have hcons := regularEntries_cons_of_regular entries hregular
      rw [EntriesNameTemps, hcons, List.forall_mem_cons] at hnames
      obtain ⟨w₁, hcopy, hw₁, hresponse₁, hheld₁⟩ := run_copyTo_of_holds hstash hnames.1 hw
      obtain ⟨w₂, hrest, hw₂, hresponse₂, hheld₂⟩ := ih hnames.2 hw₁
      rw [if_pos hregular, run_bind_returned hcopy]
      simp only
      rw [run_bind_returned hrest, hcons]
      refine ⟨w₂, rfl, hw₂, hresponse₂.trans hresponse₁, fun x => ?_⟩
      rw [hheld₂ x]
      exact (hheld₁.putAll _) x
    · have hskip := regularEntries_cons_of_not_regular entries hregular
      rw [EntriesNameTemps, hskip] at hnames
      rw [if_neg hregular, hskip]
      exact ih hnames hw

variable {request request' : Request} {upload : Bytes} {entries : List ZipEntry} {w : Env σ}

def receiptOf (formats : Formats) (entries : List ZipEntry) : Bytes :=
  formats.json.marshal
    ((regularEntries (some entries)).map (ZipEntry.fingerprint formats.digests))

variable (formats) in
omit hstash in
/-- An upload within the limits goes to a temp file, and its entries from there. -/
theorem run_postEntries_of_upload
    (hlimited : request.limited handler.maxBodySizeLimit = some request')
    (hform : request'.formFile (ascii "application") = .ok (some upload))
    (hhost : w.host.Faultless) :
    ∃ w₁ : Env σ, w₁.host.Faultless ∧ w₁.host.temps w.host.next = some upload ∧ w₁.ext = w.ext ∧
      w₁.response = w.response ∧
      ∀ o w', (postUploadedEntries formats handler w.host.next).run w₁ = (o, w') →
        (postEntries formats handler request).run w =
          (o, { w' with host := w'.host.removeTemp w.host.next }) := by
  let w₁ : Env σ := { w with host := { w.host with
    temps := Function.update w.host.temps w.host.next (some []), next := w.host.next + 1 } }
  let w₂ : Env σ := { w₁ with host := { w₁.host with
    temps := Function.update w₁.host.temps w.host.next (some upload) } }
  have hw₁ : w₁.host.Faultless := hhost
  refine ⟨w₂, hhost, Function.update_self _ _ _, rfl, rfl, fun o w' hrun => ?_⟩
  unfold postEntries
  rw [run_bind_returned (run_handleBodySizeLimits hlimited w)]
  simp only [hform]
  have htemp : (onHost (createTemp [])).run w = (.returned (.ok w.host.next), w₁) :=
    run_onHost_of (hhost.run_createTemp (by decide))
  rw [run_bind_returned htemp, run_bind_returned (run_panicOnError_ok w.host.next w₁)]
  refine run_removingTemp ?_
  refine (run_bind_returned (run_onHost_of (hw₁.run_writeTemp w.host.next upload))).trans ?_
  exact (run_bind_returned (run_panicOnError_ok () w₂)).trans hrun

variable (hlimited : request.limited handler.maxBodySizeLimit = some request')
  (hform : request'.formFile (ascii "application") = .ok (some upload))
  (hzip : formats.zip.decode upload = .ok entries) (hw : Steady I w)
include hlimited hform hzip hw

theorem run_postEntries_of_holds (hnames : EntriesNameTemps entries) :
    ∃ w', (postEntries formats handler request).run { w with response := .empty } =
        (.returned (), w') ∧ Steady I w' ∧
      w'.response = ⟨some 201, [], [.raw (receiptOf formats entries)]⟩ ∧
      ContentAddressed.Agree formats.digests.key (held w'.ext)
        (ContentAddressed.putAll formats.digests.key (held w.ext)
          ((regularEntries (some entries)).map ZipEntry.content)) := by
  obtain ⟨w₁, hhost, htemp, hext, hempty, hpost⟩ := run_postEntries_of_upload formats
    (w := { w with response := .empty }) hlimited hform hw.1
  have hw₁ : Steady I w₁ := ⟨hhost, by rw [hext]; exact hw.2⟩
  obtain ⟨w₂, hcopy, hw₂, hresponse, hheld⟩ := run_copyEntries_of_holds hstash hnames hw₁
  let w₃ : Env σ := { w₂ with
    response := ⟨some 201, [], [.raw (receiptOf formats entries)]⟩ }
  have hposted : (postUploadedEntries formats handler w.host.next).run w₁ =
      (.returned (), w₃) := by
    unfold postUploadedEntries
    rw [run_bind_returned (run_onHost_of (hhost.run_openTemp htemp))]
    simp only [Except.toOption, Option.bind_some, hzip]
    rw [run_bind_returned hcopy]
    have hempty : w₂.response = .empty := hresponse.trans hempty
    simp [run_bind, hempty, Response.empty, w₃, receiptOf]
  rw [hext] at hheld
  exact ⟨_, hpost _ _ hposted, hw₂, rfl, hheld⟩

/-- There is no receipt when no temp file can be named after an entry. -/
theorem run_postEntries_of_not_names (hnames : ¬ EntriesNameTemps entries) :
    ∃ e w', (postEntries formats handler request).run { w with response := .empty } =
      (.panicked e, w') := by
  obtain ⟨w₁, hhost, htemp, hext, -, hpost⟩ := run_postEntries_of_upload formats
    (w := { w with response := .empty }) hlimited hform hw.1
  have hw₁ : Steady I w₁ := ⟨hhost, by rw [hext]; exact hw.2⟩
  obtain ⟨e, w₂, hcopy⟩ := run_copyEntries_of_not_names hstash hnames hw₁
  have hposted : (postUploadedEntries formats handler w.host.next).run w₁ = (.panicked e, w₂) := by
    unfold postUploadedEntries
    rw [run_bind_returned (run_onHost_of (hhost.run_openTemp htemp))]
    simp only [Except.toOption, Option.bind_some, hzip]
    exact run_bind_panicked hcopy
  exact ⟨e, _, hpost _ _ hposted⟩

end Upload

/-! ## The bundle of a receipt -/

section RoundTrip
variable {σ : Type} {formats : Formats} {handler : AppStashHandler σ} {I : σ → Prop}
  {held : σ → Bytes → Option Bytes}

/-- What reading a key gives when the stash holds `m`. -/
def heldReads (m : Bytes → Option Bytes) (key : Bytes) : Result Body :=
  match m key with
  | none => .error .newNotFoundError
  | some content => .ok (.whole content)

theorem HoldsContents.reads (hstash : HoldsContents formats.digests handler.blobstore I held)
    {m : Bytes → Option Bytes} {x stored : Bytes} (hx : m (formats.digests.key x) = some stored) :
    Reads handler.blobstore (fun s => I s ∧ held s = m) (formats.digests.key x)
      (heldReads m (formats.digests.key x)) := by
  rintro s ⟨hs, rfl⟩
  obtain ⟨s', hget, hs', hheld⟩ := hstash.get x s stored hs hx
  refine ⟨s', ?_, hs', hheld⟩
  rw [hget, heldReads, hx]

/-- What is asked of an entry: its name, its content and its mode. -/
def ZipEntry.file (e : ZipEntry) : Bytes × Bytes × FileMode :=
  (e.header.name, e.content, e.header.mode)

theorem file_servedEntry (digests : Digests) {m : Bytes → Option Bytes} {e : ZipEntry}
    {stored : Bytes} (hregular : isRegular e.header.mode = true)
    (hstored : m (digests.key e.content) = some stored) :
    (servedEntry (heldReads m) (e.fingerprint digests)).file =
      (e.header.name, stored, e.header.mode) := by
  have hbits : IsFileBits e.header.mode := fileBitsIfRegular_mode e.header hregular
  have hmode : (payloadHeader (e.fingerprint digests)).mode = e.header.mode := by
    rw [payloadHeader, ZipEntry.fingerprint, fileModeFrom_formatInt hbits.toNat_lt]
    exact mode_completeHeader (isDirName_of_isRegular hregular) hbits
  have hcontent : servedContent (heldReads m) (e.fingerprint digests) = stored := by
    rw [servedContent, heldReads, ZipEntry.fingerprint, hstored]
    exact Body.delivered_whole stored
  rw [ZipEntry.file, servedEntry, hmode, hcontent]
  rfl

theorem served_fingerprint (digests : Digests) {m : Bytes → Option Bytes} {e : ZipEntry}
    {stored : Bytes} (hregular : isRegular e.header.mode = true)
    (hstored : m (digests.key e.content) = some stored) :
    Served (heldReads m) (e.fingerprint digests) := by
  have hdir : isDirName e.header.name = false := isDirName_of_isRegular hregular
  rw [Served, heldReads, ZipEntry.fingerprint, hstored]
  refine ⟨rfl, fun h => ?_⟩
  rw [hdir] at h
  cases h

/-- The entries of the archive, uploaded and bundled again with the receipt, come back as they
were. -/
def ReceiptBundles (formats : Formats) (handler : AppStashHandler σ) (request : Request)
    (entries : List ZipEntry) (w : Env σ) : Prop :=
  ∃ receipt w₁ file es,
    (postEntries formats handler request).run { w with response := .empty } = (.returned (), w₁) ∧
    w₁.response = ⟨some 201, [], [.raw receipt]⟩ ∧
    SendsFile (postBundles formats handler (jsonRequest receipt)) w₁ file ∧
    formats.zip.decode file = .ok es ∧
    es.map ZipEntry.file = (regularEntries (some entries)).map ZipEntry.file

/-- No two regular entries have one SHA-1 and different contents. -/
def ToldApart (digests : Digests) (entries : List ZipEntry) : Prop :=
  ∀ e ∈ regularEntries (some entries), ∀ e' ∈ regularEntries (some entries),
    digests.sha1 e.content = digests.sha1 e'.content → e.content = e'.content

theorem toldApart_iff_injOn (digests : Digests) (entries : List ZipEntry) :
    ToldApart digests entries ↔
      Set.InjOn digests.key {c | c ∈ (regularEntries (some entries)).map ZipEntry.content} := by
  have hkey : ∀ x y, digests.key x = digests.key y ↔ digests.sha1 x = digests.sha1 y :=
    fun x y => ⟨fun h => hexEncode_injective h, fun h => congrArg hexEncode h⟩
  constructor
  · intro h c hc c' hc' hsame
    obtain ⟨e, he, rfl⟩ := List.mem_map.mp hc
    obtain ⟨e', he', rfl⟩ := List.mem_map.mp hc'
    exact h e he e' he' ((hkey _ _).mp hsame)
  · intro h e he e' he' hsame
    exact h (List.mem_map_of_mem he) (List.mem_map_of_mem he') ((hkey _ _).mpr hsame)

theorem unmarshal_receiptOf {entries : List ZipEntry}
    (hvalid : ∀ e ∈ regularEntries (some entries), validUtf8 e.header.name = true) :
    formats.json.unmarshal (receiptOf formats entries) =
      some ((regularEntries (some entries)).map (ZipEntry.fingerprint formats.digests)) := by
  rw [receiptOf, formats.json.unmarshal_marshal, List.map_map]
  exact congrArg some (List.map_congr_left fun e he =>
    coerce_fingerprint formats.digests (hvalid e he))

theorem anyKeyMissingIn_fingerprints (digests : Digests) {files : List ZipEntry}
    (hne : ∀ e ∈ files, e.header.name ≠ []) :
    anyKeyMissingIn (files.map (ZipEntry.fingerprint digests)) = none := by
  rw [anyKeyMissingIn_eq_none_iff]
  intro f hf
  obtain ⟨e, he, rfl⟩ := List.mem_map.mp hf
  refine ⟨List.ne_nil_of_length_pos ?_, hne e he⟩
  show 0 < (digests.key e.content).length
  rw [key_length]
  decide

section Posted
variable (hstash : HoldsContents formats.digests handler.blobstore I held)
  {request request' : Request} {upload : Bytes} {entries : List ZipEntry} {w : Env σ}
  (hlimited : request.limited handler.maxBodySizeLimit = some request')
  (hform : request'.formFile (ascii "application") = .ok (some upload))
  (hzip : formats.zip.decode upload = .ok entries)
  (hne : ∀ e ∈ regularEntries (some entries), e.header.name ≠ [])
  (hvalid : ∀ e ∈ regularEntries (some entries), validUtf8 e.header.name = true)
  (hreceipt : handler.maxBodySizeLimit = 0 ∨
    (receiptOf formats entries).length ≤ handler.maxBodySizeLimit)
  (hw : Steady I w)
include hstash hlimited hform hzip hne hvalid hreceipt hw

/-- The receipt is answered with one bundle, whose contents are those that the stash gives back. -/
theorem receipt_bundle (hnames : EntriesNameTemps entries) : ∃ w₁ es,
    (postEntries formats handler request).run { w with response := .empty } = (.returned (), w₁) ∧
    w₁.response = ⟨some 201, [], [.raw (receiptOf formats entries)]⟩ ∧
    (∀ file, SendsFile (postBundles formats handler (jsonRequest (receiptOf formats entries))) w₁
      file ↔ file = formats.zip.encode es) ∧
    formats.zip.decode (formats.zip.encode es) = .ok es ∧
    (es.map ZipEntry.file = (regularEntries (some entries)).map ZipEntry.file ↔
      ToldApart formats.digests entries) := by
  let files := regularEntries (some entries)
  let contents := files.map ZipEntry.content
  obtain ⟨w₁, hpost, hw₁, hresponse, hheld⟩ :=
    run_postEntries_of_holds hstash hlimited hform hzip hw hnames
  have hfits : ∀ e ∈ files, FitsZip e.header.name := fun e he =>
    formats.zip.fits_of_decode hzip e (List.mem_filter.mp he).1
  -- under the key of each entry there is a content, the last one of this key
  have hstored : ∀ e ∈ files, ∃ stored,
      held w₁.ext (formats.digests.key e.content) = some stored := by
    intro e he
    obtain ⟨stored, -, -, hput⟩ := ContentAddressed.putAll_of_mem formats.digests.key
      (held w.ext) (List.mem_map_of_mem (f := ZipEntry.content) he)
    exact ⟨stored, (hheld e.content).trans hput⟩
  have hregular : ∀ e ∈ files, isRegular e.header.mode = true := fun e he =>
    (List.mem_filter.mp he).2
  refine ⟨w₁, (files.map (ZipEntry.fingerprint formats.digests)).map
    (servedEntry (heldReads (held w₁.ext))), hpost, hresponse, fun file => ?_,
    formats.zip.decode_encode ?_, ?_⟩
  · have hreads : ∀ f ∈ files.map (ZipEntry.fingerprint formats.digests), Reads handler.blobstore
        (fun s => I s ∧ held s = held w₁.ext) f.sha1 (heldReads (held w₁.ext) f.sha1) := by
      intro f hf
      obtain ⟨e, he, rfl⟩ := List.mem_map.mp hf
      obtain ⟨stored, hx⟩ := hstored e he
      exact hstash.reads hx
    rw [sendsFile_postBundles_iff handler hreceipt (unmarshal_receiptOf hvalid) hreads
      (w := w₁) ⟨hw₁.1, hw₁.2, rfl⟩ file]
    refine ⟨fun h => h.2.2, fun h => ⟨anyKeyMissingIn_fingerprints _ hne, fun f hf => ?_, h⟩⟩
    obtain ⟨e, he, rfl⟩ := List.mem_map.mp hf
    obtain ⟨stored, hx⟩ := hstored e he
    exact ⟨hfits e he, served_fingerprint formats.digests (hregular e he) hx⟩
  · rw [List.forall_mem_map, List.forall_mem_map]
    exact hfits
  · rw [toldApart_iff_injOn, ← ContentAddressed.givesBack_iff (held w.ext) contents,
      List.map_map, List.map_map, List.map_inj_left]
    have hentry : ∀ e ∈ files, (servedEntry (heldReads (held w₁.ext))
        (e.fingerprint formats.digests)).file = e.file ↔ ContentAddressed.putAll
          formats.digests.key (held w.ext) contents (formats.digests.key e.content) =
            some e.content := by
      intro e he
      obtain ⟨stored, hx⟩ := hstored e he
      rw [file_servedEntry formats.digests (hregular e he) hx, ← hheld e.content, hx]
      simp [ZipEntry.file]
    exact ⟨fun h c hc => by
      obtain ⟨e, he, rfl⟩ := List.mem_map.mp hc
      exact (hentry e he).mp (h e he), fun h e he =>
      (hentry e he).mpr (h e.content (List.mem_map_of_mem he))⟩

omit hne hvalid hreceipt in
/-- Temp files can be named after what is answered with a receipt. -/
theorem ReceiptBundles.entriesNameTemps (h : ReceiptBundles formats handler request entries w) :
    EntriesNameTemps entries := by
  by_contra hnames
  obtain ⟨receipt, w₁, file, es, hpost, -⟩ := h
  obtain ⟨e, w₂, hpanics⟩ := run_postEntries_of_not_names hstash hlimited hform hzip hw hnames
  rw [hpanics] at hpost
  cases hpost

theorem ReceiptBundles.toldApart (h : ReceiptBundles formats handler request entries w) :
    ToldApart formats.digests entries := by
  have hnames := h.entriesNameTemps hstash hlimited hform hzip hw
  obtain ⟨w₁, es, hpost, hresponse, hsends, hes, hsame⟩ :=
    receipt_bundle hstash hlimited hform hzip hne hvalid hreceipt hw hnames
  obtain ⟨receipt, w₂, file, es', hpost', hresponse', hsend, hdecode, hfiles⟩ := h
  rw [hpost] at hpost'
  cases hpost'
  rw [hresponse] at hresponse'
  cases hresponse'
  rw [(hsends file).mp hsend, hes] at hdecode
  cases hdecode
  exact hsame.mp hfiles

theorem receiptBundles_of_toldApart (hnames : EntriesNameTemps entries)
    (h : ToldApart formats.digests entries) :
    ReceiptBundles formats handler request entries w := by
  obtain ⟨w₁, es, hpost, hresponse, hsends, hes, hsame⟩ :=
    receipt_bundle hstash hlimited hform hzip hne hvalid hreceipt hw hnames
  exact ⟨_, w₁, _, es, hpost, hresponse, (hsends _).mpr rfl, hes, hsame.mpr h⟩

end Posted

end RoundTrip

/-! ## The stash on a disk -/

section Local
variable (c : LocalBlobstoreConfig) (digests : Digests) (d : Disk)

/-- The content of the file at the path of a key. -/
def stashedFile (key : Bytes) : Option Bytes :=
  d.file (d.resolve (LocalStore.appStash.path c key))

/-- Nothing fails on the disk, no file is in the way of the directories of the stash, and no
directory in the way of its files. -/
structure Usable : Prop where
  faultless : d.Faultless
  dirs : ∀ content,
    d.tree.blocked (d.resolve (LocalStore.appStash.path c (digests.key content)).dir) = false
  files : ∀ content, d.tree.node (stashFile c digests d content) ≠ some .dir

variable {c digests d}

theorem resolve_dir_eq_dropLast (content : Bytes) :
    d.resolve (LocalStore.appStash.path c (digests.key content)).dir =
      (d.resolve (LocalStore.appStash.path c (digests.key content))).dropLast := by
  have hdir := resolve_stashFile_dir c digests d content
  have hfile := stashFile_eq c digests d content
  unfold stashFile at hfile
  rw [hdir, hfile, List.dropLast_append_of_ne_nil (by simp [stashNames])]

/-- Where the file of a content alone changes at the paths of the stash, its key alone does. -/
theorem agree_of_written {d' : Disk} {content : Bytes} (hresolve : d'.resolve = d.resolve)
    (hfile : ∀ x, d'.tree.node (stashFile c digests d x) =
      if stashFile c digests d x = stashFile c digests d content then some (.file content)
      else d.tree.node (stashFile c digests d x)) :
    ContentAddressed.Agree digests.key (stashedFile c d')
      (ContentAddressed.put digests.key (stashedFile c d) content) := by
  intro x
  show d'.file (d'.resolve _) = _
  rw [hresolve, ContentAddressed.put_hash]
  have hinj := stashFile_inj c digests d (x := x) (y := content)
  by_cases hx : digests.key x = digests.key content
  · rw [if_pos hx, Disk.file_eq_some_iff]
    exact (hfile x).trans (if_pos (hinj.mpr hx))
  · rw [if_neg hx]
    have hother : d'.tree.node (stashFile c digests d x) =
        d.tree.node (stashFile c digests d x) :=
      (hfile x).trans (if_neg fun heq => hx (hinj.mp heq))
    show d'.file (stashFile c digests d x) = d.file (stashFile c digests d x)
    unfold Disk.file
    rw [hother]

/-- **A put to a usable disk** leaves it usable, with the content under its key. -/
theorem Usable.run_put (h : Usable c digests d) (content : Bytes) :
    ∃ d', ((LocalStore.appStash.blobstore c).put (digests.key content) content).run d =
        (.returned (.ok ()), d') ∧ Usable c digests d' ∧
      ContentAddressed.Agree digests.key (stashedFile c d')
        (ContentAddressed.put digests.key (stashedFile c d) content) := by
  have hdir : ∀ x y, ¬ stashFile c digests d x <+:
      d.resolve (LocalStore.appStash.path c (digests.key y)).dir :=
    not_prefix_stashFile_dir c digests d
  obtain ⟨d', hrun, hcwd, hfaultless, hput⟩ := c.run_put_of_faultless
    (LocalStore.appStash.storePrefix ++ pathFor (digests.key content)) content d h.faultless
    (h.dirs content) (h.files content) (resolve_dir_eq_dropLast content) (hdir content content)
  have hnode : ∀ q, d'.tree.node q =
      if q = stashFile c digests d content then some (.file content)
      else if q <+: d.resolve (LocalStore.appStash.path c (digests.key content)).dir then some .dir
      else d.tree.node q := hput
  have hresolve : d'.resolve = d.resolve := by
    funext path
    simp only [Disk.resolve, hcwd]
  have hfile : ∀ x, d'.tree.node (stashFile c digests d x) =
      if stashFile c digests d x = stashFile c digests d content then some (.file content)
      else d.tree.node (stashFile c digests d x) := by
    intro x
    rw [hnode, if_neg (hdir x content)]
  refine ⟨d', ?_, ⟨hfaultless, fun x => ?_, fun x => ?_⟩, agree_of_written hresolve hfile⟩
  · rw [LocalStore.blobstore_put]
    exact hrun
  · -- the new file is in the way of no directory
    rw [hresolve]
    exact FileTree.blocked_of_written hnode (h.dirs x) (hdir content x)
  · rw [stashFile, hresolve, ← stashFile, hfile]
    split
    · simp
    · exact h.files x

theorem holdsContents_localStash {τ : Type} :
    HoldsContents digests (localStash c τ) (fun s => Usable c digests s.1)
      (fun s => stashedFile c s.1) where
  put content s hs := by
    obtain ⟨d', hrun, hd', hheld⟩ := hs.run_put content
    refine ⟨(d', s.2), ?_, hd', hheld⟩
    rw [localStash, NoRedirectBlobstore.zoom, run_zoom]
    exact congrArg (fun r => (r.1, (r.2, s.2))) hrun
  get x s stored hs hstored := by
    have hnode := Disk.file_eq_some_iff.mp hstored
    refine ⟨({ s.1 with touched := s.1.touched ++
      [LocalStore.appStash.path c (digests.key x)] }, s.2), ?_,
      ⟨hs.faultless, hs.dirs, hs.files⟩, rfl⟩
    have hget := c.run_get_of_node hnode
    rw [localStash, NoRedirectBlobstore.zoom, run_zoom, LocalStore.blobstore_get]
    exact congrArg (fun r => (r.1, (r.2, s.2))) hget

end Local

def entriesUpload (formats : Formats) (entries : List ZipEntry) : Request where
  contentLength := (formats.zip.encode entries).length
  header _ := []
  query := []
  body := ⟨[], none⟩
  form := .ok ⟨[], [(ascii "application", formats.zip.encode entries)]⟩

theorem limited_entriesUpload (formats : Formats) (entries : List ZipEntry) :
    (entriesUpload formats entries).limited 0 = some (entriesUpload formats entries) := rfl

theorem formFile_entriesUpload (formats : Formats) (entries : List ZipEntry) :
    (entriesUpload formats entries).formFile (ascii "application") =
      .ok (some (formats.zip.encode entries)) := rfl

theorem usable_emptyDisk (digests : Digests) :
    Usable varVcapStore digests (emptyDisk []).ext.1 where
  faultless c := by
    show (if c = .copy then [] else []) = []
    exact ite_self _
  dirs content := FileTree.blocked_empty _
  files content := by
    rw [stashFile_eq]
    simp [emptyDisk, FileTree.empty, stashNames]

theorem steady_emptyDisk (digests : Digests) :
    Steady (fun s => Usable varVcapStore digests s.1) (emptyDisk []) :=
  ⟨fun _ => rfl, usable_emptyDisk digests⟩

/-- Two entries of one name and one content, one of them with the set-user-id bit, and a
directory. -/
def scripts : List ZipEntry :=
  [⟨zipEntryHeader (ascii "run") (modeSetuid ||| 0o755), ascii "hello"⟩,
    ⟨zipEntryHeader (ascii "lib/") (modeDir ||| 0o755), []⟩,
    ⟨zipEntryHeader (ascii "run") 0o644, ascii "hello"⟩]

/-- The name and nine digits are one byte too long for the name of a file. -/
def longEntries : List ZipEntry :=
  [⟨zipEntryHeader (List.replicate 247 97) 0o644, ascii "hello"⟩]

theorem not_receiptBundles_longEntries :
    ¬ ReceiptBundles plainFormats (localAppStashHandler varVcapStore MapStore 0 0 100)
      (entriesUpload plainFormats longEntries) longEntries (emptyDisk []) := by
  intro h
  have hnames : EntriesNameTemps longEntries :=
    h.entriesNameTemps holdsContents_localStash (limited_entriesUpload plainFormats longEntries)
      (formFile_entriesUpload plainFormats longEntries)
      (plainFormats.zip.decode_encode (by decide +kernel)) (steady_emptyDisk helloDigests)
  exact absurd hnames (by decide +kernel)

/-! ## Two contents with one SHA-1 -/

/-- SHA-1 itself. SHA-256 has no part in this. -/
def sha1Digests : Digests := ⟨Sha1.sum, helloDigests.sha256, Sha1.sum_length⟩

def sha1Formats : Formats := ⟨sha1Digests, plainFormat, plainJson⟩

example : sha1Digests.sha1 (ascii "hello") = helloDigests.sha1 (ascii "hello") := by decide +kernel

/-- What the two contents begin with: three blocks. -/
def collisionStart : Bytes :=
  [0x25, 0x50, 0x44, 0x46, 0x2d, 0x31, 0x2e, 0x33, 0x0a, 0x25, 0xe2, 0xe3, 0xcf, 0xd3, 0x0a, 0x0a,
   0x0a, 0x31, 0x20, 0x30, 0x20, 0x6f, 0x62, 0x6a, 0x0a, 0x3c, 0x3c, 0x2f, 0x57, 0x69, 0x64, 0x74,
   0x68, 0x20, 0x32, 0x20, 0x30, 0x20, 0x52, 0x2f, 0x48, 0x65, 0x69, 0x67, 0x68, 0x74, 0x20, 0x33,
   0x20, 0x30, 0x20, 0x52, 0x2f, 0x54, 0x79, 0x70, 0x65, 0x20, 0x34, 0x20, 0x30, 0x20, 0x52, 0x2f,
   0x53, 0x75, 0x62, 0x74, 0x79, 0x70, 0x65, 0x20, 0x35, 0x20, 0x30, 0x20, 0x52, 0x2f, 0x46, 0x69,
   0x6c, 0x74, 0x65, 0x72, 0x20, 0x36, 0x20, 0x30, 0x20, 0x52, 0x2f, 0x43, 0x6f, 0x6c, 0x6f, 0x72,
   0x53, 0x70, 0x61, 0x63, 0x65, 0x20, 0x37, 0x20, 0x30, 0x20, 0x52, 0x2f, 0x4c, 0x65, 0x6e, 0x67,
   0x74, 0x68, 0x20, 0x38, 0x20, 0x30, 0x20, 0x52, 0x2f, 0x42, 0x69, 0x74, 0x73, 0x50, 0x65, 0x72,
   0x43, 0x6f, 0x6d, 0x70, 0x6f, 0x6e, 0x65, 0x6e, 0x74, 0x20, 0x38, 0x3e, 0x3e, 0x0a, 0x73, 0x74,
   0x72, 0x65, 0x61, 0x6d, 0x0a, 0xff, 0xd8, 0xff, 0xfe, 0x00, 0x24, 0x53, 0x48, 0x41, 0x2d, 0x31,
   0x20, 0x69, 0x73, 0x20, 0x64, 0x65, 0x61, 0x64, 0x21, 0x21, 0x21, 0x21, 0x21, 0x85, 0x2f, 0xec,
   0x09, 0x23, 0x39, 0x75, 0x9c, 0x39, 0xb1, 0xa1, 0xc6, 0x3c, 0x4c, 0x97, 0xe1, 0xff, 0xfe, 0x01]

/-- Two blocks each, after which the state is the same. -/
def collisionLeft : Bytes :=
  [0x7f, 0x46, 0xdc, 0x93, 0xa6, 0xb6, 0x7e, 0x01, 0x3b, 0x02, 0x9a, 0xaa, 0x1d, 0xb2, 0x56, 0x0b,
   0x45, 0xca, 0x67, 0xd6, 0x88, 0xc7, 0xf8, 0x4b, 0x8c, 0x4c, 0x79, 0x1f, 0xe0, 0x2b, 0x3d, 0xf6,
   0x14, 0xf8, 0x6d, 0xb1, 0x69, 0x09, 0x01, 0xc5, 0x6b, 0x45, 0xc1, 0x53, 0x0a, 0xfe, 0xdf, 0xb7,
   0x60, 0x38, 0xe9, 0x72, 0x72, 0x2f, 0xe7, 0xad, 0x72, 0x8f, 0x0e, 0x49, 0x04, 0xe0, 0x46, 0xc2,
   0x30, 0x57, 0x0f, 0xe9, 0xd4, 0x13, 0x98, 0xab, 0xe1, 0x2e, 0xf5, 0xbc, 0x94, 0x2b, 0xe3, 0x35,
   0x42, 0xa4, 0x80, 0x2d, 0x98, 0xb5, 0xd7, 0x0f, 0x2a, 0x33, 0x2e, 0xc3, 0x7f, 0xac, 0x35, 0x14,
   0xe7, 0x4d, 0xdc, 0x0f, 0x2c, 0xc1, 0xa8, 0x74, 0xcd, 0x0c, 0x78, 0x30, 0x5a, 0x21, 0x56, 0x64,
   0x61, 0x30, 0x97, 0x89, 0x60, 0x6b, 0xd0, 0xbf, 0x3f, 0x98, 0xcd, 0xa8, 0x04, 0x46, 0x29, 0xa1]

def collisionRight : Bytes :=
  [0x73, 0x46, 0xdc, 0x91, 0x66, 0xb6, 0x7e, 0x11, 0x8f, 0x02, 0x9a, 0xb6, 0x21, 0xb2, 0x56, 0x0f,
   0xf9, 0xca, 0x67, 0xcc, 0xa8, 0xc7, 0xf8, 0x5b, 0xa8, 0x4c, 0x79, 0x03, 0x0c, 0x2b, 0x3d, 0xe2,
   0x18, 0xf8, 0x6d, 0xb3, 0xa9, 0x09, 0x01, 0xd5, 0xdf, 0x45, 0xc1, 0x4f, 0x26, 0xfe, 0xdf, 0xb3,
   0xdc, 0x38, 0xe9, 0x6a, 0xc2, 0x2f, 0xe7, 0xbd, 0x72, 0x8f, 0x0e, 0x45, 0xbc, 0xe0, 0x46, 0xd2,
   0x3c, 0x57, 0x0f, 0xeb, 0x14, 0x13, 0x98, 0xbb, 0x55, 0x2e, 0xf5, 0xa0, 0xa8, 0x2b, 0xe3, 0x31,
   0xfe, 0xa4, 0x80, 0x37, 0xb8, 0xb5, 0xd7, 0x1f, 0x0e, 0x33, 0x2e, 0xdf, 0x93, 0xac, 0x35, 0x00,
   0xeb, 0x4d, 0xdc, 0x0d, 0xec, 0xc1, 0xa8, 0x64, 0x79, 0x0c, 0x78, 0x2c, 0x76, 0x21, 0x56, 0x60,
   0xdd, 0x30, 0x97, 0x91, 0xd0, 0x6b, 0xd0, 0xaf, 0x3f, 0x98, 0xcd, 0xa4, 0xbc, 0x46, 0x29, 0xb1]

theorem sha1_collision : sha1Digests.sha1 (collisionStart ++ collisionLeft) =
    sha1Digests.sha1 (collisionStart ++ collisionRight) := by decide +kernel

def collidingEntries : List ZipEntry :=
  [⟨zipEntryHeader (ascii "left") 0o644, collisionStart ++ collisionLeft⟩,
    ⟨zipEntryHeader (ascii "right") 0o644, collisionStart ++ collisionRight⟩]

end BitsService
