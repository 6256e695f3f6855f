import BitsService.Blobstores.LocalWrites
import BitsService.Blobstores.Scripted
import BitsService.Resources.CCUpdater
import BitsService.Resources.DeleteFrame
import BitsService.Resources.Receiving
import BitsService.Stash.AppStashHandler

/-! # The app stash as a content-addressed store

The stash on a local disk, over runs of requests. Whatever a request puts there it puts under its
own key, but a put that is cut off leaves a part of its content under the key of the whole, and
nothing takes it away. -/
namespace BitsService
open GoLib GoLib.Effect GoLib.LexicalPath
set_option autoImplicit false

/-! ## Runs of requests -/

section Runs
variable {σ : Type}

inductive StashRequest where
  | postMatches (request : Request)
  | postEntries (request : Request)
  | postBundles (request : Request)
  | addOrReplacePackage (request : Request) (identifier : Bytes)

def serve (formats : Formats) (appStash : AppStashHandler σ) (packages : ResourceHandler σ) :
    StashRequest → Prog GoError (Env σ) Unit
  | .postMatches request => postMatches formats appStash request
  | .postEntries request => postEntries formats appStash request
  | .postBundles request => postBundles formats appStash request
  | .addOrReplacePackage request identifier => addOrReplace formats packages request identifier

def afterRequests (formats : Formats) (appStash : AppStashHandler σ)
    (packages : ResourceHandler σ) : List StashRequest → Env σ → Env σ
  | [], w => w
  | request :: requests, w =>
    afterRequests formats appStash packages requests
      ((serve formats appStash packages request).run { w with response := .empty }).2

variable {formats : Formats} {appStash : AppStashHandler σ} {packages : ResourceHandler σ}
  {J : σ → Prop}

structure KeptByPackages (packages : ResourceHandler σ) (J : σ → Prop) : Prop where
  put : ∀ path src, Keeps J (packages.blobstore.put path src)
  notifyProcessingUpload : ∀ guid, Keeps J (packages.updater.notifyProcessingUpload guid)
  notifyUploadSucceeded : ∀ guid sha1 sha256,
    Keeps J (packages.updater.notifyUploadSucceeded guid sha1 sha256)
  notifyUploadFailed : ∀ guid e, Keeps J (packages.updater.notifyUploadFailed guid e)

theorem keeps_writeResponseBasedOn_ofExt (J : σ → Prop) (digests : Digests)
    (redirectLocation : Bytes) (e : Option GoError) (statusCode : ℕ) (body : Option Body)
    (jsonBody : Option ResponseBody) (ifNoneModify : Bytes) :
    Keeps (OfExt J) (writeResponseBasedOn digests redirectLocation e statusCode body jsonBody
      ifNoneModify) :=
  (keptByAnswers_ofExt J).writeResponseBasedOn digests redirectLocation e statusCode body jsonBody
    (fun _ => keeps_writeHeader_ofExt J statusCode) (fun _ _ => keeps_write_ofExt J _) ifNoneModify

theorem keeps_addOrReplace (hstash : KeptByStash formats.digests packages.appStashBlobstore J)
    (hpackages : KeptByPackages packages J) (request : Request) (identifier : Bytes) :
    Keeps (OfExt J) (addOrReplace formats packages request identifier) := by
  have hblind := hostBlind_ofExt J
  have hreceiving : KeptWhileReceiving formats packages (OfExt J) :=
    ⟨hblind, keptByAnswers_ofExt J, fun content => keeps_onExt (hstash.put content),
      fun key => keeps_onExt (hstash.get key)⟩
  have hstoring : KeptWhileStoring packages (OfExt J) :=
    ⟨hblind, fun path src => keeps_onExt (hpackages.put path src),
      fun guid sha1 sha256 => keeps_onExt (hpackages.notifyUploadSucceeded guid sha1 sha256),
      fun guid e => keeps_onExt (hpackages.notifyUploadFailed guid e)⟩
  refine Keeps.bind (hreceiving.receiveUpload request) fun r => ?_
  cases r with
  | none => exact Keeps.pure _ _
  | some received =>
    obtain ⟨request, tempFilename⟩ := received
    refine Keeps.bind (hblind.keeps_onHost _) fun sums =>
      Keeps.bind (keeps_panicOnError _ sums) fun sums =>
      Keeps.bind (keeps_onExt (hpackages.notifyProcessingUpload identifier)) fun e =>
      Keeps.bind ((keptByAnswers_ofExt J).handleNotificationError e) fun answered => ?_
    cases answered with
    | true => exact Keeps.pure _ _
    | false =>
      have hupload := hstoring.uploadResource tempFilename identifier sums.1 sums.2
      simp only [Bool.false_eq_true, if_false]
      unfold uploadAndAnswer
      split
      · exact Keeps.bind (keeps_writeResponseBasedOn_ofExt J _ _ _ _ _ _ _) fun _ =>
          Keeps.bind hupload fun _ => Keeps.pure _ _
      · exact Keeps.bind hupload fun e => keeps_writeResponseBasedOn_ofExt J _ _ _ _ _ _ _

theorem keeps_serve (happStash : KeptByStash formats.digests appStash.blobstore J)
    (hstash : KeptByStash formats.digests packages.appStashBlobstore J)
    (hpackages : KeptByPackages packages J) (request : StashRequest) :
    Keeps (OfExt J) (serve formats appStash packages request) := by
  cases request with
  | postMatches request => exact happStash.postMatches request
  | postEntries request => exact happStash.postEntries request
  | postBundles request => exact happStash.postBundles request
  | addOrReplacePackage request identifier =>
    exact keeps_addOrReplace hstash hpackages request identifier

theorem afterRequests_keeps (happStash : KeptByStash formats.digests appStash.blobstore J)
    (hstash : KeptByStash formats.digests packages.appStashBlobstore J)
    (hpackages : KeptByPackages packages J) (requests : List StashRequest) {w : Env σ}
    (hw : OfExt J w) : OfExt J (afterRequests formats appStash packages requests w) := by
  induction requests generalizing w with
  | nil => exact hw
  | cons request requests ih =>
    exact ih (keeps_serve happStash hstash hpackages request { w with response := .empty } hw)

end Runs

/-! ## The files of the stash -/

section Files
variable (c : LocalBlobstoreConfig) (digests : Digests) (d : Disk)

theorem isPlainName_of_hex {name : Bytes} (hne : name ≠ []) (h : ∀ c ∈ name, IsHexDigit c) :
    IsPlainName name := by
  have hdot : (46 : UInt8) ∉ name := fun hmem => (h _ hmem).ne_of_lt (by decide) rfl
  refine ⟨fun hmem => (h _ hmem).ne_of_lt (by decide) rfl, hne, ?_, ?_⟩
  · rintro rfl
    exact hdot (by decide)
  · rintro rfl
    exact hdot (by decide)

theorem key_length (content : Bytes) : (digests.key content).length = 40 := by
  rw [Digests.key, hexEncode_length, digests.sha1_length]

def stashNames (content : Bytes) : List Bytes :=
  [ascii "app_bits_cache", (digests.key content).take 2, ((digests.key content).drop 2).take 2,
    digests.key content]

theorem appStash_path (content : Bytes) :
    LocalStore.appStash.path c (digests.key content) =
      (cleanPath c.pathPrefix).descend (stashNames digests content) := by
  have hlen := key_length digests content
  have hhex : ∀ b ∈ digests.key content, IsHexDigit b := fun b hb => hexEncode_digits hb
  have htake : IsPlainName ((digests.key content).take 2) := by
    refine isPlainName_of_hex ?_ fun b hb => hhex b (List.mem_of_mem_take hb)
    exact List.ne_nil_of_length_pos (by rw [List.length_take, hlen]; decide)
  have hdrop : IsPlainName (((digests.key content).drop 2).take 2) := by
    refine isPlainName_of_hex ?_ fun b hb =>
      hhex b (List.mem_of_mem_drop (List.mem_of_mem_take hb))
    exact List.ne_nil_of_length_pos (by rw [List.length_take, List.length_drop, hlen]; decide)
  have hkey : IsPlainName (digests.key content) :=
    isPlainName_of_hex (List.ne_nil_of_length_pos (by rw [hlen]; decide)) hhex
  have hmoves : movesOf (ascii "app_bits_cache/" ++ pathFor (digests.key content)) =
      (stashNames digests content).map .into := by
    rw [pathFor_of_four_le (by rw [hlen]; decide)]
    have hpre : ascii "app_bits_cache/" = ascii "app_bits_cache" ++ [slash] := by decide
    rw [hpre, List.append_assoc, List.singleton_append, movesOf_append_slash,
      movesOf_append_slash, movesOf_append_slash, htake.movesOf_eq, hdrop.movesOf_eq,
      hkey.movesOf_eq]
    rfl
  rw [LocalStore.path, LocalBlobstoreConfig.fullPath, filepathJoin_eq_walk c.pathPrefix_ne]
  exact (congrArg _ hmoves).trans (Loc.walk_map_into _ _)

def stashFile (content : Bytes) : List Bytes :=
  d.resolve (LocalStore.appStash.path c (digests.key content))

theorem stashFile_eq (content : Bytes) :
    stashFile c digests d content =
      d.resolve (cleanPath c.pathPrefix) ++ stashNames digests content := by
  rw [stashFile, appStash_path, resolve_descend]

theorem resolve_stashFile_dir (content : Bytes) :
    d.resolve (LocalStore.appStash.path c (digests.key content)).dir =
      d.resolve (cleanPath c.pathPrefix) ++ (stashNames digests content).dropLast := by
  rw [appStash_path, Loc.dir_descend _ (by simp [stashNames]), resolve_descend]

theorem stashFile_inj {x y : Bytes} :
    stashFile c digests d x = stashFile c digests d y ↔ digests.key x = digests.key y := by
  constructor
  · intro h
    rw [stashFile_eq, stashFile_eq] at h
    have hnames := List.append_cancel_left h
    simp only [stashNames, List.cons.injEq] at hnames
    exact hnames.2.2.2.1
  · intro h
    rw [stashFile, stashFile, h]

theorem not_prefix_stashFile_dir (x y : Bytes) : ¬ stashFile c digests d x <+:
    d.resolve (LocalStore.appStash.path c (digests.key y)).dir := by
  intro h
  have hle := h.length_le
  rw [stashFile_eq, resolve_stashFile_dir] at hle
  simp [stashNames] at hle

/-! ## The disk and the log of its writes -/

/-- The files of the stash are what the log of the writes says, and none of them is a directory. -/
structure StashRecorded : Prop where
  records : WriteLog.Records (stashFile c digests d) d.writes d.file
  not_dir : ∀ content, d.tree.node (stashFile c digests d content) ≠ some .dir

def EmptyStash : Prop :=
  d.writes = [] ∧ ∀ content, d.tree.node (stashFile c digests d content) = none

/-- What the stash says it has, it has: the bytes under a key are of that key. -/
def StashAddressed : Prop := ∀ content,
  (((LocalStore.appStash.blobstore c).existsBlob (digests.key content)).run d).1 =
      .returned (.ok true) →
    ∃ served, (((LocalStore.appStash.blobstore c).get (digests.key content)).run d).1 =
        .returned (.ok (.whole served)) ∧ digests.key served = digests.key content

/-- Under every key, the last write left bytes of the key that it was offered bytes of. -/
def LastWritesWhole : Prop := ∀ content write,
  WriteLog.last d.writes (stashFile c digests d content) = some write →
    digests.key write.written = digests.key write.offered

variable {c digests d}

theorem stashFile_congr {d' : Disk} (hcwd : d'.cwd = d.cwd) :
    stashFile c digests d' = stashFile c digests d := by
  funext content
  simp only [stashFile, Disk.resolve, hcwd]

theorem EmptyStash.recorded (h : EmptyStash c digests d) : StashRecorded c digests d where
  records := by
    rw [h.1]
    exact WriteLog.Records.nil fun content => by rw [Disk.file, h.2 content]
  not_dir content := by
    rw [h.2 content]
    simp

theorem StashRecorded.congr (h : StashRecorded c digests d) {d' : Disk} (hcwd : d'.cwd = d.cwd)
    (hwrites : d'.writes = d.writes)
    (hnode : ∀ content, d'.tree.node (stashFile c digests d content) =
      d.tree.node (stashFile c digests d content)) : StashRecorded c digests d' where
  records := by
    rw [stashFile_congr hcwd, hwrites]
    exact h.records.congr fun content => by simp only [Disk.file, hnode content]
  not_dir content := by
    rw [stashFile_congr hcwd, hnode]
    exact h.not_dir content

theorem keeps_stashRecorded_put (content : Bytes) : Keeps (StashRecorded c digests)
    ((LocalStore.appStash.blobstore c).put (digests.key content) content) := by
  intro d hd
  rw [LocalStore.blobstore_put]
  obtain ⟨r, d', hrun, hcase⟩ :=
    c.run_put (LocalStore.appStash.storePrefix ++ pathFor (digests.key content)) content d
  rw [hrun]
  have hfile : d.resolve (c.fullPath (LocalStore.appStash.storePrefix ++
      pathFor (digests.key content))) = stashFile c digests d content := rfl
  have hdir : ∀ x, ¬ stashFile c digests d x <+: d.resolve (c.fullPath
      (LocalStore.appStash.storePrefix ++ pathFor (digests.key content))).dir := fun x =>
    not_prefix_stashFile_dir c digests d x content
  rcases hcase with hdirs | ⟨written, -, -, hcwd, -, hwrites, hnode⟩
  · exact hd.congr hdirs.cwd hdirs.writes fun x => hdirs.node _ (hdir x)
  rw [hfile] at hwrites hnode
  have hnode' := fun x => hnode (stashFile c digests d x) (hdir x)
  refine ⟨?_, fun x => ?_⟩
  · rw [stashFile_congr hcwd, hwrites]
    refine hd.records.write fun x => ?_
    simp only [Disk.file, hnode' x]
    by_cases hx : stashFile c digests d x = stashFile c digests d content
    · simp only [if_pos hx]
    · simp only [if_neg hx]
  · rw [stashFile_congr hcwd, hnode']
    by_cases hx : stashFile c digests d x = stashFile c digests d content
    · rw [if_pos hx]
      simp
    · rw [if_neg hx]
      exact hd.not_dir x

theorem keptByStash_recorded (c : LocalBlobstoreConfig) (digests : Digests) :
    KeptByStash digests (LocalStore.appStash.blobstore c) (StashRecorded c digests) where
  existsBlob key d hd := by
    rw [LocalStore.blobstore_existsBlob, c.existsBlob_touched]
    exact hd.congr rfl rfl fun _ => rfl
  get key d hd := by
    rw [LocalStore.blobstore_get, c.get_touched]
    exact hd.congr rfl rfl fun _ => rfl
  put := keeps_stashRecorded_put

/-- No copy has been cut off, and none will be. -/
def CopiesWhole (d : Disk) : Prop :=
  (∀ f ∈ d.faults .copy, f = none) ∧ ∀ write ∈ d.writes, write.written = write.offered

theorem keptByStash_copiesWhole (c : LocalBlobstoreConfig) (digests : Digests) :
    KeptByStash digests (LocalStore.appStash.blobstore c) CopiesWhole where
  existsBlob key d hd := by
    rw [LocalStore.blobstore_existsBlob, c.existsBlob_touched]
    exact hd
  get key d hd := by
    rw [LocalStore.blobstore_get, c.get_touched]
    exact hd
  put content d hd := by
    rw [LocalStore.blobstore_put]
    obtain ⟨r, d', hrun, hcase⟩ :=
      c.run_put (LocalStore.appStash.storePrefix ++ pathFor (digests.key content)) content d
    rw [hrun]
    rcases hcase with hdirs | ⟨written, -, hwhole, -, hcopies, hwrites, -⟩
    · rw [CopiesWhole, hdirs.copies, hdirs.writes]
      exact hd
    · have hnone : (d.faults .copy).headD none = none := by
        cases hf : d.faults .copy with
        | nil => rfl
        | cons f fs => exact hd.1 f (by rw [hf]; exact List.mem_cons_self)
      refine ⟨fun f hf => hd.1 f (List.mem_of_mem_tail (hcopies ▸ hf)), fun write hmem => ?_⟩
      rw [hwrites] at hmem
      rcases List.mem_append.mp hmem with hmem | hmem
      · exact hd.2 write hmem
      · rw [List.mem_singleton] at hmem
        subst hmem
        exact hwhole hnone

theorem StashRecorded.addressed_iff_file (h : StashRecorded c digests d) :
    StashAddressed c digests d ↔ WriteLog.Addressed (stashFile c digests d) d.file := by
  have hserved : ∀ content served,
      (((LocalStore.appStash.blobstore c).get (digests.key content)).run d).1 =
        .returned (.ok (.whole served)) ↔ d.file (stashFile c digests d content) = some served := by
    intro content served
    rw [LocalStore.blobstore_get, c.get_eq_whole_iff, Disk.file_eq_some_iff]
    rfl
  constructor
  · intro haddr content stored hstored
    have hexists : (((LocalStore.appStash.blobstore c).existsBlob (digests.key content)).run d).1 =
        .returned (.ok true) := by
      rw [LocalStore.blobstore_existsBlob,
        c.run_existsBlob_of_node (Disk.file_eq_some_iff.mp hstored)]
    obtain ⟨served, hget, hkey⟩ := haddr content hexists
    rw [hserved, hstored] at hget
    cases hget
    exact (stashFile_inj c digests d).mpr hkey
  · intro haddr content hexists
    rw [LocalStore.blobstore_existsBlob] at hexists
    cases hnode : d.tree.node (stashFile c digests d content) with
    | none =>
      obtain ⟨r, hr, hrun⟩ := c.run_existsBlob_of_none hnode
      rw [hrun] at hexists
      cases hexists
      exact absurd rfl hr
    | some n =>
      cases n with
      | dir => exact absurd hnode (h.not_dir content)
      | file served =>
        have hfile := Disk.file_eq_some_iff.mpr hnode
        exact ⟨served, (hserved content served).mpr hfile,
          (stashFile_inj c digests d).mp (haddr content served hfile)⟩

theorem StashRecorded.addressed_iff (h : StashRecorded c digests d) :
    StashAddressed c digests d ↔ LastWritesWhole c digests d := by
  rw [h.addressed_iff_file, h.records.addressed_iff]
  simp only [stashFile_inj, LastWritesWhole]

end Files

/-! ## Runs on a local stash -/

section LocalStash
variable {τ : Type} (c : LocalBlobstoreConfig)

def localStash (τ : Type) : NoRedirectBlobstore (Disk × τ) :=
  (LocalStore.appStash.blobstore c).zoom (fstPart Disk τ)

def localAppStashHandler (τ : Type) (maxBodySizeLimit minimumSize maximumSize : ℕ) :
    AppStashHandler (Disk × τ) :=
  ⟨localStash c τ, maxBodySizeLimit, minimumSize, maximumSize⟩

/-- A handler for packages with the stash on the disk. Its own store and the Cloud Controller are
other services. -/
def ResourceHandler.withLocalStash (packages : ResourceHandler τ) : ResourceHandler (Disk × τ) :=
  { packages with
    blobstore := packages.blobstore.zoom (sndPart Disk τ)
    appStashBlobstore := localStash c τ
    updater := packages.updater.zoom (sndPart Disk τ) }

def diskAfter (formats : Formats) (appStash : AppStashHandler (Disk × τ))
    (packages : ResourceHandler τ) (requests : List StashRequest) (w : Env (Disk × τ)) : Disk :=
  (afterRequests formats appStash (packages.withLocalStash c) requests w).ext.1

theorem keptByStash_localStash {digests : Digests} {J : Disk → Prop}
    (hJ : KeptByStash digests (LocalStore.appStash.blobstore c) J) :
    KeptByStash digests (localStash c τ) (fun s => J s.1) where
  existsBlob key := (hJ.existsBlob key).zoom (fun _ h => h) (fun _ _ _ h => h)
  get key := (hJ.get key).zoom (fun _ h => h) (fun _ _ _ h => h)
  put content := (hJ.put content).zoom (fun _ h => h) (fun _ _ _ h => h)

theorem keptByPackages_withLocalStash (packages : ResourceHandler τ) (J : Disk → Prop) :
    KeptByPackages (packages.withLocalStash c) (fun s => J s.1) :=
  ⟨fun _ _ _ h => h, fun _ _ h => h, fun _ _ _ _ h => h, fun _ _ _ h => h⟩

variable (formats : Formats) (packages : ResourceHandler τ)
  (maxBodySizeLimit minimumSize maximumSize : ℕ) (requests : List StashRequest)

theorem diskAfter_keeps {J : Disk → Prop}
    (hJ : KeptByStash formats.digests (LocalStore.appStash.blobstore c) J) {w : Env (Disk × τ)}
    (hw : J w.ext.1) : J (diskAfter c formats
      (localAppStashHandler c τ maxBodySizeLimit minimumSize maximumSize) packages requests w) :=
  afterRequests_keeps (keptByStash_localStash c hJ) (keptByStash_localStash c hJ)
    (keptByPackages_withLocalStash c packages J) requests hw

theorem diskAfter_recorded {w : Env (Disk × τ)} (hempty : EmptyStash c formats.digests w.ext.1) :
    StashRecorded c formats.digests (diskAfter c formats
      (localAppStashHandler c τ maxBodySizeLimit minimumSize maximumSize) packages requests w) :=
  diskAfter_keeps c formats packages maxBodySizeLimit minimumSize maximumSize requests
    (keptByStash_recorded c formats.digests) hempty.recorded

theorem stashAddressed_of_copiesWhole {w : Env (Disk × τ)}
    (hempty : EmptyStash c formats.digests w.ext.1)
    (hcopies : ∀ f ∈ w.ext.1.faults .copy, f = none) :
    StashAddressed c formats.digests (diskAfter c formats
      (localAppStashHandler c τ maxBodySizeLimit minimumSize maximumSize) packages requests w) := by
  have hwhole : CopiesWhole w.ext.1 := ⟨hcopies, by simp [hempty.1]⟩
  have hafter := diskAfter_keeps c formats packages maxBodySizeLimit minimumSize maximumSize
    requests (keptByStash_copiesWhole c formats.digests) hwhole
  refine (diskAfter_recorded c formats packages maxBodySizeLimit minimumSize maximumSize requests
    hempty).addressed_iff.mpr fun content write hlast => ?_
  rw [hafter.2 write (WriteLog.mem_of_last hlast).1]

/-- **Content addressing of the stash**: after any run of requests from an empty stash, whatever
fails in it, the bytes under every key are of that key exactly when the last write under each key
was not cut off. -/
theorem stashAddressed_iff (w : Env (Disk × τ)) (hempty : EmptyStash c formats.digests w.ext.1) :
    StashAddressed c formats.digests (diskAfter c formats
        (localAppStashHandler c τ maxBodySizeLimit minimumSize maximumSize) packages requests w) ↔
      LastWritesWhole c formats.digests (diskAfter c formats
        (localAppStashHandler c τ maxBodySizeLimit minimumSize maximumSize) packages requests w) :=
  (diskAfter_recorded c formats packages maxBodySizeLimit minimumSize maximumSize requests
    hempty).addressed_iff

end LocalStash

/-! ## A disk that is full after two bytes -/

def noPackages : ResourceHandler MapStore :=
  newResourceHandler inmemoryBlobstore mapBlobstore (ascii "package") 0

def helloEntries : StashRequest := .postEntries
  { contentLength := 5
    header := fun _ => []
    query := []
    body := ⟨[], none⟩
    form := .ok ⟨[], [(ascii "application", plainFormat.encode
      [⟨zipEntryHeader (ascii "greeting.txt") 0o644, ascii "hello"⟩])]⟩ }

def emptyDisk (copies : List (Option DiskFault)) : Env (Disk × MapStore) where
  host := ⟨fun _ => [], fun _ => none, 0, []⟩
  ext := (⟨FileTree.empty, [], fun call => if call = .copy then copies else [], [], []⟩,
    ⟨fun _ => none, [], []⟩)
  response := .empty

theorem emptyDisk_emptyStash (copies : List (Option DiskFault)) :
    EmptyStash varVcapStore helloDigests (emptyDisk copies).ext.1 := by
  refine ⟨rfl, fun content => ?_⟩
  rw [stashFile_eq]
  simp [emptyDisk, FileTree.empty, stashNames]

/-- A second upload, of which everything is written, repairs the first. -/
theorem stashAddressed_iff_hello :
    EmptyStash varVcapStore helloDigests (emptyDisk [some ⟨.noSpace, 2⟩]).ext.1 ∧
      (StashAddressed varVcapStore helloDigests (diskAfter varVcapStore plainFormats
          (localAppStashHandler varVcapStore MapStore 0 0 100) noPackages
          [helloEntries, helloEntries] (emptyDisk [some ⟨.noSpace, 2⟩])) ↔
        LastWritesWhole varVcapStore helloDigests (diskAfter varVcapStore plainFormats
          (localAppStashHandler varVcapStore MapStore 0 0 100) noPackages
          [helloEntries, helloEntries] (emptyDisk [some ⟨.noSpace, 2⟩]))) :=
  ⟨emptyDisk_emptyStash _, stashAddressed_iff varVcapStore plainFormats noPackages 0 0 100
    [helloEntries, helloEntries] _ (emptyDisk_emptyStash _)⟩

/-- The answer is 507, and from then on the stash has `he` under the key of `hello`. -/
theorem not_stashAddressed_hello :
    ¬ StashAddressed varVcapStore helloDigests (diskAfter varVcapStore plainFormats
      (localAppStashHandler varVcapStore MapStore 0 0 100) noPackages [helloEntries]
      (emptyDisk [some ⟨.noSpace, 2⟩])) := by
  intro h
  obtain ⟨served, hget, hkey⟩ := h (ascii "hello") rfl
  have hhe : (((LocalStore.appStash.blobstore varVcapStore).get
      (helloDigests.key (ascii "hello"))).run (diskAfter varVcapStore plainFormats
        (localAppStashHandler varVcapStore MapStore 0 0 100) noPackages [helloEntries]
        (emptyDisk [some ⟨.noSpace, 2⟩]))).1 = .returned (.ok (.whole (ascii "he"))) := rfl
  rw [hhe] at hget
  cases hget
  exact absurd hkey (by decide)

end BitsService
