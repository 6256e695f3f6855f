import BitsService.Stash.Receipts

/-! # Whether what matches can be bundled

A request for matches asks whether there is something at the path of a SHA-1; a request for a bundle
reads the file there. On a local disk the two disagree at directories, and the latter rejects an
empty SHA-1. -/
namespace BitsService
open GoLib GoLib.Effect GoLib.LexicalPath
set_option autoImplicit false

/-! ## What a request for matches answers -/

section Matches
variable {σ : Type} {formats : Formats} {handler : AppStashHandler σ} {I : σ → Prop}
  {finds : Bytes → Result Bool} {fingerprints : List Fingerprint} {w : Env σ}

/-- In the states `I`, asking for `key` gives `r`. -/
def Finds (blobstore : NoRedirectBlobstore σ) (I : σ → Prop) (key : Bytes) (r : Result Bool) :
    Prop :=
  ∀ s, I s → ∃ s', (blobstore.existsBlob key).run s = (.returned r, s') ∧ I s'

/-- A fingerprint of the right size for which something is found. -/
def isFound (minimumSize maximumSize : ℕ) (finds : Bytes → Result Bool) (f : Fingerprint) : Bool :=
  decide (InRange minimumSize maximumSize f.size) && (finds f.sha1).toOption == some true

/-- Asking for a fingerprint of the right size fails. -/
def Unfindable (minimumSize maximumSize : ℕ) (finds : Bytes → Result Bool) (f : Fingerprint) :
    Prop := InRange minimumSize maximumSize f.size ∧ (finds f.sha1).isOk = false

theorem run_matchedFingerprints_of_finds
    (hfinds : ∀ key, Finds handler.blobstore I key (finds key)) (hw : Steady I w) :
    (∃ f ∈ fingerprints, Unfindable handler.minimumSize handler.maximumSize finds f) ∧
        (∃ e w', (matchedFingerprints handler fingerprints).run w = (.panicked e, w')) ∨
      (¬ ∃ f ∈ fingerprints, Unfindable handler.minimumSize handler.maximumSize finds f) ∧
        ∃ w', (matchedFingerprints handler fingerprints).run w = (.returned (fingerprints.filter
          (isFound handler.minimumSize handler.maximumSize finds)), w') ∧ Steady I w' ∧
          w'.response = w.response := by
  induction fingerprints generalizing w with
  | nil => exact .inr ⟨by simp, w, rfl, hw, rfl⟩
  | cons f fingerprints ih =>
    have hskip : (f.size < handler.minimumSize ∨ handler.maximumSize < f.size) ↔
        ¬ InRange handler.minimumSize handler.maximumSize f.size := by
      unfold InRange
      omega
    unfold matchedFingerprints
    by_cases hsize : InRange handler.minimumSize handler.maximumSize f.size
    · rw [if_neg fun h => hskip.mp h hsize]
      obtain ⟨s, hrun, hs⟩ := hfinds f.sha1 w.ext hw.2
      let w₁ : Env σ := { w with ext := s }
      have hw₁ : Steady I w₁ := ⟨hw.1, hs⟩
      have hexists : (onExt (handler.blobstore.existsBlob f.sha1)).run w =
          (.returned (finds f.sha1), w₁) := by
        rw [run_onExt, hrun]
      rw [run_bind_returned hexists]
      cases hfound : finds f.sha1 with
      | error e =>
        refine .inl ⟨⟨f, List.mem_cons_self, hsize, by rw [hfound]; rfl⟩, e, w₁, ?_⟩
        exact run_bind_panicked (run_panicOnError_error e w₁)
      | ok found =>
        have hfindable : ¬ Unfindable handler.minimumSize handler.maximumSize finds f := by
          rintro ⟨-, h⟩
          rw [hfound] at h
          cases h
        rw [run_bind_returned (run_panicOnError_ok found w₁)]
        rcases ih hw₁ with ⟨⟨g, hg, hfails⟩, e, w₂, hrest⟩ | ⟨hok, w₂, hrest, hw₂, hresponse⟩
        · exact .inl ⟨⟨g, List.mem_cons_of_mem _ hg, hfails⟩, e, w₂, run_bind_panicked hrest⟩
        · refine .inr ⟨?_, w₂, ?_, hw₂, hresponse⟩
          · rintro ⟨g, hg, hfails⟩
            rcases List.mem_cons.mp hg with rfl | hg
            · exact hfindable hfails
            · exact hok ⟨g, hg, hfails⟩
          · rw [run_bind_returned hrest]
            cases found with
            | true => simp [isFound, hsize, hfound, Except.toOption]
            | false => simp [isFound, hfound, Except.toOption]
    · rw [if_pos (hskip.mpr hsize)]
      have hfilter : (f :: fingerprints).filter
            (isFound handler.minimumSize handler.maximumSize finds) =
          fingerprints.filter (isFound handler.minimumSize handler.maximumSize finds) := by
        simp [isFound, hsize]
      have hunfindable : (∃ g ∈ f :: fingerprints,
            Unfindable handler.minimumSize handler.maximumSize finds g) ↔
          ∃ g ∈ fingerprints, Unfindable handler.minimumSize handler.maximumSize finds g := by
        simp [Unfindable, hsize]
      rw [hfilter, hunfindable]
      exact ih hw

variable {body : Bytes}

theorem run_postMatches_of_nil
    (hlimit : handler.maxBodySizeLimit = 0 ∨ body.length ≤ handler.maxBodySizeLimit)
    (hjson : formats.json.unmarshal body = some []) (w : Env σ) :
    (postMatches formats handler (jsonRequest body)).run w = ((do
      writeHeader 422
      fprintDescriptionAsJSON
        (ascii "The request is semantically invalid: must be a non-empty array.") []) :
          Prog GoError (Env σ) Unit).run w := by
  unfold postMatches
  rw [run_bind_returned (run_handleBodySizeLimits_json handler.maxBodySizeLimit hlimit w)]
  refine (run_bind_returned (run_readAll_json body w)).trans ?_
  rw [hjson]

variable (handler) in
/-- A request for matches is answered with the fingerprints that are found, unless there are none to
look for, or asking for one fails. -/
theorem run_postMatches_of_finds
    (hlimit : handler.maxBodySizeLimit = 0 ∨ body.length ≤ handler.maxBodySizeLimit)
    (hjson : formats.json.unmarshal body = some fingerprints)
    (hfinds : ∀ key, Finds handler.blobstore I key (finds key)) (hw : Steady I w) :
    (fingerprints = [] ∨
          ∃ f ∈ fingerprints, Unfindable handler.minimumSize handler.maximumSize finds f) ∧
        (∀ text, ¬ SendsFile (postMatches formats handler (jsonRequest body)) w text) ∨
      (¬ ∃ f ∈ fingerprints, Unfindable handler.minimumSize handler.maximumSize finds f) ∧
        ∃ w', (postMatches formats handler (jsonRequest body)).run { w with response := .empty } =
            (.returned (), w') ∧ Steady I w' ∧
          w'.response = ⟨some 200, [], [.raw (formats.json.marshal (fingerprints.filter
            (isFound handler.minimumSize handler.maximumSize finds)))]⟩ := by
  cases fingerprints with
  | nil =>
    refine .inl ⟨.inl rfl, ?_⟩
    rintro text ⟨w', hrun, hw'⟩
    rw [run_postMatches_of_nil hlimit hjson] at hrun
    cases hrun
    cases hw'
  | cons f fingerprints =>
    let w₀ : Env σ := { w with response := .empty }
    have hw₀ : Steady I w₀ := hw
    have hmatch := run_postMatches_of_cons hlimit hjson w₀
    rcases run_matchedFingerprints_of_finds hfinds hw₀ with
      ⟨hfails, e, w₁, hrun⟩ | ⟨hok, w₁, hrun, hw₁, hresponse⟩
    · rw [run_bind_panicked hrun] at hmatch
      refine .inl ⟨.inr hfails, ?_⟩
      rintro text ⟨w', hrun', -⟩
      rw [hmatch] at hrun'
      cases hrun'
    · rw [run_bind_returned hrun] at hmatch
      refine .inr ⟨hok, _, hmatch, hw₁, ?_⟩
      simp [hresponse, w₀, Response.empty]

end Matches

/-! ## The stash on a disk -/

section Local
variable (c : LocalBlobstoreConfig) (d : Disk)

/-- What `os.Stat` says about the path of a key. -/
def stashStat (key : Bytes) : Except FileTree.Missing (Node Bytes) :=
  d.tree.stat (d.resolve (LocalStore.appStash.path c key))

def stashFinds (key : Bytes) : Result Bool :=
  match stashStat c d key with
  | .ok _ => .ok true
  | .error .noEntry => .ok false
  | .error .notDir => .error (.sys (ascii "Could not stat on " ++
      pathText (LocalStore.appStash.path c key) ++ ascii ". Caused by: " ++ Errno.notDir.text))

def stashReads (key : Bytes) : Result Body :=
  match stashStat c d key with
  | .ok n => .ok (bodyOf n)
  | .error .noEntry => .error .newNotFoundError
  | .error .notDir => .error (.sys (ascii "Error while opening file " ++
      (LocalStore.appStash.storePrefix ++ pathFor key) ++ ascii ". Caused by: " ++
      Errno.notDir.text))

/-- The disk has what `d` has. -/
def SameFiles (d' : Disk) : Prop := d'.tree = d.tree ∧ d'.cwd = d.cwd

variable {c d} {τ : Type}

theorem SameFiles.stat {d' : Disk} (h : SameFiles d d') (path : Path) :
    d'.tree.stat (d'.resolve path) = d.tree.stat (d.resolve path) := by
  have hresolve : d'.resolve path = d.resolve path := by
    simp only [Disk.resolve, h.2]
  rw [h.1, hresolve]

theorem run_existsBlob_stash (key : Bytes) :
    ((LocalStore.appStash.blobstore c).existsBlob key).run d = (.returned (stashFinds c d key),
      { d with touched := d.touched ++ [LocalStore.appStash.path c key] }) := by
  rw [LocalStore.blobstore_existsBlob, LocalBlobstoreConfig.existsBlob, run_bind, run_osStat]
  unfold stashFinds stashStat LocalStore.path
  cases d.tree.stat (d.resolve (c.fullPath (LocalStore.appStash.storePrefix ++ pathFor key))) with
  | ok n => rfl
  | error m =>
    cases m with
    | noEntry => rfl
    | notDir => rfl

theorem run_get_stash (key : Bytes) :
    ((LocalStore.appStash.blobstore c).get key).run d = (.returned (stashReads c d key),
      { d with touched := d.touched ++ [LocalStore.appStash.path c key] }) := by
  rw [LocalStore.blobstore_get, LocalBlobstoreConfig.get, run_bind, run_osOpen]
  unfold stashReads stashStat LocalStore.path
  cases d.tree.stat (d.resolve (c.fullPath (LocalStore.appStash.storePrefix ++ pathFor key))) with
  | ok n => rfl
  | error m =>
    cases m with
    | noEntry => rfl
    | notDir => rfl

theorem finds_localStash (key : Bytes) :
    Finds (localStash c τ) (fun s => SameFiles d s.1) key (stashFinds c d key) := by
  intro s hs
  have hsame : stashFinds c s.1 key = stashFinds c d key := by
    unfold stashFinds stashStat
    rw [hs.stat]
  refine ⟨({ s.1 with touched := s.1.touched ++ [LocalStore.appStash.path c key] }, s.2), ?_, hs⟩
  rw [← hsame, localStash, NoRedirectBlobstore.zoom, run_zoom]
  exact congrArg (fun r => (r.1, (r.2, s.2))) (run_existsBlob_stash key)

theorem reads_localStash (key : Bytes) :
    Reads (localStash c τ) (fun s => SameFiles d s.1) key (stashReads c d key) := by
  intro s hs
  have hsame : stashReads c s.1 key = stashReads c d key := by
    unfold stashReads stashStat
    rw [hs.stat]
  refine ⟨({ s.1 with touched := s.1.touched ++ [LocalStore.appStash.path c key] }, s.2), ?_, hs⟩
  rw [← hsame, localStash, NoRedirectBlobstore.zoom, run_zoom]
  exact congrArg (fun r => (r.1, (r.2, s.2))) (run_get_stash key)

/-! ## Whether what matches can be bundled -/

/-- What is found at the path of a fingerprint is a file that its entry can hold, the key is not
empty, and an archive can hold the name. -/
def Bundleable (f : Fingerprint) (n : Node Bytes) : Prop :=
  f.sha1 ≠ [] ∧ FitsZip f.fn ∧
    ∃ content, n = .file content ∧ (isDirName f.fn = true → content = [])

theorem served_stashReads_iff {f : Fingerprint} {n : Node Bytes}
    (hstat : stashStat c d f.sha1 = .ok n) :
    f.sha1 ≠ [] ∧ FitsZip f.fn ∧ Served (stashReads c d) f ↔ Bundleable f n := by
  unfold Served Bundleable stashReads
  rw [hstat]
  cases n with
  | dir => simp [bodyOf]
  | file content => simp [bodyOf, Body.whole, Body.delivered]

theorem servedContent_of_bundleable {f : Fingerprint} {n : Node Bytes}
    (hstat : stashStat c d f.sha1 = .ok n) (h : Bundleable f n) :
    some (servedContent (stashReads c d) f) = stashedFile c d f.sha1 := by
  obtain ⟨-, -, content, rfl, -⟩ := h
  have hnode : d.tree.node (d.resolve (LocalStore.appStash.path c f.sha1)) = some (.file content) :=
    FileTree.node_of_stat hstat
  unfold servedContent stashReads stashedFile
  rw [hstat, Disk.file_eq_some_iff.mpr hnode]
  exact congrArg some (Body.delivered_whole content)

theorem isFound_iff {minimumSize maximumSize : ℕ} {f : Fingerprint} :
    isFound minimumSize maximumSize (stashFinds c d) f = true ↔
      InRange minimumSize maximumSize f.size ∧ ∃ n, stashStat c d f.sha1 = .ok n := by
  unfold isFound stashFinds
  cases stashStat c d f.sha1 with
  | ok n => simp [Except.toOption]
  | error m =>
    cases m with
    | noEntry => simp [Except.toOption]
    | notDir => simp [Except.toOption]

theorem unfindable_iff {minimumSize maximumSize : ℕ} {f : Fingerprint} :
    Unfindable minimumSize maximumSize (stashFinds c d) f ↔
      InRange minimumSize maximumSize f.size ∧ stashStat c d f.sha1 = .error .notDir := by
  unfold Unfindable stashFinds
  cases stashStat c d f.sha1 with
  | ok n => simp
  | error m =>
    cases m with
    | noEntry => simp
    | notDir => simp

/-- Whatever a request for matches is answered with, sent back it is answered with a bundle that has
the stashed file of each of these fingerprints. -/
def MatchesBundleable (formats : Formats) (handler : AppStashHandler (Disk × τ))
    (stored : Bytes → Option Bytes) (body : Bytes) (w : Env (Disk × τ)) : Prop :=
  ∀ text w₁, (postMatches formats handler (jsonRequest body)).run { w with response := .empty } =
      (.returned (), w₁) → w₁.response = ⟨some 200, [], [.raw text]⟩ →
    ∃ matched file es, formats.json.unmarshal text = some matched ∧
      SendsFile (postBundles formats handler (jsonRequest text)) w₁ file ∧
      formats.zip.decode file = .ok es ∧
      es.map (fun e => (e.header.name, some e.content)) = matched.map fun f => (f.fn, stored f.sha1)

variable {formats : Formats} {maxBodySizeLimit minimumSize maximumSize : ℕ} {body : Bytes}
  {fingerprints : List Fingerprint} {w : Env (Disk × τ)}

/-- The fingerprints that are found, as the answer has them. -/
theorem unmarshal_found (hvalid : ∀ f ∈ fingerprints, f.coerce = f) (p : Fingerprint → Bool) :
    formats.json.unmarshal (formats.json.marshal (fingerprints.filter p)) =
      some (fingerprints.filter p) := by
  rw [formats.json.unmarshal_marshal, List.map_congr_left
    fun f hf => hvalid f (List.mem_filter.mp hf).1, List.map_id']

/-- The bundle of the fingerprints that are found is sent if and only if each of them can be
bundled. -/
theorem bundleable_found_iff :
    (anyKeyMissingIn (fingerprints.filter
          (isFound minimumSize maximumSize (stashFinds c d))) = none ∧
        ∀ f ∈ fingerprints.filter (isFound minimumSize maximumSize (stashFinds c d)),
          FitsZip f.fn ∧ Served (stashReads c d) f) ↔
      (∀ f ∈ fingerprints.filter (isFound minimumSize maximumSize (stashFinds c d)), f.fn ≠ []) ∧
        ∀ f ∈ fingerprints, InRange minimumSize maximumSize f.size →
          ∀ n, stashStat c d f.sha1 = .ok n → Bundleable f n := by
  rw [anyKeyMissingIn_eq_none_iff]
  constructor
  · rintro ⟨hkeys, hserved⟩
    refine ⟨fun f hf => (hkeys f hf).2, fun f hf hsize n hstat => ?_⟩
    have hfound : f ∈ fingerprints.filter (isFound minimumSize maximumSize (stashFinds c d)) :=
      List.mem_filter.mpr ⟨hf, isFound_iff.mpr ⟨hsize, n, hstat⟩⟩
    exact (served_stashReads_iff hstat).mp ⟨(hkeys f hfound).1, hserved f hfound⟩
  · rintro ⟨hfn, hall⟩
    have hboth : ∀ f ∈ fingerprints.filter (isFound minimumSize maximumSize (stashFinds c d)),
        f.sha1 ≠ [] ∧ FitsZip f.fn ∧ Served (stashReads c d) f := by
      intro f hf
      obtain ⟨hmem, hfound⟩ := List.mem_filter.mp hf
      obtain ⟨hsize, n, hstat⟩ := isFound_iff.mp hfound
      exact (served_stashReads_iff hstat).mpr (hall f hmem hsize n hstat)
    exact ⟨fun f hf => ⟨(hboth f hf).1, hfn f hf⟩, fun f hf => (hboth f hf).2⟩

theorem servedEntries_found
    (hall : ∀ f ∈ fingerprints, InRange minimumSize maximumSize f.size →
      ∀ n, stashStat c d f.sha1 = .ok n → Bundleable f n) :
    ((fingerprints.filter (isFound minimumSize maximumSize (stashFinds c d))).map
        (servedEntry (stashReads c d))).map (fun e => (e.header.name, some e.content)) =
      (fingerprints.filter (isFound minimumSize maximumSize (stashFinds c d))).map
        fun f => (f.fn, stashedFile c d f.sha1) := by
  rw [List.map_map]
  refine List.map_congr_left fun f hf => ?_
  obtain ⟨hmem, hfound⟩ := List.mem_filter.mp hf
  obtain ⟨hsize, n, hstat⟩ := isFound_iff.mp hfound
  have hcontent := servedContent_of_bundleable hstat (hall f hmem hsize n hstat)
  exact Prod.ext rfl hcontent

section Request
variable (hw : w.host.Faultless) (hjson : formats.json.unmarshal body = some fingerprints)
  (hvalid : ∀ f ∈ fingerprints, f.coerce = f)
  (hlimit : maxBodySizeLimit = 0 ∨ body.length ≤ maxBodySizeLimit)
  (hanswer : maxBodySizeLimit = 0 ∨ (formats.json.marshal (fingerprints.filter
    (isFound minimumSize maximumSize (stashFinds c w.ext.1)))).length ≤ maxBodySizeLimit)
include hw hjson hvalid hlimit hanswer

theorem matchesBundleable_of_bundleable (hfn : ∀ f ∈ fingerprints, f.fn ≠ [])
    (hall : ∀ f ∈ fingerprints, InRange minimumSize maximumSize f.size →
      ∀ n, stashStat c w.ext.1 f.sha1 = .ok n → Bundleable f n) :
    MatchesBundleable formats
      (localAppStashHandler c τ maxBodySizeLimit minimumSize maximumSize)
      (stashedFile c w.ext.1) body w := by
  let handler := localAppStashHandler c τ maxBodySizeLimit minimumSize maximumSize
  let matched := fingerprints.filter (isFound minimumSize maximumSize (stashFinds c w.ext.1))
  have hstart : Steady (fun s : Disk × τ => SameFiles w.ext.1 s.1) w := ⟨hw, rfl, rfl⟩
  intro text w₂ hrun₂ hresponse₂
  rcases run_postMatches_of_finds handler hlimit hjson finds_localStash hstart with
    ⟨-, hnot⟩ | ⟨-, w₁, hrun, hw₁, hresponse⟩
  · exact absurd ⟨w₂, hrun₂, hresponse₂⟩ (hnot text)
  · rw [hrun₂] at hrun
    cases hrun
    rw [hresponse₂] at hresponse
    cases hresponse
    obtain ⟨hkeys, hserved⟩ := bundleable_found_iff.mpr
      ⟨fun f hf => hfn f (List.mem_filter.mp hf).1, hall⟩
    have hfits : ∀ e ∈ matched.map (servedEntry (stashReads c w.ext.1)), FitsZip e.header.name :=
      List.forall_mem_map.mpr fun f hf => (hserved f hf).1
    exact ⟨matched, _, _, unmarshal_found hvalid _, (sendsFile_postBundles_iff handler
      hanswer (unmarshal_found hvalid _) (fun f _ => reads_localStash f.sha1) hw₁ _).mpr
      ⟨hkeys, hserved, rfl⟩, formats.zip.decode_encode hfits, servedEntries_found hall⟩

theorem bundleable_of_matchesBundleable
    (hmatches : MatchesBundleable formats
      (localAppStashHandler c τ maxBodySizeLimit minimumSize maximumSize)
      (stashedFile c w.ext.1) body w)
    (hfindable : ∀ f ∈ fingerprints, InRange minimumSize maximumSize f.size →
      stashStat c w.ext.1 f.sha1 ≠ .error .notDir) :
    ∀ f ∈ fingerprints, InRange minimumSize maximumSize f.size →
      ∀ n, stashStat c w.ext.1 f.sha1 = .ok n → Bundleable f n := by
  let handler := localAppStashHandler c τ maxBodySizeLimit minimumSize maximumSize
  have hstart : Steady (fun s : Disk × τ => SameFiles w.ext.1 s.1) w := ⟨hw, rfl, rfl⟩
  rcases run_postMatches_of_finds handler hlimit hjson finds_localStash hstart with
    ⟨rfl | ⟨f, hf, hfails⟩, -⟩ | ⟨-, w₁, hrun, hw₁, hresponse⟩
  · exact fun f hf => absurd hf List.not_mem_nil
  · obtain ⟨hsize, hstat⟩ := unfindable_iff.mp hfails
    exact absurd hstat (hfindable f hf hsize)
  · obtain ⟨matched, file, es, -, hsends, -, -⟩ := hmatches _ w₁ hrun hresponse
    obtain ⟨hkeys, hserved, -⟩ := (sendsFile_postBundles_iff handler hanswer
      (unmarshal_found hvalid _) (fun f _ => reads_localStash f.sha1) hw₁ file).mp hsends
    exact (bundleable_found_iff.mp ⟨hkeys, hserved⟩).2

omit hvalid hanswer in
/-- When asking fails for one of the fingerprints, none is returned. -/
theorem matchesBundleable_of_notDir
    (hnotDir : ∃ f ∈ fingerprints, InRange minimumSize maximumSize f.size ∧
      stashStat c w.ext.1 f.sha1 = .error .notDir) :
    MatchesBundleable formats
      (localAppStashHandler c τ maxBodySizeLimit minimumSize maximumSize)
      (stashedFile c w.ext.1) body w := by
  let handler := localAppStashHandler c τ maxBodySizeLimit minimumSize maximumSize
  have hstart : Steady (fun s : Disk × τ => SameFiles w.ext.1 s.1) w := ⟨hw, rfl, rfl⟩
  intro text w₂ hrun₂ hresponse₂
  rcases run_postMatches_of_finds handler hlimit hjson finds_localStash hstart with
    ⟨-, hnot⟩ | ⟨hok, -⟩
  · exact absurd ⟨w₂, hrun₂, hresponse₂⟩ (hnot text)
  · obtain ⟨f, hf, hsize, hstat⟩ := hnotDir
    exact absurd ⟨f, hf, unfindable_iff.mpr ⟨hsize, hstat⟩⟩ hok

/-- **Matched means bundleable, for files under a key**: what a request for matches returns can be
bundled if and only if nothing is returned, since the path of some fingerprint leads through a file,
or what there is at the path of each fingerprint is a file that its entry can hold, under a key that
is not empty and a name that an archive can hold. -/
theorem matchesBundleable_iff (hfn : ∀ f ∈ fingerprints, f.fn ≠ []) :
    MatchesBundleable formats
        (localAppStashHandler c τ maxBodySizeLimit minimumSize maximumSize)
        (stashedFile c w.ext.1) body w ↔
      (∃ f ∈ fingerprints, InRange minimumSize maximumSize f.size ∧
          stashStat c w.ext.1 f.sha1 = .error .notDir) ∨
        ∀ f ∈ fingerprints, InRange minimumSize maximumSize f.size →
          ∀ n, stashStat c w.ext.1 f.sha1 = .ok n → Bundleable f n := by
  constructor
  · intro hmatches
    by_cases hnotDir : ∃ f ∈ fingerprints, InRange minimumSize maximumSize f.size ∧
        stashStat c w.ext.1 f.sha1 = .error .notDir
    · exact .inl hnotDir
    · exact .inr (bundleable_of_matchesBundleable hw hjson hvalid hlimit hanswer hmatches
        fun f hf hsize hstat => hnotDir ⟨f, hf, hsize, hstat⟩)
  · rintro (hnotDir | hall)
    · exact matchesBundleable_of_notDir hw hjson hlimit hnotDir
    · exact matchesBundleable_of_bundleable hw hjson hvalid hlimit hanswer hfn hall

end Request

end Local

/-! ## The directory of the stash -/

section Directory
variable (c : LocalBlobstoreConfig) {digests : Digests} {d : Disk}

theorem appStash_path_nil : LocalStore.appStash.path c [] =
    (cleanPath c.pathPrefix).descend [ascii "app_bits_cache"] := by
  have hmoves : movesOf (ascii "app_bits_cache/" ++ pathFor []) =
      [.into (ascii "app_bits_cache")] := by decide
  rw [LocalStore.path, LocalBlobstoreConfig.fullPath, filepathJoin_eq_walk c.pathPrefix_ne]
  exact (congrArg _ hmoves).trans (Loc.walk_map_into _ [ascii "app_bits_cache"])

/-- The empty key is the directory of the stash, which is there once a content is. -/
theorem stashStat_nil {content stored : Bytes}
    (h : stashedFile c d (digests.key content) = some stored) : stashStat c d [] = .ok .dir := by
  have hfile : d.tree.node (stashFile c digests d content) = some (.file stored) :=
    Disk.file_eq_some_iff.mp h
  have hpath : d.resolve (LocalStore.appStash.path c []) =
      d.resolve (cleanPath c.pathPrefix) ++ [ascii "app_bits_cache"] := by
    rw [appStash_path_nil, resolve_descend]
  refine FileTree.stat_of_node (d.tree.dir_of_prefix ?_ ?_ ?_ (q := stashFile c digests d content))
  · rw [hpath, stashFile_eq]
    exact ⟨_, by rw [List.append_assoc]; rfl⟩
  · intro heq
    have hlen := congrArg List.length heq
    rw [hpath, stashFile_eq] at hlen
    simp [stashNames] at hlen
  · rw [hfile]
    simp

end Directory

/-! ## A stash with one file in it -/

def greetingFile : List ZipEntry :=
  [⟨zipEntryHeader (ascii "greeting.txt") 0o644, ascii "hello"⟩]

/-- The stash after an upload of `hello`. -/
def oneFileStash : Env (Disk × MapStore) :=
  afterRequests plainFormats (localAppStashHandler varVcapStore MapStore 0 0 100)
    (noPackages.withLocalStash varVcapStore)
    [.postEntries (entriesUpload plainFormats greetingFile)] (emptyDisk [])

theorem oneFileStash_spec : oneFileStash.host.Faultless ∧
    oneFileStash.response.status = some 201 ∧
    stashedFile varVcapStore oneFileStash.ext.1 (helloDigests.key (ascii "hello")) =
      some (ascii "hello") := by
  have hstash : HoldsContents plainFormats.digests
      (localAppStashHandler varVcapStore MapStore 0 0 100).blobstore
      (fun s => Usable varVcapStore helloDigests s.1) (fun s => stashedFile varVcapStore s.1) :=
    holdsContents_localStash
  obtain ⟨w₁, hpost, hw₁, hresponse, hheld⟩ := run_postEntries_of_holds hstash
    (limited_entriesUpload plainFormats greetingFile)
    (formFile_entriesUpload plainFormats greetingFile)
    (plainFormats.zip.decode_encode (by decide)) (steady_emptyDisk helloDigests) (by decide)
  have hafter : oneFileStash = w₁ := congrArg Prod.snd hpost
  rw [hafter]
  refine ⟨hw₁.1, by rw [hresponse], (hheld (ascii "hello")).trans ?_⟩
  have hput := ContentAddressed.put_hash helloDigests.key
    (stashedFile varVcapStore (emptyDisk []).ext.1) (ascii "hello") (ascii "hello")
  exact hput.trans (if_pos rfl)

/-- The file of a fingerprint with its true SHA-1 is a file. -/
theorem stashStat_hello :
    stashStat varVcapStore oneFileStash.ext.1 helloFingerprint.sha1 = .ok (.file (ascii "hello")) :=
  FileTree.stat_of_node (Disk.file_eq_some_iff.mp oneFileStash_spec.2.2)

theorem unmarshal_plain {f : Fingerprint} (h : f.coerce = f) :
    plainFormats.json.unmarshal (plainJson.marshal [f]) = some [f] := by
  have hjson := plainJson.unmarshal_marshal [f]
  rw [List.map_singleton, h] at hjson
  exact hjson

theorem matchesBundleable_hello :
    MatchesBundleable plainFormats (localAppStashHandler varVcapStore MapStore 0 0 100)
      (stashedFile varVcapStore oneFileStash.ext.1) (plainJson.marshal [helloFingerprint])
      oneFileStash := by
  have hcoerce : helloFingerprint.coerce = helloFingerprint := by decide +kernel
  refine (matchesBundleable_iff oneFileStash_spec.1 (unmarshal_plain hcoerce)
    (List.forall_mem_singleton.mpr hcoerce) (.inl rfl) (.inl rfl) (by decide)).mpr
    (.inr fun f hf _ n hstat => ?_)
  have hf : f = helloFingerprint := List.mem_singleton.mp hf
  rw [hf, stashStat_hello] at hstat
  cases hstat
  rw [hf]
  exact ⟨by decide, by decide, ascii "hello", rfl, by decide⟩

/-- An empty SHA-1 is found, as the directory of the stash, and missing in the request for the
bundle. -/
def emptyKey : Fingerprint := ⟨ascii "greeting.txt", [], 5, ascii "644"⟩

theorem not_matchesBundleable_emptyKey :
    oneFileStash.response.status = some 201 ∧
      ¬ MatchesBundleable plainFormats (localAppStashHandler varVcapStore MapStore 0 0 100)
        (stashedFile varVcapStore oneFileStash.ext.1) (plainJson.marshal [emptyKey])
        oneFileStash := by
  have hdir : stashStat varVcapStore oneFileStash.ext.1 emptyKey.sha1 = .ok .dir :=
    stashStat_nil varVcapStore oneFileStash_spec.2.2
  have hcoerce : emptyKey.coerce = emptyKey := by decide
  refine ⟨oneFileStash_spec.2.1, fun hmatches => ?_⟩
  have hall := bundleable_of_matchesBundleable oneFileStash_spec.1 (unmarshal_plain hcoerce)
    (List.forall_mem_singleton.mpr hcoerce) (.inl rfl) (.inl rfl) hmatches
    (fun f hf _ hstat => by
      rw [List.mem_singleton.mp hf, hdir] at hstat
      cases hstat)
  exact (hall emptyKey (List.mem_singleton.mpr rfl) (by decide) .dir hdir).1 rfl

end BitsService
