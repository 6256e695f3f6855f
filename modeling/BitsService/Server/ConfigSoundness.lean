import BitsService.Server.Config

/-! # What an accepted configuration is good for

The accessors of a configuration panic where a check was forgotten. -/
namespace BitsService.Configuration
open GoLib.Effect
set_option autoImplicit false

variable (lib : Libraries)

/-! ## Sizes -/

/-- A size property that is absent or that can be parsed. -/
def Parses (size : Bytes) : Prop := size = [] ∨ ∃ bytes, lib.toBytes size = .ok bytes

def sizeOr (size : Bytes) (defaultValue : ℕ) : ℕ :=
  if size = [] then defaultValue else (lib.toBytes size).toOption.getD 0

variable {lib}

theorem run_parseSizeProperty {size : Bytes} (h : Parses lib size) (defaultValue : ℕ) :
    (parseSizeProperty lib size defaultValue : Prog GoError Unit ℕ).run () =
      (.returned (sizeOr lib size defaultValue), ()) := by
  unfold parseSizeProperty sizeOr
  by_cases hempty : size = []
  · rw [if_pos hempty, if_pos hempty]
    rfl
  · obtain ⟨bytes, hbytes⟩ := h.resolve_left hempty
    rw [if_neg hempty, if_neg hempty, hbytes]
    rfl

theorem run_parseSizeProperty_of_not {size : Bytes} (h : ¬ Parses lib size) (defaultValue : ℕ) :
    ∃ e, (parseSizeProperty lib size defaultValue : Prog GoError Unit ℕ).run () =
      (.panicked e, ()) := by
  simp only [Parses, not_or, not_exists] at h
  unfold parseSizeProperty
  rw [if_neg h.1]
  cases hbytes : lib.toBytes size with
  | error e => exact ⟨_, rfl⟩
  | ok bytes => exact absurd hbytes (h.2 bytes)

theorem maxBodySizeErrors_eq_nil_iff (size : Bytes) :
    maxBodySizeErrors lib size = [] ↔ Parses lib size := by
  unfold maxBodySizeErrors Parses
  by_cases hempty : size = []
  · simp [hempty]
  · rw [if_neg hempty]
    cases lib.toBytes size with
    | error e => simp [hempty]
    | ok bytes => simp

theorem returns_maxBodySizeBytes_iff {config : BlobstoreConfig}
    (hglobal : Parses lib config.globalMaxBodySize) :
    (∃ bytes, (config.maxBodySizeBytes lib : Prog GoError Unit ℕ).run () =
      (.returned bytes, ())) ↔ Parses lib config.maxBodySize := by
  unfold BlobstoreConfig.maxBodySizeBytes
  by_cases hempty : config.maxBodySize = []
  · refine iff_of_true ?_ (.inl hempty)
    rw [if_pos hempty]
    by_cases hglobalEmpty : config.globalMaxBodySize = []
    · rw [if_pos hglobalEmpty]
      exact ⟨_, rfl⟩
    · obtain ⟨bytes, hbytes⟩ := hglobal.resolve_left hglobalEmpty
      rw [if_neg hglobalEmpty, hbytes]
      exact ⟨bytes, rfl⟩
  · rw [if_neg hempty]
    cases hbytes : lib.toBytes config.maxBodySize with
    | error e =>
      refine iff_of_false (fun ⟨bytes, hrun⟩ => nomatch hrun) ?_
      rintro (h | ⟨bytes, h⟩)
      · exact hempty h
      · rw [hbytes] at h
        cases h
    | ok bytes => exact iff_of_true ⟨bytes, rfl⟩ (.inr ⟨bytes, hbytes⟩)

/-! ## Endpoints and backends -/

theorem returns_endpointUrl {key endpoint : Bytes} (h : endpointErrors lib key endpoint = []) :
    ∃ u, (endpointUrl lib endpoint : Prog GoError Unit ParsedUrl).run () = (.returned u, ()) := by
  unfold endpointErrors at h
  unfold endpointUrl
  by_cases hempty : endpoint = []
  · rw [if_pos hempty] at h
    cases h
  · rw [if_neg hempty] at h
    cases hparse : lib.parseUrl endpoint with
    | error e =>
      rw [hparse] at h
      cases h
    | ok u => exact ⟨u, rfl⟩

/-- A section whose type is known and whose backend is configured. -/
structure Selects (config : BlobstoreConfig) : Prop where
  known : config.blobstoreType ∈ blobstoreTypes
  configured : blobstoreConfigIsNil config = false

theorem isSome_of_not_nilOrEmpty {α : Type} [DecidableEq α] {pointer : Option α} {empty : α}
    (h : isNilOrEmpty pointer empty = false) : ∃ a, pointer = some a := by
  cases pointer with
  | none => simp [isNilOrEmpty] at h
  | some a => exact ⟨a, rfl⟩

theorem run_selectBackend {config : BlobstoreConfig} (h : Selects config) :
    ∃ backend, (config.selectBackend : Prog GoError Unit _).run () = (.returned backend, ()) := by
  obtain ⟨hknown, hconfigured⟩ := h
  unfold blobstoreConfigIsNil at hconfigured
  unfold BlobstoreConfig.selectBackend
  simp only [blobstoreTypes, List.mem_cons, List.not_mem_nil, or_false] at hknown
  rcases hknown with htype | htype | htype | htype | htype | htype | htype
  all_goals
    rw [htype] at hconfigured ⊢
    obtain ⟨pointer, hpointer⟩ := isSome_of_not_nilOrEmpty hconfigured
    rw [hpointer]
    exact ⟨_, rfl⟩

theorem webdavConfig_of_selects {config : BlobstoreConfig} (h : Selects config)
    (htype : config.blobstoreType = Types.webDAV) :
    ∃ webdav, config.webdavConfig = some webdav := by
  have hconfigured := h.configured
  unfold blobstoreConfigIsNil at hconfigured
  rw [htype] at hconfigured
  exact isSome_of_not_nilOrEmpty hconfigured

theorem verifyBlobstoreType_eq_nil_iff (blobstoreType resourceType : Bytes) :
    verifyBlobstoreType lib blobstoreType resourceType = [] ↔ blobstoreType ∈ blobstoreTypes := by
  unfold verifyBlobstoreType
  by_cases h : blobstoreType ∈ blobstoreTypes
  · simp [h]
  · simp [h]

theorem selects_of_verified {config : BlobstoreConfig} {resourceType : Bytes}
    (htype : verifyBlobstoreType lib config.blobstoreType resourceType = [])
    (hconfig : verifyBlobstoreConfig config resourceType = []) : Selects config := by
  have hknown := (verifyBlobstoreType_eq_nil_iff _ _).mp htype
  have hne : config.blobstoreType ≠ [] := by
    intro hempty
    rw [hempty] at hknown
    exact absurd hknown (by decide)
  refine ⟨hknown, ?_⟩
  unfold verifyBlobstoreConfig at hconfig
  rw [if_neg hne] at hconfig
  by_contra hnil
  rw [if_pos ((Bool.not_eq_false _).mp hnil)] at hconfig
  cases hconfig

/-! ## The checks of `LoadConfig` -/

/-- The sections for which `main` creates stores. -/
def Config.stores (config : Config) : List BlobstoreConfig :=
  [config.appStash, config.packages, config.droplets, config.buildpacks]

def Config.sections (config : Config) : List BlobstoreConfig :=
  config.stores ++ [config.buildpackCache]

/-- What the basic checks establish. -/
structure Basic (lib : Libraries) (config : Config) : Prop where
  publicEndpoint : endpointErrors lib (ascii "public_endpoint") config.publicEndpoint = []
  privateEndpoint : endpointErrors lib (ascii "private_endpoint") config.privateEndpoint = []
  maxBodySize : Parses lib config.maxBodySize
  selects : ∀ store ∈ config.stores, Selects store

theorem basic_of_no_errors {config : Config} (h : basicErrors lib config = []) :
    Basic lib config := by
  simp only [basicErrors, List.append_eq_nil_iff, and_assoc] at h
  obtain ⟨-, hpublic, hprivate, -, -, hsize, -, hdroplets, hpackages, hstash, hbuildpacks,
    hdroplets', hpackages', hbuildpacks', hstash'⟩ := h
  refine ⟨hpublic, hprivate, (maxBodySizeErrors_eq_nil_iff _).mp hsize, fun store hstore => ?_⟩
  simp only [Config.stores, List.mem_cons, List.not_mem_nil, or_false] at hstore
  rcases hstore with rfl | rfl | rfl | rfl
  · exact selects_of_verified hstash hstash'
  · exact selects_of_verified hpackages hpackages'
  · exact selects_of_verified hdroplets hdroplets'
  · exact selects_of_verified hbuildpacks hbuildpacks'

def HasDirectoryKey (config : BlobstoreConfig) : Prop :=
  config.blobstoreType = Types.webDAV →
    ∃ webdav, config.webdavConfig = some webdav ∧ webdav.directoryKey ≠ []

theorem run_directoryKeyErrors {config : BlobstoreConfig} (h : Selects config) (name : Bytes) :
    ∃ errs, (directoryKeyErrors name config : Prog GoError Unit _).run () =
      (.returned errs, ()) ∧ (errs = [] ↔ HasDirectoryKey config) := by
  unfold directoryKeyErrors HasDirectoryKey
  by_cases htype : config.blobstoreType = Types.webDAV
  · obtain ⟨webdav, hwebdav⟩ := webdavConfig_of_selects h htype
    rw [if_pos htype, hwebdav]
    refine ⟨_, rfl, ?_⟩
    simp [htype]
  · rw [if_neg htype]
    exact ⟨[], rfl, iff_of_true rfl fun h => absurd h htype⟩

/-- What the later checks look at, sizes that cannot be parsed apart. -/
structure Consistent (lib : Libraries) (config : Config) : Prop where
  buildpackCache : config.buildpackCache.hasBackend = false
  directoryKeys : ∀ store ∈ config.stores, HasDirectoryKey store
  sizes : sizeOr lib config.appStashConfig.minimumSize 0 ≤
    sizeOr lib config.appStashConfig.maximumSize (2 ^ 64 - 1)

theorem consistent_iff {config : Config} : Consistent lib config ↔
    config.buildpackCache.hasBackend = false ∧ HasDirectoryKey config.packages ∧
      HasDirectoryKey config.droplets ∧ HasDirectoryKey config.buildpacks ∧
        HasDirectoryKey config.appStash ∧ sizeOr lib config.appStashConfig.minimumSize 0 ≤
          sizeOr lib config.appStashConfig.maximumSize (2 ^ 64 - 1) := by
  constructor
  · rintro ⟨hcache, hkeys, hsizes⟩
    simp only [Config.stores, List.forall_mem_cons] at hkeys
    exact ⟨hcache, hkeys.2.1, hkeys.2.2.1, hkeys.2.2.2.1, hkeys.1, hsizes⟩
  · rintro ⟨hcache, hpackages, hdroplets, hbuildpacks, hstash, hsizes⟩
    refine ⟨hcache, ?_, hsizes⟩
    simp only [Config.stores, List.forall_mem_cons]
    exact ⟨hstash, hpackages, hdroplets, hbuildpacks, fun _ h => absurd h List.not_mem_nil⟩

def ThresholdsParse (lib : Libraries) (config : Config) : Prop :=
  Parses lib config.appStashConfig.minimumSize ∧ Parses lib config.appStashConfig.maximumSize

section Later
variable {config : Config} (hselects : ∀ store ∈ config.stores, Selects store)
include hselects

theorem run_laterErrors (hsizes : ThresholdsParse lib config) :
    ∃ errs, (laterErrors lib config : Prog GoError Unit _).run () = (.returned errs, ()) ∧
      (errs = [] ↔ Consistent lib config) := by
  simp only [Config.stores, List.forall_mem_cons] at hselects
  obtain ⟨packages, hpackages, hpackages'⟩ :=
    run_directoryKeyErrors hselects.2.1 (ascii "Packages")
  obtain ⟨droplets, hdroplets, hdroplets'⟩ :=
    run_directoryKeyErrors hselects.2.2.1 (ascii "Droplets")
  obtain ⟨buildpacks, hbuildpacks, hbuildpacks'⟩ :=
    run_directoryKeyErrors hselects.2.2.2.1 (ascii "Buildpacks")
  obtain ⟨stash, hstash, hstash'⟩ := run_directoryKeyErrors hselects.1 (ascii "AppStash")
  refine ⟨_, (run_bind_returned hpackages).trans ((run_bind_returned hdroplets).trans
    ((run_bind_returned hbuildpacks).trans ((run_bind_returned hstash).trans
      ((run_bind_returned (run_parseSizeProperty hsizes.1 0)).trans
        ((run_bind_returned (run_parseSizeProperty hsizes.2 (2 ^ 64 - 1))).trans rfl))))), ?_⟩
  rw [consistent_iff]
  simp only [List.append_eq_nil_iff, and_assoc, hpackages', hdroplets', hbuildpacks', hstash']
  simp [buildpackCacheErrors]

theorem run_laterErrors_of_not (hsizes : ¬ ThresholdsParse lib config) :
    ∃ e, (laterErrors lib config : Prog GoError Unit _).run () = (.panicked e, ()) := by
  simp only [Config.stores, List.forall_mem_cons] at hselects
  obtain ⟨packages, hpackages, -⟩ := run_directoryKeyErrors hselects.2.1 (ascii "Packages")
  obtain ⟨droplets, hdroplets, -⟩ := run_directoryKeyErrors hselects.2.2.1 (ascii "Droplets")
  obtain ⟨buildpacks, hbuildpacks, -⟩ :=
    run_directoryKeyErrors hselects.2.2.2.1 (ascii "Buildpacks")
  obtain ⟨stash, hstash, -⟩ := run_directoryKeyErrors hselects.1 (ascii "AppStash")
  by_cases hminimum : Parses lib config.appStashConfig.minimumSize
  · have hmaximum : ¬ Parses lib config.appStashConfig.maximumSize := fun h => hsizes ⟨hminimum, h⟩
    obtain ⟨e, hpanic⟩ := run_parseSizeProperty_of_not hmaximum (2 ^ 64 - 1)
    exact ⟨e, (run_bind_returned hpackages).trans ((run_bind_returned hdroplets).trans
      ((run_bind_returned hbuildpacks).trans ((run_bind_returned hstash).trans
        ((run_bind_returned (run_parseSizeProperty hminimum 0)).trans
          (run_bind_panicked hpanic)))))⟩
  · obtain ⟨e, hpanic⟩ := run_parseSizeProperty_of_not hminimum 0
    exact ⟨e, (run_bind_returned hpackages).trans ((run_bind_returned hdroplets).trans
      ((run_bind_returned hbuildpacks).trans ((run_bind_returned hstash).trans
        (run_bind_panicked hpanic))))⟩

end Later

/-! ## Soundness -/

/-- Everything that `main` asks an accepted configuration for is there. -/
structure Usable (lib : Libraries) (config : Config) : Prop where
  publicEndpointUrl : ∃ u, (config.publicEndpointUrl lib : Prog GoError Unit _).run () =
    (.returned u, ())
  privateEndpointUrl : ∃ u, (config.privateEndpointUrl lib : Prog GoError Unit _).run () =
    (.returned u, ())
  maxBodySizeBytes : ∀ resource ∈ config.sections, ∃ bytes,
    (resource.maxBodySizeBytes lib : Prog GoError Unit _).run () = (.returned bytes, ())
  sizes : ∃ minimum maximum,
    (config.appStashConfig.minimumSizeBytes lib : Prog GoError Unit _).run () =
      (.returned minimum, ()) ∧
    (config.appStashConfig.maximumSizeBytes lib : Prog GoError Unit _).run () =
      (.returned maximum, ()) ∧ minimum ≤ maximum
  backends : ∀ store ∈ config.stores, store.blobstoreType ∈ blobstoreTypes ∧ ∃ backend,
    (store.selectBackend : Prog GoError Unit _).run () = (.returned backend, ())

/-- `LoadConfig` returns, and what it accepts is usable. -/
def LoadsSoundly (lib : Libraries) (file : Except Bytes (Except Bytes Bytes)) : Prop :=
  ∃ r, (loadConfig lib file : Prog GoError Unit _).run () = (.returned r, ()) ∧
    ∀ config, r = .ok config → Usable lib config

theorem globalMaxBodySize_of_mem {config : Config} {resource : BlobstoreConfig}
    (h : resource ∈ (config.prepare lib).sections) :
    resource.globalMaxBodySize = (config.prepare lib).maxBodySize := by
  simp only [Config.sections, Config.stores, List.mem_append, List.mem_cons, List.not_mem_nil,
    or_false] at h
  rcases h with (rfl | rfl | rfl | rfl) | rfl <;> rfl

theorem usable_iff {config : Config} (hbasic : Basic lib config)
    (hglobal : ∀ resource ∈ config.sections, resource.globalMaxBodySize = config.maxBodySize)
    (hthresholds : ThresholdsParse lib config) (hconsistent : Consistent lib config) :
    Usable lib config ↔ ∀ resource ∈ config.sections, Parses lib resource.maxBodySize := by
  have hsize : ∀ resource ∈ config.sections, (∃ bytes,
      (resource.maxBodySizeBytes lib : Prog GoError Unit _).run () = (.returned bytes, ())) ↔
        Parses lib resource.maxBodySize := by
    intro resource hresource
    apply returns_maxBodySizeBytes_iff
    rw [hglobal resource hresource]
    exact hbasic.maxBodySize
  constructor
  · exact fun husable resource hresource =>
      (hsize resource hresource).mp (husable.maxBodySizeBytes resource hresource)
  · intro hparse
    exact {
      publicEndpointUrl := returns_endpointUrl hbasic.publicEndpoint
      privateEndpointUrl := returns_endpointUrl hbasic.privateEndpoint
      maxBodySizeBytes := fun resource hresource =>
        (hsize resource hresource).mpr (hparse resource hresource)
      sizes := ⟨_, _, run_parseSizeProperty hthresholds.1 0,
        run_parseSizeProperty hthresholds.2 (2 ^ 64 - 1), hconsistent.sizes⟩
      backends := fun store hstore =>
        ⟨(hbasic.selects store hstore).known, run_selectBackend (hbasic.selects store hstore)⟩ }

/-- What is established for a parsed configuration is all that `main` needs. -/
def Sound (lib : Libraries) (config : Config) : Prop :=
  ThresholdsParse lib config ∧ (Consistent lib config →
    ∀ resource ∈ config.sections, Parses lib resource.maxBodySize)

theorem checkConfig_sound_iff {config : Config}
    (hglobal : ∀ resource ∈ config.sections, resource.globalMaxBodySize = config.maxBodySize) :
    (∃ r, (checkConfig lib config : Prog GoError Unit _).run () = (.returned r, ()) ∧
      ∀ accepted, r = .ok accepted → Usable lib accepted) ↔
      (basicErrors lib config = [] → Sound lib config) := by
  unfold checkConfig
  by_cases herrs : basicErrors lib config = []
  swap
  · rw [if_pos herrs]
    exact iff_of_true ⟨_, rfl, fun _ h => nomatch h⟩ fun h => absurd h herrs
  rw [if_neg (not_not.mpr herrs)]
  have hbasic := basic_of_no_errors herrs
  simp only [herrs, forall_const]
  by_cases hthresholds : ThresholdsParse lib config
  swap
  · -- the comparison of the thresholds panics
    obtain ⟨e, hpanic⟩ := run_laterErrors_of_not hbasic.selects hthresholds
    refine iff_of_false (fun ⟨r, hrun, _⟩ => ?_) fun h => hthresholds h.1
    rw [run_bind_panicked hpanic] at hrun
    cases hrun
  obtain ⟨errs, hlater, hnil⟩ := run_laterErrors hbasic.selects hthresholds
  rw [run_bind_returned hlater]
  by_cases hconsistent : Consistent lib config
  · rw [if_neg (not_not.mpr (hnil.mpr hconsistent))]
    have husable := usable_iff hbasic hglobal hthresholds hconsistent
    constructor
    · rintro ⟨r, hrun, haccepted⟩
      cases hrun
      exact ⟨hthresholds, fun _ => husable.mp (haccepted config rfl)⟩
    · intro hsound
      refine ⟨.ok config, rfl, fun accepted h => ?_⟩
      obtain rfl : config = accepted := Except.ok.inj h
      exact husable.mpr (hsound.2 hconsistent)
  · rw [if_pos fun h => hconsistent (hnil.mp h)]
    exact iff_of_true ⟨_, rfl, fun _ h => nomatch h⟩
      ⟨hthresholds, fun h => absurd h hconsistent⟩

/-- **`LoadConfig` is sound exactly when no size goes unchecked that cannot be parsed**: neither a
threshold of the app stash, nor the limit of a section. -/
theorem loadsSoundly_iff (lib : Libraries) (file : Except Bytes (Except Bytes Bytes)) :
    LoadsSoundly lib file ↔ ∀ content config, file = .ok (.ok content) →
      lib.unmarshal content = .ok config → basicErrors lib (config.prepare lib) = [] →
        Sound lib (config.prepare lib) := by
  unfold LoadsSoundly
  match file with
  | .error e => exact iff_of_true ⟨_, rfl, fun _ h => nomatch h⟩ fun _ _ h => nomatch h
  | .ok (.error e) => exact iff_of_true ⟨_, rfl, fun _ h => nomatch h⟩ fun _ _ h => nomatch h
  | .ok (.ok content) =>
    simp only [loadConfig]
    cases hunmarshal : lib.unmarshal content with
    | error e =>
      refine iff_of_true ⟨_, rfl, fun _ h => nomatch h⟩ fun content' config hcontent hconfig => ?_
      obtain rfl : content = content' := Except.ok.inj (Except.ok.inj hcontent)
      rw [hunmarshal] at hconfig
      cases hconfig
    | ok config =>
      refine (checkConfig_sound_iff fun _ => globalMaxBodySize_of_mem).trans ⟨?_, ?_⟩
      · intro h content' config' hcontent hconfig
        obtain rfl : content = content' := Except.ok.inj (Except.ok.inj hcontent)
        obtain rfl : config = config' := Except.ok.inj (hunmarshal.symm.trans hconfig)
        exact h
      · exact fun h => h content config rfl hunmarshal

/-! ## Sizes that are not checked -/

def localSection (maxBodySize : Bytes) : BlobstoreConfig :=
  ⟨Types.localDir, some ⟨ascii "/var/vcap/store"⟩, none, none, none, none, none, none,
    maxBodySize, []⟩

/-- A configuration with local blobstores, a limit for packages and a minimum for the stash. -/
def localConfig (packagesMaxBodySize minimumSize : Bytes) : Config where
  buildpacks := localSection []
  droplets := localSection []
  packages := localSection packagesMaxBodySize
  appStash := localSection []
  buildpackCache := ⟨[], none, none, none, none, none, none, none, [], []⟩
  publicEndpoint := ascii "https://public.127.0.0.1.nip.io"
  privateEndpoint := ascii "https://internal.127.0.0.1.nip.io"
  port := 8000
  maxBodySize := []
  certFile := ascii "/some/path"
  keyFile := ascii "/some/path"
  ccUpdater := none
  appStashConfig := ⟨minimumSize, []⟩

/-- Libraries that read one configuration, know no byte size, and read `https` URLs. -/
def librariesFor (config : Config) : Libraries where
  unmarshal _ := .ok config
  toBytes _ := .error (ascii "byte quantity must be a positive integer with a unit of measurement")
  parseUrl endpoint := .ok ⟨endpoint.take 5, endpoint.drop 8⟩
  toLower := id
  typeKeys := blobstoreTypes

/-- With `max_body_size: 13 mb` for packages the configuration is accepted and `main` panics; with
`minimum_size: 13 mb` for the app stash `LoadConfig` itself panics. -/
theorem not_loadsSoundly_13_mb :
    ¬ LoadsSoundly (librariesFor (localConfig (ascii "13 mb") [])) (.ok (.ok [])) ∧
      ¬ LoadsSoundly (librariesFor (localConfig [] (ascii "13 mb"))) (.ok (.ok [])) := by
  constructor
  · rintro ⟨r, hrun, haccepted⟩
    cases hrun
    obtain ⟨bytes, hbytes⟩ := (haccepted _ rfl).maxBodySizeBytes _
      (List.mem_append_left _ (List.mem_cons_of_mem _ List.mem_cons_self))
    cases hbytes
  · rintro ⟨r, hrun, -⟩
    cases hrun

end BitsService.Configuration
