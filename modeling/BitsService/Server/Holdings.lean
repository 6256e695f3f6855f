import BitsService.Server.AlikeShelves
import BitsService.Server.LocalServer
import BitsService.Server.SharedBucket

/-! # What the service holds

Contents under the identifiers of resources, one collection for each kind of them, and the contents
that were stashed. The local server is a server of these: neither the sections of the disk can be
told from outside, nor the directories of the partitioning, nor that the buildpack cache lies among
the droplets. -/
namespace BitsService
open GoLib.Effect GoLib.Coupling GoLib.OperationRuns GoLib.LexicalPath
set_option autoImplicit false

inductive Collection where
  | resource (kind : ResourceKind)
  | appStash
  deriving DecidableEq

abbrev Holdings := Collection → BlobMap

def Collection.shelf (c : Collection) : Shelf Holdings := ⟨familyPart BlobMap c, id, id⟩

theorem Collection.store_apply (c c' : Collection) (i j : Bytes) (content : Option Bytes)
    (holdings : Holdings) : c.shelf.store i content holdings c' j =
      if c' = c ∧ j = i then content else holdings c' j := by
  show Function.update holdings c (Function.update (holdings c) i content) c' j = _
  by_cases hc : c' = c
  · subst hc
    rw [Function.update_self, Function.update_apply]
    exact if_congr (by simp) rfl rfl
  · rw [Function.update_of_ne hc, if_neg fun h => hc h.1]

theorem Collection.clear_apply (c c' : Collection) (pre j : Bytes) (holdings : Holdings) :
    c.shelf.clear pre holdings c' j =
      if c' = c ∧ IsBelow pre j then none else holdings c' j := by
  show Function.update holdings c (fun key => if IsBelow pre key then none else holdings c key)
    c' j = _
  by_cases hc : c' = c
  · subst hc
    rw [Function.update_self]
    exact if_congr (by simp) rfl rfl
  · rw [Function.update_of_ne hc, if_neg fun h => hc h.1]

def Collection.storeSection : Collection → StoreSection
  | resource kind => kind.storeSection
  | appStash => .appStash

/-- Only the droplets and the buildpack cache share a section. -/
theorem Collection.eq_of_storeSection {c c' : Collection} (h : c.storeSection = c'.storeSection) :
    c = c' ∨ (c = .resource .droplet ∧ c' = .resource .buildpackCache) ∨
      (c = .resource .buildpackCache ∧ c' = .resource .droplet) := by
  rcases c with kind | _
  · rcases c' with kind' | _
    · cases kind <;> cases kind' <;> revert h <;> decide
    · cases kind <;> cases h
  · rcases c' with kind' | _
    · cases kind' <;> cases h
    · exact .inl rfl

/-- What comes before the first slash. -/
def firstSegment (identifier : Bytes) : Bytes := identifier.takeWhile (· ≠ slash)

theorem slash_not_mem_firstSegment (identifier : Bytes) : slash ∉ firstSegment identifier := by
  intro hmem
  simpa using List.mem_takeWhile_imp hmem

theorem firstSegment_append (identifier : Bytes) : identifier = firstSegment identifier ∨
    ∃ rest, identifier = firstSegment identifier ++ slash :: rest := by
  have hsplit := List.takeWhile_append_dropWhile (p := (· ≠ slash)) (l := identifier)
  cases hrest : identifier.dropWhile (· ≠ slash) with
  | nil =>
    rw [hrest, List.append_nil] at hsplit
    exact .inl hsplit.symm
  | cons c rest =>
    have hc : c = slash := by
      have hhead := List.head?_dropWhile_not (· ≠ slash) identifier
      rw [hrest] at hhead
      simpa using hhead
    rw [hrest, hc] at hsplit
    exact .inr ⟨rest, hsplit.symm⟩

theorem isPlainName_of_moves {name : Bytes} (hslash : slash ∉ name) (hlong : 2 ≤ name.length)
    (hup : .up ∉ movesOf name) : IsPlainName name := by
  refine ⟨hslash, ?_, ?_, ?_⟩
  · rintro rfl
    exact absurd hlong (by decide)
  · rintro rfl
    exact absurd hlong (by decide)
  · rintro rfl
    exact hup (by decide)

/-- The walk along a partitioned path whose first segment the directories are of. -/
theorem movesOf_pathFor {identifier segment : Bytes} (hslash : slash ∉ segment)
    (hlong : 4 ≤ segment.length)
    (hi : identifier = segment ∨ ∃ rest, identifier = segment ++ slash :: rest)
    (hup : .up ∉ movesOf (pathFor identifier)) :
    movesOf (pathFor identifier) =
        .into (segment.take 2) :: .into ((segment.drop 2).take 2) :: movesOf identifier ∧
      ∃ moves, movesOf identifier = .into segment :: moves := by
  obtain ⟨rest, hrest⟩ : ∃ rest, identifier = segment ++ rest := by
    rcases hi with rfl | ⟨rest, rfl⟩
    · exact ⟨[], (List.append_nil _).symm⟩
    · exact ⟨slash :: rest, rfl⟩
  have hlength : 4 ≤ identifier.length := by
    rw [hrest, List.length_append]
    omega
  have hfirst : identifier.take 2 = segment.take 2 := by
    rw [hrest, List.take_append_of_le_length (by omega)]
  have hsecond : (identifier.drop 2).take 2 = (segment.drop 2).take 2 := by
    rw [hrest, List.drop_append_of_le_length (by omega),
      List.take_append_of_le_length (by rw [List.length_drop]; omega)]
  have hmoves : movesOf (pathFor identifier) = movesOf (segment.take 2) ++
      (movesOf ((segment.drop 2).take 2) ++ movesOf identifier) := by
    rw [pathFor_of_four_le hlength, hfirst, hsecond, movesOf_append_slash, movesOf_append_slash]
  rw [hmoves, List.mem_append, List.mem_append, not_or, not_or] at hup
  have hplain₁ : IsPlainName (segment.take 2) := isPlainName_of_moves
    (fun h => hslash (List.mem_of_mem_take h)) (by rw [List.length_take]; omega) hup.1
  have hplain₂ : IsPlainName ((segment.drop 2).take 2) := isPlainName_of_moves
    (fun h => hslash (List.mem_of_mem_drop (List.mem_of_mem_take h)))
    (by rw [List.length_take, List.length_drop]; omega) hup.2.1
  have hsegment : .up ∉ movesOf segment := by
    rcases hi with rfl | ⟨rest, rfl⟩
    · exact hup.2.2
    · rw [movesOf_append_slash, List.mem_append, not_or] at hup
      exact hup.2.2.1
  have hplain : IsPlainName segment := isPlainName_of_moves hslash (by omega) hsegment
  refine ⟨by rw [hmoves, hplain₁.movesOf_eq, hplain₂.movesOf_eq]; rfl, ?_⟩
  rcases hi with rfl | ⟨rest, rfl⟩
  · exact ⟨[], hplain.movesOf_eq⟩
  · exact ⟨movesOf rest, by rw [movesOf_append_slash, hplain.movesOf_eq]; rfl⟩

/-! ## Where the local server keeps it -/

namespace LocalSettings
variable (settings : LocalSettings)

def shelfOf : Collection → Shelf Blobs
  | .resource kind => settings.shelf kind
  | .appStash => settings.stashShelf

def directoryOf : Collection → Bytes
  | .resource .buildpackCache => buildpackCacheDirectory
  | .resource _ => []
  | .appStash => ascii "app_bits_cache/"

theorem shelfOf_eq (c : Collection) : settings.shelfOf c =
    ⟨sectionPart c.storeSection, fun i => directoryOf c ++ pathFor i,
      fun pre => directoryOf c ++ pathFor pre⟩ := by
  have hlocal := settings.isLocal
  rcases c with kind | _
  · have hbegin : settings.keyPrefix kind = directoryOf (.resource kind) := by
      simp only [Settings.keyPrefix, hlocal]
      cases kind <;> rfl
    show settings.shelf kind = _
    unfold Settings.shelf
    rw [hbegin]
    rfl
  · have hbegin : settings.stashKeyPrefix = directoryOf .appStash := by
      simp only [Settings.stashKeyPrefix, hlocal]
      rfl
    show settings.stashShelf = _
    unfold Settings.stashShelf
    rw [hbegin]
    rfl

/-- The identifiers that stand for a path of the layout. What is deleted from the buildpack cache
together has a first segment in common, which is not shorter than the directories of the
partitioning. -/
def identifiers (c : Collection) : Set Bytes :=
  {i | i ≠ [] ∧ (settings.shelfOf c).key i ∈ settings.layout.keys c.storeSection ∧
    (c = .resource .buildpackCache → 4 ≤ (firstSegment i).length)}

/-- The whole buildpack cache, or what is below one segment. -/
def directories : ResourceKind → Set Bytes
  | .buildpackCache => {pre | (settings.shelf .buildpackCache).dir pre ∈ blobDirs ∧
      (pre = [] ∨ 4 ≤ pre.length ∧ slash ∉ pre)}
  | _ => ∅

/-- The maps have what is held. -/
def Stores (blobs : Blobs) (holdings : Holdings) : Prop :=
  ∀ c, ∀ i ∈ settings.identifiers c, (settings.shelfOf c).blob blobs i = holdings c i

def named : SharedKeys where
  keys kind := settings.identifiers (.resource kind)
  dirs := settings.directories
  stashKeys := settings.identifiers .appStash

variable {settings}

/-- **No key is used twice.** -/
theorem eq_of_key {c c' : Collection} {i j : Bytes} (hi : i ∈ settings.identifiers c)
    (hj : j ∈ settings.identifiers c') (hsection : c.storeSection = c'.storeSection)
    (hkey : (settings.shelfOf c).key i = (settings.shelfOf c').key j) : c = c' ∧ i = j := by
  rw [shelfOf_eq, shelfOf_eq] at hkey
  rcases Collection.eq_of_storeSection hsection with rfl | ⟨rfl, rfl⟩ | ⟨rfl, rfl⟩
  · have hpaths : pathFor i = pathFor j := List.append_cancel_left hkey
    have hsame := @pathFor_injective ⟨i, hi.1⟩ ⟨j, hj.1⟩ hpaths
    exact ⟨rfl, congrArg Subtype.val hsame⟩
  · exact absurd hkey (dropletKey_ne_buildpackCacheKey ⟨i, hi.1⟩ ⟨j, hj.1⟩)
  · exact absurd hkey.symm (dropletKey_ne_buildpackCacheKey ⟨j, hj.1⟩ ⟨i, hi.1⟩)

/-! ## Deleting from the buildpack cache -/

theorem movesOf_cache (path : Bytes) : movesOf (buildpackCacheDirectory ++ path) =
    .into (ascii "buildpack_cache") :: movesOf path := by
  have hdirectory : buildpackCacheDirectory ++ path = ascii "buildpack_cache" ++ slash :: path := by
    rw [buildpackCacheDirectory, show ascii "buildpack_cache/" = ascii "buildpack_cache" ++ [slash]
      by decide, List.append_assoc, List.singleton_append]
  rw [hdirectory, movesOf_append_slash]
  rfl

theorem moves_of_mem_identifiers {c : Collection} {i : Bytes} (hi : i ∈ settings.identifiers c) :
    ∃ p : RelativePath, p.text = directoryOf c ++ pathFor i := by
  obtain ⟨-, ⟨k, hk⟩, -⟩ := hi
  rw [shelfOf_eq] at hk
  exact ⟨k.1, hk⟩

theorem up_not_mem_of_text {p : RelativePath} : .up ∉ movesOf p.text := by
  rw [RelativePath.text, movesOf_intercalate p.plain]
  intro hmem
  obtain ⟨name, -, hname⟩ := List.mem_map.mp hmem
  cases hname

/-- Below a directory of the cache is what is below it in the identifiers. -/
theorem isBelow_cache_iff {pre i : Bytes} (hpre : pre ∈ settings.directories .buildpackCache)
    (hi : i ∈ settings.identifiers (.resource .buildpackCache)) :
    IsBelow (buildpackCacheDirectory ++ pathFor pre) (buildpackCacheDirectory ++ pathFor i) ↔
      IsBelow pre i := by
  obtain ⟨⟨p, -, hp⟩, hshape⟩ := hpre
  obtain ⟨q, hq⟩ := moves_of_mem_identifiers hi
  have hupi : .up ∉ movesOf (pathFor i) := by
    have hup := up_not_mem_of_text (p := q)
    rw [hq] at hup
    exact fun hmem => hup (by rw [directoryOf, movesOf_cache]; exact List.mem_cons_of_mem _ hmem)
  have huppre : .up ∉ movesOf (pathFor pre) := by
    have hup := up_not_mem_of_text (p := p)
    rw [← hp] at hup
    exact fun hmem => hup (by
      show .up ∈ movesOf ((settings.shelfOf (.resource .buildpackCache)).dir pre)
      rw [shelfOf_eq]
      show .up ∈ movesOf (buildpackCacheDirectory ++ pathFor pre)
      rw [movesOf_cache]
      exact List.mem_cons_of_mem _ hmem)
  obtain ⟨hmovesi, moves, hsegment⟩ := movesOf_pathFor (slash_not_mem_firstSegment i) (hi.2.2 rfl)
    (firstSegment_append i) hupi
  unfold IsBelow
  rw [movesOf_cache, movesOf_cache, List.cons_prefix_cons, and_iff_right rfl, hmovesi]
  rcases hshape with rfl | ⟨hlong, hslash⟩
  · simp [pathFor_nil, movesOf_nil]
  · obtain ⟨hmovespre, moves', hpre⟩ := movesOf_pathFor hslash hlong (.inl rfl) huppre
    rw [hmovespre, List.cons_prefix_cons, List.cons_prefix_cons]
    constructor
    · exact fun h => h.2.2
    · intro h
      have hsame : pre = firstSegment i := by
        rw [hpre, hsegment, List.cons_prefix_cons] at h
        exact Move.into.inj h.1
      exact ⟨by rw [hsame], by rw [hsame], h⟩

/-- No droplet is below a directory of the cache. -/
theorem not_isBelow_cache {i : Bytes} (hi : i ∈ settings.identifiers (.resource .droplet))
    (path : Bytes) : ¬ IsBelow (buildpackCacheDirectory ++ path) (pathFor i) := by
  intro hbelow
  obtain ⟨p, hp⟩ := moves_of_mem_identifiers hi
  have htext : pathFor i = p.text := hp.symm
  unfold IsBelow at hbelow
  rw [movesOf_cache, htext, RelativePath.text, movesOf_intercalate p.plain] at hbelow
  obtain ⟨name, names, hnames⟩ : ∃ name names, p.names = name :: names := by
    refine List.exists_cons_of_ne_nil fun hnil => ?_
    rw [hnil] at hbelow
    exact absurd (List.prefix_nil.mp hbelow) (List.cons_ne_nil _ _)
  rw [hnames, List.map_cons, List.cons_prefix_cons] at hbelow
  obtain rfl := Move.into.inj hbelow.1
  have hfirst : (pathFor i)[1]? = some 117 ∧ (pathFor i)[2]? = some 105 := by
    rw [htext, RelativePath.text, hnames]
    cases names with
    | nil => exact ⟨rfl, rfl⟩
    | cons other names => exact ⟨rfl, rfl⟩
  rcases slash_pathFor hi.1 with hslash | hslash
  · rw [hfirst.1] at hslash
    exact absurd (Option.some.inj hslash) (by decide)
  · rw [hfirst.2] at hslash
    exact absurd (Option.some.inj hslash) (by decide)

/-! ## The maps and what is held -/

theorem blob_store {c c' : Collection} {i j : Bytes} (hi : i ∈ settings.identifiers c)
    (hj : j ∈ settings.identifiers c') (content : Option Bytes) (blobs : Blobs) :
    (settings.shelfOf c').blob ((settings.shelfOf c).store i content blobs) j =
      if c' = c ∧ j = i then content else (settings.shelfOf c').blob blobs j := by
  have hkeys : c'.storeSection = c.storeSection →
      (settings.shelfOf c').key j = (settings.shelfOf c).key i → c' = c ∧ j = i := eq_of_key hj hi
  rw [shelfOf_eq, shelfOf_eq] at hkeys ⊢
  show Function.update blobs c.storeSection (Function.update (blobs c.storeSection)
    (directoryOf c ++ pathFor i) content) c'.storeSection (directoryOf c' ++ pathFor j) =
      if _ then content else blobs c'.storeSection (directoryOf c' ++ pathFor j)
  by_cases hsame : c' = c ∧ j = i
  · obtain ⟨rfl, rfl⟩ := hsame
    rw [Function.update_self, Function.update_self, if_pos ⟨rfl, rfl⟩]
  rw [if_neg hsame]
  by_cases hsection : c'.storeSection = c.storeSection
  · rw [hsection, Function.update_self,
      Function.update_of_ne fun hkey => hsame (hkeys hsection hkey)]
  · rw [Function.update_of_ne hsection]

theorem blob_clear {kind : ResourceKind} {pre : Bytes} (hpre : pre ∈ settings.directories kind)
    {c : Collection} {j : Bytes} (hj : j ∈ settings.identifiers c) (blobs : Blobs) :
    (settings.shelfOf c).blob ((settings.shelfOf (.resource kind)).clear pre blobs) j =
      if c = .resource kind ∧ IsBelow pre j then none
      else (settings.shelfOf c).blob blobs j := by
  obtain rfl : kind = .buildpackCache := by
    cases kind with
    | buildpackCache => rfl
    | _ => exact absurd hpre (Set.notMem_empty _)
  rw [shelfOf_eq, shelfOf_eq]
  show Function.update blobs .droplets (fun key =>
    if IsBelow (buildpackCacheDirectory ++ pathFor pre) key then none else blobs .droplets key)
      c.storeSection (directoryOf c ++ pathFor j) =
      if _ then none else blobs c.storeSection (directoryOf c ++ pathFor j)
  by_cases hsection : c.storeSection = .droplets
  · rw [hsection, Function.update_self]
    have hshared : c = .resource .buildpackCache ∨ c = .resource .droplet := by
      have hsame : c.storeSection = (Collection.resource .droplet).storeSection := hsection
      rcases Collection.eq_of_storeSection hsame with rfl | ⟨-, hc⟩ | ⟨rfl, -⟩
      · exact .inr rfl
      · cases hc
      · exact .inl rfl
    rcases hshared with rfl | rfl
    · exact if_congr ((isBelow_cache_iff hpre hj).trans (by simp)) rfl rfl
    · exact if_congr (iff_of_false (not_isBelow_cache hj _) (by simp)) rfl rfl
  · rw [Function.update_of_ne hsection, if_neg]
    rintro ⟨rfl, -⟩
    exact hsection rfl

variable (settings)

theorem alikeShelves_resource (kind : ResourceKind) :
    AlikeShelves settings.Stores (settings.named.keys kind) (settings.named.dirs kind)
      (settings.shelf kind) (Collection.resource kind).shelf where
  blob blobs holdings h i hi := h (.resource kind) i hi
  store blobs holdings h i hi content c j hj := by
    have hstored := blob_store (c := .resource kind) hi hj content blobs
    rw [h c j hj] at hstored
    rw [Collection.store_apply]
    exact hstored
  clear blobs holdings h pre hpre c j hj := by
    have hcleared := blob_clear hpre hj blobs
    rw [h c j hj] at hcleared
    rw [Collection.clear_apply]
    exact hcleared
  key i hi j hj := by
    constructor
    · exact fun hkey => (@eq_of_key settings (.resource kind) (.resource kind) i j hi hj rfl hkey).2
    · exact fun hsame => congrArg (settings.shelf kind).key hsame

theorem alikeShelves_appStash :
    AlikeShelves settings.Stores settings.named.stashKeys ∅ settings.stashShelf
      Collection.appStash.shelf where
  blob blobs holdings h i hi := h .appStash i hi
  store blobs holdings h i hi content c j hj := by
    have hstored := blob_store (c := .appStash) hi hj content blobs
    rw [h c j hj] at hstored
    rw [Collection.store_apply]
    exact hstored
  clear _ _ _ pre hpre := absurd hpre (Set.notMem_empty pre)
  key i hi j hj := by
    constructor
    · exact fun hkey => (@eq_of_key settings .appStash .appStash i j hi hj rfl hkey).2
    · exact fun hsame => congrArg settings.stashShelf.key hsame

/-! ## The server of what is held -/

def holdingsModel : ShelvedServer Holdings :=
  settings.model.onShelves (fun kind => (Collection.resource kind).shelf) Collection.appStash.shelf

theorem digest_mem_named (content : Bytes) :
    settings.formats.digests.key content ∈ settings.named.stashKeys := by
  refine ⟨List.ne_nil_of_length_pos (by rw [key_length]; decide), ?_, fun h => nomatch h⟩
  rw [shelfOf_eq]
  exact settings.stashKeys content

theorem alikeServers_holdings :
    AlikeServers settings.Stores settings.named settings.model.server
      settings.holdingsModel.server :=
  settings.model.alikeServers_onShelves settings.alikeShelves_resource settings.alikeShelves_appStash
    (fun _ => rfl) settings.digest_mem_named

theorem asksOnly_shared {σ : Type} {server : Server σ} {request : IncomingRequest}
    (h : server.AsksOnly settings.named request) : server.AsksOnly settings.shared request := by
  have hkeys : ∀ kind, settings.named.keys kind ⊆ settings.shared.keys kind :=
    fun kind i hi => hi.2.1
  have hdirs : ∀ kind, settings.named.dirs kind ⊆ settings.shared.dirs kind := by
    intro kind pre hpre
    cases kind with
    | buildpackCache => exact hpre.1
    | _ => exact absurd hpre (Set.notMem_empty pre)
  refine ⟨fun content hsends fingerprints hjson entry hentry =>
    (h.fingerprints content hsends fingerprints hjson entry hentry).2.1, ?_⟩
  intro kind operation identifier hroute
  have hasks := h.resource kind operation identifier hroute
  cases operation with
  | addOrReplaceWithDigestInHeader =>
    exact fun alg value hdigest => hkeys kind (hasks alg value hdigest)
  | copySourceGuid =>
    exact ⟨hkeys kind hasks.1, fun content sourceGuid hsends hjson hne =>
      hkeys kind (hasks.2 content sourceGuid hsends hjson hne)⟩
  | deleteDir => exact hdirs kind hasks
  | _ => exact hkeys kind hasks

/-- Nothing fails on the host, and the disk has what is held. -/
def Serves (process : Process Disk) (holdings : Holdings) : Prop :=
  process.1.Faultless ∧
    ∃ blobs, settings.layout.Mirrors process.2 blobs ∧ settings.Stores blobs holdings

theorem step_serves {arrival : Arrival}
    (hasks : settings.localServer.AsksOnly settings.named arrival.request) {process : Process Disk}
    {holdings : Holdings} (h : settings.Serves process holdings) :
    (settings.localServer.step arrival process).1 =
        (settings.holdingsModel.answerTo arrival holdings).1 ∧
      settings.Serves (settings.localServer.step arrival process).2
        (settings.holdingsModel.answerTo arrival holdings).2 := by
  obtain ⟨hh, blobs, hmirrors, hstores⟩ := h
  have hdisk : AlikeServers.SameProcess settings.layout.Mirrors process (process.1, blobs) :=
    ⟨rfl, hmirrors⟩
  have hheld : AlikeServers.SameProcess settings.Stores (process.1, blobs)
      (process.1, holdings) := ⟨rfl, hstores⟩
  have hnamed : settings.model.server.AsksOnly settings.named arrival.request :=
    ⟨hasks.fingerprints, hasks.resource⟩
  obtain ⟨hanswer, hhost, hleft⟩ :=
    settings.alikeServers_blobs.step (settings.asksOnly_shared hasks) hdisk
  obtain ⟨hanswer', -, hleft'⟩ := settings.alikeServers_holdings.step hnamed hheld
  obtain ⟨host', hh', hmodel⟩ := settings.model.step_server hh arrival blobs
  obtain ⟨host'', -, hholdings⟩ := settings.holdingsModel.step_server hh arrival holdings
  rw [settings.blobServer_eq, hmodel] at hanswer hhost hleft
  rw [hmodel, hholdings] at hanswer' hleft'
  refine ⟨hanswer.trans hanswer', ?_, _, hleft, hleft'⟩
  rw [hhost]
  exact hh'

/-- **The server over one disk is a server of what is held**: in every run of requests that name
resources only, on a host without faults, it answers as the model does for which identifiers are
all there is, and the disk then has what the model holds. -/
theorem run_holdings {arrivals : List Arrival}
    (hasks : ∀ arrival ∈ arrivals, settings.localServer.AsksOnly settings.named arrival.request)
    {process : Process Disk} {holdings : Holdings} (h : settings.Serves process holdings) :
    (runAll settings.localServer.step arrivals process).1 =
        (runAll settings.holdingsModel.answerTo arrivals holdings).1 ∧
      settings.Serves (runAll settings.localServer.step arrivals process).2
        (runAll settings.holdingsModel.answerTo arrivals holdings).2 :=
  runAll_alike (fun _ _ _ hasks h => settings.step_serves hasks h) hasks h

end LocalSettings

theorem java_mem_named : ascii "java" ∈ localSettings.named.keys .buildpack :=
  ⟨by decide, java_mem_shared, fun h => by cases h⟩

theorem cache_mem_named : [] ∈ localSettings.named.dirs .buildpackCache :=
  ⟨cache_mem_shared, .inl rfl⟩

def blankHost : Process Disk := ((Env.fresh ()).host, blankDisk)

def noHoldings : Holdings := fun _ _ => none

theorem serves_blankHost {settings : LocalSettings} (hlayout : settings.layout = plainLayout) :
    settings.Serves blankHost noHoldings := by
  refine ⟨fun _ => rfl, _, hlayout ▸ mirrors_blankDisk, fun c i _ => ?_⟩
  rw [LocalSettings.shelfOf_eq]
  rfl

theorem run_holdings_java :
    (runAll localSettings.localServer.step javaRun blankHost).1 =
        (runAll localSettings.holdingsModel.answerTo javaRun noHoldings).1 ∧
      localSettings.Serves (runAll localSettings.localServer.step javaRun blankHost).2
        (runAll localSettings.holdingsModel.answerTo javaRun noHoldings).2 :=
  localSettings.run_holdings (asksOnly_javaRun rfl rfl java_mem_named cache_mem_named)
    (serves_blankHost rfl)

end BitsService
