import BitsService.Blobstores.BlobMaps
import BitsService.Blobstores.Doubles
import BitsService.Server.Grants
import BitsService.Stash.Addressing

/-! # The server over one disk

The blobs of all sections lie on one disk, each section below a directory of its own. As long as
nothing fails, and no blob is asked for that is a directory of another one, the server answers as it
does when every section is a map. -/
namespace BitsService
open GoLib GoLib.Effect GoLib.Coupling GoLib.OperationRuns GoLib.LexicalPath
set_option autoImplicit false

/-! ## The blobs of all sections -/

abbrev Blobs := StoreSection → BlobMap

def sectionPart (s : StoreSection) : Part Blobs BlobMap := familyPart BlobMap s

def sectionShelf (s : StoreSection) : Shelf Blobs := ⟨sectionPart s, id, id⟩

theorem blob_sectionShelf (s : StoreSection) (blobs : Blobs) (key : Bytes) :
    (sectionShelf s).blob blobs key = blobs s key := rfl

def sectionStore (s : StoreSection) : Blobstore Blobs := (sectionShelf s).toBlobstore

/-! ## The layout of the disk -/

/-- The directories that may be deleted: all but the one that everything lies in. -/
def blobDirs : Set Bytes :=
  {pre | ∃ p : RelativePath, p.names ≠ [] ∧ movesOf pre = movesOf p.text}

/-- Where the sections lie, none within another, and which paths their blobs may have. -/
structure DiskLayout where
  store : StoreSection → LocalBlobstoreConfig
  root : StoreSection → List Bytes
  paths : StoreSection → BlobPaths
  apart : ∀ s s', s ≠ s' → ¬ root s <+: root s'

namespace DiskLayout
variable (layout : DiskLayout)

def keys (s : StoreSection) : Set Bytes := {key | ∃ k : (layout.paths s).Key, k.1.text = key}

def blobsAt (blobs : Blobs) (s : StoreSection) (k : (layout.paths s).Key) : Option Bytes :=
  blobs s k.1.text

/-- The disk holds the blobs, each section below its root. -/
def Mirrors (d : Disk) (blobs : Blobs) : Prop :=
  ∀ s, (layout.store s).Holds (layout.root s) (layout.blobsAt blobs s) d

variable {layout} {s : StoreSection} {d : Disk} {blobs : Blobs}

/-- A path of one section is not at, above or below a path of another one. -/
theorem not_prefix_of_ne {s' : StoreSection} (hne : s ≠ s') (names names' : List Bytes) :
    ¬ layout.root s ++ names <+: layout.root s' ++ names' := by
  intro hpre
  have hroot : layout.root s <+: layout.root s' ++ names' := (List.prefix_append _ _).trans hpre
  rcases List.prefix_or_prefix_of_prefix hroot (List.prefix_append _ _) with h | h
  · exact layout.apart s s' hne h
  · exact layout.apart s' s hne.symm h

theorem blobsAt_update_self (m : BlobMap) :
    layout.blobsAt (Function.update blobs s m) s = fun k => m k.1.text := by
  funext k
  rw [blobsAt, Function.update_self]

theorem blobsAt_update_of_ne {s' : StoreSection} (hne : s' ≠ s) (m : BlobMap) :
    layout.blobsAt (Function.update blobs s m) s' = layout.blobsAt blobs s' := by
  funext k
  rw [blobsAt, blobsAt, Function.update_of_ne hne]

namespace Mirrors
variable (h : layout.Mirrors d blobs)
include h

theorem touch (touched : List Path) : layout.Mirrors { d with touched := touched } blobs :=
  fun s => (h s).touch touched

/-- A change to one section is one for all, if it leaves the others as they are. -/
theorem update {d' : Disk} {m : BlobMap}
    (hself : (layout.store s).Holds (layout.root s) (fun k : (layout.paths s).Key => m k.1.text) d')
    (hothers : ∀ s', s' ≠ s →
      d'.tree.Represents ((layout.paths s').nodePath (layout.root s')) (layout.blobsAt blobs s'))
    (hcwd : d'.cwd = d.cwd) : layout.Mirrors d' (Function.update blobs s m) := by
  intro s'
  by_cases hs : s' = s
  · subst hs
    rw [blobsAt_update_self]
    exact hself
  · rw [blobsAt_update_of_ne hs]
    refine ⟨hself.faultless, ?_, hothers s' hs⟩
    rw [← (h s').root_eq]
    simp only [Disk.resolve, hcwd]

theorem write {d' : Disk} (hcwd : d'.cwd = d.cwd) (hfaults : d'.Faultless)
    {k : (layout.paths s).Key} {content : Bytes}
    (hnode : ∀ q, d'.tree.node q =
      if q = d.resolve ((layout.store s).fullPath k.1.text) then some (.file content)
      else if q <+: d.resolve ((layout.store s).fullPath k.1.text).dir then some .dir
      else d.tree.node q) :
    layout.Mirrors d' (Function.update blobs s (Function.update (blobs s) k.1.text
      (some content))) := by
  have hheld := (h s).write hcwd hfaults hnode
  rw [LocalBlobstoreConfig.resolve_fullPath_dir _ d ((layout.paths s).ne_nil k.1 k.2),
    (h s).resolve] at hnode
  refine h.update ?_ (fun s' hs => (h s').tree.write_other (fun k' => ?_) hnode) hcwd
  · rw [← update_text]
    exact hheld
  · exact ⟨not_prefix_of_ne hs.symm _ _, not_prefix_of_ne hs _ _⟩

/-- A directory of a section, or the path of a blob, is removed. -/
theorem removeAll {touched : List Path} {names : List Bytes} {m : BlobMap}
    (hm : ∀ k : (layout.paths s).Key,
      m k.1.text = if names <+: k.1.names then none else blobs s k.1.text) :
    layout.Mirrors
      { d with touched := touched, tree := d.tree.removeAll (layout.root s ++ names) }
      (Function.update blobs s m) := by
  refine h.update ⟨(h s).faultless, (h s).root_eq, ?_⟩ (fun s' hs => (h s').tree.removeAll_other
    fun k' => not_prefix_of_ne hs.symm _ _) rfl
  have htree := (h s).tree.removeAll ((layout.paths s).nodePath_apart (layout.root s))
    (layout.root s ++ names)
  simp only [BlobPaths.nodePath, List.prefix_append_right_inj] at htree
  have hmap : (fun k : (layout.paths s).Key => m k.1.text) =
      fun k => if names <+: k.1.names then none else layout.blobsAt blobs s k := by
    funext k
    exact hm k
  rw [hmap]
  exact htree

end Mirrors

/-! ## The local blobstore is a map -/

theorem isBelow_iff {pre : Bytes} {p q : RelativePath} (hpre : movesOf pre = movesOf p.text) :
    IsBelow pre q.text ↔ p.names <+: q.names := by
  unfold IsBelow
  rw [hpre, RelativePath.text, RelativePath.text, movesOf_intercalate p.plain,
    movesOf_intercalate q.plain]
  exact List.prefix_map_iff_of_injective fun _ _ h => Move.into.inj h

section Operations
variable (layout s)

theorem alike_existsBlob (k : (layout.paths s).Key) :
    Alike layout.Mirrors ((layout.store s).existsBlob k.1.text)
      ((sectionStore s).existsBlob k.1.text) := by
  intro d blobs h
  rw [sectionStore, Shelf.run_existsBlob, blob_sectionShelf]
  cases hk : blobs s k.1.text with
  | none =>
    rw [LocalBlobstoreConfig.run_existsBlob_missing ((h s).stat_none hk)]
    exact ⟨rfl, h.touch _⟩
  | some content =>
    rw [(layout.store s).run_existsBlob_of_node ((h s).node_some hk)]
    exact ⟨rfl, h.touch _⟩

theorem alike_headOrRedirectAsGet (k : (layout.paths s).Key) :
    Alike layout.Mirrors ((layout.store s).headOrRedirectAsGet k.1.text)
      ((sectionStore s).headOrRedirectAsGet k.1.text) := by
  intro d blobs h
  rw [sectionStore, Shelf.run_headOrRedirectAsGet, blob_sectionShelf]
  cases hk : blobs s k.1.text with
  | none =>
    rw [LocalBlobstoreConfig.run_headOrRedirectAsGet_missing ((h s).stat_none hk)]
    exact ⟨rfl, h.touch _⟩
  | some content =>
    rw [(layout.store s).run_headOrRedirectAsGet_of_node ((h s).node_some hk)]
    exact ⟨rfl, h.touch _⟩

theorem alike_get (k : (layout.paths s).Key) :
    Alike layout.Mirrors ((layout.store s).get k.1.text) ((sectionStore s).get k.1.text) := by
  intro d blobs h
  rw [sectionStore, Shelf.run_get, blob_sectionShelf]
  cases hk : blobs s k.1.text with
  | none =>
    rw [LocalBlobstoreConfig.run_get_missing ((h s).stat_none hk)]
    exact ⟨rfl, h.touch _⟩
  | some content =>
    rw [(layout.store s).run_get_of_node ((h s).node_some hk)]
    exact ⟨rfl, h.touch _⟩

theorem alike_getOrRedirect (k : (layout.paths s).Key) :
    Alike layout.Mirrors ((layout.store s).getOrRedirect k.1.text)
      ((sectionStore s).getOrRedirect k.1.text) := by
  intro d blobs h
  rw [sectionStore, Shelf.run_getOrRedirect, blob_sectionShelf,
    LocalBlobstoreConfig.getOrRedirect]
  cases hk : blobs s k.1.text with
  | none =>
    rw [run_bind_returned (LocalBlobstoreConfig.run_get_missing ((h s).stat_none hk))]
    exact ⟨rfl, h.touch _⟩
  | some content =>
    rw [run_bind_returned ((layout.store s).run_get_of_node ((h s).node_some hk))]
    exact ⟨rfl, h.touch _⟩

theorem alike_put (k : (layout.paths s).Key) (src : Bytes) :
    Alike layout.Mirrors ((layout.store s).put k.1.text src)
      ((sectionStore s).put k.1.text src) := by
  intro d blobs h
  obtain ⟨hdirs, hfile, hdir, hne⟩ := (h s).writable k
  obtain ⟨d', hrun, hcwd, hfaults, hnode⟩ :=
    (layout.store s).run_put_of_faultless k.1.text src d (h s).faultless hdirs hfile hdir hne
  rw [sectionStore, Shelf.run_put, hrun]
  exact ⟨rfl, h.write hcwd hfaults hnode⟩

theorem alike_copy (src dest : (layout.paths s).Key) :
    Alike layout.Mirrors ((layout.store s).copy src.1.text dest.1.text)
      ((sectionStore s).copy src.1.text dest.1.text) := by
  intro d blobs h
  cases hsrc : (sectionShelf s).blob blobs src.1.text with
  | none =>
    rw [sectionStore, (sectionShelf s).run_copy_none hsrc,
      LocalBlobstoreConfig.run_copy_missing ((h s).stat_none hsrc)]
    exact ⟨rfl, h.touch _⟩
  | some content =>
    obtain ⟨hdirs, hfile, hdir, hne⟩ := (h s).writable dest
    obtain ⟨d', hrun, hcwd, hfaults, hnode⟩ := LocalBlobstoreConfig.run_copy_of_faultless
      (h s).faultless ((h s).node_some hsrc) hdirs hfile hdir hne
    have hself : d.resolve ((layout.store s).fullPath src.1.text) =
        d.resolve ((layout.store s).fullPath dest.1.text) ↔ src.1.text = dest.1.text := by
      rw [(h s).resolve, (h s).resolve]
      constructor
      · intro heq
        rw [((layout.paths s).nodePath_apart (layout.root s)).eq_of_above src dest
          (heq ▸ List.prefix_rfl)]
      · intro heq
        rw [key_text_injective heq]
    rw [sectionStore, (sectionShelf s).run_copy_some hsrc, hrun]
    refine ⟨rfl, h.write hcwd hfaults fun q => ?_⟩
    rw [hnode q, LocalBlobstoreConfig.copied]
    simp only [hself]
    rfl

theorem alike_delete (k : (layout.paths s).Key) :
    Alike layout.Mirrors ((layout.store s).delete k.1.text)
      ((sectionStore s).delete k.1.text) := by
  intro d blobs h
  cases hk : (sectionShelf s).blob blobs k.1.text with
  | none =>
    rw [sectionStore, (sectionShelf s).run_delete_none hk,
      LocalBlobstoreConfig.run_delete_missing ((h s).stat_none hk)]
    exact ⟨rfl, h.touch _⟩
  | some content =>
    have hapart := (layout.paths s).nodePath_apart (layout.root s)
    rw [sectionStore, (sectionShelf s).run_delete_some hk,
      (layout.store s).run_delete_stored ((h s).node_some hk), (h s).resolve,
      if_neg (hapart.ne_nil k)]
    refine ⟨rfl, h.removeAll fun j => ?_⟩
    show Function.update (blobs s) k.1.text none j.1.text = _
    by_cases hj : j = k
    · subst hj
      rw [Function.update_self, if_pos List.prefix_rfl]
    · have hbelow : ¬ k.1.names <+: j.1.names := fun hpre =>
        hj ((layout.paths s).names_apart.eq_of_above k j hpre).symm
      rw [Function.update_of_ne fun heq => hj (key_text_injective heq), if_neg hbelow]

theorem alike_deleteDir_names {pre : Bytes} {p : RelativePath} (hp : p.names ≠ [])
    (hpre : movesOf pre = movesOf p.text) :
    Alike layout.Mirrors ((layout.store s).deleteDir pre) ((sectionStore s).deleteDir pre) := by
  intro d blobs h
  have hjoin : (layout.store s).fullPath pre = (layout.store s).fullPath p.text := by
    rw [LocalBlobstoreConfig.fullPath, LocalBlobstoreConfig.fullPath,
      filepathJoin_eq_walk (layout.store s).pathPrefix_ne,
      filepathJoin_eq_walk (layout.store s).pathPrefix_ne, hpre]
  have hresolve : d.resolve ((layout.store s).fullPath pre) = layout.root s ++ p.names := by
    rw [hjoin, LocalBlobstoreConfig.resolve_fullPath, (h s).root_eq]
  have hroot : layout.root s ++ p.names ≠ [] := fun hnil => hp (List.append_eq_nil_iff.mp hnil).2
  rw [sectionStore, Shelf.run_deleteDir, LocalBlobstoreConfig.run_deleteDir, hresolve, if_neg hroot]
  refine ⟨rfl, h.removeAll fun k => ?_⟩
  exact if_congr (isBelow_iff hpre) rfl rfl

end Operations

/-- **Where nothing fails, the local blobstore of a section is its map.** -/
theorem alikeBlobstores_section (layout : DiskLayout) (s : StoreSection) :
    AlikeBlobstores layout.Mirrors (layout.keys s) blobDirs
      (newLocalBlobstore (layout.store s)) (sectionStore s) where
  existsBlob := by
    rintro _ ⟨k, rfl⟩
    exact alike_existsBlob layout s k
  get := by
    rintro _ ⟨k, rfl⟩
    exact alike_get layout s k
  put := by
    rintro _ ⟨k, rfl⟩ src
    exact alike_put layout s k src
  delete := by
    rintro _ ⟨k, rfl⟩
    exact alike_delete layout s k
  deleteDir := by
    rintro pre ⟨p, hp, hpre⟩
    exact alike_deleteDir_names layout s hp hpre
  headOrRedirectAsGet := by
    rintro _ ⟨k, rfl⟩
    exact alike_headOrRedirectAsGet layout s k
  getOrRedirect := by
    rintro _ ⟨k, rfl⟩
    exact alike_getOrRedirect layout s k
  copy := by
    rintro _ ⟨src, rfl⟩ _ ⟨dest, rfl⟩
    exact alike_copy layout s src dest

end DiskLayout

/-! ## The server on the disk and the server on the maps -/

/-- Settings with local directories for all sections. -/
structure LocalSettings extends Settings where
  layout : DiskLayout
  isLocal : ∀ s, (blobstoreConfig s).blobstoreType = .localDir
  stashKeys : ∀ content,
    ascii "app_bits_cache/" ++ pathFor (formats.digests.key content) ∈ layout.keys .appStash

namespace LocalSettings
variable (settings : LocalSettings) {τ : Type}

/-- Local directories are asked for no URLs. -/
def unsigned {σ : Type} : ResourceSigner σ := ⟨fun _ _ _ => raise .nilDereference⟩

def diskServer (updater : Updater τ) : Server (Disk × τ) :=
  settings.newServer
    (fun s => ⟨(newLocalBlobstore (settings.layout.store s)).zoom (fstPart Disk τ), unsigned⟩)
    (updater.zoom (sndPart Disk τ))

def mapServer (updater : Updater τ) : Server (Blobs × τ) :=
  settings.newServer (fun s => ⟨(sectionStore s).zoom (fstPart Blobs τ), unsigned⟩)
    (updater.zoom (sndPart Blobs τ))

/-- What may be asked for. -/
def shared : SharedKeys := settings.sharedKeys settings.layout.keys fun _ => blobDirs

/-- The disk holds the blobs, and what the updater works on is the same. -/
def Mirrored (s : Disk × τ) (s' : Blobs × τ) : Prop :=
  settings.layout.Mirrors s.1 s'.1 ∧ s.2 = s'.2

theorem alike_onDisk {α : Type} {m : Prog GoError Disk α} {m' : Prog GoError Blobs α}
    (h : Alike settings.layout.Mirrors m m') :
    Alike (settings.Mirrored (τ := τ)) (zoom (fstPart Disk τ) m) (zoom (fstPart Blobs τ) m') :=
  Alike.zoom h (fun _ _ hR => hR.1) fun _ _ _ _ hR hS => ⟨hS, hR.2⟩

theorem alike_onUpdater {α : Type} (m : Prog GoError τ α) :
    Alike settings.Mirrored (zoom (sndPart Disk τ) m) (zoom (sndPart Blobs τ) m) := by
  rintro ⟨d, t⟩ ⟨blobs, -⟩ ⟨hmirrors, rfl⟩
  exact ⟨rfl, hmirrors, rfl⟩

theorem alikeServers_local (updater : Updater τ) :
    AlikeServers settings.Mirrored settings.shared (settings.diskServer updater)
      (settings.mapServer updater) := by
  refine Settings.alikeServers_newServerWith (fun s => ?_) ?_ (fun content => ?_) (fun _ => ?_)
    fun _ _ _ _ => Alike.raise _
  · have h := settings.layout.alikeBlobstores_section s
    exact
      { existsBlob := fun key hkey => settings.alike_onDisk (h.existsBlob key hkey)
        get := fun key hkey => settings.alike_onDisk (h.get key hkey)
        put := fun key hkey src => settings.alike_onDisk (h.put key hkey src)
        delete := fun key hkey => settings.alike_onDisk (h.delete key hkey)
        deleteDir := fun pre hpre => settings.alike_onDisk (h.deleteDir pre hpre)
        headOrRedirectAsGet := fun key hkey =>
          settings.alike_onDisk (h.headOrRedirectAsGet key hkey)
        getOrRedirect := fun key hkey => settings.alike_onDisk (h.getOrRedirect key hkey)
        copy := fun src hsrc dest hdest => settings.alike_onDisk (h.copy src hsrc dest hdest) }
  · exact ⟨fun _ => settings.alike_onUpdater _, fun _ _ _ => settings.alike_onUpdater _,
      fun _ _ => settings.alike_onUpdater _⟩
  · have hlocal := settings.isLocal .appStash
    have hstash := settings.stashKeys content
    rw [Settings.stashKeyPrefix, hlocal]
    exact hstash
  · exact fun _ _ _ => Alike.pure _

/-- **The server on a disk is the server on maps**: it gives the same answers to every run of
requests that ask for blobs of the layout only, and leaves a disk that holds what the maps hold. -/
theorem run_disk (updater : Updater τ) (arrivals : List Arrival)
    (hasks : ∀ arrival ∈ arrivals,
      (settings.diskServer updater).AsksOnly settings.shared arrival.request)
    (host : Host) (d : Disk) (blobs : Blobs) (t : τ) (h : settings.layout.Mirrors d blobs) :
    (runAll (settings.diskServer updater).step arrivals (host, (d, t))).1 =
        (runAll (settings.mapServer updater).step arrivals (host, (blobs, t))).1 ∧
      AlikeServers.SameProcess settings.Mirrored
        (runAll (settings.diskServer updater).step arrivals (host, (d, t))).2
        (runAll (settings.mapServer updater).step arrivals (host, (blobs, t))).2 :=
  (settings.alikeServers_local updater).runAll hasks ⟨rfl, h, rfl⟩

end LocalSettings

/-! ## An empty disk -/

def pathsOfDepth (n : ℕ) (hn : n ≠ 0) : BlobPaths where
  used := {p | p.names.length = n}
  ne_nil p hp hnil := by
    rw [Set.mem_ofPred_eq, hnil] at hp
    exact hn hp.symm
  apart := by
    rintro ⟨names, _⟩ hp ⟨names', _⟩ hq hpre
    obtain rfl : names = names' := hpre.eq_of_length (hp.trans hq.symm)
    rfl

def cacheName : Bytes := ascii "buildpack_cache"

/-- Droplets are at one depth, and the buildpack cache is a directory among them. -/
def dropletPaths : BlobPaths where
  used := {p | p.names.length = 4 ∧ p.names.head? ≠ some cacheName ∨
    p.names.length = 5 ∧ p.names.head? = some cacheName}
  ne_nil p hp hnil := by
    rw [Set.mem_ofPred_eq, hnil] at hp
    simp at hp
  apart := by
    rintro ⟨names, _⟩ hp ⟨names', _⟩ hq hpre
    have hhead : names.head? = names'.head? := by
      obtain ⟨rest, rfl⟩ := hpre
      cases names with
      | nil => simp at hp
      | cons name names => rfl
    have hlength : names.length = names'.length := by
      simp only [Set.mem_ofPred_eq, hhead] at hp hq
      rcases hp with hp | hp
      · rcases hq with hq | hq
        · rw [hp.1, hq.1]
        · exact absurd hq.2 hp.2
      · rcases hq with hq | hq
        · exact absurd hp.2 hq.2
        · rw [hp.1, hq.1]
    obtain rfl : names = names' := hpre.eq_of_length hlength
    rfl

def StoreSection.directory : StoreSection → Bytes
  | packages => ascii "packages"
  | droplets => ascii "droplets"
  | buildpacks => ascii "buildpacks"
  | appStash => ascii "app_stash"

def plainLayout : DiskLayout where
  store s := ⟨slash :: s.directory, List.cons_ne_nil _ _⟩
  root s := [s.directory]
  paths
    | .droplets => dropletPaths
    | .appStash => pathsOfDepth 4 (by decide)
    | _ => pathsOfDepth 3 (by decide)
  apart s s' hne := by
    cases s <;> cases s' <;> first | exact absurd rfl hne | decide

theorem plainLayout_stashKeys (digests : Digests) (content : Bytes) :
    ascii "app_bits_cache/" ++ pathFor (digests.key content) ∈ plainLayout.keys .appStash := by
  have hlen := key_length digests content
  have hhex : ∀ b ∈ digests.key content, IsHexDigit b := fun b hb => hexEncode_digits hb
  have hplain : ∀ name ∈ stashNames digests content, IsPlainName name := by
    intro name hmem
    simp only [stashNames, List.mem_cons, List.not_mem_nil, or_false] at hmem
    rcases hmem with rfl | rfl | rfl | rfl
    · unfold IsPlainName
      decide
    · refine isPlainName_of_hex ?_ fun b hb => hhex b (List.mem_of_mem_take hb)
      exact List.ne_nil_of_length_pos (by rw [List.length_take, hlen]; decide)
    · refine isPlainName_of_hex ?_ fun b hb =>
        hhex b (List.mem_of_mem_drop (List.mem_of_mem_take hb))
      exact List.ne_nil_of_length_pos (by rw [List.length_take, List.length_drop, hlen]; decide)
    · exact isPlainName_of_hex (List.ne_nil_of_length_pos (by rw [hlen]; decide)) hhex
  refine ⟨⟨⟨stashNames digests content, hplain⟩, rfl⟩, ?_⟩
  have hpre : ascii "app_bits_cache/" = ascii "app_bits_cache" ++ [slash] := by decide
  rw [pathFor_of_four_le (by rw [hlen]; decide), hpre]
  simp only [RelativePath.text, stashNames, List.intercalate_cons_cons, List.intercalate_singleton,
    List.append_assoc, List.singleton_append]

def localSettings : LocalSettings where
  toSettings := packageSettings
  layout := plainLayout
  isLocal _ := rfl
  stashKeys := plainLayout_stashKeys helloDigests

theorem mirrors_blankDisk : plainLayout.Mirrors blankDisk fun _ _ => none := by
  intro s
  refine ⟨fun _ => rfl, by cases s <;> decide, ?_⟩
  refine FileTree.represents_none (plainLayout.paths s).names_apart (FileTree.blocked_empty _) ?_
  intro q hpre hne
  refine if_neg fun hlength => ?_
  obtain rfl := List.length_eq_zero_iff.mp hlength
  exact absurd hpre (by cases s <;> decide)

/-- An upload of buildpack `java`. -/
def putBuildpackJava : Arrival where
  now := 0
  requestId := 0
  request :=
    { host := ascii "internal"
      method := .put
      url := ⟨ascii "/buildpacks/java", []⟩
      contentLength := 0
      header := fun _ => ascii "multipart/form-data"
      body := .whole []
      form := .ok ⟨[], [(ascii "buildpack", ascii "zip")]⟩ }

theorem routed_putBuildpackJava : routeRequest plainRootMux.toMux putBuildpackJava.request.routed =
    some (.resource .buildpack .addOrReplace, ascii "java") := by decide

def deleteBuildpackCache : Arrival where
  now := 0
  requestId := 1
  request :=
    { host := ascii "internal"
      method := .delete
      url := ⟨ascii "/buildpack_cache/entries", []⟩
      contentLength := 0
      header := fun _ => []
      body := .whole []
      form := .error .newNotFoundError }

theorem routed_deleteBuildpackCache :
    routeRequest plainRootMux.toMux deleteBuildpackCache.request.routed =
      some (.resource .buildpackCache .deleteDir, []) := by decide

/-- A request without a file or a value for fingerprints. -/
theorem sends_whole {request : Request} {text content : Bytes} (hbody : request.body = .whole text)
    (hlength : request.contentLength.toNat = text.length)
    (hfile : ∀ file, request.formFile (ascii "resources") ≠ .ok (some file))
    (hvalue : request.formValue (ascii "resources") = []) (h : request.Sends content) :
    content = text ∨ content = [] := by
  cases h with
  | body hlimited hread =>
    rename_i maxBodySizeLimit request'
    have hbody' : request'.body.delivered = text := by
      unfold Request.limited at hlimited
      split at hlimited
      · cases hlimited
        simp [hbody, Body.delivered, Body.whole]
      · split at hlimited
        · cases hlimited
        · cases hlimited
          simp [hbody, Body.limit, hlength, Body.delivered, Body.whole]
    unfold Body.readAll at hread
    split at hread
    · cases hread
    · cases hread
      exact .inl hbody'
  | file hread => exact absurd hread (hfile _)
  | value => exact .inr hvalue

def buildpackJava : RelativePath :=
  ⟨[ascii "ja", ascii "va", ascii "java"], by unfold IsPlainName; decide⟩

def cacheDirectory : RelativePath := ⟨[cacheName], by unfold IsPlainName; decide⟩

/-- A request without fingerprints asks for what its route says. -/
theorem asksOnly_of_routed {σ : Type} {server : Server σ} (hmux : server.mux = plainRootMux)
    {shared : SharedKeys} {request : IncomingRequest}
    (hsends : ∀ content, request.toRequest.Sends content →
      server.formats.json.unmarshal content = none)
    {kind : ResourceKind} {operation : ResourceOperation} {identifier : Bytes}
    (hrouted : routeRequest plainRootMux.toMux request.routed =
      some (.resource kind operation, identifier))
    (hasks : operation.AsksOnly server.formats (shared.keys kind) (shared.dirs kind)
      request.toRequest identifier) : server.AsksOnly shared request := by
  refine ⟨fun content hcontent fingerprints hjson => ?_, fun kind operation identifier hroute => ?_⟩
  · rw [hsends content hcontent] at hjson
    cases hjson
  · rw [hmux, hrouted] at hroute
    obtain ⟨⟨rfl, rfl⟩, rfl⟩ := Prod.mk.inj (Option.some.inj hroute)
    exact hasks

def javaRun : List Arrival := [putBuildpackJava, deleteBuildpackCache]

theorem unmarshal_of_sends {request : Request} {text : Bytes} (hbody : request.body = .whole text)
    (hlength : request.contentLength.toNat = text.length) (htext : plainJson.unmarshal text = none)
    (hfile : ∀ file, request.formFile (ascii "resources") ≠ .ok (some file))
    (hvalue : request.formValue (ascii "resources") = []) (content : Bytes)
    (h : request.Sends content) : plainJson.unmarshal content = none := by
  rcases sends_whole hbody hlength hfile hvalue h with rfl | rfl
  · exact htext
  · rfl

theorem asksOnly_javaRun {σ : Type} {server : Server σ} (hmux : server.mux = plainRootMux)
    (hformats : server.formats = plainFormats) {shared : SharedKeys}
    (hkey : ascii "java" ∈ shared.keys .buildpack) (hdir : [] ∈ shared.dirs .buildpackCache)
    (arrival : Arrival) (hmem : arrival ∈ javaRun) : server.AsksOnly shared arrival.request := by
  simp only [javaRun, List.mem_cons, List.not_mem_nil, or_false] at hmem
  rcases hmem with rfl | rfl
  · refine asksOnly_of_routed hmux ?_ routed_putBuildpackJava hkey
    exact hformats ▸ unmarshal_of_sends rfl rfl rfl (fun file h => by cases h) rfl
  · refine asksOnly_of_routed hmux ?_ routed_deleteBuildpackCache hdir
    exact hformats ▸ unmarshal_of_sends rfl rfl rfl (fun file h => by cases h) rfl

theorem java_mem_shared : ascii "java" ∈ localSettings.shared.keys .buildpack :=
  ⟨⟨buildpackJava, rfl⟩, by decide⟩

theorem cache_mem_shared : [] ∈ localSettings.shared.dirs .buildpackCache :=
  ⟨cacheDirectory, List.cons_ne_nil _ _, by decide⟩

def blankProcess : Process (Disk × PUnit) := ((Env.fresh ()).host, (blankDisk, PUnit.unit))

def emptyProcess : Process (Blobs × PUnit) :=
  ((Env.fresh ()).host, ((fun _ _ => none), PUnit.unit))

theorem run_disk_java :
    (runAll (localSettings.diskServer nullUpdater).step javaRun blankProcess).1 =
        (runAll (localSettings.mapServer nullUpdater).step javaRun emptyProcess).1 ∧
      AlikeServers.SameProcess localSettings.Mirrored
        (runAll (localSettings.diskServer nullUpdater).step javaRun blankProcess).2
        (runAll (localSettings.mapServer nullUpdater).step javaRun emptyProcess).2 :=
  localSettings.run_disk nullUpdater javaRun
    (asksOnly_javaRun rfl rfl java_mem_shared cache_mem_shared) _ _ _ _ mirrors_blankDisk

end BitsService
