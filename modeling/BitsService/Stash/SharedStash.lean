import BitsService.Lib.Interference
import BitsService.Stash.Receipts

/-! # An app stash that many requests use at once

The requests to the app stash and the uploads of packages run side by side. A call to the stash
takes effect at once, as a call to an object store does, and between two calls of a request any
number of calls of others may come. No request asks for a deletion, and whatever it puts it puts
under its own key. -/
namespace BitsService
open GoLib GoLib.Effect GoLib.Interference GoLib.Interleaving
set_option autoImplicit false

/-! ## Calls -/

inductive StashCall where
  | existsBlob (key : Bytes)
  | get (key : Bytes)
  | put (key src : Bytes)
  | delete (key : Bytes)
  | deleteDir (pre : Bytes)
  deriving DecidableEq

variable {σ τ ι : Type}

def StashCall.effect (blobstore : NoRedirectBlobstore σ) : StashCall → σ → σ
  | .existsBlob key, s => ((blobstore.existsBlob key).run s).2
  | .get key, s => ((blobstore.get key).run s).2
  | .put key src, s => ((blobstore.put key src).run s).2
  | .delete key, s => ((blobstore.delete key).run s).2
  | .deleteDir pre, s => ((blobstore.deleteDir pre).run s).2

/-- A call that reads, or that puts a content under its own key. -/
def StashCall.Stashes (digests : Digests) : StashCall → Prop
  | .existsBlob _ => True
  | .get _ => True
  | .put key src => key = digests.key src
  | .delete _ => False
  | .deleteDir _ => False

section Along
variable [DecidableEq ι]

/-- The stash as one request finds it. -/
def NoRedirectBlobstore.along (blobstore : NoRedirectBlobstore σ) (me : ι) :
    NoRedirectBlobstore (SharedService ι StashCall σ) where
  existsBlob key :=
    Interference.along (StashCall.effect blobstore) me (.existsBlob key) (blobstore.existsBlob key)
  get key := Interference.along (StashCall.effect blobstore) me (.get key) (blobstore.get key)
  put key src :=
    Interference.along (StashCall.effect blobstore) me (.put key src) (blobstore.put key src)
  delete key :=
    Interference.along (StashCall.effect blobstore) me (.delete key) (blobstore.delete key)
  deleteDir pre :=
    Interference.along (StashCall.effect blobstore) me (.deleteDir pre) (blobstore.deleteDir pre)

/-! ## Requests side by side -/

/-- What the requests have in common: the formats, the handler of the app stash, and what an upload
of a package needs beside the stash. -/
structure StashDeployment (σ τ : Type) where
  formats : Formats
  appStash : AppStashHandler σ
  packageStore : Blobstore τ
  updater : Updater τ
  maxBodySizeLimit : ℕ

/-- A request, with the process that handles it and what it alone finds behind the package store and
the updater. -/
structure StashParty (τ : Type) where
  request : StashRequest
  host : Host
  own : τ

def StashParty.begins (party : StashParty τ) (s₀ : σ) (history : List (ι × StashCall)) :
    Env (SharedService ι StashCall σ × τ) :=
  ⟨party.host, (.start s₀ history, party.own), .empty⟩

namespace StashDeployment
variable (d : StashDeployment σ τ)

def stashOf (me : ι) : NoRedirectBlobstore (SharedService ι StashCall σ × τ) :=
  (d.appStash.blobstore.along me).zoom (fstPart _ _)

def appStashOf (me : ι) : AppStashHandler (SharedService ι StashCall σ × τ) :=
  ⟨d.stashOf me, d.appStash.maxBodySizeLimit, d.appStash.minimumSize, d.appStash.maximumSize⟩

def packagesOf (me : ι) : ResourceHandler (SharedService ι StashCall σ × τ) :=
  ⟨d.packageStore.zoom (sndPart _ _), d.stashOf me, ascii "package", d.maxBodySizeLimit,
    d.updater.zoom (sndPart _ _), d.appStash.minimumSize, d.appStash.maximumSize⟩

/-- What a request leaves behind: its calls come where the history has them, and what it asks for
after those comes when the history is over. -/
def ends (party : StashParty τ) (s₀ : σ) (history : List (ι × StashCall)) (me : ι) :
    Env (SharedService ι StashCall σ × τ) :=
  ((serve d.formats (d.appStashOf me) (d.packagesOf me) party.request).run
    (party.begins s₀ history)).2

def calls (party : StashParty τ) (s₀ : σ) (history : List (ι × StashCall)) (me : ι) :
    List StashCall := (d.ends party s₀ history me).ext.1.made

/-- A history of requests side by side: each has come some way along the calls that it makes when
it runs along this history. -/
def Concurrent (parties : ι → StashParty τ) (s₀ : σ) (history : List (ι × StashCall)) : Prop :=
  Interleaves (fun i => d.calls (parties i) s₀ history i) history

/-! ## What every request guarantees -/

theorem keeps_stashes (me : ι) {α : Type} (call : StashCall)
    (hcall : call.Stashes d.formats.digests) (m : Prog GoError σ α) :
    Keeps (fun s : SharedService ι StashCall σ × τ => ∀ c ∈ s.1.made, c.Stashes d.formats.digests)
      (zoom (fstPart _ _)
        (Interference.along (StashCall.effect d.appStash.blobstore) me call m)) :=
  Keeps.zoom (keeps_made hcall m) (fun _ h => h) fun _ _ _ h => h

theorem keptByStash_made (me : ι) : KeptByStash d.formats.digests (d.stashOf me)
    fun s => ∀ c ∈ s.1.made, c.Stashes d.formats.digests where
  existsBlob key := d.keeps_stashes me (.existsBlob key) trivial _
  get key := d.keeps_stashes me (.get key) trivial _
  put content := d.keeps_stashes me (.put (d.formats.digests.key content) content) rfl _

theorem keptByPackages_made (me : ι) : KeptByPackages (d.packagesOf (ι := ι) me)
    fun s => ∀ c ∈ s.1.made, c.Stashes d.formats.digests where
  put _ _ := fun _ h => h
  notifyProcessingUpload _ := fun _ h => h
  notifyUploadSucceeded _ _ _ := fun _ h => h
  notifyUploadFailed _ _ := fun _ h => h

theorem stashes_of_calls (party : StashParty τ) (s₀ : σ) (history : List (ι × StashCall)) (me : ι) :
    ∀ c ∈ d.calls party s₀ history me, c.Stashes d.formats.digests := by
  have hkeeps : Keeps (fun w : Env (SharedService ι StashCall σ × τ) =>
      ∀ c ∈ w.ext.1.made, c.Stashes d.formats.digests)
      (serve d.formats (d.appStashOf me) (d.packagesOf me) party.request) :=
    keeps_serve (d.keptByStash_made me) (d.keptByStash_made me) (d.keptByPackages_made me)
      party.request
  exact hkeeps (party.begins s₀ history) fun c hc => absurd hc List.not_mem_nil

/-- **No step of a history is a deletion, and every put is under the key of its content**, whatever
the requests are and however they meet. -/
theorem Concurrent.stashes {d : StashDeployment σ τ} {parties : ι → StashParty τ} {s₀ : σ}
    {history : List (ι × StashCall)} (h : d.Concurrent parties s₀ history) :
    ∀ step ∈ history, step.2.Stashes d.formats.digests :=
  guaranteed_of_interleaves h fun i => d.stashes_of_calls (parties i) s₀ history i

end StashDeployment

end Along

/-! ## A stash that is a map -/

/-- In the states `I` nothing fails, and the stash is a map. -/
structure AtomicStash (blobstore : NoRedirectBlobstore σ) (I : σ → Prop)
    (held : σ → Bytes → Option Bytes) : Prop where
  existsBlob : ∀ key s, I s → ∃ s', (blobstore.existsBlob key).run s =
    (.returned (.ok (held s key).isSome), s') ∧ I s' ∧ held s' = held s
  get : ∀ key s, I s → ∃ s', (blobstore.get key).run s =
    (.returned (heldReads (held s) key), s') ∧ I s' ∧ held s' = held s
  put : ∀ key src s, I s → ∃ s', (blobstore.put key src).run s = (.returned (.ok ()), s') ∧ I s' ∧
    held s' = Function.update (held s) key (some src)

theorem atomicStash_mapBlobstore :
    AtomicStash mapBlobstore MapStore.Faultless MapStore.contents where
  existsBlob key s hs := ⟨s, rfl, hs, rfl⟩
  get key s hs := by
    refine ⟨{ s with getScript := s.getScript.tail }, ?_, ⟨by rw [hs.1]; rfl, hs.2⟩, rfl⟩
    rw [run_mapBlobstore_get, hs.1, heldReads]
    cases s.contents key with
    | none => rfl
    | some stored => rfl
  put key src s hs :=
    ⟨_, run_mapBlobstore_put_ok (by rw [hs.2]; rfl) key src, ⟨hs.1, by rw [hs.2]; rfl⟩, rfl⟩

namespace AtomicStash
variable {blobstore : NoRedirectBlobstore σ} {I : σ → Prop} {held : σ → Bytes → Option Bytes}
  {digests : Digests} {s : σ}

/-- The stash has each of the contents under its key. -/
def Has (digests : Digests) (I : σ → Prop) (held : σ → Bytes → Option Bytes)
    (contents : List Bytes) (s : σ) : Prop :=
  I s ∧ ∀ content ∈ contents, held s (digests.key content) = some content

/-- Nothing that is put has the SHA-1 of one of the contents but that content. -/
def ToldFrom (digests : Digests) (contents : List Bytes) : StashCall → Prop
  | .put _ src => ∀ content ∈ contents, digests.key src = digests.key content → src = content
  | _ => True

/-- A key that was in the stash, or has been put since. -/
def Known (held : σ → Bytes → Option Bytes) (s : σ) (steps : List (ι × StashCall)) (key : Bytes) :
    Prop :=
  (held s key).isSome = true ∨ ∃ i src, (i, .put key src) ∈ steps

variable (hstash : AtomicStash blobstore I held)
include hstash

theorem effect_reads {call : StashCall} (hs : I s)
    (hcall : (∃ key, call = .existsBlob key) ∨ ∃ key, call = .get key) :
    I (call.effect blobstore s) ∧ held (call.effect blobstore s) = held s := by
  rcases hcall with ⟨key, rfl⟩ | ⟨key, rfl⟩
  · obtain ⟨s', hrun, hs', hheld⟩ := hstash.existsBlob key s hs
    rw [StashCall.effect, hrun]
    exact ⟨hs', hheld⟩
  · obtain ⟨s', hrun, hs', hheld⟩ := hstash.get key s hs
    rw [StashCall.effect, hrun]
    exact ⟨hs', hheld⟩

theorem effect_put (hs : I s) (key src : Bytes) :
    I ((StashCall.put key src).effect blobstore s) ∧
      held ((StashCall.put key src).effect blobstore s) =
        Function.update (held s) key (some src) := by
  obtain ⟨s', hrun, hs', hheld⟩ := hstash.put key src s hs
  rw [StashCall.effect, hrun]
  exact ⟨hs', hheld⟩

theorem effect_keeps {call : StashCall} (hcall : call.Stashes digests) (hs : I s) :
    I (call.effect blobstore s) := by
  cases call with
  | existsBlob key => exact (hstash.effect_reads hs (.inl ⟨key, rfl⟩)).1
  | get key => exact (hstash.effect_reads hs (.inr ⟨key, rfl⟩)).1
  | put key src => exact (hstash.effect_put hs key src).1
  | delete key => exact hcall.elim
  | deleteDir pre => exact hcall.elim

/-- A call that stashes something else leaves the contents where they are. -/
theorem effect_has {contents : List Bytes} {call : StashCall} (hcall : call.Stashes digests)
    (htold : ToldFrom digests contents call) (hs : Has digests I held contents s) :
    Has digests I held contents (call.effect blobstore s) := by
  refine ⟨hstash.effect_keeps hcall hs.1, fun content hcontent => ?_⟩
  cases call with
  | existsBlob key => rw [(hstash.effect_reads hs.1 (.inl ⟨key, rfl⟩)).2, hs.2 content hcontent]
  | get key => rw [(hstash.effect_reads hs.1 (.inr ⟨key, rfl⟩)).2, hs.2 content hcontent]
  | put key src =>
    obtain rfl : key = digests.key src := hcall
    rw [(hstash.effect_put hs.1 _ src).2]
    by_cases hkey : digests.key src = digests.key content
    · rw [hkey, Function.update_self, htold content hcontent hkey]
    · rw [Function.update_of_ne (Ne.symm hkey), hs.2 content hcontent]
  | delete key => exact hcall.elim
  | deleteDir pre => exact hcall.elim

/-- What has been put is there when the steps have been taken. -/
theorem after_has {contents : List Bytes} {steps : List (ι × StashCall)} (hs : I s)
    (hsteps : ∀ step ∈ steps, step.2.Stashes digests ∧ ToldFrom digests contents step.2)
    (hput : ∀ content ∈ contents, held s (digests.key content) = some content ∨
      ∃ i, (i, .put (digests.key content) content) ∈ steps) :
    Has digests I held contents (after (StashCall.effect blobstore) steps s) := by
  refine ⟨after_keeps (fun step hstep s => hstash.effect_keeps (hsteps step hstep).1) hs,
    fun content hcontent => ?_⟩
  have htold : ∀ step ∈ steps, ToldFrom digests [content] step.2 := by
    intro step hstep
    have hall := (hsteps step hstep).2
    cases hcall : step.2 with
    | put key src =>
      rw [hcall] at hall
      intro c hc hkey
      rw [List.mem_singleton.mp hc] at hkey ⊢
      exact hall content hcontent hkey
    | _ => trivial
  have hrest : ∀ (rest : List (ι × StashCall)), (∀ step ∈ rest, step ∈ steps) → ∀ s,
      Has digests I held [content] s →
        Has digests I held [content] (after (StashCall.effect blobstore) rest s) :=
    fun rest hsub s => after_keeps fun step hstep s =>
      hstash.effect_has (hsteps step (hsub step hstep)).1 (htold step (hsub step hstep))
  have hhas : Has digests I held [content] (after (StashCall.effect blobstore) steps s) := by
    rcases hput content hcontent with hheld | ⟨i, hmem⟩
    · refine hrest steps (fun _ h => h) s ⟨hs, fun c hc => ?_⟩
      rw [List.mem_singleton.mp hc, hheld]
    · obtain ⟨before, rest, rfl⟩ := List.append_of_mem hmem
      rw [after_append]
      refine hrest rest (fun step h => by simp [h]) _ ?_
      have hbefore : I (after (StashCall.effect blobstore) before s) :=
        after_keeps (fun step hstep s => hstash.effect_keeps
          (hsteps step (List.mem_append_left _ hstep)).1) hs
      obtain ⟨hI, hheld⟩ := hstash.effect_put hbefore (digests.key content) content
      refine ⟨hI, fun c hc => ?_⟩
      rw [List.mem_singleton.mp hc, hheld, Function.update_self]
  exact hhas.2 content (List.mem_singleton_self content)

theorem effect_isSome_iff {call : StashCall} (hcall : call.Stashes digests) (hs : I s)
    (key : Bytes) : (held (call.effect blobstore s) key).isSome = true ↔
      (held s key).isSome = true ∨ ∃ src, call = .put key src := by
  cases call with
  | existsBlob key => simp [(hstash.effect_reads hs (.inl ⟨key, rfl⟩)).2]
  | get key => simp [(hstash.effect_reads hs (.inr ⟨key, rfl⟩)).2]
  | put k src =>
    rw [(hstash.effect_put hs k src).2]
    by_cases hkey : key = k
    · subst hkey
      simp
    · simp [Function.update_of_ne hkey, Ne.symm hkey]
  | delete key => exact hcall.elim
  | deleteDir pre => exact hcall.elim

theorem after_isSome_iff {steps : List (ι × StashCall)}
    (hsteps : ∀ step ∈ steps, step.2.Stashes digests) (hs : I s) (key : Bytes) :
    (held (after (StashCall.effect blobstore) steps s) key).isSome = true ↔
      Known held s steps key := by
  induction steps generalizing s with
  | nil => simp [after, Known]
  | cons step steps ih =>
    obtain ⟨hstep, hrest⟩ := List.forall_mem_cons.mp hsteps
    have hafter := ih hrest (hstash.effect_keeps hstep hs)
    rw [after, List.foldl_cons, ← after, hafter, Known, Known,
      hstash.effect_isSome_iff hstep hs key, or_assoc]
    refine or_congr_right ⟨?_, ?_⟩
    · rintro (⟨src, hsrc⟩ | ⟨i, src, hmem⟩)
      · exact ⟨step.1, src, by rw [← hsrc]; exact List.mem_cons_self⟩
      · exact ⟨i, src, List.mem_cons_of_mem _ hmem⟩
    · rintro ⟨i, src, hmem⟩
      rcases List.mem_cons.mp hmem with rfl | hmem
      · exact .inl ⟨src, rfl⟩
      · exact .inr ⟨i, src, hmem⟩

end AtomicStash

end BitsService
