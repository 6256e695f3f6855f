import BitsService.Blobstores.ObjectStores
import BitsService.Lib.Base64
import BitsService.Lib.Reader

/-! # Uploading to Azure, block by block

`Put` creates an empty blob, stages a block for each `Read` that delivers something, and commits
the list of the blocks. -/
namespace BitsService
open GoLib.Effect GoLib.Reading
set_option autoImplicit false

/-- A block of a blob; a blob is the list of its committed blocks. -/
structure Block where
  id : Bytes
  data : Bytes
  deriving DecidableEq

def blobContent (blob : List Block) : Bytes := (blob.map Block.data).flatten

/-- A container: the committed blobs, the blocks staged for each path, by their ids, the outcomes
of the coming writes, which succeed once these have run out, and whether the container is there. -/
structure AzureContainer where
  name : Bytes
  blobs : Bytes → Option (List Block)
  staged : Bytes → Bytes → Option Bytes
  faults : List (Option GoError)
  found : Result Bool

namespace AzureContainer

/-- A write that fails changes nothing. -/
def write (effect : AzureContainer → Result AzureContainer) :
    Prog GoError AzureContainer (Result Unit) := fun c =>
  match c.faults.headD none with
  | some e => (.returned (.error e), { c with faults := c.faults.tail })
  | none =>
    match effect { c with faults := c.faults.tail } with
    | .error e => (.returned (.error e), { c with faults := c.faults.tail })
    | .ok c' => (.returned (.ok ()), c')

def createBlockBlob (path : Bytes) : Prog GoError AzureContainer (Result Unit) :=
  write fun c => .ok { c with blobs := Function.update c.blobs path (some []) }

def putBlock (path id data : Bytes) : Prog GoError AzureContainer (Result Unit) :=
  write fun c => .ok { c with
    staged := Function.update c.staged path (Function.update (c.staged path) id (some data)) }

def stagedBlock (c : AzureContainer) (path id : Bytes) : Option Block :=
  (c.staged path id).map (Block.mk id)

def putBlockList (path : Bytes) (ids : List Bytes) : Prog GoError AzureContainer (Result Unit) :=
  write fun c =>
    match ids.mapM (c.stagedBlock path) with
    | none => .error (.sys (ascii "InvalidBlockList"))
    | some blocks => .ok { c with
        blobs := Function.update c.blobs path (some blocks)
        staged := Function.update c.staged path fun _ => none }

/-! ## Writes that succeed -/

def Faultless (c : AzureContainer) : Prop := ∀ f ∈ c.faults, f = none

theorem Faultless.head {c : AzureContainer} (h : c.Faultless) : c.faults.headD none = none := by
  unfold Faultless at h
  cases hf : c.faults with
  | nil => rfl
  | cons f faults => exact h f (by simp [hf])

theorem Faultless.tail {c : AzureContainer} (h : c.Faultless) : ∀ f ∈ c.faults.tail, f = none :=
  fun f hf => h f (List.mem_of_mem_tail hf)

theorem run_write_ok {c c' : AzureContainer} {effect : AzureContainer → Result AzureContainer}
    (hhead : c.faults.headD none = none)
    (heffect : effect { c with faults := c.faults.tail } = .ok c') :
    (write effect).run c = (.returned (.ok ()), c') := by
  unfold write Prog.run
  simp only [hhead, heffect]

theorem run_write_failed {c : AzureContainer} {effect : AzureContainer → Result AzureContainer}
    {e : GoError} (hhead : c.faults.headD none = some e) :
    (write effect).run c = (.returned (.error e), { c with faults := c.faults.tail }) := by
  unfold write Prog.run
  simp only [hhead]

theorem run_createBlockBlob {c : AzureContainer} (path : Bytes)
    (hhead : c.faults.headD none = none) :
    (createBlockBlob path).run c = (.returned (.ok ()), { c with
      blobs := Function.update c.blobs path (some [])
      faults := c.faults.tail }) :=
  run_write_ok hhead rfl

theorem run_putBlock {c : AzureContainer} (path id data : Bytes)
    (hhead : c.faults.headD none = none) :
    (putBlock path id data).run c = (.returned (.ok ()), { c with
      staged := Function.update c.staged path (Function.update (c.staged path) id (some data))
      faults := c.faults.tail }) :=
  run_write_ok hhead rfl

theorem run_putBlockList {c : AzureContainer} {path : Bytes} {ids : List Bytes}
    {blocks : List Block} (hhead : c.faults.headD none = none)
    (hblocks : ids.mapM (c.stagedBlock path) = some blocks) :
    (putBlockList path ids).run c = (.returned (.ok ()), { c with
      blobs := Function.update c.blobs path (some blocks)
      staged := Function.update c.staged path fun _ => none
      faults := c.faults.tail }) := by
  refine run_write_ok hhead ?_
  have hstaged : ids.mapM (stagedBlock { c with faults := c.faults.tail } path) = some blocks :=
    hblocks
  simp only [hstaged]

end AzureContainer

namespace Azure
open AzureContainer

/-- `handleError`, for a blob that is not there. -/
def notFoundError (c : AzureContainer) (path : Bytes) : GoError :=
  match c.found with
  | .error e => .wrapped (ascii "Path " ++ path) e
  | .ok false => .sys (ascii "Container does not exist '" ++ c.name)
  | .ok true => .newNotFoundError

def existsBlob (path : Bytes) : Prog GoError AzureContainer (Result Bool) := fun c =>
  (.returned (.ok (c.blobs path).isSome), c)

def get (path : Bytes) : Prog GoError AzureContainer (Result Body) := fun c =>
  (.returned (match c.blobs path with
    | some blob => .ok (.whole (blobContent blob))
    | none => .error (notFoundError c path)), c)

/-! ## Put -/

section Put
variable {ρ : Type} (src : Reader ρ UInt8 GoError) (putBlockSize : ℕ) (path : Bytes)

def blockID (i : ℕ) : Bytes := GoLib.Base64.encode (formatPadded 5 i)

/-- The block of one round, unless nothing was read. -/
def uploadBlock (i : ℕ) (data : Bytes) (uncommittedBlocksList : List Bytes) :
    Prog GoError AzureContainer (Result (List Bytes)) :=
  if data = [] then pure (.ok uncommittedBlocksList)
  else orReturn (putBlock path (blockID i) data) (.wrapped (ascii "put block failed: " ++ path))
    fun _ => pure (.ok (uncommittedBlocksList ++ [blockID i]))

/-- The loop over the source, `none` when the fuel is used up. The end of the source is told by the
text of the error. -/
def putBlocks : ℕ → ℕ → ρ → List Bytes →
    Prog GoError AzureContainer (Option (Result (List Bytes)))
  | 0, _, _, _ => pure none
  | fuel + 1, i, s, uncommittedBlocksList =>
    match src.error putBlockSize s with
    | none => do
      match ← uploadBlock path i (src.data putBlockSize s) uncommittedBlocksList with
      | .error e => pure (some (.error e))
      | .ok uncommittedBlocksList =>
        putBlocks fuel (i + 1) (src.next putBlockSize s) uncommittedBlocksList
    | some e =>
      if e.text = ascii "EOF" then do
        let r ← uploadBlock path i (src.data putBlockSize s) uncommittedBlocksList
        pure (some r)
      else pure (some (.error (.wrapped (ascii "put block failed: " ++ path) e)))

/-- What comes before the commit. -/
def stageBlocks (fuel : ℕ) (s : ρ) :
    Prog GoError AzureContainer (Option (Result (List Bytes))) := do
  match ← createBlockBlob path with
  | .error e => do
    let c ← getState
    pure (some (.error (.wrapped (ascii "create block blob failed. container: " ++ c.name ++
      ascii ", path: " ++ path) e)))
  | .ok () => putBlocks src putBlockSize path fuel 0 s []

def put (fuel : ℕ) (s : ρ) : Prog GoError AzureContainer (Option (Result Unit)) := do
  match ← stageBlocks src putBlockSize path fuel s with
  | none => pure none
  | some (.error e) => pure (some (.error e))
  | some (.ok uncommittedBlocksList) => do
    match ← putBlockList path uncommittedBlocksList with
    | .error e => pure (some (.error (.wrapped (ascii "put block list failed: " ++ path) e)))
    | .ok () => pure (some (.ok ()))

end Put

/-! ## Block ids -/

theorem blockID_injective : Function.Injective blockID := by
  intro i j h
  exact formatPadded_injective 5 (GoLib.Base64.encode_injective h)

theorem blockID_length {i : ℕ} (h : i < 100000) : (blockID i).length = 8 := by
  rw [blockID, GoLib.Base64.encode_length, formatPadded_length (by omega)]

/-! ## A source that comes to an end -/

variable {ρ : Type} {src : Reader ρ UInt8 GoError} {putBlockSize : ℕ} {path : Bytes}

/-- The blocks that a run of rounds has staged: they hold what was read, under ids that increase
from the round `i` on and end before the round `last`. -/
structure Stages (path : Bytes) (c c' : AzureContainer) (i last : ℕ) (content : Bytes)
    (blocks : List Block) (rounds : List ℕ) : Prop where
  content_eq : blobContent blocks = content
  ids : blocks.map Block.id = rounds.map blockID
  increasing : rounds.Pairwise (· < ·)
  bounds : ∀ j ∈ rounds, i ≤ j ∧ j < last
  staged : ∀ b ∈ blocks, c'.staged path b.id = some b.data
  earlier : ∀ j < i, c'.staged path (blockID j) = c.staged path (blockID j)
  blobs : c'.blobs = c.blobs
  faultless : c'.Faultless

theorem run_uploadBlock {c : AzureContainer} (hc : c.Faultless) (i : ℕ) (data : Bytes)
    (ids : List Bytes) :
    ∃ c' blocks rounds, (uploadBlock path i data ids).run c =
        (.returned (.ok (ids ++ blocks.map Block.id)), c') ∧
      Stages path c c' i (i + 1) data blocks rounds := by
  unfold uploadBlock
  by_cases hdata : data = []
  · rw [if_pos hdata]
    refine ⟨c, [], [], by simp, ?_⟩
    exact ⟨by simp [blobContent, hdata], rfl, List.Pairwise.nil, by simp, by simp,
      fun _ _ => rfl, rfl, hc⟩
  · rw [if_neg hdata]
    refine ⟨_, [⟨blockID i, data⟩], [i],
      run_orReturn_ok (run_putBlock path (blockID i) data hc.head), ?_⟩
    constructor
    · simp [blobContent]
    · rfl
    · exact List.pairwise_singleton _ i
    · intro j hj
      obtain rfl := List.mem_singleton.mp hj
      omega
    · intro b hb
      obtain rfl := List.mem_singleton.mp hb
      simp
    · intro j hj
      have hne : blockID j ≠ blockID i := fun heq => by
        have hij := blockID_injective heq
        omega
      simp [hne]
    · rfl
    · exact hc.tail

theorem Stages.append {c c₁ c₂ : AzureContainer} {i mid last : ℕ} {content content' : Bytes}
    {blocks blocks' : List Block} {rounds rounds' : List ℕ} (hle : i ≤ mid) (hlast : mid ≤ last)
    (h : Stages path c c₁ i mid content blocks rounds)
    (h' : Stages path c₁ c₂ mid last content' blocks' rounds') :
    Stages path c c₂ i last (content ++ content') (blocks ++ blocks') (rounds ++ rounds') := by
  constructor
  · rw [← h.content_eq, ← h'.content_eq]
    simp [blobContent]
  · rw [List.map_append, List.map_append, h.ids, h'.ids]
  · refine List.pairwise_append.mpr ⟨h.increasing, h'.increasing, fun j hj k hk => ?_⟩
    have hj' := h.bounds j hj
    have hk' := h'.bounds k hk
    omega
  · intro j hj
    rcases List.mem_append.mp hj with hj | hj
    · have hj' := h.bounds j hj
      omega
    · have hj' := h'.bounds j hj
      omega
  · intro b hb
    rcases List.mem_append.mp hb with hb | hb
    · have hid : b.id ∈ rounds.map blockID := h.ids ▸ List.mem_map_of_mem hb
      obtain ⟨j, hj, heq⟩ := List.mem_map.mp hid
      rw [← heq, h'.earlier j (h.bounds j hj).2, heq]
      exact h.staged b hb
    · exact h'.staged b hb
  · intro j hj
    rw [h'.earlier j (by omega), h.earlier j hj]
  · rw [h'.blobs, h.blobs]
  · exact h'.faultless

/-- The loop stages the source, whatever the reads that it comes in, and ends with it. -/
theorem run_putBlocks {s : ρ} {content : Bytes} {k : ℕ}
    (h : src.Delivers putBlockSize ioEOF s content k) {c : AzureContainer} (hc : c.Faultless)
    {fuel : ℕ} (hfuel : k ≤ fuel) (path : Bytes) (i : ℕ) (ids : List Bytes) :
    ∃ c' blocks rounds, (putBlocks src putBlockSize path fuel i s ids).run c =
        (.returned (some (.ok (ids ++ blocks.map Block.id))), c') ∧
      Stages path c c' i (i + k) content blocks rounds := by
  induction h generalizing c fuel i ids with
  | @last s hlast =>
    cases fuel with
    | zero => omega
    | succ fuel =>
      obtain ⟨c', blocks, rounds, hrun, hstages⟩ :=
        run_uploadBlock hc i (src.data putBlockSize s) ids
      refine ⟨c', blocks, rounds, ?_, hstages⟩
      simp only [putBlocks, hlast]
      rw [if_pos (show ioEOF.text = ascii "EOF" from rfl), run_bind_returned hrun]
      rfl
  | @more s rest k hmore hrest ih =>
    cases fuel with
    | zero => omega
    | succ fuel =>
      obtain ⟨c₁, blocks, rounds, hrun, hstages⟩ :=
        run_uploadBlock hc i (src.data putBlockSize s) ids
      obtain ⟨c₂, blocks', rounds', hrun', hstages'⟩ := ih hstages.faultless
        (Nat.le_of_succ_le_succ hfuel) (i + 1) (ids ++ blocks.map Block.id)
      have hlast : i + 1 + k = i + (k + 1) := by omega
      rw [hlast] at hstages'
      refine ⟨c₂, blocks ++ blocks', rounds ++ rounds', ?_,
        hstages.append (by omega) (by omega) hstages'⟩
      simp only [putBlocks, hmore]
      rw [run_bind_returned hrun, List.map_append, ← List.append_assoc]
      exact hrun'

theorem mapM_stagedBlock {c : AzureContainer} {blocks : List Block}
    (h : ∀ b ∈ blocks, c.staged path b.id = some b.data) :
    (blocks.map Block.id).mapM (c.stagedBlock path) = some blocks := by
  induction blocks with
  | nil => rfl
  | cons b blocks ih =>
    have hb : c.stagedBlock path b.id = some b := by
      rw [stagedBlock, h b (by simp)]
      rfl
    rw [List.map_cons, List.mapM_cons, hb, ih (fun b' hb' => h b' (by simp [hb']))]
    rfl

/-- A blob holds a content when its blocks do, in their order, with ids that tell them apart and
are of one length. -/
structure CommitsLosslessly (blocks : List Block) (content : Bytes) : Prop where
  content_eq : blobContent blocks = content
  ids_distinct : (blocks.map Block.id).Nodup
  ids_length : ∀ b ∈ blocks, ∀ b' ∈ blocks, b.id.length = b'.id.length

/-- **An upload to Azure loses nothing**: from any source that ends within 99999 reads, with any
block size, the blocks of the committed blob are the source. -/
theorem put_commitsLosslessly {s : ρ} {content : Bytes} {k : ℕ}
    (h : src.Delivers putBlockSize ioEOF s content k) (hk : k < 100000) (path : Bytes)
    {c : AzureContainer} (hc : c.Faultless) {fuel : ℕ} (hfuel : k ≤ fuel) :
    ∃ c' blocks, (put src putBlockSize path fuel s).run c =
        (.returned (some (.ok ())), c') ∧
      c'.blobs = Function.update c.blobs path (some blocks) ∧
      CommitsLosslessly blocks content := by
  obtain ⟨c₁, blocks, rounds, hblocks, hstages⟩ := run_putBlocks h
    (c := { c with blobs := Function.update c.blobs path (some []), faults := c.faults.tail })
    hc.tail hfuel path 0 []
  have hstage : (stageBlocks src putBlockSize path fuel s).run c =
      (.returned (some (.ok (blocks.map Block.id))), c₁) :=
    (run_bind_returned (run_createBlockBlob path hc.head)).trans hblocks
  have hcommit := run_putBlockList hstages.faultless.head (mapM_stagedBlock hstages.staged)
  refine ⟨_, blocks, (run_bind_returned hstage).trans (run_bind_returned hcommit), ?_,
    hstages.content_eq, ?_, ?_⟩
  · show Function.update c₁.blobs path (some blocks) = _
    rw [hstages.blobs]
    exact Function.update_idem _ _ _
  · rw [hstages.ids]
    exact (hstages.increasing.imp Nat.ne_of_lt).map _ fun _ _ hne heq =>
      hne (blockID_injective heq)
  · have hlength : ∀ b ∈ blocks, b.id.length = 8 := by
      intro b hb
      have hid : b.id ∈ rounds.map blockID := hstages.ids ▸ List.mem_map_of_mem hb
      obtain ⟨j, hj, heq⟩ := List.mem_map.mp hid
      rw [← heq]
      exact blockID_length (by
        have hj' := hstages.bounds j hj
        omega)
    intro b hb b' hb'
    rw [hlength b hb, hlength b' hb']

def emptyContainer : AzureContainer where
  name := ascii "bits"
  blobs _ := none
  staged _ _ := none
  faults := []
  found := .ok true

/-- Two bytes, then none, then the last one together with the end. -/
def shortReads : List (Bytes × Option GoError) :=
  [(ascii "he", none), ([], none), (ascii "l", some ioEOF)]

theorem put_commitsLosslessly_shortReads :
    ∃ c' blocks, (put (scripted ioEOF) 2 (ascii "guid") 3 shortReads).run emptyContainer =
        (.returned (some (.ok ())), c') ∧
      c'.blobs = Function.update emptyContainer.blobs (ascii "guid") (some blocks) ∧
      CommitsLosslessly blocks (ascii "he" ++ ([] ++ ascii "l")) :=
  put_commitsLosslessly (.more rfl (.more rfl (.last rfl))) (by omega) (ascii "guid")
    (fun _ hf => absurd hf List.not_mem_nil) le_rfl

end Azure

end BitsService
