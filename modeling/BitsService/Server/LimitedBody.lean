import BitsService.Lib.Reader
import BitsService.Server.Http

/-! # The limit on the size of a body

With a limit, a body is read through a reader that counts down from the request's content length,
in the machine's integers. -/
namespace BitsService
open GoLib.Effect GoLib.Reading
open Stream' (Seq)
set_option autoImplicit false

variable {ρ : Type}

/-! ## The reader -/

/-- The length of a slice. -/
abbrev Len : Type := Fin (2 ^ 63)

structure LimitedReader (ρ : Type) where
  delegate : ρ
  maxBytesRemaining : Int64

/-- The length of `p[0:k]`, when it is in range. -/
def sliceTo (p : Len) (k : Int64) : Prog GoError (LimitedReader ρ) ℕ :=
  if 0 ≤ k.toInt ∧ k.toInt ≤ p.val then pure k.toInt.toNat
  else raise (.sys (ascii "runtime error: slice bounds out of range"))

namespace LimitedReader
variable (src : Reader ρ UInt8 GoError)

def delegateRead (p : ℕ) : Prog GoError (LimitedReader ρ) (Bytes × Option GoError) := fun l =>
  (.returned (src.read p l.delegate).1,
    ⟨src.next p l.delegate, l.maxBytesRemaining - Int64.ofNat (src.data p l.delegate).length⟩)

def read (p : Len) : Prog GoError (LimitedReader ρ) (Bytes × Option GoError) := do
  let l ← getState
  if l.maxBytesRemaining ≤ 0 then pure ([], some ioEOF)
  else if Int64.ofNat p.val > l.maxBytesRemaining then do
    let p ← sliceTo p l.maxBytesRemaining
    delegateRead src p
  else delegateRead src p.val

/-- One call after the other, with buffers of these lengths. -/
def reads : List Len → Prog GoError (LimitedReader ρ) (List (Bytes × Option GoError))
  | [] => pure []
  | p :: ps => do
    let r ← read src p
    let rs ← reads ps
    pure (r :: rs)

/-! ## What the calls pass on -/

variable {src} {stream : ρ → Seq UInt8}

/-- Between two states `data` was read, and counted. -/
structure Passes (stream : ρ → Seq UInt8) (l l' : LimitedReader ρ) (data : Bytes) : Prop where
  remaining : l'.maxBytesRemaining.toInt = l.maxBytesRemaining.toInt - data.length
  nonneg : 0 ≤ l'.maxBytesRemaining.toInt
  stream_eq : stream l.delegate = (Seq.ofList data).append (stream l'.delegate)

/-- There is nothing left, or nothing that may be read. -/
def Ended (stream : ρ → Seq UInt8) (l : LimitedReader ρ) : Prop :=
  l.maxBytesRemaining.toInt = 0 ∨ stream l.delegate = Seq.nil

theorem Passes.refl {l : LimitedReader ρ} (hl : 0 ≤ l.maxBytesRemaining.toInt) :
    Passes stream l l [] := ⟨by simp, hl, by simp⟩

theorem Passes.trans {l₁ l₂ l₃ : LimitedReader ρ} {data data' : Bytes}
    (h : Passes stream l₁ l₂ data) (h' : Passes stream l₂ l₃ data') :
    Passes stream l₁ l₃ (data ++ data') where
  remaining := by
    rw [h'.remaining, h.remaining, List.length_append]
    omega
  nonneg := h'.nonneg
  stream_eq := by
    rw [h.stream_eq, h'.stream_eq, Seq.ofList_append, Seq.append_assoc]

theorem Passes.nil_of_ended {l l' : LimitedReader ρ} {data : Bytes}
    (h : Passes stream l l' data) (hended : Ended stream l) : data = [] := by
  rcases hended with hzero | hnil
  · have hremaining := h.remaining
    have hnonneg := h.nonneg
    exact List.length_eq_zero_iff.mp (by omega)
  · cases data with
    | nil => rfl
    | cons c data =>
      have hcons := h.stream_eq
      rw [hnil, Seq.ofList_cons, Seq.cons_append] at hcons
      exact absurd hcons.symm (Seq.cons_ne_nil)

theorem Passes.ended {l l' : LimitedReader ρ} {data : Bytes} (h : Passes stream l l' data)
    (hended : Ended stream l) : Ended stream l' := by
  obtain rfl := h.nil_of_ended hended
  have hremaining := h.remaining
  have hstream := h.stream_eq
  rcases hended with hzero | hnil
  · left
    simp only [List.length_nil] at hremaining
    omega
  · right
    rw [hnil] at hstream
    simpa using hstream.symm

/-- What was passed on begins the stream, and is all of it that may be read at an end. -/
theorem Passes.take_eq {l l' : LimitedReader ρ} {data : Bytes} (h : Passes stream l l' data) :
    (stream l.delegate).take l.maxBytesRemaining.toInt.toNat =
      data ++ (stream l'.delegate).take l'.maxBytesRemaining.toInt.toNat := by
  have hremaining := h.remaining
  have hnonneg := h.nonneg
  have hlen : data.length ≤ l.maxBytesRemaining.toInt.toNat := by omega
  have hrest : l.maxBytesRemaining.toInt.toNat - data.length =
      l'.maxBytesRemaining.toInt.toNat := by omega
  rw [h.stream_eq, take_append_of_le hlen, hrest]

theorem take_of_ended {l : LimitedReader ρ} (h : Ended stream l) :
    (stream l.delegate).take l.maxBytesRemaining.toInt.toNat = [] := by
  rcases h with hzero | hnil
  · rw [hzero]
    exact Seq.take_zero
  · rw [hnil]
    exact Seq.take_nil

section Spec
variable (hsrc : src.Streams ioEOF stream)
include hsrc

theorem run_delegateRead {p : ℕ} {l : LimitedReader ρ} (hp : (p : ℤ) ≤ l.maxBytesRemaining.toInt) :
    ∃ data e l', (delegateRead src p).run l = (.returned (data, e), l') ∧
      Passes stream l l' data ∧ (e = some ioEOF → Ended stream l') := by
  have hle : (src.data p l.delegate).length ≤ p := src.read_le p l.delegate
  have hmax := l.maxBytesRemaining.toInt_lt
  have hcount : (Int64.ofNat (src.data p l.delegate).length).toInt =
      (src.data p l.delegate).length := Int64.toInt_ofNat_of_lt (by omega)
  have hsub : (l.maxBytesRemaining - Int64.ofNat (src.data p l.delegate).length).toInt =
      l.maxBytesRemaining.toInt - (src.data p l.delegate).length := by
    rw [Int64.toInt_sub, hcount]
    exact Int.bmod_eq_of_le (by omega) (by omega)
  refine ⟨_, _, _, rfl, ⟨hsub, ?_, hsrc.read p l.delegate⟩, fun he => .inr ?_⟩
  · show 0 ≤ (l.maxBytesRemaining - Int64.ofNat (src.data p l.delegate).length).toInt
    omega
  · exact hsrc.ended p l.delegate he

/-- A call does not panic, and passes on what it counts. -/
theorem run_read (p : Len) {l : LimitedReader ρ} (hl : 0 ≤ l.maxBytesRemaining.toInt) :
    ∃ data e l', (read src p).run l = (.returned (data, e), l') ∧
      Passes stream l l' data ∧ (e = some ioEOF → Ended stream l') := by
  have hp : (Int64.ofNat p.val).toInt = p.val := Int64.toInt_ofNat_of_lt p.isLt
  have hzero : l.maxBytesRemaining ≤ 0 ↔ l.maxBytesRemaining.toInt ≤ 0 :=
    Int64.le_iff_toInt_le
  have hover : Int64.ofNat p.val > l.maxBytesRemaining ↔
      l.maxBytesRemaining.toInt < p.val := by
    rw [← hp]
    exact Int64.lt_iff_toInt_lt
  unfold read
  rw [run_bind_returned (run_getState l)]
  by_cases hz : l.maxBytesRemaining ≤ 0
  · rw [if_pos hz]
    have hended : l.maxBytesRemaining.toInt = 0 := le_antisymm (hzero.mp hz) hl
    exact ⟨[], some ioEOF, l, rfl, Passes.refl hl, fun _ => .inl hended⟩
  rw [if_neg hz]
  by_cases ho : Int64.ofNat p.val > l.maxBytesRemaining
  · rw [if_pos ho]
    have hslice : (sliceTo p l.maxBytesRemaining).run l =
        (.returned l.maxBytesRemaining.toInt.toNat, l) := by
      rw [sliceTo, if_pos ⟨hl, (hover.mp ho).le⟩]
      rfl
    rw [run_bind_returned hslice]
    exact run_delegateRead hsrc (by omega)
  · rw [if_neg ho]
    exact run_delegateRead hsrc (not_lt.mp fun h => ho (hover.mpr h))

theorem run_reads (ps : List Len) {l : LimitedReader ρ} (hl : 0 ≤ l.maxBytesRemaining.toInt) :
    ∃ rs l', (reads src ps).run l = (.returned rs, l') ∧
      Passes stream l l' (rs.map Prod.fst).flatten ∧
      ((∃ r ∈ rs, r.2 = some ioEOF) → Ended stream l') := by
  induction ps generalizing l with
  | nil => exact ⟨[], l, rfl, Passes.refl hl, by simp⟩
  | cons p ps ih =>
    obtain ⟨data, e, l₁, hread, hpasses, hended⟩ := run_read hsrc p hl
    obtain ⟨rs, l₂, hreads, hpasses', hended'⟩ := ih hpasses.nonneg
    refine ⟨(data, e) :: rs, l₂, ?_, ?_, ?_⟩
    · unfold reads
      rw [run_bind_returned hread, run_bind_returned hreads]
      rfl
    · exact hpasses.trans hpasses'
    · rintro ⟨r, hr, he⟩
      rcases List.mem_cons.mp hr with rfl | hr
      · exact hpasses'.ended (hended he)
      · exact hended' ⟨r, hr, he⟩

end Spec

end LimitedReader

/-! ## The limit -/

/-- The body of a request that goes on. -/
inductive RequestBody (ρ : Type) where
  | whole (body : ρ)
  | limited (l : LimitedReader ρ)

namespace RequestBody
variable {σ : Type} (contentLength : Int64) (body : ρ) (maxBodySizeLimit : UInt64)

/-- The body with which to go on, unless the request was answered. A body that is too large is read
and dropped. -/
def handleBodySizeLimits : Prog GoError (Env σ) (Option (RequestBody ρ)) :=
  if maxBodySizeLimit ≠ 0 then
    if contentLength = -1 then do
      badRequest (ascii "HTTP header does not contain Content-Length") []
      pure none
    else if contentLength.toUInt64 > maxBodySizeLimit then do
      writeHeader 413
      pure none
    else pure (some (.limited ⟨body, contentLength⟩))
  else pure (some (.whole body))

variable {contentLength body maxBodySizeLimit}

theorem toUInt64_gt_iff (h : 0 ≤ contentLength.toInt) :
    contentLength.toUInt64 > maxBodySizeLimit ↔
      (maxBodySizeLimit.toNat : ℤ) < contentLength.toInt := by
  have hle : 0 ≤ contentLength := Int64.le_iff_toInt_le.mpr h
  have hcast : (contentLength.toUInt64.toNat : ℤ) = contentLength.toInt := by
    rw [Int64.toNat_toUInt64_of_le hle]
    exact Int64.cast_toNatClampNeg _ hle
  rw [← hcast, gt_iff_lt, UInt64.lt_iff_toNat_lt]
  omega

variable (body) in
/-- The request goes on with a limited body exactly when its content length is known and within the
limit. -/
theorem run_handleBodySizeLimits (hlength : -1 ≤ contentLength.toInt)
    (hlimit : maxBodySizeLimit ≠ 0) (w : Env σ) :
    ∃ w', (handleBodySizeLimits contentLength body maxBodySizeLimit).run w =
      (.returned (if 0 ≤ contentLength.toInt ∧ contentLength.toInt ≤ maxBodySizeLimit.toNat then
        some (.limited ⟨body, contentLength⟩) else none), w') := by
  unfold handleBodySizeLimits
  rw [if_pos hlimit]
  by_cases hnone : contentLength = -1
  · have hneg : contentLength.toInt = -1 := by
      rw [hnone]
      rfl
    rw [if_pos hnone, if_neg (by omega)]
    exact ⟨_, rfl⟩
  have hne : contentLength.toInt ≠ -1 := fun h => hnone (Int64.toInt.inj (h.trans rfl))
  have hknown : 0 ≤ contentLength.toInt := by omega
  rw [if_neg hnone]
  by_cases hover : contentLength.toUInt64 > maxBodySizeLimit
  · have hlt := (toUInt64_gt_iff hknown).mp hover
    rw [if_pos hover, if_neg (by omega)]
    exact ⟨_, rfl⟩
  · have hge := mt (toUInt64_gt_iff hknown).mpr hover
    rw [if_neg hover, if_pos ⟨hknown, by omega⟩]
    exact ⟨w, rfl⟩

end RequestBody

/-! ## A bounded prefix -/

/-- Whatever buffers a limited body is read with, no call panics, the counter says what may still be
read, and what is delivered begins the stream; it is all that may be read of it once an end was
reported. -/
def DeliversPrefix (src : Reader ρ UInt8 GoError) (stream : ρ → Seq UInt8)
    (contentLength : Int64) (body : ρ) : Prop :=
  ∀ ps, ∃ rs l', (LimitedReader.reads src ps).run ⟨body, contentLength⟩ = (.returned rs, l') ∧
    (rs.map Prod.fst).flatten <+: (stream body).take contentLength.toInt.toNat ∧
    l'.maxBytesRemaining.toInt =
      contentLength.toInt - (rs.map Prod.fst).flatten.length ∧
    0 ≤ l'.maxBytesRemaining.toInt ∧
    ((∃ r ∈ rs, r.2 = some ioEOF) →
      (rs.map Prod.fst).flatten = (stream body).take contentLength.toInt.toNat)

theorem deliversPrefix_of_streams {src : Reader ρ UInt8 GoError} {stream : ρ → Seq UInt8}
    (hsrc : src.Streams ioEOF stream) {contentLength : Int64} (h : 0 ≤ contentLength.toInt)
    (body : ρ) : DeliversPrefix src stream contentLength body := by
  intro ps
  obtain ⟨rs, l', hrun, hpasses, hended⟩ :=
    LimitedReader.run_reads hsrc ps (l := ⟨body, contentLength⟩) h
  have htake := hpasses.take_eq
  refine ⟨rs, l', hrun, ?_, hpasses.remaining, hpasses.nonneg, fun heof => ?_⟩
  · rw [htake]
    exact List.prefix_append _ _
  · rw [htake, LimitedReader.take_of_ended (hended heof), List.append_nil]

/-! ## The two readings of a limit

The handlers are modelled over the outcome of reading a whole body. What they do with a limit is
what is done here. -/

theorem isSome_limited_iff {request : Request} {contentLength : Int64} {maxBodySizeLimit : UInt64}
    (hrequest : request.contentLength = contentLength.toInt) (hlength : -1 ≤ contentLength.toInt)
    (hlimit : maxBodySizeLimit ≠ 0) :
    (request.limited maxBodySizeLimit.toNat).isSome = true ↔
      0 ≤ contentLength.toInt ∧ contentLength.toInt ≤ maxBodySizeLimit.toNat := by
  have hne : maxBodySizeLimit.toNat ≠ 0 := fun h => hlimit (UInt64.toNat.inj h)
  unfold Request.limited
  rw [if_neg hne, hrequest]
  by_cases hout : contentLength.toInt = -1 ∨ (maxBodySizeLimit.toNat : ℤ) < contentLength.toInt
  · rw [if_pos hout]
    exact iff_of_false (by simp) (by omega)
  · rw [if_neg hout]
    exact iff_of_true rfl (by omega)

theorem delivered_limit (n : ℕ) (b : Body) : (b.limit n).delivered = b.delivered.take n := by
  unfold Body.limit
  by_cases h : n ≤ b.delivered.length
  · rw [if_pos h, Body.delivered, List.flatten_singleton]
  · rw [if_neg h, List.take_of_length_le (by omega)]

/-- What is delivered by the end is what the limited body delivers. -/
theorem delivered_eq_limit {src : Reader ρ UInt8 GoError} {stream : ρ → Seq UInt8}
    {contentLength : Int64} {body : ρ} {b : Body} (hbody : stream body = Seq.ofList b.delivered)
    (h : DeliversPrefix src stream contentLength body) (ps : List Len) :
    ∃ rs l', (LimitedReader.reads src ps).run ⟨body, contentLength⟩ = (.returned rs, l') ∧
      ((∃ r ∈ rs, r.2 = some ioEOF) →
        (rs.map Prod.fst).flatten = (b.limit contentLength.toInt.toNat).delivered) := by
  obtain ⟨rs, l', hrun, -, -, -, hall⟩ := h ps
  refine ⟨rs, l', hrun, fun heof => ?_⟩
  rw [hall heof, hbody, take_ofList, delivered_limit]

/-- **The limit on a body**: without a limit the body is left alone. With one the request goes on
exactly when its content length is known and within the limit, and then delivers a bounded
prefix. -/
theorem handleBodySizeLimits_delivers {σ : Type} {src : Reader ρ UInt8 GoError}
    {stream : ρ → Seq UInt8} (hsrc : src.Streams ioEOF stream) {contentLength : Int64}
    (hlength : -1 ≤ contentLength.toInt) (body : ρ) (maxBodySizeLimit : UInt64) (w : Env σ) :
    ∃ r w', (RequestBody.handleBodySizeLimits contentLength body maxBodySizeLimit).run w =
        (.returned r, w') ∧
      (maxBodySizeLimit = 0 → r = some (.whole body) ∧ w' = w) ∧
      (maxBodySizeLimit ≠ 0 →
        (r.isSome = true ↔
          0 ≤ contentLength.toInt ∧ contentLength.toInt ≤ maxBodySizeLimit.toNat) ∧
        ∀ goesOn, r = some goesOn → goesOn = .limited ⟨body, contentLength⟩ ∧
          DeliversPrefix src stream contentLength body) := by
  by_cases hlimit : maxBodySizeLimit = 0
  · refine ⟨some (.whole body), w, ?_, fun _ => ⟨rfl, rfl⟩, fun h => absurd hlimit h⟩
    unfold RequestBody.handleBodySizeLimits
    rw [if_neg (not_not.mpr hlimit)]
    rfl
  obtain ⟨w', hrun⟩ := RequestBody.run_handleBodySizeLimits body hlength hlimit w
  refine ⟨_, w', hrun, fun h => absurd h hlimit, fun _ => ?_⟩
  by_cases hwithin : 0 ≤ contentLength.toInt ∧ contentLength.toInt ≤ maxBodySizeLimit.toNat
  · rw [if_pos hwithin]
    refine ⟨iff_of_true rfl hwithin, fun goesOn hgoesOn => ?_⟩
    cases hgoesOn
    exact ⟨rfl, deliversPrefix_of_streams hsrc hwithin.1 body⟩
  · rw [if_neg hwithin]
    exact ⟨iff_of_false Bool.false_ne_true hwithin, fun _ h => absurd h (by simp)⟩

/-- A body that is longer than its content length says. -/
theorem handleBodySizeLimits_delivers_hello :
    ∃ r w', (RequestBody.handleBodySizeLimits 5 (ascii "hello world") 10).run (Env.fresh ()) =
        (.returned r, w') ∧
      ((10 : UInt64) = 0 → r = some (.whole (ascii "hello world")) ∧ w' = Env.fresh ()) ∧
      ((10 : UInt64) ≠ 0 →
        (r.isSome = true ↔ 0 ≤ (5 : Int64).toInt ∧ (5 : Int64).toInt ≤ (10 : UInt64).toNat) ∧
        ∀ goesOn, r = some goesOn → goesOn = .limited ⟨ascii "hello world", 5⟩ ∧
          DeliversPrefix (ofList ioEOF) Seq.ofList 5 (ascii "hello world")) :=
  handleBodySizeLimits_delivers (streams_ofList ioEOF) (by decide) _ _ _

end BitsService
