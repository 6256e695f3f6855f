import BitsService.Foundations.Bytes
import BitsService.Lib.Codec

/-! # File modes and zip archives

The bit layout of `os.FileMode`, its translation to and from the Unix attributes that a zip header
carries, and the archive as the list of its entries. The byte layout of an archive is a parameter:
all that is used of it is that reading back what was written gives the entries. -/
namespace BitsService
open GoLib
set_option autoImplicit false

/-! ## `os.FileMode` -/

abbrev FileMode := UInt32

def modeDir : FileMode := 0x80000000
def modeSymlink : FileMode := 0x8000000
def modeDevice : FileMode := 0x4000000
def modeNamedPipe : FileMode := 0x2000000
def modeSocket : FileMode := 0x1000000
def modeSetuid : FileMode := 0x800000
def modeSetgid : FileMode := 0x400000
def modeCharDevice : FileMode := 0x200000
def modeSticky : FileMode := 0x100000
def modeType : FileMode := modeDir ||| modeSymlink ||| modeNamedPipe ||| modeSocket ||| modeDevice
def modePerm : FileMode := 0o777

def isRegular (mode : FileMode) : Bool := mode &&& modeType == 0

def fileModeToUnixMode (mode : FileMode) : UInt32 :=
  let m : UInt32 :=
    if mode &&& modeType = modeDir then 0x4000
    else if mode &&& modeType = modeSymlink then 0xa000
    else if mode &&& modeType = modeNamedPipe then 0x1000
    else if mode &&& modeType = modeSocket then 0xc000
    else if mode &&& modeType = modeDevice then
      if mode &&& modeCharDevice ≠ 0 then 0x2000 else 0x6000
    else 0x8000
  let m := if mode &&& modeSetuid ≠ 0 then m ||| 0x800 else m
  let m := if mode &&& modeSetgid ≠ 0 then m ||| 0x400 else m
  let m := if mode &&& modeSticky ≠ 0 then m ||| 0x200 else m
  m ||| (mode &&& modePerm)

def unixModeToFileMode (m : UInt32) : FileMode :=
  let mode := m &&& modePerm
  let mode :=
    if m &&& 0xf000 = 0x6000 then mode ||| modeDevice
    else if m &&& 0xf000 = 0x2000 then mode ||| modeDevice ||| modeCharDevice
    else if m &&& 0xf000 = 0x4000 then mode ||| modeDir
    else if m &&& 0xf000 = 0x1000 then mode ||| modeNamedPipe
    else if m &&& 0xf000 = 0xa000 then mode ||| modeSymlink
    else if m &&& 0xf000 = 0xc000 then mode ||| modeSocket
    else mode
  let mode := if m &&& 0x400 ≠ 0 then mode ||| modeSetgid else mode
  let mode := if m &&& 0x800 ≠ 0 then mode ||| modeSetuid else mode
  if m &&& 0x200 ≠ 0 then mode ||| modeSticky else mode

def msdosModeToFileMode (m : UInt32) : FileMode :=
  let mode : FileMode := if m &&& 0x10 ≠ 0 then modeDir ||| 0o777 else 0o666
  if m &&& 0x01 ≠ 0 then mode &&& ~~~0o222 else mode

/-! ## Bit arithmetic -/

theorem and_or_left (x y z : UInt32) : x &&& (y ||| z) = x &&& y ||| x &&& z := by
  apply UInt32.toBitVec_inj.mp
  simp [BitVec.and_or_distrib_left]

theorem and_or_right (x y z : UInt32) : (x ||| y) &&& z = x &&& z ||| y &&& z := by
  apply UInt32.toBitVec_inj.mp
  simp [BitVec.and_or_distrib_right]

theorem and_single (x : UInt32) (k : ℕ) :
    x &&& UInt32.ofNat (2 ^ k) = 0 ∨ x &&& UInt32.ofNat (2 ^ k) = UInt32.ofNat (2 ^ k) := by
  have hone : UInt32.ofNat (2 ^ k) = UInt32.ofBitVec (BitVec.twoPow 32 k) := by
    apply UInt32.toNat_inj.mp
    simp [BitVec.toNat_twoPow]
  have hand := BitVec.and_twoPow x.toBitVec k
  rw [hone]
  cases hbit : x.toBitVec.getLsbD k with
  | true =>
    right
    rw [hbit, if_pos rfl] at hand
    apply UInt32.toBitVec_inj.mp
    simpa using hand
  | false =>
    left
    rw [hbit, if_neg Bool.false_ne_true] at hand
    apply UInt32.toBitVec_inj.mp
    simpa using hand

/-- Only the low sixteen bits are used. -/
def IsLow (x : UInt32) : Prop := x &&& 0xffff = x

theorem IsLow.or {x y : UInt32} (hx : IsLow x) (hy : IsLow y) : IsLow (x ||| y) := by
  unfold IsLow at *
  rw [and_or_right, hx, hy]

theorem IsLow.ite {c : Prop} [Decidable c] {x y : UInt32} (hx : IsLow x) (hy : IsLow y) :
    IsLow (if c then x else y) := by
  split
  · exact hx
  · exact hy

theorem IsLow.toNat_lt {x : UInt32} (hx : IsLow x) : x.toNat < 2 ^ 16 := by
  have h : x.toNat &&& 0xffff = x.toNat := congrArg UInt32.toNat hx
  rw [← h]
  exact Nat.and_lt_two_pow _ (by decide)

theorem shiftRight_shiftLeft_or {x d : UInt32} (hx : IsLow x) (hd : IsLow d) :
    (x <<< 16 ||| d) >>> 16 = x := by
  have hx' := hx.toNat_lt
  have hd' := hd.toNat_lt
  apply UInt32.toNat_inj.mp
  have hmod : x.toNat <<< 16 % 2 ^ 32 = x.toNat <<< 16 := by
    rw [Nat.shiftLeft_eq]
    exact Nat.mod_eq_of_lt (by omega)
  simp only [UInt32.toNat_shiftRight, UInt32.toNat_or, UInt32.toNat_shiftLeft, UInt32.reduceToNat,
    Nat.reduceMod, hmod]
  rw [← Nat.shiftLeft_add_eq_or_of_lt hd', Nat.shiftRight_eq_div_pow, Nat.shiftLeft_eq]
  omega

/-! ## Modes of regular files -/

/-- The modes that say nothing but permissions, set-gid, set-uid and sticky. -/
def IsFileBits (mode : FileMode) : Prop :=
  mode &&& (modePerm ||| modeSetgid ||| modeSetuid ||| modeSticky) = mode

instance (mode : FileMode) : Decidable (IsFileBits mode) := inferInstanceAs (Decidable (_ = _))

theorem IsFileBits.and_eq_zero {mode b : FileMode} (h : IsFileBits mode)
    (hb : (modePerm ||| modeSetgid ||| modeSetuid ||| modeSticky) &&& b = 0) : mode &&& b = 0 := by
  rw [← h, UInt32.and_assoc, hb, UInt32.and_zero]

theorem IsFileBits.isRegular {mode : FileMode} (h : IsFileBits mode) : isRegular mode = true := by
  have hz : mode &&& modeType = 0 := h.and_eq_zero (by decide)
  simp [BitsService.isRegular, hz]

theorem fileModeToUnixMode_low (mode : FileMode) : IsLow (fileModeToUnixMode mode) := by
  have hp : IsLow (mode &&& modePerm) := by
    unfold IsLow
    rw [UInt32.and_assoc]
    rfl
  have hm : IsLow (if mode &&& modeType = modeDir then 0x4000
      else if mode &&& modeType = modeSymlink then 0xa000
      else if mode &&& modeType = modeNamedPipe then 0x1000
      else if mode &&& modeType = modeSocket then 0xc000
      else if mode &&& modeType = modeDevice then
        if mode &&& modeCharDevice ≠ 0 then 0x2000 else 0x6000
      else 0x8000) := by
    repeat' apply IsLow.ite
    all_goals rfl
  have hu := IsLow.ite (c := mode &&& modeSetuid ≠ 0) (hm.or (y := 0x800) rfl) hm
  have hg := IsLow.ite (c := mode &&& modeSetgid ≠ 0) (hu.or (y := 0x400) rfl) hu
  have hs := IsLow.ite (c := mode &&& modeSticky ≠ 0) (hg.or (y := 0x200) rfl) hg
  exact hs.or hp

theorem unixModeToFileMode_fileModeToUnixMode {mode : FileMode} (h : IsFileBits mode) :
    unixModeToFileMode (fileModeToUnixMode mode) = mode := by
  have htype : mode &&& modeType = 0 := h.and_eq_zero (by decide)
  have hsplit : mode &&& modePerm ||| mode &&& modeSetgid ||| mode &&& modeSetuid |||
      mode &&& modeSticky = mode := by
    conv_rhs => rw [← h]
    simp only [and_or_left]
  have hperm : ∀ c, modePerm &&& c = 0 → mode &&& modePerm &&& c = 0 := by
    intro c hc
    rw [UInt32.and_assoc, hc, UInt32.and_zero]
  have hself : mode &&& modePerm &&& modePerm = mode &&& modePerm := by
    rw [UInt32.and_assoc, UInt32.and_self]
  have hfmt := hperm 0xf000 (by decide)
  have hgid := hperm 0x400 (by decide)
  have huid := hperm 0x800 (by decide)
  have hvtx := hperm 0x200 (by decide)
  have hconst : ∀ k ∈ ([0x8000, 0x800, 0x400, 0x200] : List UInt32), k &&& modePerm = 0 :=
    forall_mem_of_all (by decide)
  have h8000 := hconst 0x8000 (by decide)
  have h800 := hconst 0x800 (by decide)
  have h400 := hconst 0x400 (by decide)
  have h200 := hconst 0x200 (by decide)
  have hu : mode &&& modeSetuid = 0 ∨ mode &&& modeSetuid = modeSetuid := and_single mode 23
  have hg : mode &&& modeSetgid = 0 ∨ mode &&& modeSetgid = modeSetgid := and_single mode 22
  have hs : mode &&& modeSticky = 0 ∨ mode &&& modeSticky = modeSticky := and_single mode 20
  -- each of the three bits is either clear or set: eight words, each read back digit by digit
  rcases hu with hu | hu <;> rcases hg with hg | hg <;> rcases hs with hs | hs <;>
  · rw [hu, hg, hs] at hsplit
    simp +decide only [fileModeToUnixMode, htype, hu, hg, hs, if_true, if_false]
    simp +decide only [unixModeToFileMode, and_or_right, hfmt, hgid, huid, hvtx, hself, h8000,
      h800, h400, h200, UInt32.or_zero, UInt32.zero_or, if_true, if_false]
    simpa only [UInt32.or_zero] using hsplit

/-! ## Zip headers and archives -/

def creatorUnix : UInt16 := 3
def methodDeflate : UInt16 := 8

structure FileHeader where
  name : Bytes
  method : UInt16
  creatorVersion : UInt16
  externalAttrs : UInt32
  deriving DecidableEq

/-- A name that ends in a slash is the name of a directory. -/
def isDirName (name : Bytes) : Bool := name.getLast? == some slash

def FileHeader.mode (h : FileHeader) : FileMode :=
  let host := h.creatorVersion >>> 8
  let mode : FileMode :=
    if host = creatorUnix ∨ host = 19 then unixModeToFileMode (h.externalAttrs >>> 16)
    else if host = 11 ∨ host = 14 ∨ host = 0 then msdosModeToFileMode h.externalAttrs
    else 0
  if isDirName h.name then mode ||| modeDir else mode

def FileHeader.setMode (h : FileHeader) (mode : FileMode) : FileHeader :=
  let dos : UInt32 := if mode &&& modeDir ≠ 0 then 0x10 else 0
  let dos := if mode &&& 0o200 = 0 then dos ||| 0x01 else dos
  { h with
    creatorVersion := (h.creatorVersion &&& 0xff) ||| (creatorUnix <<< (8 : UInt16))
    externalAttrs := fileModeToUnixMode mode <<< 16 ||| dos }

@[simp] theorem setMode_name (h : FileHeader) (mode : FileMode) : (h.setMode mode).name = h.name :=
  rfl

theorem setMode_externalAttrs (h : FileHeader) (mode : FileMode) :
    (h.setMode mode).externalAttrs >>> 16 = fileModeToUnixMode mode := by
  have hdos : IsLow (if mode &&& 0o200 = 0 then
      (if mode &&& modeDir ≠ 0 then 0x10 else 0) ||| 0x01 else
      if mode &&& modeDir ≠ 0 then 0x10 else 0) := by
    have hdir : IsLow (if mode &&& modeDir ≠ 0 then 0x10 else 0) := IsLow.ite rfl rfl
    exact IsLow.ite (hdir.or rfl) hdir
  exact shiftRight_shiftLeft_or (fileModeToUnixMode_low mode) hdos

/-! ## Which modes are read back as regular -/

theorem isRegular_or (x y : FileMode) : isRegular (x ||| y) = (isRegular x && isRegular y) := by
  simp only [isRegular, and_or_right, beq_eq_decide, UInt32.or_eq_zero_iff, Bool.decide_and]

theorem isRegular_ite_or (c : Prop) [Decidable c] (x : FileMode) {y : FileMode}
    (hy : isRegular y = true) : isRegular (if c then x ||| y else x) = isRegular x := by
  split
  · rw [isRegular_or, hy, Bool.and_true]
  · rfl

/-- The bits of a Unix mode that name a type of file other than a regular one. -/
def unixTypes : List UInt32 := [0x6000, 0x2000, 0x4000, 0x1000, 0xa000, 0xc000]

theorem isRegular_unixMode (m : UInt32) :
    isRegular (unixModeToFileMode m) = true ↔ m &&& 0xf000 ∉ unixTypes := by
  have hperm : isRegular (m &&& modePerm) = true := by
    have hz : m &&& modePerm &&& modeType = 0 := by
      rw [UInt32.and_assoc, show modePerm &&& modeType = 0 from rfl, UInt32.and_zero]
    simp [isRegular, hz]
  unfold unixModeToFileMode
  rw [isRegular_ite_or _ _ (by decide), isRegular_ite_or _ _ (by decide),
    isRegular_ite_or _ _ (by decide)]
  simp only [unixTypes, List.mem_cons, List.not_mem_nil, or_false, not_or]
  split
  · next h => simp +decide [h, isRegular_or]
  split
  · next h => simp +decide [h, isRegular_or]
  split
  · next h => simp +decide [h, isRegular_or]
  split
  · next h => simp +decide [h, isRegular_or]
  split
  · next h => simp +decide [h, isRegular_or]
  split
  · next h => simp +decide [h, isRegular_or]
  · next h1 h2 h3 h4 h5 h6 => simp [hperm, h1, h2, h3, h4, h5, h6]

/-- The types of file other than a regular one. -/
def typeModes : List FileMode := [modeDir, modeSymlink, modeNamedPipe, modeSocket, modeDevice]

theorem fileModeToUnixMode_type (mode : FileMode) :
    fileModeToUnixMode mode &&& 0xf000 ∈ unixTypes ↔ mode &&& modeType ∈ typeModes := by
  have hor : ∀ (c : Prop) [Decidable c] (m b : UInt32), b &&& 0xf000 = 0 →
      (if c then m ||| b else m) &&& 0xf000 = m &&& 0xf000 := by
    intro c _ m b hb
    split
    · rw [and_or_right, hb, UInt32.or_zero]
    · rfl
  have hperm : mode &&& modePerm &&& 0xf000 = 0 := by
    rw [UInt32.and_assoc, show modePerm &&& 0xf000 = 0 from rfl, UInt32.and_zero]
  unfold fileModeToUnixMode
  rw [and_or_right, hperm, UInt32.or_zero, hor _ _ _ rfl, hor _ _ _ rfl, hor _ _ _ rfl]
  simp only [typeModes, List.mem_cons, List.not_mem_nil, or_false]
  split
  · next h => simp +decide [h]
  split
  · next h => simp +decide [h]
  split
  · next h => simp +decide [h]
  split
  · next h => simp +decide [h]
  split
  · next h =>
    split
    · simp +decide [h]
    · simp +decide [h]
  · next h1 h2 h3 h4 h5 => simp +decide [h1, h2, h3, h4, h5]

/-! ## Modes of regular entries -/

/-- A mode that is one of a regular file says nothing but file bits. -/
def FileBitsIfRegular (mode : FileMode) : Prop := isRegular mode = true → IsFileBits mode

instance (mode : FileMode) : Decidable (FileBitsIfRegular mode) :=
  inferInstanceAs (Decidable (_ → _))

theorem FileBitsIfRegular.or {x y : FileMode} (hx : FileBitsIfRegular x)
    (hy : FileBitsIfRegular y) : FileBitsIfRegular (x ||| y) := by
  intro h
  have hz : (x ||| y) &&& modeType = 0 := by simpa [isRegular] using h
  rw [and_or_right] at hz
  obtain ⟨hx0, hy0⟩ := UInt32.or_eq_zero_iff.mp hz
  unfold IsFileBits
  rw [and_or_right, hx (by simp [isRegular, hx0]), hy (by simp [isRegular, hy0])]

theorem FileBitsIfRegular.ite {p : Prop} [Decidable p] {x y : FileMode}
    (hx : FileBitsIfRegular x) (hy : FileBitsIfRegular y) :
    FileBitsIfRegular (if p then x else y) := by
  split
  · exact hx
  · exact hy

theorem fileBitsIfRegular_perm (m : UInt32) : FileBitsIfRegular (m &&& modePerm) := by
  intro _
  unfold IsFileBits
  rw [UInt32.and_assoc]
  rfl

theorem fileBitsIfRegular_unixMode (m : UInt32) : FileBitsIfRegular (unixModeToFileMode m) := by
  have hperm := fileBitsIfRegular_perm m
  have hchar : FileBitsIfRegular (m &&& modePerm ||| modeDevice ||| modeCharDevice) := by
    rw [UInt32.or_assoc]
    exact hperm.or (by decide)
  have hset : ∀ {x : FileMode}, FileBitsIfRegular x → FileBitsIfRegular (x ||| modeSetgid) ∧
      FileBitsIfRegular (x ||| modeSetuid) ∧ FileBitsIfRegular (x ||| modeSticky) := fun hx =>
    ⟨hx.or (by decide), hx.or (by decide), hx.or (by decide)⟩
  have htype : FileBitsIfRegular
      (if m &&& 0xf000 = 0x6000 then m &&& modePerm ||| modeDevice
      else if m &&& 0xf000 = 0x2000 then m &&& modePerm ||| modeDevice ||| modeCharDevice
      else if m &&& 0xf000 = 0x4000 then m &&& modePerm ||| modeDir
      else if m &&& 0xf000 = 0x1000 then m &&& modePerm ||| modeNamedPipe
      else if m &&& 0xf000 = 0xa000 then m &&& modePerm ||| modeSymlink
      else if m &&& 0xf000 = 0xc000 then m &&& modePerm ||| modeSocket
      else m &&& modePerm) :=
    .ite (hperm.or (by decide)) <| .ite hchar <| .ite (hperm.or (by decide)) <|
      .ite (hperm.or (by decide)) <| .ite (hperm.or (by decide)) <|
      .ite (hperm.or (by decide)) hperm
  have hgid := FileBitsIfRegular.ite (p := m &&& 0x400 ≠ 0) (hset htype).1 htype
  have huid := FileBitsIfRegular.ite (p := m &&& 0x800 ≠ 0) (hset hgid).2.1 hgid
  exact FileBitsIfRegular.ite (hset huid).2.2 huid

theorem fileBitsIfRegular_mode (h : FileHeader) : FileBitsIfRegular h.mode := by
  have hmsdos : FileBitsIfRegular (msdosModeToFileMode h.externalAttrs) := by
    unfold msdosModeToFileMode
    by_cases hdir : h.externalAttrs &&& 0x10 ≠ 0
    · rw [if_pos hdir]
      exact .ite (by decide) (by decide)
    · rw [if_neg hdir]
      exact .ite (by decide) (by decide)
  have hhost := FileBitsIfRegular.ite
    (p := h.creatorVersion >>> 8 = creatorUnix ∨ h.creatorVersion >>> 8 = 19)
    (fileBitsIfRegular_unixMode (h.externalAttrs >>> 16))
    (.ite (p := h.creatorVersion >>> 8 = 11 ∨ h.creatorVersion >>> 8 = 14 ∨
      h.creatorVersion >>> 8 = 0) hmsdos (y := 0) (by decide))
  exact .ite (hhost.or (by decide)) hhost

structure ZipEntry where
  header : FileHeader
  content : Bytes
  deriving DecidableEq

def errFormat : Bytes := ascii "zip: not a valid zip file"

/-- An archive has two bytes for the length of a name. -/
def FitsZip (name : Bytes) : Prop := name.length ≤ 65535

instance (name : Bytes) : Decidable (FitsZip name) := inferInstanceAs (Decidable (_ ≤ _))

/-- The byte layout of archives: what `zip.Writer` leaves in its file, closed or cut off, and what
`zip.NewReader` makes of a file, an error text or the entries. -/
structure ZipFormat where
  encode : List ZipEntry → Bytes
  truncated : List ZipEntry → Bytes
  decode : Bytes → Except Bytes (List ZipEntry)
  decode_encode : ∀ {es}, (∀ e ∈ es, FitsZip e.header.name) → decode (encode es) = .ok es
  fits_of_decode : ∀ {b es}, decode b = .ok es → ∀ e ∈ es, FitsZip e.header.name

/-- What was cut off is read as no archive. -/
def ZipFormat.RefusesTruncated (format : ZipFormat) : Prop :=
  ∀ es es', format.decode (format.truncated es) ≠ .ok es'

def entryCodec : Codec ZipEntry :=
  (Codec.pair (Codec.pair (Codec.list .byte) (Codec.pair .nat .nat))
    (Codec.pair .nat (Codec.list .byte))).imap
    (fun p => ⟨⟨p.1.1, UInt16.ofNat p.1.2.1, UInt16.ofNat p.1.2.2, UInt32.ofNat p.2.1⟩, p.2.2⟩)
    (fun e => ((e.header.name, e.header.method.toNat, e.header.creatorVersion.toNat),
      e.header.externalAttrs.toNat, e.content))
    (fun e => by simp)

def plainFormat : ZipFormat where
  encode es := (Codec.list entryCodec).enc es
  truncated _ := []
  decode b := match (Codec.list entryCodec).dec b with
    | some (es, []) =>
      if ∀ e ∈ es, FitsZip e.header.name then .ok es else .error errFormat
    | _ => .error errFormat
  decode_encode {es} hfits := by
    have h := (Codec.list entryCodec).dec_enc es []
    rw [List.append_nil] at h
    rw [h]
    exact if_pos hfits
  fits_of_decode {b es} h := by
    split at h
    · split at h
      · cases h
        assumption
      · cases h
    · cases h

theorem plainFormat_refusesTruncated : plainFormat.RefusesTruncated := by
  intro es es' h
  cases h

end BitsService
