import Mathlib.Data.List.Basic
import Mathlib.Data.Nat.Log
import Mathlib.Tactic.IntervalCases

/-! # Strings and numbers as text

A Go string is a sequence of bytes. The encodings here are the ones whose text reaches a key, a
path, a signature or a file mode: hexadecimal digests and `strconv`'s integers. -/
namespace BitsService
set_option autoImplicit false

abbrev Bytes := List UInt8

instance instLawfulBEqBytes : LawfulBEq Bytes := inferInstance

def ascii (s : String) : Bytes := s.toList.map (fun c => UInt8.ofNat c.toNat)

def slash : UInt8 := 47

def digitByte (d : ℕ) : UInt8 := if d < 10 then UInt8.ofNat (48 + d) else UInt8.ofNat (87 + d)

/-- A property of the members of a list, as a test of each of them. -/
theorem forall_mem_of_all {α : Type} {p : α → Prop} [DecidablePred p] {s : List α}
    (h : s.all (fun c => decide (p c)) = true) : ∀ c ∈ s, p c := by
  intro c hc
  exact of_decide_eq_true (List.all_eq_true.mp h c hc)

/-- The value of a digit, in either case. -/
def digitValue (c : UInt8) : Option ℕ :=
  if 48 ≤ c.toNat ∧ c.toNat ≤ 57 then some (c.toNat - 48)
  else if 97 ≤ c.toNat ∧ c.toNat ≤ 122 then some (c.toNat - 87)
  else if 65 ≤ c.toNat ∧ c.toNat ≤ 90 then some (c.toNat - 55)
  else none

theorem digitValue_digitByte {d : ℕ} (h : d < 36) : digitValue (digitByte d) = some d := by
  interval_cases d <;> rfl

theorem digitByte_inj {c d : ℕ} (hc : c < 36) (hd : d < 36) (h : digitByte c = digitByte d) :
    c = d := by
  have hv := congrArg digitValue h
  rw [digitValue_digitByte hc, digitValue_digitByte hd] at hv
  exact Option.some.inj hv

def toLower (s : Bytes) : Bytes := s.map fun c => if 65 ≤ c ∧ c ≤ 90 then c + 32 else c

/-! ## Cutting -/

/-- What comes before the first `c`, and what comes after it if there is one. -/
def cutAt (c : UInt8) : Bytes → Bytes × Option Bytes
  | [] => ([], none)
  | b :: s => if b = c then ([], some s) else (b :: (cutAt c s).1, (cutAt c s).2)

theorem cutAt_append {c : UInt8} {s : Bytes} (h : c ∉ s) (t : Bytes) :
    cutAt c (s ++ t) = (s ++ (cutAt c t).1, (cutAt c t).2) := by
  induction s with
  | nil => rfl
  | cons b s ih =>
    simp only [List.mem_cons, not_or] at h
    rw [List.cons_append, cutAt, if_neg (Ne.symm h.1), ih h.2]
    rfl

theorem cutAt_append_cons {c : UInt8} {s : Bytes} (h : c ∉ s) (t : Bytes) :
    cutAt c (s ++ c :: t) = (s, some t) := by
  rw [cutAt_append h, cutAt, if_pos rfl, List.append_nil]

theorem cutAt_fst_append {c : UInt8} {s : Bytes} (h : c ∈ s) (t : Bytes) :
    (cutAt c (s ++ t)).1 = (cutAt c s).1 := by
  induction s with
  | nil => exact absurd h List.not_mem_nil
  | cons b s ih =>
    rw [List.cons_append, cutAt, cutAt]
    by_cases hb : b = c
    · rw [if_pos hb, if_pos hb]
    · have hmem : c ∈ s := (List.mem_cons.mp h).resolve_left (Ne.symm hb)
      rw [if_neg hb, if_neg hb, ih hmem]

theorem cutAt_length_lt {c : UInt8} {s : Bytes} (h : c ∈ s) :
    (cutAt c s).1.length < s.length := by
  induction s with
  | nil => exact absurd h List.not_mem_nil
  | cons b s ih =>
    rw [cutAt]
    by_cases hb : b = c
    · rw [if_pos hb]
      exact Nat.succ_pos _
    · have hmem : c ∈ s := (List.mem_cons.mp h).resolve_left (Ne.symm hb)
      rw [if_neg hb]
      exact Nat.succ_lt_succ (ih hmem)

theorem cutAt_of_not_mem {c : UInt8} {s : Bytes} (h : c ∉ s) : cutAt c s = (s, none) := by
  have happend := cutAt_append h []
  rwa [List.append_nil, cutAt, List.append_nil] at happend

theorem cutAt_length_le (c : UInt8) (s : Bytes) : (cutAt c s).1.length ≤ s.length := by
  by_cases hmem : c ∈ s
  · exact (cutAt_length_lt hmem).le
  · rw [cutAt_of_not_mem hmem]

theorem cutAt_snd_suffix {c : UInt8} {s rest : Bytes} (h : (cutAt c s).2 = some rest) :
    rest <:+ s := by
  induction s with
  | nil => cases h
  | cons b s ih =>
    rw [cutAt] at h
    split at h
    · cases h
      exact List.suffix_cons _ _
    · exact (ih h).trans (List.suffix_cons _ _)

/-! ## Hexadecimal -/

/-- `hex.EncodeToString`. -/
def hexEncode (b : Bytes) : Bytes :=
  b.flatMap (fun x => [digitByte (x.toNat / 16), digitByte (x.toNat % 16)])

@[simp] theorem hexEncode_nil : hexEncode [] = [] := rfl

theorem hexEncode_cons (x : UInt8) (b : Bytes) :
    hexEncode (x :: b) = digitByte (x.toNat / 16) :: digitByte (x.toNat % 16) :: hexEncode b := rfl

theorem hexEncode_length (b : Bytes) : (hexEncode b).length = 2 * b.length := by
  induction b with
  | nil => rfl
  | cons x b ih =>
    rw [hexEncode_cons]
    simp only [List.length_cons, ih]
    omega

/-- A hexadecimal digit as it is written: never a slash, a dot or a percent sign. -/
def IsHexDigit (c : UInt8) : Prop := ∃ d < 16, c = digitByte d

theorem hexEncode_digits {b : Bytes} {c : UInt8} (h : c ∈ hexEncode b) : IsHexDigit c := by
  obtain ⟨x, -, hx⟩ := List.mem_flatMap.mp h
  have hlt := x.toNat_lt
  simp only [List.mem_cons, List.not_mem_nil, or_false] at hx
  rcases hx with rfl | rfl
  · exact ⟨_, by omega, rfl⟩
  · exact ⟨_, Nat.mod_lt _ (by omega), rfl⟩

theorem IsHexDigit.ne_of_lt {c : UInt8} (h : IsHexDigit c) {d : UInt8} (hd : d.toNat < 48) :
    c ≠ d := by
  obtain ⟨n, hn, rfl⟩ := h
  rintro rfl
  interval_cases n <;> exact absurd hd (by decide)

theorem hexEncode_injective : Function.Injective hexEncode := by
  intro a
  induction a with
  | nil =>
    intro b h
    cases b with
    | nil => rfl
    | cons y b => simp [hexEncode_cons] at h
  | cons x a ih =>
    intro b h
    cases b with
    | nil => simp [hexEncode_cons] at h
    | cons y b =>
      have hx := x.toNat_lt
      have hy := y.toNat_lt
      simp only [hexEncode_cons, List.cons.injEq] at h
      obtain ⟨hhi, hlo, htl⟩ := h
      have hhi' := digitByte_inj (by omega) (by omega) hhi
      have hlo' := digitByte_inj (by omega) (by omega) hlo
      have hxy : x = y := UInt8.toNat_inj.mp (by omega)
      rw [hxy, ih htl]

/-! ## Integers -/

/-- The digits of `n`, most significant first; `fuel` bounds their number. -/
def formatDigits (base : ℕ) : ℕ → ℕ → Bytes
  | 0, _ => []
  | fuel + 1, n =>
    if n < base then [digitByte n]
    else formatDigits base fuel (n / base) ++ [digitByte (n % base)]

/-- `strconv.FormatInt`, and `%v` of an integer in base ten. -/
def formatInt (base : ℕ) : ℤ → Bytes
  | .ofNat n => formatDigits base (n + 1) n
  | .negSucc n => 45 :: formatDigits base (n + 2) (n + 1)

def parseDigits (base : ℕ) (s : Bytes) : Option ℕ :=
  if s = [] then none
  else s.foldlM (fun n c => (digitValue c).bind fun d =>
    if d < base then some (n * base + d) else none) 0

/-- `strconv.ParseInt(s, base, bitSize)`; both kinds of error are `none`. -/
def parseInt (s : Bytes) (base bitSize : ℕ) : Option ℤ :=
  match s with
  | 45 :: s => (parseDigits base s).bind fun n => if n ≤ 2 ^ (bitSize - 1) then some (-n) else none
  | 43 :: s => (parseDigits base s).bind fun n => if n < 2 ^ (bitSize - 1) then some n else none
  | s => (parseDigits base s).bind fun n => if n < 2 ^ (bitSize - 1) then some n else none

theorem formatDigits_ne_nil (base fuel n : ℕ) : formatDigits base (fuel + 1) n ≠ [] := by
  unfold formatDigits
  split <;> simp

theorem foldlM_formatDigits {base : ℕ} (hb : 2 ≤ base) (hb' : base ≤ 36) :
    ∀ (fuel n : ℕ), n < fuel →
      (formatDigits base fuel n).foldlM
        (fun n c => (digitValue c).bind fun d => if d < base then some (n * base + d) else none) 0
        = some n
  | 0, n, h => by omega
  | fuel + 1, n, h => by
    unfold formatDigits
    split
    · next hn =>
      simp [digitValue_digitByte (show n < 36 by omega), hn]
    · next hn =>
      have hmod : n % base < base := Nat.mod_lt n (by omega)
      have hdiv : n / base < n := Nat.div_lt_self (by omega) (by omega)
      rw [List.foldlM_append, foldlM_formatDigits hb hb' fuel (n / base) (by omega)]
      have hn' : n / base * base + n % base = n := by
        rw [Nat.mul_comm]; exact Nat.div_add_mod n base
      simp [digitValue_digitByte (show n % base < 36 by omega), hmod, hn']

theorem parseDigits_formatDigits {base : ℕ} (hb : 2 ≤ base) (hb' : base ≤ 36) (n : ℕ) :
    parseDigits base (formatDigits base (n + 1) n) = some n := by
  unfold parseDigits
  rw [if_neg (formatDigits_ne_nil base n n)]
  exact foldlM_formatDigits hb hb' (n + 1) n (Nat.lt_succ_self n)

theorem formatDigits_head {base : ℕ} (hb : 2 ≤ base) (hb' : base ≤ 36) :
    ∀ (fuel n : ℕ), n < fuel → ∃ d < 36, ∃ s, formatDigits base fuel n = digitByte d :: s
  | 0, n, h => by omega
  | fuel + 1, n, h => by
    unfold formatDigits
    split
    · next hn => exact ⟨n, by omega, [], rfl⟩
    · next hn =>
      have hdiv : n / base < n := Nat.div_lt_self (by omega) (by omega)
      obtain ⟨d, hd, s, hs⟩ := formatDigits_head hb hb' fuel (n / base) (by omega)
      exact ⟨d, hd, s ++ [digitByte (n % base)], by rw [hs]; rfl⟩

theorem parseInt_formatInt_ofNat {base bitSize n : ℕ} (hb : 2 ≤ base) (hb' : base ≤ 36)
    (hn : n < 2 ^ (bitSize - 1)) :
    parseInt (formatInt base (n : ℤ)) base bitSize = some (n : ℤ) := by
  have hp := parseDigits_formatDigits hb hb' n
  obtain ⟨d, hd, s, hs⟩ := formatDigits_head hb hb' (n + 1) n (Nat.lt_succ_self n)
  have hf : formatInt base (n : ℤ) = digitByte d :: s := hs
  rw [hs] at hp
  have h45 : digitByte d ≠ 45 := by interval_cases d <;> decide
  have h43 : digitByte d ≠ 43 := by interval_cases d <;> decide
  rw [hf]
  unfold parseInt
  split
  · next heq => exact absurd (List.cons.inj heq).1 h45
  · next heq => exact absurd (List.cons.inj heq).1 h43
  · rw [hp]
    simp [hn]

theorem parseInt_formatInt {base bitSize : ℕ} {n : ℤ} (hb : 2 ≤ base) (hb' : base ≤ 36)
    (hlow : -((2 ^ (bitSize - 1) : ℕ) : ℤ) ≤ n) (hhigh : n < ((2 ^ (bitSize - 1) : ℕ) : ℤ)) :
    parseInt (formatInt base n) base bitSize = some n := by
  cases n with
  | ofNat n => exact parseInt_formatInt_ofNat hb hb' (Int.ofNat_lt.mp hhigh)
  | negSucc n =>
    have hbound : n + 1 ≤ 2 ^ (bitSize - 1) := by
      rw [Int.negSucc_eq] at hlow
      omega
    have hdigits := parseDigits_formatDigits hb hb' (n + 1)
    have hformat : formatInt base (Int.negSucc n) = 45 :: formatDigits base (n + 1 + 1) (n + 1) :=
      rfl
    rw [hformat, parseInt, hdigits, Option.bind_some, if_pos hbound]
    rfl

theorem formatDigits_digits {base : ℕ} (hb : 2 ≤ base) (hb' : base ≤ 36) :
    ∀ (fuel n : ℕ), ∀ c ∈ formatDigits base fuel n, ∃ d < 36, c = digitByte d
  | 0, _, _, hc => absurd hc List.not_mem_nil
  | fuel + 1, n, c, hc => by
    unfold formatDigits at hc
    split at hc
    · next hn => exact ⟨n, by omega, List.mem_singleton.mp hc⟩
    · rcases List.mem_append.mp hc with hc | hc
      · exact formatDigits_digits hb hb' fuel (n / base) c hc
      · have hmod : n % base < base := Nat.mod_lt n (by omega)
        exact ⟨n % base, by omega, List.mem_singleton.mp hc⟩

theorem formatInt_digits {base : ℕ} (hb : 2 ≤ base) (hb' : base ≤ 36) (n : ℤ) :
    ∀ c ∈ formatInt base n, c = 45 ∨ ∃ d < 36, c = digitByte d := by
  intro c hc
  cases n with
  | ofNat n => exact .inr (formatDigits_digits hb hb' (n + 1) n c hc)
  | negSucc n =>
    rcases List.mem_cons.mp hc with hc | hc
    · exact .inl hc
    · exact .inr (formatDigits_digits hb hb' (n + 2) (n + 1) c hc)

theorem formatInt_ne_nil (base : ℕ) (n : ℤ) : formatInt base n ≠ [] := by
  cases n with
  | ofNat n => exact formatDigits_ne_nil base n n
  | negSucc n => exact List.cons_ne_nil _ _

/-! ## Padded numbers -/

/-- `%0wd` of a natural number in a width `w`. -/
def formatPadded (width n : ℕ) : Bytes :=
  List.replicate (width - (formatDigits 10 (n + 1) n).length) 48 ++ formatDigits 10 (n + 1) n

theorem foldlM_zeros (k : ℕ) :
    (List.replicate k (48 : UInt8)).foldlM
      (fun n c => (digitValue c).bind fun d => if d < 10 then some (n * 10 + d) else none) 0
      = some 0 := by
  induction k with
  | zero => rfl
  | succ k ih =>
    rw [List.replicate_succ, List.foldlM_cons]
    exact ih

theorem parseDigits_formatPadded (width n : ℕ) :
    parseDigits 10 (formatPadded width n) = some n := by
  have hdigits := foldlM_formatDigits (show 2 ≤ 10 by omega) (show 10 ≤ 36 by omega) (n + 1) n
    (Nat.lt_succ_self n)
  have hne : formatPadded width n ≠ [] := by
    intro hnil
    exact formatDigits_ne_nil 10 n n (List.append_eq_nil_iff.mp hnil).2
  rw [parseDigits, if_neg hne, formatPadded, List.foldlM_append, foldlM_zeros]
  exact hdigits

theorem formatPadded_injective (width : ℕ) : Function.Injective (formatPadded width) := by
  intro m n h
  have hparse := congrArg (parseDigits 10) h
  rw [parseDigits_formatPadded, parseDigits_formatPadded] at hparse
  exact Option.some.inj hparse

theorem formatDigits_length_le {base : ℕ} (fuel n k : ℕ) (hk : n < base ^ (k + 1)) :
    (formatDigits base fuel n).length ≤ k + 1 := by
  induction fuel generalizing n k with
  | zero => simp [formatDigits]
  | succ fuel ih =>
    unfold formatDigits
    by_cases hn : n < base
    · rw [if_pos hn]
      simp
    · rw [if_neg hn]
      cases k with
      | zero =>
        rw [Nat.pow_one] at hk
        exact absurd hk hn
      | succ k =>
        have hdiv : n / base < base ^ (k + 1) := by
          rw [Nat.pow_succ] at hk
          exact Nat.div_lt_of_lt_mul (by rwa [Nat.mul_comm])
        have hlength := ih (n / base) k hdiv
        simp only [List.length_append, List.length_singleton]
        omega

theorem formatPadded_length {width n : ℕ} (h : n < 10 ^ (width + 1)) :
    (formatPadded (width + 1) n).length = width + 1 := by
  have hdigits := formatDigits_length_le (n + 1) n width h
  rw [formatPadded, List.length_append, List.length_replicate]
  omega

example : formatPadded 5 42 = ascii "00042" := by decide

example : formatInt 8 420 = ascii "644" := by decide

end BitsService
