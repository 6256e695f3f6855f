import BitsService.Foundations.Utf8

/-! # JSON strings

How `encoding/json` writes a text as a string of JSON and reads it back: bytes that belong to no
rune become the replacement character on the way. -/
namespace BitsService
set_option autoImplicit false

/-! ## Writing -/

/-- `htmlSafeSet`. -/
def htmlSafe (c : UInt8) : Bool := 32 ≤ c && c ∉ ascii "\"&<>\\"

def quoteByte (c : UInt8) : Bytes :=
  if htmlSafe c then [c]
  else if c = 92 ∨ c = 34 then [92, c]
  else if c = 10 then ascii "\\n"
  else if c = 13 then ascii "\\r"
  else if c = 9 then ascii "\\t"
  else ascii "\\u00" ++ [digitByte (c.toNat / 16), digitByte (c.toNat % 16)]

/-- The line and the paragraph separator are escaped. -/
def quoteRune (rune : Bytes) : Bytes :=
  if rune = [0xe2, 0x80, 0xa8] then ascii "\\u2028"
  else if rune = [0xe2, 0x80, 0xa9] then ascii "\\u2029"
  else rune

/-- Fuel bounds the number of runes. -/
def quoteRunes : ℕ → Bytes → Bytes
  | fuel + 1, c :: s =>
    if c < 0x80 then quoteByte c ++ quoteRunes fuel s
    else match runeLength (c :: s) with
      | 0 => ascii "\\ufffd" ++ quoteRunes fuel s
      | n => quoteRune ((c :: s).take n) ++ quoteRunes fuel ((c :: s).drop n)
  | _, _ => []

def quote (s : Bytes) : Bytes := 34 :: (quoteRunes s.length s ++ [34])

/-! ## Reading -/

def encodeRune (r : ℕ) : Bytes :=
  if r < 0x80 then [UInt8.ofNat r]
  else if r < 0x800 then [UInt8.ofNat (0xc0 + r / 64), UInt8.ofNat (0x80 + r % 64)]
  else if r < 0x10000 then
    [UInt8.ofNat (0xe0 + r / 4096), UInt8.ofNat (0x80 + r / 64 % 64), UInt8.ofNat (0x80 + r % 64)]
  else
    [UInt8.ofNat (0xf0 + r / 262144), UInt8.ofNat (0x80 + r / 4096 % 64),
      UInt8.ofNat (0x80 + r / 64 % 64), UInt8.ofNat (0x80 + r % 64)]

def replacement : Bytes := [0xef, 0xbf, 0xbd]

/-- The number of a `\uXXXX` at the front. -/
def getu4 : Bytes → Option ℕ
  | 92 :: 117 :: a :: b :: c :: d :: _ => do
    let w ← digitValue a
    let x ← digitValue b
    let y ← digitValue c
    let z ← digitValue d
    if w < 16 ∧ x < 16 ∧ y < 16 ∧ z < 16 then pure (4096 * w + 256 * x + 16 * y + z) else none
  | _ => none

def isSurrogate (r : ℕ) : Bool := 0xd800 ≤ r && r < 0xe000

/-- What a `\uXXXX` with the number `r` stands for, and what comes after it. -/
def unquoteUnicode (r : ℕ) (s : Bytes) : Bytes × Bytes :=
  if isSurrogate r then
    match getu4 s with
    | some r' =>
      if r < 0xdc00 ∧ 0xdc00 ≤ r' ∧ r' < 0xe000 then
        (encodeRune (0x10000 + (r - 0xd800) * 1024 + (r' - 0xdc00)), s.drop 6)
      else (replacement, s)
    | none => (replacement, s)
  else (encodeRune r, s)

/-- What the escape at the front stands for, and what comes after it. -/
def unquoteEscape (s : Bytes) : Option (Bytes × Bytes) :=
  match s with
  | 92 :: c :: rest =>
    if c ∈ ascii "\"\\/'" then some ([c], rest)
    else if c = 98 then some ([8], rest)
    else if c = 102 then some ([12], rest)
    else if c = 110 then some ([10], rest)
    else if c = 114 then some ([13], rest)
    else if c = 116 then some ([9], rest)
    else (getu4 s).map fun r => unquoteUnicode r (s.drop 6)
  | _ => none

/-- The text between the quotes; fuel bounds the number of escapes and runes. -/
def unquoteRunes : ℕ → Bytes → Option Bytes
  | _, [] => some []
  | 0, _ :: _ => none
  | fuel + 1, c :: s =>
    if c = 92 then (unquoteEscape (c :: s)).bind fun (text, rest) =>
      (unquoteRunes fuel rest).map (text ++ ·)
    else if c = 34 ∨ c < 32 then none
    else if c < 0x80 then (unquoteRunes fuel s).map (c :: ·)
    else match runeLength (c :: s) with
      | 0 => (unquoteRunes fuel s).map (replacement ++ ·)
      | n => (unquoteRunes fuel ((c :: s).drop n)).map ((c :: s).take n ++ ·)

def unquote (literal : Bytes) : Option Bytes :=
  if 2 ≤ literal.length ∧ literal.head? = some 34 ∧ literal.getLast? = some 34 then
    unquoteRunes literal.length (literal.tail.dropLast)
  else none

/-! ## Reading what was written -/

theorem unquoteRunes_escape {token s text : Bytes} (hhead : token.head? = some 92)
    (h : unquoteEscape (token ++ s) = some (text, s)) (fuel : ℕ) :
    unquoteRunes (fuel + 1) (token ++ s) = (unquoteRunes fuel s).map (text ++ ·) := by
  cases token with
  | nil => cases hhead
  | cons c token =>
    obtain rfl := Option.some.inj hhead
    rw [List.cons_append] at h ⊢
    rw [unquoteRunes, if_pos rfl, h]
    rfl

theorem encodeRune_of_lt {r : ℕ} (h : r < 0x80) : encodeRune r = [UInt8.ofNat r] := if_pos h

theorem getu4_control {x y : ℕ} (hx : x < 16) (hy : y < 16) (s : Bytes) :
    getu4 (ascii "\\u00" ++ [digitByte x, digitByte y] ++ s) = some (16 * x + y) := by
  show getu4 (92 :: 117 :: 48 :: 48 :: digitByte x :: digitByte y :: s) = some (16 * x + y)
  have hzero : digitValue 48 = some 0 := rfl
  simp [getu4, hzero, digitValue_digitByte (show x < 36 by omega),
    digitValue_digitByte (show y < 36 by omega), hx, hy]

theorem unquoteEscape_control {c : UInt8} (hc : c < 0x80) (s : Bytes) :
    unquoteEscape (ascii "\\u00" ++ [digitByte (c.toNat / 16), digitByte (c.toNat % 16)] ++ s) =
      some ([c], s) := by
  have hlt : c.toNat < 128 := UInt8.lt_iff_toNat_lt.mp hc
  have hget := getu4_control (x := c.toNat / 16) (y := c.toNat % 16) (by omega)
    (Nat.mod_lt _ (by omega)) s
  have hnat : 16 * (c.toNat / 16) + c.toNat % 16 = c.toNat := Nat.div_add_mod _ _
  have hsurrogate : isSurrogate c.toNat = false := by
    simp [isSurrogate]
    omega
  rw [hnat] at hget
  have hescape : unquoteEscape (ascii "\\u00" ++
      [digitByte (c.toNat / 16), digitByte (c.toNat % 16)] ++ s) =
        (getu4 (ascii "\\u00" ++ [digitByte (c.toNat / 16), digitByte (c.toNat % 16)] ++ s)).map
          fun r => unquoteUnicode r s := rfl
  rw [hescape, hget, Option.map_some, unquoteUnicode, if_neg (by simp [hsurrogate]),
    encodeRune_of_lt hlt, UInt8.ofNat_toNat]

theorem unquoteRunes_quoteByte {c : UInt8} (hc : c < 0x80) (fuel : ℕ) (s : Bytes) :
    unquoteRunes (fuel + 1) (quoteByte c ++ s) = (unquoteRunes fuel s).map ([c] ++ ·) := by
  unfold quoteByte
  split
  · next hsafe =>
    simp only [htmlSafe, Bool.and_eq_true, decide_eq_true_eq] at hsafe
    have h92 : c ≠ 92 := fun h => hsafe.2 (by rw [h]; decide)
    have h34 : c ≠ 34 := fun h => hsafe.2 (by rw [h]; decide)
    have h32 : ¬ c < 32 := UInt8.not_lt.mpr hsafe.1
    rw [List.singleton_append, unquoteRunes, if_neg h92, if_neg (not_or.mpr ⟨h34, h32⟩), if_pos hc]
    rfl
  split
  · next h =>
    rcases h with rfl | rfl
    · exact unquoteRunes_escape rfl rfl fuel
    · exact unquoteRunes_escape rfl rfl fuel
  split
  · next h =>
    rw [h]
    exact unquoteRunes_escape rfl rfl fuel
  split
  · next h =>
    rw [h]
    exact unquoteRunes_escape rfl rfl fuel
  split
  · next h =>
    rw [h]
    exact unquoteRunes_escape rfl rfl fuel
  · exact unquoteRunes_escape rfl (unquoteEscape_control hc s) fuel

theorem unquoteRunes_replacement (fuel : ℕ) (s : Bytes) :
    unquoteRunes (fuel + 1) (ascii "\\ufffd" ++ s) =
      (unquoteRunes fuel s).map (replacement ++ ·) :=
  unquoteRunes_escape rfl rfl fuel

theorem unquoteRunes_rune {c : UInt8} {s : Bytes} (hc : ¬ c < 0x80)
    (h : runeLength (c :: s) ≠ 0) (fuel : ℕ) (t : Bytes) :
    unquoteRunes (fuel + 1) (quoteRune ((c :: s).take (runeLength (c :: s))) ++ t) =
      (unquoteRunes fuel t).map ((c :: s).take (runeLength (c :: s)) ++ ·) := by
  unfold quoteRune
  split
  · next hline =>
    rw [hline]
    exact unquoteRunes_escape rfl rfl fuel
  split
  · next hparagraph =>
    rw [hparagraph]
    exact unquoteRunes_escape rfl rfl fuel
  · obtain ⟨n, hn⟩ := Nat.exists_eq_succ_of_ne_zero h
    have hlen := runeLength_take_append h t
    have hrune : (c :: s).take (runeLength (c :: s)) = c :: s.take n := by
      rw [hn, List.take_succ_cons]
    rw [hrune, List.cons_append] at hlen ⊢
    have hge : 0x80 ≤ c := UInt8.not_lt.mp hc
    have h92 : c ≠ 92 := by
      rintro rfl
      exact absurd hge (by decide)
    have h34 : ¬ (c = 34 ∨ c < 32) := by
      rintro (rfl | hlt)
      · exact absurd hge (by decide)
      · exact absurd (UInt8.lt_trans hlt (by decide : (32 : UInt8) < 0x80)) hc
    rw [unquoteRunes, if_neg h92, if_neg h34, if_neg hc, hlen, hn]
    have hle := runeLength_le (c :: s)
    have htake : (s.take n).length = n := by
      rw [List.length_take]
      rw [hn, List.length_cons] at hle
      omega
    simp [htake]

theorem quoteByte_ne_nil (c : UInt8) : quoteByte c ≠ [] := by
  unfold quoteByte
  repeat' split
  all_goals exact List.cons_ne_nil _ _

theorem quoteRune_ne_nil {rune : Bytes} (h : rune ≠ []) : quoteRune rune ≠ [] := by
  unfold quoteRune
  split
  · exact List.cons_ne_nil _ _
  split
  · exact List.cons_ne_nil _ _
  · exact h

/-- What is read of one token and what follows it. -/
theorem unquoteRunes_token {token text s t : Bytes} {fuel' : ℕ} (hne : token ≠ [])
    (hfuel : (token ++ s).length ≤ fuel')
    (htoken : ∀ fuel, unquoteRunes (fuel + 1) (token ++ s) =
      (unquoteRunes fuel s).map (text ++ ·))
    (hrest : ∀ fuel, s.length ≤ fuel → unquoteRunes fuel s = some t) :
    unquoteRunes fuel' (token ++ s) = some (text ++ t) := by
  have hpos := List.length_pos_iff.mpr hne
  rw [List.length_append] at hfuel
  obtain ⟨fuel, rfl⟩ : ∃ n, fuel' = n + 1 := ⟨fuel' - 1, by omega⟩
  rw [htoken, hrest fuel (by omega)]
  rfl

theorem unquoteRunes_quoteRunes (fuel : ℕ) (s : Bytes) {fuel' : ℕ}
    (h : (quoteRunes fuel s).length ≤ fuel') :
    unquoteRunes fuel' (quoteRunes fuel s) = some (coerceRunes fuel s) := by
  have hnil : ∀ fuel, unquoteRunes fuel [] = some [] := fun fuel => by
    cases fuel with
    | zero => rfl
    | succ fuel => rfl
  induction fuel generalizing s fuel' with
  | zero => exact hnil fuel'
  | succ fuel ih =>
    cases s with
    | nil => exact hnil fuel'
    | cons c s =>
      rw [quoteRunes] at h ⊢
      rw [coerceRunes]
      by_cases hc : c < 0x80
      · have hlen : runeLength (c :: s) = 1 := if_pos hc
        rw [if_pos hc] at h ⊢
        rw [hlen]
        exact unquoteRunes_token (quoteByte_ne_nil c) h
          (fun fuel => unquoteRunes_quoteByte hc fuel _) (fun fuel' hfuel => ih s hfuel)
      · rw [if_neg hc] at h ⊢
        by_cases hlen : runeLength (c :: s) = 0
        · simp only [hlen] at h ⊢
          exact unquoteRunes_token (show ascii "\\ufffd" ≠ [] by decide) h
            (fun fuel => unquoteRunes_replacement fuel _) (fun fuel' hfuel => ih s hfuel)
        · obtain ⟨n, hn⟩ := Nat.exists_eq_succ_of_ne_zero hlen
          have hrune := unquoteRunes_rune hc hlen
          simp only [hn] at h hrune ⊢
          exact unquoteRunes_token (quoteRune_ne_nil (List.cons_ne_nil _ _)) h
            (fun fuel => hrune fuel _) (fun fuel' hfuel => ih _ hfuel)

/-- What is read back is the text, with the replacement character for what is not UTF-8. -/
theorem unquote_quote (s : Bytes) : unquote (quote s) = some (coerceUtf8 s) := by
  have hlast : (34 :: (quoteRunes s.length s ++ [34])).getLast? = some 34 := by
    rw [← List.cons_append, List.getLast?_concat]
  unfold unquote quote
  rw [if_pos ⟨by simp, rfl, hlast⟩, List.tail_cons, List.dropLast_concat]
  refine unquoteRunes_quoteRunes s.length s ?_
  simp only [List.length_cons, List.length_append, List.length_nil]
  omega

/-! ## Percent signs -/

theorem percent_mem_quoteByte {c : UInt8} : 37 ∈ quoteByte c ↔ c = 37 := by
  unfold quoteByte
  split
  · rw [List.mem_singleton]
    exact eq_comm
  · next hsafe =>
    have hc : c ≠ 37 := by
      rintro rfl
      exact hsafe (by decide)
    refine iff_of_false ?_ hc
    have hdigit : ∀ {d : ℕ}, d < 16 → (37 : UInt8) ≠ digitByte d := fun hd =>
      (IsHexDigit.ne_of_lt ⟨_, hd, rfl⟩ (by decide)).symm
    have hlt := c.toNat_lt
    have hhigh := hdigit (d := c.toNat / 16) (by omega)
    have hlow := hdigit (d := c.toNat % 16) (by omega)
    split
    · simpa using hc.symm
    split
    · decide
    split
    · decide
    split
    · decide
    · have hu : (37 : UInt8) ∉ ascii "\\u00" := by decide
      simp [hu, hhigh, hlow]

theorem percent_mem_quoteRune {rune : Bytes} (h : 37 ∉ rune) : 37 ∉ quoteRune rune := by
  unfold quoteRune
  split
  · decide
  split
  · decide
  · exact h

theorem percent_mem_quoteRunes (fuel : ℕ) (s : Bytes) (h : s.length ≤ fuel) :
    37 ∈ quoteRunes fuel s ↔ 37 ∈ s := by
  induction fuel generalizing s with
  | zero =>
    cases s with
    | nil => exact Iff.rfl
    | cons c s => exact absurd h (by simp)
  | succ fuel ih =>
    cases s with
    | nil => exact Iff.rfl
    | cons c s =>
      have hs : s.length ≤ fuel := Nat.le_of_succ_le_succ h
      rw [quoteRunes]
      by_cases hc : c < 0x80
      · rw [if_pos hc, List.mem_append, percent_mem_quoteByte, ih s hs, List.mem_cons, eq_comm]
      · have h37 : c ≠ 37 := by
          rintro rfl
          exact hc (by decide)
        rw [if_neg hc]
        by_cases hlen : runeLength (c :: s) = 0
        · have hu : (37 : UInt8) ∉ ascii "\\ufffd" := by decide
          simp only [hlen]
          rw [List.mem_append, ih s hs]
          simp [hu, h37.symm]
        · have hrune := not_mem_take_runeLength (s := s) h37
          have hdrop := ih _ (length_drop_runeLength hs hlen)
          have hsplit : 37 ∈ c :: s ↔ 37 ∈ (c :: s).drop (runeLength (c :: s)) := by
            conv_lhs => rw [← List.take_append_drop (runeLength (c :: s)) (c :: s)]
            rw [List.mem_append, or_iff_right hrune]
          obtain ⟨n, hn⟩ := Nat.exists_eq_succ_of_ne_zero hlen
          rw [hsplit, ← hdrop]
          rw [hn] at hrune ⊢
          simp only
          rw [List.mem_append, or_iff_right (percent_mem_quoteRune hrune)]

theorem percent_mem_quote (s : Bytes) : 37 ∈ quote s ↔ 37 ∈ s := by
  rw [← percent_mem_quoteRunes s.length s (le_refl _), quote]
  simp

end BitsService
