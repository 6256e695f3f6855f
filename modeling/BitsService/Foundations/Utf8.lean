import BitsService.Foundations.Bytes

/-! # UTF-8 as `encoding/json` sees it

Strings that go out as JSON and come back are coerced: every byte that does not belong to a valid
rune becomes the replacement character. -/
namespace BitsService
set_option autoImplicit false

def isTail (c : UInt8) : Bool := 0x80 ≤ c && c ≤ 0xbf

/-- The length of the valid rune at the front, or zero. -/
def runeLength : Bytes → ℕ
  | [] => 0
  | c :: s =>
    if c < 0x80 then 1
    else if 0xc2 ≤ c ∧ c ≤ 0xdf then
      match s with
      | d :: _ => if isTail d then 2 else 0
      | _ => 0
    else if 0xe0 ≤ c ∧ c ≤ 0xef then
      match s with
      | d :: e :: _ =>
        if isTail d ∧ isTail e ∧ (c = 0xe0 → 0xa0 ≤ d) ∧ (c = 0xed → d ≤ 0x9f) then 3 else 0
      | _ => 0
    else if 0xf0 ≤ c ∧ c ≤ 0xf4 then
      match s with
      | d :: e :: f :: _ =>
        if isTail d ∧ isTail e ∧ isTail f ∧ (c = 0xf0 → 0x90 ≤ d) ∧ (c = 0xf4 → d ≤ 0x8f) then 4
        else 0
      | _ => 0
    else 0

theorem runeLength_le (s : Bytes) : runeLength s ≤ s.length := by
  cases s with
  | nil => exact le_refl _
  | cons c s =>
    simp only [runeLength]
    split
    · simp
    split
    · split
      · split <;> simp
      · simp
    split
    · split
      · split <;> simp
      · simp
    split
    · split
      · split <;> simp
      · simp
    · simp

/-- The length of a rune is told by the rune alone. -/
theorem runeLength_take_append {s : Bytes} (h : runeLength s ≠ 0) (t : Bytes) :
    runeLength (s.take (runeLength s) ++ t) = runeLength s := by
  cases s with
  | nil => exact absurd rfl h
  | cons c s =>
    simp only [runeLength] at h ⊢
    split at h
    · next h1 => simp [h1]
    next h1 =>
    rw [if_neg h1]
    split at h
    · next h2 =>
      rw [if_pos h2]
      split at h
      · next d s =>
        split at h
        · next hd => simp only [if_pos hd, List.take_succ_cons, List.take_zero, List.cons_append,
            if_neg h1, if_pos h2]
        · exact absurd rfl h
      · exact absurd rfl h
    next h2 =>
    rw [if_neg h2]
    split at h
    · next h3 =>
      rw [if_pos h3]
      split at h
      · next d e s =>
        split at h
        · next hd => simp only [if_pos hd, List.take_succ_cons, List.take_zero, List.cons_append,
            if_neg h1, if_neg h2, if_pos h3]
        · exact absurd rfl h
      · exact absurd rfl h
    next h3 =>
    rw [if_neg h3]
    split at h
    · next h4 =>
      rw [if_pos h4]
      split at h
      · next d e f s =>
        split at h
        · next hd => simp only [if_pos hd, List.take_succ_cons, List.take_zero, List.cons_append,
            if_neg h1, if_neg h2, if_neg h3, if_pos h4]
        · exact absurd rfl h
      · exact absurd rfl h
    · exact absurd rfl h

theorem isTail_ne_percent {c : UInt8} (h : isTail c = true) : c ≠ 37 := by
  rintro rfl
  exact absurd h (by decide)

theorem not_mem_take_runeLength {c : UInt8} {s : Bytes} (h : c ≠ 37) :
    37 ∉ (c :: s).take (runeLength (c :: s)) := by
  have htail : ∀ {d : UInt8}, isTail d = true → 37 ≠ d := fun hd => (isTail_ne_percent hd).symm
  simp only [runeLength]
  split
  · simp [h.symm]
  split
  · split
    · next d s =>
      split
      · next hd => simp [h.symm, htail hd]
      · simp
    · simp
  split
  · split
    · next d e s =>
      split
      · next hd => simp [h.symm, htail hd.1, htail hd.2.1]
      · simp
    · simp
  split
  · split
    · next d e f s =>
      split
      · next hd => simp [h.symm, htail hd.1, htail hd.2.1, htail hd.2.2.1]
      · simp
    · simp
  · simp

/-- Fuel bounds the number of runes. -/
def coerceRunes : ℕ → Bytes → Bytes
  | fuel + 1, c :: s =>
    match runeLength (c :: s) with
    | 0 => [0xef, 0xbf, 0xbd] ++ coerceRunes fuel s
    | n => (c :: s).take n ++ coerceRunes fuel ((c :: s).drop n)
  | _, _ => []

def coerceUtf8 (s : Bytes) : Bytes := coerceRunes s.length s

def validRunes : ℕ → Bytes → Bool
  | _, [] => true
  | 0, _ => false
  | fuel + 1, s => runeLength s != 0 && validRunes fuel (s.drop (runeLength s))

def validUtf8 (s : Bytes) : Bool := validRunes s.length s

theorem coerceRunes_of_valid (fuel : ℕ) (s : Bytes) (h : validRunes fuel s = true) :
    coerceRunes fuel s = s := by
  induction fuel generalizing s with
  | zero =>
    cases s with
    | nil => rfl
    | cons c s => simp [validRunes] at h
  | succ fuel ih =>
    cases s with
    | nil => rfl
    | cons c s =>
      simp only [validRunes, Bool.and_eq_true, bne_iff_ne, ne_eq] at h
      obtain ⟨hne, hrest⟩ := h
      unfold coerceRunes
      split
      · next h0 => exact absurd h0 hne
      · rw [ih _ hrest, List.take_append_drop]

theorem coerceUtf8_of_valid {s : Bytes} (h : validUtf8 s = true) : coerceUtf8 s = s :=
  coerceRunes_of_valid s.length s h

theorem validRunes_of_ascii (s : Bytes) (h : ∀ c ∈ s, c < 0x80) :
    validRunes s.length s = true := by
  induction s with
  | nil => rfl
  | cons c s ih =>
    have hc : c < 0x80 := h c List.mem_cons_self
    have hlen : runeLength (c :: s) = 1 := if_pos hc
    simp only [List.length_cons, validRunes, hlen, List.drop_succ_cons, List.drop_zero]
    exact ih (fun d hd => h d (List.mem_cons_of_mem _ hd))

theorem coerceUtf8_of_ascii {s : Bytes} (h : ∀ c ∈ s, c < 0x80) : coerceUtf8 s = s :=
  coerceUtf8_of_valid (validRunes_of_ascii s h)

theorem coerceRunes_cons (fuel : ℕ) (c : UInt8) (s : Bytes) :
    coerceRunes (fuel + 1) (c :: s) =
      if runeLength (c :: s) = 0 then [0xef, 0xbf, 0xbd] ++ coerceRunes fuel s
      else (c :: s).take (runeLength (c :: s)) ++
        coerceRunes fuel ((c :: s).drop (runeLength (c :: s))) := by
  rw [coerceRunes]
  split
  · next h => rw [if_pos h]
  · next h => rw [if_neg h]

theorem length_drop_runeLength {fuel : ℕ} {c : UInt8} {s : Bytes} (h : s.length ≤ fuel)
    (hlen : runeLength (c :: s) ≠ 0) :
    ((c :: s).drop (runeLength (c :: s))).length ≤ fuel := by
  have hpos := Nat.pos_of_ne_zero hlen
  rw [List.length_drop, List.length_cons]
  omega

theorem length_coerceRunes (fuel : ℕ) (s : Bytes) (h : s.length ≤ fuel) :
    s.length ≤ (coerceRunes fuel s).length := by
  induction fuel generalizing s with
  | zero =>
    cases s with
    | nil => exact le_refl _
    | cons c s => exact absurd h (by simp)
  | succ fuel ih =>
    cases s with
    | nil => exact le_refl _
    | cons c s =>
      have hs : s.length ≤ fuel := Nat.le_of_succ_le_succ h
      rw [coerceRunes_cons]
      by_cases hlen : runeLength (c :: s) = 0
      · have htail := ih s hs
        rw [if_pos hlen]
        simp only [List.length_append, List.length_cons, List.length_nil]
        omega
      · have htail := ih _ (length_drop_runeLength hs hlen)
        rw [if_neg hlen]
        simp only [List.length_append, List.length_take, List.length_drop] at htail ⊢
        omega

/-- Only UTF-8 is left as it is. -/
theorem validRunes_of_coerceRunes (fuel : ℕ) (s : Bytes) (hfuel : s.length ≤ fuel)
    (h : coerceRunes fuel s = s) : validRunes fuel s = true := by
  induction fuel generalizing s with
  | zero =>
    cases s with
    | nil => rfl
    | cons c s => exact absurd hfuel (by simp)
  | succ fuel ih =>
    cases s with
    | nil => rfl
    | cons c s =>
      have hs : s.length ≤ fuel := Nat.le_of_succ_le_succ hfuel
      rw [coerceRunes_cons] at h
      by_cases hlen : runeLength (c :: s) = 0
      · have hlength := congrArg List.length h
        have htail := length_coerceRunes fuel s hs
        rw [if_pos hlen] at hlength
        simp only [List.length_append, List.length_cons, List.length_nil] at hlength
        omega
      · rw [if_neg hlen] at h
        have hrest := List.append_cancel_left (h.trans (List.take_append_drop _ (c :: s)).symm)
        have hvalid := ih _ (length_drop_runeLength hs hlen) hrest
        simp [validRunes, hlen, hvalid]

theorem coerceUtf8_eq_self_iff (s : Bytes) : coerceUtf8 s = s ↔ validUtf8 s = true :=
  ⟨validRunes_of_coerceRunes s.length s (le_refl _), coerceUtf8_of_valid⟩

end BitsService
