import BitsService.Foundations.Url
import Mathlib.Algebra.Order.BigOperators.Group.List

/-! # How much a query can say

The values of a query are no longer than its text. A query that says as much as its text has room
for has no escapes, and none but the separators between its values. -/
namespace BitsService
set_option autoImplicit false

def separates (c : UInt8) : Bool := c = 38 ∨ c = 59

/-- The text of a pair, with the separator after it. -/
def pairWeight (p : Bytes × Bytes) : ℕ := p.1.length + p.2.length + 2

/-! ## One pair -/

theorem cutAt_lengths {c : UInt8} {s t : Bytes} (h : (cutAt c s).2 = some t) :
    (cutAt c s).1.length + t.length + 1 = s.length ∧
      ∀ b ∈ s, b ≠ c → b ∈ (cutAt c s).1 ∨ b ∈ t := by
  induction s with
  | nil => cases h
  | cons b s ih =>
    rw [cutAt] at h ⊢
    by_cases hb : b = c
    · rw [if_pos hb] at h ⊢
      cases h
      refine ⟨by simp, fun d hd hne => ?_⟩
      exact .inr ((List.mem_cons.mp hd).resolve_left fun h => hne (h.trans hb))
    · rw [if_neg hb] at h ⊢
      obtain ⟨hlength, hmem⟩ := ih h
      refine ⟨by simp only [List.length_cons]; omega, fun d hd hne => ?_⟩
      rcases List.mem_cons.mp hd with rfl | hd
      · exact .inl List.mem_cons_self
      · rcases hmem d hd hne with hd | hd
        · exact .inl (List.mem_cons_of_mem _ hd)
        · exact .inr hd

theorem parsePair_eq_some {s : Bytes} {p : Bytes × Bytes} (h : parsePair s = some p) :
    unescape true (cutAt 61 s).1 = some p.1 ∧
      unescape true ((cutAt 61 s).2.getD []) = some p.2 := by
  unfold parsePair at h
  by_cases hs : s = []
  · rw [if_pos hs] at h
    cases h
  rw [if_neg hs] at h
  simp only at h
  split at h
  · next hkey hvalue =>
    cases h
    exact ⟨hkey, hvalue⟩
  · cases h

/-- A pair with a value is no longer than its text, and shorter where there is an escape. -/
theorem parsePair_weight {s : Bytes} {p : Bytes × Bytes} (h : parsePair s = some p)
    (hne : p.2 ≠ []) : pairWeight p ≤ s.length + 1 ∧ (37 ∈ s → pairWeight p < s.length + 1) := by
  obtain ⟨hkey, hvalue⟩ := parsePair_eq_some h
  cases hcut : (cutAt 61 s).2 with
  | none =>
    rw [hcut] at hvalue
    exact absurd (Option.some.inj hvalue).symm hne
  | some value =>
    rw [hcut] at hvalue
    obtain ⟨hlength, hmem⟩ := cutAt_lengths hcut
    obtain ⟨hkeyle, hkeylt⟩ := unescape_length hkey
    obtain ⟨hvaluele, hvaluelt⟩ := unescape_length hvalue
    rw [Option.getD_some] at hvaluele hvaluelt
    unfold pairWeight
    refine ⟨by omega, fun hescape => ?_⟩
    rcases hmem 37 hescape (by decide) with hin | hin
    · have hlt := hkeylt hin
      omega
    · have hlt := hvaluelt hin
      omega

/-- A plus sign is a space, unless it was escaped. -/
theorem plus_not_mem_unescape {s t : Bytes} (h : unescape true s = some t) (hescape : 37 ∉ s) :
    43 ∉ t := by
  induction s generalizing t with
  | nil =>
    cases h
    exact List.not_mem_nil
  | cons c s ih =>
    simp only [List.mem_cons, not_or] at hescape
    by_cases hplus : c = 43
    · subst hplus
      rw [unescape] at h
      obtain ⟨t', ht', rfl⟩ := Option.map_eq_some_iff.mp h
      simp [ih ht' hescape.2]
    · rw [unescape_cons (Ne.symm hescape.1) fun _ => hplus] at h
      obtain ⟨t', ht', rfl⟩ := Option.map_eq_some_iff.mp h
      simp [ih ht' hescape.2, Ne.symm hplus]

/-! ## The separators -/

theorem splitBy_lengths (p : UInt8 → Bool) (s : Bytes) :
    ((splitBy p s).map fun segment => segment.length + 1).sum = s.length + 1 := by
  induction s with
  | nil => rfl
  | cons c s ih =>
    rw [splitBy]
    by_cases hc : p c = true
    · rw [if_pos hc, List.map_cons, List.sum_cons, ih]
      simp only [List.length_nil, List.length_cons]
      omega
    · rw [if_neg hc]
      cases hsplit : splitBy p s with
      | nil =>
        rw [hsplit] at ih
        simp only [List.map_nil, List.sum_nil] at ih
        omega
      | cons part parts =>
        rw [hsplit] at ih
        simp only [List.map_cons, List.sum_cons, List.length_cons] at ih ⊢
        omega

theorem splitBy_ne_nil (p : UInt8 → Bool) (s : Bytes) : splitBy p s ≠ [] := by
  intro h
  have hlengths := splitBy_lengths p s
  rw [h] at hlengths
  simp at hlengths

theorem length_splitBy (p : UInt8 → Bool) (s : Bytes) :
    (splitBy p s).length = s.countP p + 1 := by
  induction s with
  | nil => rfl
  | cons c s ih =>
    rw [splitBy]
    by_cases hc : p c = true
    · rw [if_pos hc, List.countP_cons_of_pos hc, List.length_cons, ih]
    · rw [if_neg hc, List.countP_cons_of_neg hc, ← ih]
      cases hsplit : splitBy p s with
      | nil => exact absurd hsplit (splitBy_ne_nil p s)
      | cons part parts => rfl

/-- What is no separator is in one of the segments. -/
theorem mem_splitBy {p : UInt8 → Bool} {s : Bytes} {c : UInt8} (hmem : c ∈ s)
    (hc : p c = false) : ∃ segment ∈ splitBy p s, c ∈ segment := by
  induction s with
  | nil => exact absurd hmem List.not_mem_nil
  | cons d s ih =>
    rw [splitBy]
    by_cases hd : p d = true
    · have hin : c ∈ s := (List.mem_cons.mp hmem).resolve_left fun h => by
        rw [h, hd] at hc
        cases hc
      obtain ⟨segment, hsegment, hcin⟩ := ih hin
      rw [if_pos hd]
      exact ⟨segment, List.mem_cons_of_mem _ hsegment, hcin⟩
    · rw [if_neg hd]
      cases hsplit : splitBy p s with
      | nil => exact absurd hsplit (splitBy_ne_nil p s)
      | cons part parts =>
        rcases List.mem_cons.mp hmem with rfl | hin
        · exact ⟨_, List.mem_cons_self, List.mem_cons_self⟩
        · obtain ⟨segment, hsegment, hcin⟩ := ih hin
          rw [hsplit] at hsegment
          rcases List.mem_cons.mp hsegment with rfl | hsegment
          · exact ⟨_, List.mem_cons_self, List.mem_cons_of_mem _ hcin⟩
          · exact ⟨segment, List.mem_cons_of_mem _ hsegment, hcin⟩

/-! ## The whole query -/

/-- What segments say takes no more room than they do; with no room left, each says something, and
without escapes. -/
theorem filterMap_parsePair_weight (segments : List Bytes)
    (h : ∀ p ∈ segments.filterMap parsePair, p.2 ≠ []) :
    ((segments.filterMap parsePair).map pairWeight).sum ≤
        (segments.map fun segment => segment.length + 1).sum ∧
      (((segments.filterMap parsePair).map pairWeight).sum =
          (segments.map fun segment => segment.length + 1).sum →
        (segments.filterMap parsePair).length = segments.length ∧
          ∀ segment ∈ segments, 37 ∉ segment) := by
  induction segments with
  | nil => exact ⟨le_rfl, fun _ => ⟨rfl, by simp⟩⟩
  | cons segment segments ih =>
    cases hparse : parsePair segment with
    | none =>
      rw [List.filterMap_cons_none hparse] at h ⊢
      obtain ⟨hle, -⟩ := ih h
      simp only [List.map_cons, List.sum_cons]
      exact ⟨by omega, fun heq => by omega⟩
    | some p =>
      rw [List.filterMap_cons_some hparse] at h ⊢
      obtain ⟨hle, htight⟩ := ih fun q hq => h q (List.mem_cons_of_mem _ hq)
      obtain ⟨hweight, hescape⟩ := parsePair_weight hparse (h p List.mem_cons_self)
      simp only [List.map_cons, List.sum_cons, List.length_cons]
      refine ⟨by omega, fun heq => ?_⟩
      obtain ⟨hlength, hplain⟩ := htight (by omega)
      refine ⟨by omega, fun s hs => ?_⟩
      rcases List.mem_cons.mp hs with rfl | hs
      · intro hmem
        have hlt := hescape hmem
        omega
      · exact hplain s hs

/-- A query that says as much as there is room for. -/
theorem parseQuery_weight {query : Bytes} {pairs : List (Bytes × Bytes)}
    (hperm : (parseQuery query).Perm pairs) (hvalues : ∀ p ∈ pairs, p.2 ≠ []) :
    (pairs.map pairWeight).sum ≤ query.length + 1 ∧
      ((pairs.map pairWeight).sum = query.length + 1 →
        37 ∉ query ∧ pairs.length = query.countP separates + 1) := by
  have hsum : ((parseQuery query).map pairWeight).sum = (pairs.map pairWeight).sum :=
    (hperm.map pairWeight).sum_eq
  obtain ⟨hle, htight⟩ := filterMap_parsePair_weight (splitBy separates query) fun p hp =>
    hvalues p (hperm.subset hp)
  rw [splitBy_lengths] at hle htight
  have hsplit : (splitBy separates query).filterMap parsePair = parseQuery query := rfl
  rw [hsplit, hsum] at hle htight
  refine ⟨hle, fun heq => ?_⟩
  obtain ⟨hlength, hplain⟩ := htight heq
  refine ⟨fun hmem => ?_, ?_⟩
  · obtain ⟨segment, hsegment, hin⟩ := mem_splitBy hmem (p := separates) (by decide)
    exact hplain segment hsegment hin
  · rw [← hperm.length_eq, hlength, length_splitBy]

theorem mem_of_mem_splitBy {p : UInt8 → Bool} {s segment : Bytes} (h : segment ∈ splitBy p s)
    {c : UInt8} (hc : c ∈ segment) : c ∈ s := by
  induction s generalizing segment with
  | nil =>
    rw [List.mem_singleton.mp h] at hc
    exact absurd hc List.not_mem_nil
  | cons d s ih =>
    rw [splitBy] at h
    by_cases hd : p d = true
    · rw [if_pos hd] at h
      rcases List.mem_cons.mp h with rfl | h
      · exact absurd hc List.not_mem_nil
      · exact List.mem_cons_of_mem _ (ih h hc)
    · rw [if_neg hd] at h
      cases hsplit : splitBy p s with
      | nil => exact absurd hsplit (splitBy_ne_nil p s)
      | cons part parts =>
        rw [hsplit] at h ih
        rcases List.mem_cons.mp h with rfl | h
        · rcases List.mem_cons.mp hc with rfl | hc
          · exact List.mem_cons_self
          · exact List.mem_cons_of_mem _ (ih List.mem_cons_self hc)
        · exact List.mem_cons_of_mem _ (ih (List.mem_cons_of_mem _ h) hc)

theorem plus_not_mem_of_parseQuery {query : Bytes} {p : Bytes × Bytes} (h : p ∈ parseQuery query)
    (hescape : 37 ∉ query) : 43 ∉ p.2 := by
  obtain ⟨segment, hsegment, hparse⟩ := List.mem_filterMap.mp h
  obtain ⟨-, hvalue⟩ := parsePair_eq_some hparse
  refine plus_not_mem_unescape hvalue fun hmem => hescape (mem_of_mem_splitBy hsegment ?_)
  cases hcut : (cutAt 61 segment).2 with
  | none =>
    rw [hcut] at hmem
    exact absurd hmem List.not_mem_nil
  | some value =>
    rw [hcut] at hmem
    exact (cutAt_snd_suffix hcut).subset hmem

/-! ## A query of two parameters -/

/-- None of the bytes that mean something in a query, or end it, but the equals sign. -/
def QueryPlain (s : Bytes) : Prop := (∀ c ∈ s, isValueByte c = true) ∧ 35 ∉ s

/-- `key=value&key'=value'`. -/
def twoParameters (p p' : Bytes × Bytes) : Bytes :=
  p.1 ++ 61 :: p.2 ++ 38 :: (p'.1 ++ 61 :: p'.2)

section TwoParameters
variable {p p' : Bytes × Bytes}

theorem weight_twoParameters :
    ([p, p'].map pairWeight).sum = (twoParameters p p').length + 1 := by
  simp only [List.map_cons, List.map_nil, List.sum_cons, List.sum_nil, pairWeight, twoParameters,
    List.length_append, List.length_cons]
  omega

theorem parseQuery_twoParameters (hkey : ∀ c ∈ p.1, isQueryByte c = true)
    (hvalue : ∀ c ∈ p.2, isValueByte c = true) (hkey' : ∀ c ∈ p'.1, isQueryByte c = true)
    (hvalue' : ∀ c ∈ p'.2, isValueByte c = true) :
    parseQuery (twoParameters p p') = [p, p'] := by
  unfold twoParameters
  rw [parseQuery_pair hkey hvalue, parseQuery_last hkey' hvalue']

/-- A query, cut off at its fragment, that says two parameters says nothing else: the value of the
first one is plain. -/
theorem queryPlain_of_perm
    (hperm : (parseQuery (cutAt 35 (twoParameters p p')).1).Perm [p, p'])
    (hvalue : p.2 ≠ []) (hvalue' : p'.2 ≠ []) : QueryPlain p.2 := by
  have hvalues : ∀ q ∈ [p, p'], q.2 ≠ [] := by
    intro q hq
    rcases List.mem_pair.mp hq with rfl | rfl
    · exact hvalue
    · exact hvalue'
  obtain ⟨hle, htight⟩ := parseQuery_weight hperm hvalues
  rw [weight_twoParameters] at hle htight
  have hfragment : 35 ∉ twoParameters p p' := fun hmem => by
    have hlt := cutAt_length_lt hmem
    omega
  have hmem : ∀ c ∈ p.2, c ∈ twoParameters p p' := fun c hc =>
    List.mem_append_left _ (List.mem_append_right _ (List.mem_cons_of_mem _ hc))
  rw [cutAt_of_not_mem hfragment] at hperm htight
  obtain ⟨hescape, hcount⟩ := htight rfl
  have hplus : 43 ∉ p.2 := plus_not_mem_of_parseQuery (hperm.symm.subset List.mem_cons_self) hescape
  have hseparators : p.2.countP separates = 0 := by
    have hone : separates 38 = true := by decide
    simp only [twoParameters, List.countP_append, List.countP_cons, hone, if_true,
      List.length_cons, List.length_nil] at hcount
    omega
  refine ⟨fun c hc => ?_, fun h => hfragment (hmem 35 h)⟩
  have hnot := List.countP_eq_zero.mp hseparators c hc
  simp only [separates, decide_eq_true_eq, not_or] at hnot
  simp only [isValueByte, Bool.and_eq_true, bne_iff_ne]
  exact ⟨⟨⟨fun h => hescape (hmem 37 (h ▸ hc)), fun h => hplus (h ▸ hc)⟩, hnot.1⟩, hnot.2⟩

end TwoParameters

end BitsService
