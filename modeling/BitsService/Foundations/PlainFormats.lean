import BitsService.Foundations.Fmt

/-! # Texts used as formats

A text that is printed as a format without operands comes out as it is exactly when it has no
percent sign. Every percent sign begins a directive; what comes of it is a percent sign for two, or
a report of an error, which begins with `%!`. -/
namespace BitsService
set_option autoImplicit false

/-! ## What is left of a format -/

theorem flags_suffix (d : Directive) (s : Bytes) : (flags d s).2 <:+ s := by
  fun_induction flags d s with
  | case1 => exact List.suffix_refl _
  | case2 d s ih => exact ih.trans (List.suffix_cons _ _)
  | case3 d s _ ih => exact ih.trans (List.suffix_cons _ _)
  | case4 d s _ _ ih => exact ih.trans (List.suffix_cons _ _)
  | case5 d s _ _ _ ih => exact ih.trans (List.suffix_cons _ _)
  | case6 d s _ _ _ _ ih => exact ih.trans (List.suffix_cons _ _)
  | case7 => exact List.suffix_refl _

theorem parsenumFrom_suffix (num : Option ℕ) (s : Bytes) : (parsenumFrom num s).2 <:+ s := by
  fun_induction parsenumFrom num s with
  | case1 => exact List.suffix_refl _
  | case2 => exact List.nil_suffix
  | case3 num c s _ _ ih => exact ih.trans (List.suffix_cons _ _)
  | case4 => exact List.suffix_refl _

theorem parseArgNumber_suffix (s : Bytes) : (parseArgNumber s).2 <:+ s := by
  unfold parseArgNumber
  split
  · exact List.suffix_refl _
  · split
    · exact List.suffix_refl _
    · next inner rest h =>
      have hrest : rest <:+ s := cutAt_snd_suffix (by rw [h])
      split
      · exact hrest
      · exact hrest

/-! ## Scanning without operands -/

/-- What one part of a scan does: it takes bytes from the front, may note a width or a precision
that is missing, and passes by an exclamation mark. -/
structure Scan.Advances (p p' : Scan) : Prop where
  rest : p'.rest <:+ p.rest
  buf : ∃ marks : List Bytes, (∀ m ∈ marks, m = badWidthString ∨ m = badPrecString) ∧
    p'.buf = p.buf ++ marks.flatten
  still : p.rest.head? = some 33 →
    p'.rest = p.rest ∧ p'.buf = p.buf ∧ p'.goodArgNum = p.goodArgNum

theorem Scan.Advances.refl (p : Scan) : p.Advances p :=
  ⟨List.suffix_refl _, ⟨[], by simp, by simp⟩, fun _ => ⟨rfl, rfl, rfl⟩⟩

theorem Scan.Advances.trans {p₁ p₂ p₃ : Scan} (h : p₁.Advances p₂) (h' : p₂.Advances p₃) :
    p₁.Advances p₃ := by
  obtain ⟨marks, hmarks, hbuf⟩ := h.buf
  obtain ⟨marks', hmarks', hbuf'⟩ := h'.buf
  refine ⟨h'.rest.trans h.rest, ⟨marks ++ marks', fun m hm => ?_, ?_⟩, fun hhead => ?_⟩
  · rcases List.mem_append.mp hm with hm | hm
    · exact hmarks m hm
    · exact hmarks' m hm
  · rw [hbuf', hbuf, List.flatten_append, List.append_assoc]
  · obtain ⟨hrest, hb, hgood⟩ := h.still hhead
    obtain ⟨hrest', hb', hgood'⟩ := h'.still (by rw [hrest]; exact hhead)
    exact ⟨hrest'.trans hrest, hb'.trans hb, hgood'.trans hgood⟩

/-- A part that writes nothing, and begins at something else than an exclamation mark. -/
theorem Scan.Advances.of_rest {p p' : Scan} (hrest : p'.rest <:+ p.rest) (hbuf : p'.buf = p.buf)
    (hhead : p.rest.head? ≠ some 33) : p.Advances p' :=
  ⟨hrest, ⟨[], by simp, by simp [hbuf]⟩, fun h => absurd h hhead⟩

theorem Scan.Advances.of_mark {p p' : Scan} {m : Bytes} (hrest : p'.rest <:+ p.rest)
    (hm : m = badWidthString ∨ m = badPrecString) (hbuf : p'.buf = p.buf ++ m)
    (hhead : p.rest.head? ≠ some 33) : p.Advances p' :=
  ⟨hrest, ⟨[m], by simpa using hm, by simp [hbuf]⟩, fun h => absurd h hhead⟩

theorem advances_argNumber (numArgs : ℕ) (p : Scan) : p.Advances (argNumber numArgs p) := by
  unfold argNumber
  split
  · next s hs =>
    have hhead : p.rest.head? ≠ some 33 := by simp [hs]
    have hsuffix : s <:+ p.rest := by
      rw [hs]
      exact List.suffix_cons _ _
    have hnumber := (parseArgNumber_suffix s).trans hsuffix
    split
    · next rest h =>
      rw [h] at hnumber
      exact .of_rest hnumber rfl hhead
    · next n rest h =>
      rw [h] at hnumber
      split
      · exact .of_rest hnumber rfl hhead
      · exact .of_rest hnumber rfl hhead
  · exact ⟨List.suffix_refl _, ⟨[], by simp, by simp⟩, fun _ => ⟨rfl, rfl, rfl⟩⟩

theorem parsenum_of_head {s : Bytes} (h : s.head? = some 33) : parsenum s = (none, s) := by
  cases s with
  | nil => cases h
  | cons c s =>
    obtain rfl := Option.some.inj h
    rfl

theorem advances_width (p : Scan) : p.Advances (width [] p) := by
  unfold width
  split
  · next s hs =>
    have hhead : p.rest.head? ≠ some 33 := by simp [hs]
    refine .of_mark ?_ (.inl rfl) rfl hhead
    rw [hs]
    exact List.suffix_cons _ _
  · refine ⟨parsenumFrom_suffix _ _, ⟨[], by simp, by simp⟩, fun hhead => ?_⟩
    rw [parsenum_of_head hhead]
    simp

theorem advances_precisionValue (p : Scan) :
    (precisionValue [] p).rest <:+ p.rest ∧
      ∃ marks : List Bytes, (∀ m ∈ marks, m = badWidthString ∨ m = badPrecString) ∧
        (precisionValue [] p).buf = p.buf ++ marks.flatten := by
  unfold precisionValue
  split
  · next s hs =>
    refine ⟨?_, [badPrecString], by simp, by simp [intFromArg]⟩
    rw [hs]
    exact List.suffix_cons _ _
  · exact ⟨parsenumFrom_suffix _ _, [], by simp, by simp⟩

theorem advances_precision (p : Scan) : p.Advances (precision [] p) := by
  unfold precision
  split
  · next s hs =>
    have hhead : p.rest.head? ≠ some 33 := by simp [hs]
    have hnumber := advances_argNumber ([] : List Operand).length
      { p with goodArgNum := p.goodArgNum && !p.afterIndex, rest := s }
    obtain ⟨hrest, marks, hmarks, hbuf⟩ := advances_precisionValue
      (argNumber ([] : List Operand).length
        { p with goodArgNum := p.goodArgNum && !p.afterIndex, rest := s })
    obtain ⟨marks', hmarks', hbuf'⟩ := hnumber.buf
    refine ⟨?_, ⟨marks' ++ marks, fun m hm => ?_, ?_⟩, fun h => absurd h hhead⟩
    · rw [hs]
      exact (hrest.trans hnumber.rest).trans (List.suffix_cons _ _)
    · rcases List.mem_append.mp hm with hm | hm
      · exact hmarks' m hm
      · exact hmarks m hm
    · rw [hbuf, hbuf', List.flatten_append, List.append_assoc]
  · exact .refl p

theorem flags_of_head {s : Bytes} (h : s.head? = some 33) (d : Directive) :
    (flags d s).2 = s := by
  cases s with
  | nil => cases h
  | cons c s =>
    obtain rfl := Option.some.inj h
    rfl

/-- The scan of a directive, from the percent sign on. -/
theorem advances_scanDirective (argNum : ℕ) (reordered : Bool) (s : Bytes) :
    Scan.Advances ⟨.clear, argNum, reordered, true, false, [], s⟩
      (scanDirective [] argNum reordered s) := by
  have hflags : Scan.Advances ⟨.clear, argNum, reordered, true, false, [], s⟩
      ⟨(flags .clear s).1, argNum, reordered, true, false, [], (flags .clear s).2⟩ :=
    ⟨flags_suffix _ _, ⟨[], by simp, by simp⟩, fun h => ⟨flags_of_head h _, rfl, rfl⟩⟩
  have hscan := ((hflags.trans (advances_argNumber 0 _)).trans (advances_width _)).trans
    (advances_precision _)
  unfold scanDirective
  simp only
  split
  · exact hscan
  · exact hscan.trans (advances_argNumber _ _)

/-! ## Formats that print as themselves -/

/-- The percent signs that no exclamation mark follows. -/
def strays : Bytes → ℕ
  | [] => 0
  | c :: s => (if c = 37 ∧ s.head? ≠ some 33 then 1 else 0) + strays s

theorem strays_le_cons (c : UInt8) (s : Bytes) : strays s ≤ strays (c :: s) := Nat.le_add_left _ _

theorem strays_percent_le (s : Bytes) : strays (37 :: s) ≤ 1 + strays s := by
  rw [strays]
  split
  · exact le_refl _
  · omega

theorem strays_of_suffix {s t : Bytes} (h : s <:+ t) : strays s ≤ strays t := by
  obtain ⟨pre, rfl⟩ := h
  induction pre with
  | nil => exact le_refl _
  | cons c pre ih => exact ih.trans (strays_le_cons c _)

theorem strays_append_plain {s : Bytes} (h : 37 ∉ s) (t : Bytes) :
    strays (s ++ t) = strays t := by
  induction s with
  | nil => rfl
  | cons c s ih =>
    simp only [List.mem_cons, not_or] at h
    rw [List.cons_append, strays, if_neg (fun hc => h.1 hc.1.symm), ih h.2, Nat.zero_add]

theorem strays_error {s : Bytes} (h : 37 ∉ s) (t : Bytes) :
    strays (37 :: 33 :: (s ++ t)) = strays t := by
  rw [strays, if_neg (by simp), strays, if_neg (fun hc => absurd hc.1 (by decide)),
    strays_append_plain h]
  omega

theorem strays_marks {marks : List Bytes}
    (h : ∀ m ∈ marks, m = badWidthString ∨ m = badPrecString) (t : Bytes) :
    strays (marks.flatten ++ t) = strays t := by
  induction marks with
  | nil => rfl
  | cons m marks ih =>
    have htail := ih fun m' hm' => h m' (List.mem_cons_of_mem _ hm')
    rw [List.flatten_cons, List.append_assoc, ← htail]
    rcases h m List.mem_cons_self with rfl | rfl
    · exact strays_error (s := ascii "(BADWIDTH)") (by decide) _
    · exact strays_error (s := ascii "(BADPREC)") (by decide) _

theorem marks_head {marks : List Bytes}
    (h : ∀ m ∈ marks, m = badWidthString ∨ m = badPrecString) (t : Bytes) :
    marks = [] ∨ ∃ w, marks.flatten ++ t = 37 :: 33 :: w := by
  cases marks with
  | nil => exact .inl rfl
  | cons m marks =>
    rcases h m List.mem_cons_self with rfl | rfl
    · exact .inr ⟨_, rfl⟩
    · exact .inr ⟨_, rfl⟩

/-! ### Verbs -/

theorem cutRune_suffix (s : Bytes) : (cutRune s).2 <:+ s := by
  unfold cutRune
  split
  · exact List.tail_suffix s
  · exact List.drop_suffix _ s

/-- A verb is a percent sign or has none. -/
theorem cutRune_verb {c : UInt8} (s : Bytes) :
    (c = 37 ∧ cutRune (c :: s) = ([37], s)) ∨ (c ≠ 37 ∧ 37 ∉ (cutRune (c :: s)).1) := by
  by_cases hc : c = 37
  · subst hc
    exact .inl ⟨rfl, rfl⟩
  · refine .inr ⟨hc, ?_⟩
    unfold cutRune
    split
    · simp
    · exact not_mem_take_runeLength hc

/-- What comes of one directive without operands: a percent sign for two, or a report of an error,
which begins with an exclamation mark after the percent sign. An exclamation mark is the verb that
it is. -/
inductive Prints (s : Bytes) (printed : Printed) : Prop where
  | percent (suffix : 37 :: printed.rest <:+ s) (head : s.head? ≠ some 33)
      (text : printed.text = [37])
  | error (suffix : printed.rest <:+ s) (head : s.head? ≠ some 33)
      (strays_le : ∀ t, strays (printed.text ++ t) ≤ 1 + strays t)
      (text : ∃ w, printed.text = 37 :: 33 :: w)
  | exclamation (suffix : s = 33 :: printed.rest) (text : printed.text = ascii "%!!(MISSING)")

theorem strays_report {marks : List Bytes}
    (h : ∀ m ∈ marks, m = badWidthString ∨ m = badPrecString) {w : Bytes} (hw : 37 ∉ w)
    (t : Bytes) : strays (marks.flatten ++ (37 :: 33 :: w) ++ t) ≤ 1 + strays t := by
  rw [List.append_assoc, strays_marks h, List.cons_append, List.cons_append, strays_error hw]
  omega

theorem report_head {marks : List Bytes}
    (h : ∀ m ∈ marks, m = badWidthString ∨ m = badPrecString) (w : Bytes) :
    ∃ w', marks.flatten ++ (37 :: 33 :: w) = 37 :: 33 :: w' := by
  rcases marks_head h (37 :: 33 :: w) with rfl | hmarks
  · exact ⟨w, rfl⟩
  · exact hmarks

theorem prints (argNum : ℕ) (reordered : Bool) (s : Bytes) :
    Prints s (printVerb [] (scanDirective [] argNum reordered s)) := by
  have hscan := advances_scanDirective argNum reordered s
  obtain ⟨marks, hmarks, hbuf⟩ := hscan.buf
  generalize scanDirective [] argNum reordered s = p at hscan hbuf
  rw [List.nil_append] at hbuf
  by_cases hhead : s.head? = some 33
  · -- an exclamation mark is left where it is, and there is no operand for it
    obtain ⟨hrest, hnil, hgood⟩ := hscan.still hhead
    obtain ⟨c, s', rfl⟩ : ∃ c s', s = c :: s' := by
      cases s with
      | nil => cases hhead
      | cons c s' => exact ⟨c, s', rfl⟩
    obtain rfl := Option.some.inj hhead
    simp only at hrest hnil hgood
    have hrune : cutRune (33 :: s') = ([33], s') := rfl
    refine .exclamation ?_ ?_
    · simp [printVerb, hrest, hrune, hgood]
    · simp [printVerb, hrest, hnil, hrune, hgood]
      rfl
  cases hrest : p.rest with
  | nil =>
    have hprinted : printVerb [] p = ⟨p.buf ++ ascii "%!(NOVERB)", p.argNum, p.reordered, []⟩ := by
      simp [printVerb, hrest]
    rw [hprinted, hbuf]
    exact .error List.nil_suffix hhead
      (strays_report (w := ascii "(NOVERB)") hmarks (by decide)) (report_head hmarks _)
  | cons c rest =>
    have hsuffix : c :: rest <:+ s := hrest ▸ hscan.rest
    have hne : p.rest ≠ [] := by simp [hrest]
    rcases cutRune_verb (c := c) rest with ⟨rfl, hrune⟩ | ⟨-, hverb⟩
    · -- a percent sign is printed, after the reports of what was missing
      have hprinted : printVerb [] p = ⟨p.buf ++ [37], p.argNum, p.reordered, rest⟩ := by
        simp [printVerb, hrest, hrune]
      rw [hprinted, hbuf]
      rcases marks_head hmarks [37] with rfl | hreport
      · exact .percent hsuffix hhead rfl
      · refine .error ((List.suffix_cons _ _).trans hsuffix) hhead (fun t => ?_) hreport
        rw [List.append_assoc, strays_marks hmarks]
        exact strays_percent_le t
    · have hrune : (cutRune (c :: rest)).2 <:+ s := (cutRune_suffix _).trans hsuffix
      have hpercent : (cutRune (c :: rest)).1 ≠ [37] := fun h => hverb (by simp [h])
      cases hgood : p.goodArgNum with
      | false =>
        have hprinted : printVerb [] p = ⟨p.buf ++ ascii "%!" ++ (cutRune (c :: rest)).1 ++
            ascii "(BADINDEX)", p.argNum, p.reordered, (cutRune (c :: rest)).2⟩ := by
          simp [printVerb, hrest, hpercent, hgood]
        rw [hprinted, hbuf, List.append_assoc, List.append_assoc]
        refine .error hrune hhead (strays_report hmarks ?_) (report_head hmarks _)
        simp [hverb]
        decide
      | true =>
        have hprinted : printVerb [] p = ⟨p.buf ++ ascii "%!" ++ (cutRune (c :: rest)).1 ++
            ascii "(MISSING)", p.argNum, p.reordered, (cutRune (c :: rest)).2⟩ := by
          simp [printVerb, hrest, hpercent, hgood]
        rw [hprinted, hbuf, List.append_assoc, List.append_assoc]
        refine .error hrune hhead (strays_report hmarks ?_) (report_head hmarks _)
        simp [hverb]
        decide

/-! ### Whole formats -/

theorem extraOperands_nil (argNum : ℕ) (reordered : Bool) :
    extraOperands [] argNum reordered = [] := by simp [extraOperands]

theorem doPrintf_percent (fuel argNum : ℕ) (reordered : Bool) (s : Bytes) :
    ∃ printed argNum' reordered', Prints s printed ∧
      doPrintf [] (fuel + 1) argNum reordered (37 :: s) =
        printed.text ++ doPrintf [] fuel argNum' reordered' printed.rest :=
  ⟨_, _, _, prints argNum reordered s, by rw [doPrintf, if_pos rfl]⟩

theorem strays_doPrintf (fuel argNum : ℕ) (reordered : Bool) (s : Bytes) :
    strays (doPrintf [] fuel argNum reordered s) ≤ strays s := by
  induction fuel generalizing argNum reordered s with
  | zero =>
    rw [doPrintf, extraOperands_nil]
    exact Nat.zero_le _
  | succ fuel ih =>
    cases s with
    | nil =>
      rw [doPrintf, extraOperands_nil]
    | cons c s =>
      by_cases hc : c = 37
      · subst hc
        obtain ⟨printed, argNum', reordered', hprints, heq⟩ :=
          doPrintf_percent fuel argNum reordered s
        have hrest := ih argNum' reordered' printed.rest
        have hstray : s.head? ≠ some 33 → strays (37 :: s) = 1 + strays s := fun hhead => by
          rw [strays, if_pos ⟨rfl, hhead⟩]
        rw [heq]
        cases hprints with
        | percent suffix head text =>
          have hle := strays_of_suffix ((List.suffix_cons _ _).trans suffix)
          have hpercent := strays_percent_le (doPrintf [] fuel argNum' reordered' printed.rest)
          rw [text, hstray head]
          exact hpercent.trans (by omega)
        | error suffix head strays_le text =>
          have hle := strays_of_suffix suffix
          have hreport := strays_le (doPrintf [] fuel argNum' reordered' printed.rest)
          rw [hstray head]
          omega
        | exclamation suffix text =>
          have hle := strays_of_suffix (List.suffix_cons 33 printed.rest)
          have hreport := strays_error (s := ascii "!(MISSING)") (by decide)
            (doPrintf [] fuel argNum' reordered' printed.rest)
          have htail := strays_le_cons 37 s
          rw [← suffix] at hle
          rw [text]
          exact hreport.le.trans (by omega)
      · rw [doPrintf_cons hc, strays, strays, if_neg (fun h => hc h.1), if_neg (fun h => hc h.1)]
        exact Nat.add_le_add_left (ih argNum reordered s) 0

/-- A percent sign before what is printed is stray only if it is before the format. -/
theorem strays_percent_doPrintf {fuel : ℕ} {s : Bytes} (hfuel : s.length ≤ fuel) (argNum : ℕ)
    (reordered : Bool) :
    strays (37 :: doPrintf [] fuel argNum reordered s) ≤ strays (37 :: s) := by
  have hle := strays_doPrintf fuel argNum reordered s
  by_cases hhead : s.head? = some 33
  · cases s with
    | nil => cases hhead
    | cons c s =>
      obtain rfl := Option.some.inj hhead
      obtain ⟨fuel, rfl⟩ : ∃ n, fuel = n + 1 := ⟨fuel - 1, by simp at hfuel; omega⟩
      rw [doPrintf_cons (by decide)] at hle ⊢
      rw [strays.eq_2 37, strays.eq_2 37, if_neg (by simp), if_neg (by simp)]
      omega
  · have hpercent := strays_percent_le (doPrintf [] fuel argNum reordered s)
    rw [strays.eq_2 37 s, if_pos ⟨rfl, hhead⟩]
    omega

/-- No text begins with plain text and goes on with what it prints as: it would begin with that
plain text again and again. -/
theorem ne_append_doPrintf {w : Bytes} (hw : w ≠ []) (hplain : 37 ∉ w) (argNum : ℕ)
    (reordered : Bool) (s : Bytes) (fuel : ℕ) (hfuel : s.length ≤ fuel) :
    s ≠ w ++ doPrintf [] fuel argNum reordered s := by
  intro h
  obtain ⟨r, hr⟩ : ∃ r, doPrintf [] fuel argNum reordered s = r := ⟨_, rfl⟩
  rw [hr] at h
  have hlen : s.length = w.length + r.length := by rw [h, List.length_append]
  have hpos := List.length_pos_iff.mpr hw
  have hagain : r = w ++ doPrintf [] (fuel - w.length) argNum reordered r := by
    have hsub : fuel = w.length + (fuel - w.length) := by omega
    rw [h, hsub, doPrintf_append hplain] at hr
    exact hr.symm
  exact ne_append_doPrintf hw hplain argNum reordered r (fuel - w.length) (by omega) hagain
termination_by s.length
decreasing_by omega

theorem doPrintf_eq_self {fuel argNum : ℕ} {reordered : Bool} {s : Bytes}
    (hfuel : s.length ≤ fuel) (h : doPrintf [] fuel argNum reordered s = s) : 37 ∉ s := by
  induction s generalizing fuel with
  | nil => exact List.not_mem_nil
  | cons c s ih =>
    obtain ⟨fuel, rfl⟩ : ∃ n, fuel = n + 1 := ⟨fuel - 1, by simp at hfuel; omega⟩
    have hrest : s.length ≤ fuel := Nat.le_of_succ_le_succ hfuel
    by_cases hc : c = 37
    · subst hc
      obtain ⟨printed, argNum', reordered', hprints, heq⟩ :=
        doPrintf_percent fuel argNum reordered s
      rw [heq] at h
      exfalso
      cases hprints with
      | percent suffix head text =>
        -- a stray percent sign is lost
        have hnext : strays (37 :: doPrintf [] fuel argNum' reordered' printed.rest) ≤
            strays (37 :: printed.rest) := by
          have hlen := suffix.length_le
          exact strays_percent_doPrintf ((Nat.le_succ _).trans (hlen.trans hrest)) _ _
        have hsuffix := strays_of_suffix suffix
        have hcount := congrArg strays h
        rw [text, List.singleton_append, strays.eq_2 37 s, if_pos ⟨rfl, head⟩] at hcount
        omega
      | error suffix head strays_le text =>
        obtain ⟨w, hw⟩ := text
        rw [hw] at h
        have htail := (List.cons.inj h).2
        exact head (by rw [← htail]; rfl)
      | exclamation suffix text =>
        rw [text, suffix] at h
        have htail : printed.rest =
            ascii "!(MISSING)" ++ doPrintf [] fuel argNum' reordered' printed.rest :=
          (List.cons.inj (List.cons.inj h).2).2.symm
        have hlen : printed.rest.length ≤ fuel := by
          rw [suffix] at hrest
          exact (Nat.le_succ _).trans hrest
        exact ne_append_doPrintf (by decide) (by decide) _ _ _ _ hlen htail
    · rw [doPrintf_cons hc] at h
      simp only [List.mem_cons, not_or]
      exact ⟨Ne.symm hc, ih hrest (List.cons.inj h).2⟩

/-- A text that is used as a format without operands is printed as it is exactly when it has no
percent sign. -/
theorem sprintf_eq_self_iff (s : Bytes) : sprintf s [] = s ↔ 37 ∉ s := by
  constructor
  · exact doPrintf_eq_self (le_refl _)
  · intro h
    have happend := doPrintf_append (a := []) h 0 0 false []
    rw [List.append_nil, Nat.add_zero, doPrintf, extraOperands_nil, List.append_nil] at happend
    exact happend

end BitsService
