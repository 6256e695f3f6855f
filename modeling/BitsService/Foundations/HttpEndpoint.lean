import BitsService.Foundations.NetUrl

/-! # URLs below an endpoint

Text appended to the URL of an endpoint names that text below it exactly when it has none of the
bytes that end a path or begin an escape. -/
namespace BitsService
open NetUrl
set_option autoImplicit false

/-! ## Plain texts -/

/-- None of the bytes at which a path ends or an escape begins. -/
def PathPlain (s : Bytes) : Prop := 37 ∉ s ∧ 63 ∉ s ∧ 35 ∉ s

/-- What is left of a text in the path of a URL is all of it exactly when it is plain. -/
theorem unescape_cut_eq_self_iff {s : Bytes} :
    unescape false (cutAt 63 (cutAt 35 s).1).1 = some s ↔ PathPlain s := by
  constructor
  · intro h
    have hunescaped := (unescape_length h).1
    have hquery := cutAt_length_le 63 (cutAt 35 s).1
    have h35 : 35 ∉ s := fun hmem => by
      have hlt := cutAt_length_lt hmem
      omega
    rw [cutAt_of_not_mem h35] at h
    have h63 : 63 ∉ s := fun hmem => by
      have hlt := cutAt_length_lt hmem
      exact absurd (unescape_length h).1 (Nat.not_le.mpr hlt)
    rw [cutAt_of_not_mem h63] at h
    exact ⟨fun hmem => absurd ((unescape_length h).2 hmem) (lt_irrefl _), h63, h35⟩
  · rintro ⟨h37, h63, h35⟩
    rw [cutAt_of_not_mem h35, cutAt_of_not_mem h63]
    exact unescape_of_plain fun c hc => ⟨fun h => h37 (h ▸ hc), by simp⟩

/-! ## Endpoints -/

/-- `scheme://authority/path`, with neither a query nor a fragment nor an escape. -/
structure HttpEndpoint where
  letter : UInt8
  scheme : Bytes
  authority : Bytes
  path : Bytes
  letter_isLetter : isLetter letter = true
  scheme_bytes : ∀ c ∈ scheme, isSchemeByte c = true
  authority_parses : ∀ strict, (parseAuthority strict authority).isSome = true
  authority_ne : authority ≠ []
  authority_slash : slash ∉ authority
  path_slash : path = [] ∨ path.head? = some slash
  plain : PathPlain (authority ++ path)
  not_control : ∀ c ∈ authority ++ path, isControl c = false

theorem not_control_of_isSchemeByte {c : UInt8} (h : isSchemeByte c = true) :
    isControl c = false ∧ c ≠ 35 := by
  simp only [isSchemeByte, isLetter, isControl, Bool.or_eq_true, Bool.and_eq_true,
    decide_eq_true_eq, beq_iff_eq, Bool.or_eq_false_iff, decide_eq_false_iff_not,
    UInt8.le_iff_toNat_le, UInt8.lt_iff_toNat_lt, ← UInt8.toNat_inj, ne_eq] at h ⊢
  simp at h ⊢
  omega

theorem isLetter_h : isLetter 104 = true := rfl

theorem isSchemeByte_ttp : ∀ c ∈ ascii "ttp", isSchemeByte c = true :=
  forall_mem_of_all (by decide)

namespace HttpEndpoint
variable (e : HttpEndpoint) (strict : Bool)

def text : Bytes := e.letter :: (e.scheme ++ ascii "://" ++ e.authority ++ e.path)

/-- What comes after the scheme, with a text below the endpoint. -/
def below (t : Bytes) : Bytes := slash :: slash :: (e.authority ++ (e.path ++ slash :: t))

theorem text_append (t : Bytes) :
    e.text ++ slash :: t = e.letter :: (e.scheme ++ 58 :: e.below t) := by
  have hcolon : ascii "://" = [58, slash, slash] := rfl
  simp [text, below, hcolon]

theorem isSchemeByte_letter : isSchemeByte e.letter = true := by
  simp [isSchemeByte, e.letter_isLetter]

/-- The bytes of an endpoint neither end it nor are rejected. -/
theorem not_control_of_mem_text {c : UInt8} (hc : c ∈ e.text) : isControl c = false ∧ c ≠ 35 := by
  have hmem : c = e.letter ∨ c ∈ e.scheme ∨ c ∈ ascii "://" ∨ c ∈ e.authority ++ e.path := by
    simpa [text, or_assoc] using hc
  rcases hmem with rfl | hc | hc | hc
  · exact not_control_of_isSchemeByte e.isSchemeByte_letter
  · exact not_control_of_isSchemeByte (e.scheme_bytes c hc)
  · exact forall_mem_of_all (p := fun c => isControl c = false ∧ c ≠ 35) (by decide) c hc
  · exact ⟨e.not_control c hc, fun h => e.plain.2.2 (h ▸ hc)⟩

theorem any_isControl_text (t : Bytes) :
    (e.text ++ slash :: t).any isControl = t.any isControl := by
  have htext : e.text.any isControl = false :=
    List.any_eq_false.mpr fun c hc => by simp [(e.not_control_of_mem_text hc).1]
  have hslash : isControl slash = false := by decide
  rw [List.any_append, List.any_cons, htext, hslash, Bool.false_or, Bool.false_or]

theorem cutAt_fragment (rest : Bytes) :
    cutAt 35 (e.text ++ slash :: rest) =
      (e.text ++ slash :: (cutAt 35 rest).1, (cutAt 35 rest).2) := by
  have hnot : 35 ∉ e.text ++ [slash] := by
    intro h
    rcases List.mem_append.mp h with h | h
    · exact (e.not_control_of_mem_text h).2 rfl
    · exact absurd h (by decide)
  have happend := cutAt_append hnot rest
  simpa using happend

theorem getScheme_text (t : Bytes) :
    getScheme (e.text ++ slash :: t) [] (e.text ++ slash :: t) =
      some (e.letter :: e.scheme, e.below t) := by
  have htail := getScheme_append (e.text ++ slash :: t) [e.letter] e.scheme (e.below t) (by simp)
    e.scheme_bytes
  rw [e.text_append t] at htail ⊢
  rw [getScheme, if_pos e.letter_isLetter]
  exact htail

theorem cutAt_query (t : Bytes) :
    cutAt 63 (e.below t) = (e.below (cutAt 63 t).1, (cutAt 63 t).2) := by
  have hnot : 63 ∉ slash :: slash :: (e.authority ++ (e.path ++ [slash])) := by
    have hplain := e.plain.2.1
    have hslash : (63 : UInt8) ≠ slash := by decide
    simp only [List.mem_append, List.mem_cons, List.not_mem_nil, or_false, not_or] at hplain ⊢
    exact ⟨hslash, hslash, hplain.1, hplain.2, hslash⟩
  have happend := cutAt_append hnot t
  simpa [below] using happend

/-- The path below the endpoint begins with a slash. -/
theorem path_append (p : Bytes) : ∃ tail, e.path ++ slash :: p = slash :: tail := by
  rcases e.path_slash with hnil | hhead
  · exact ⟨p, by rw [hnil, List.nil_append]⟩
  · cases hpath : e.path with
    | nil =>
      rw [hpath] at hhead
      cases hhead
    | cons c path =>
      rw [hpath] at hhead
      obtain rfl := Option.some.inj hhead
      exact ⟨_, rfl⟩

theorem takeWhile_authority (p : Bytes) :
    ((e.below p).drop 2).takeWhile (· ≠ slash) = e.authority := by
  obtain ⟨tail, htail⟩ := e.path_append p
  have hpos : ∀ c ∈ e.authority, decide (c ≠ slash) = true := fun c hc =>
    decide_eq_true fun h => e.authority_slash (h ▸ hc)
  show (e.authority ++ (e.path ++ slash :: p)).takeWhile (· ≠ slash) = e.authority
  rw [htail, List.takeWhile_append_of_pos hpos]
  simp

theorem dropAuthority_below (p : Bytes) : dropAuthority (e.below p) = e.path ++ slash :: p := by
  obtain ⟨tail, htail⟩ := e.path_append p
  show (e.authority ++ (e.path ++ slash :: p)).dropWhile (· ≠ slash) = e.path ++ slash :: p
  rw [htail, dropWhile_of_not_mem e.authority_slash]

theorem unescape_path (p : Bytes) :
    unescape false (e.path ++ slash :: p) =
      (unescape false p).map fun path => e.path ++ slash :: path := by
  have hplain : ∀ c ∈ e.path ++ [slash], c ≠ 37 ∧ (false = true → c ≠ 43) := by
    intro c hc
    refine ⟨?_, by simp⟩
    rintro rfl
    rcases List.mem_append.mp hc with hc | hc
    · exact e.plain.1 (List.mem_append_right _ hc)
    · exact absurd hc (by decide)
  have happend := unescape_append hplain p
  simpa using happend

theorem parseRest_below {u : NetUrl} (hscheme : u.scheme ≠ []) (viaRequest : Bool) (p : Bytes) :
    (parseRest strict viaRequest u (e.below p)).map (fun u => (u.path, u.rawQuery)) =
      (unescape false p).map fun path => (e.path ++ slash :: path, u.rawQuery) := by
  obtain ⟨⟨user, host⟩, hauthority⟩ := Option.isSome_iff_exists.mp (e.authority_parses strict)
  have hhead : (e.below p).head? = some slash := rfl
  have hslashes : ascii "//" <+: e.below p := ⟨_, rfl⟩
  rw [parseRest, if_neg (fun h => h.1 hhead), if_neg (fun h => h.1 hhead),
    if_pos ⟨.inl hscheme, hslashes⟩, e.takeWhile_authority, hauthority, Option.bind_some,
    e.dropAuthority_below]
  unfold setPath
  rw [e.unescape_path, Option.map_map, Option.map_map]
  rfl

/-- What the parser makes of the path and the query of a text below the endpoint. -/
theorem parseVia_text (t : Bytes) :
    (parseVia strict false (e.text ++ slash :: t)).map (fun u => (u.path, u.rawQuery)) =
      if strict && t.any isControl then none
      else (unescape false (cutAt 63 t).1).map fun path =>
        (e.path ++ slash :: path, (cutAt 63 t).2.getD []) := by
  have hstar : e.text ++ slash :: t ≠ ascii "*" := by
    intro h
    have hletter := e.letter_isLetter
    rw [e.text_append t] at h
    rw [(List.cons.inj h).1] at hletter
    exact absurd hletter (by decide)
  have hscheme : toLower (e.letter :: e.scheme) ≠ [] := by
    rw [ne_eq, toLower_eq_nil_iff]
    exact List.cons_ne_nil _ _
  rw [parseVia, e.any_isControl_text]
  by_cases hcontrol : strict && t.any isControl
  · rw [if_pos hcontrol, if_pos hcontrol]
    rfl
  rw [if_neg hcontrol, if_neg hcontrol, if_neg (by simp), if_neg hstar, e.getScheme_text,
    Option.bind_some]
  simp only [e.cutAt_query]
  exact e.parseRest_below strict hscheme false _

theorem parse_text (rest : Bytes) :
    (parse strict (e.text ++ slash :: rest)).map (fun u => (u.path, u.rawQuery)) =
      if strict && (cutAt 35 rest).1.any isControl then none
      else (unescape false (cutAt 63 (cutAt 35 rest).1).1).bind fun path =>
        (unescape false ((cutAt 35 rest).2.getD [])).map fun _ =>
          (e.path ++ slash :: path, (cutAt 63 (cutAt 35 rest).1).2.getD []) := by
  have hvia := e.parseVia_text strict (cutAt 35 rest).1
  rw [parse, e.cutAt_fragment]
  simp only
  by_cases hcontrol : strict && (cutAt 35 rest).1.any isControl
  · rw [if_pos hcontrol] at hvia ⊢
    rw [Option.map_eq_none_iff.mp hvia]
    rfl
  rw [if_neg hcontrol] at hvia ⊢
  cases hpath : unescape false (cutAt 63 (cutAt 35 rest).1).1 with
  | none =>
    rw [hpath] at hvia
    rw [Option.map_eq_none_iff.mp hvia]
    rfl
  | some path =>
    rw [hpath] at hvia
    obtain ⟨u, hu, hparts⟩ := Option.map_eq_some_iff.mp hvia
    rw [hu, Option.bind_some, Option.bind_some, Option.map_map]
    exact congrArg (fun parts => Option.map (fun _ => parts) _) hparts

/-- A plain text with a query, which ends at the fragment. -/
theorem parse_query {verb : Bytes} (hplain : PathPlain verb)
    (hcontrol : verb.any isControl = false) (query : Bytes) :
    (parse strict (e.text ++ slash :: (verb ++ 63 :: query))).map (fun u => (u.path, u.rawQuery)) =
      if strict && (cutAt 35 query).1.any isControl then none
      else (unescape false ((cutAt 35 query).2.getD [])).map fun _ =>
        (e.path ++ slash :: verb, (cutAt 35 query).1) := by
  have hfragment : cutAt 35 (verb ++ 63 :: query) =
      (verb ++ 63 :: (cutAt 35 query).1, (cutAt 35 query).2) := by
    have hnot : 35 ∉ verb ++ [63] := by
      have hverb := hplain.2.2
      simp [hverb]
    have happend := cutAt_append hnot query
    simpa using happend
  have hquestion : isControl 63 = false := by decide
  have hunescaped : unescape false verb = some verb :=
    unescape_of_plain fun c hc => ⟨fun h => hplain.1 (h ▸ hc), by simp⟩
  rw [e.parse_text, hfragment]
  simp only
  rw [cutAt_append_cons hplain.2.1, hunescaped, List.any_append, List.any_cons, hcontrol,
    hquestion, Bool.false_or, Bool.false_or]
  rfl

/-! ## What a text below an endpoint names -/

/-- The URL of the text parses, and its path is the text below the path of the endpoint. -/
def NamesPath (rest : Bytes) : Prop :=
  ∃ u, parse strict (e.text ++ slash :: rest) = some u ∧ u.path = e.path ++ slash :: rest

/-- The bytes that a strict parser takes. -/
def Accepted (strict : Bool) (s : Bytes) : Prop := strict = true → ∀ c ∈ s, isControl c = false

theorem accepted_iff (s : Bytes) : Accepted strict s ↔ ¬ (strict && s.any isControl) = true := by
  cases strict with
  | false => simp [Accepted]
  | true => simp [Accepted]

theorem namesPath_iff (rest : Bytes) :
    e.NamesPath strict rest ↔ PathPlain rest ∧ Accepted strict rest := by
  have hparse := e.parse_text strict rest
  constructor
  · rintro ⟨u, hu, hpath⟩
    rw [hu, Option.map_some, hpath] at hparse
    by_cases hcontrol : strict && (cutAt 35 rest).1.any isControl
    · rw [if_pos hcontrol] at hparse
      cases hparse
    rw [if_neg hcontrol] at hparse
    obtain ⟨path, hunescaped, hparts⟩ := Option.bind_eq_some_iff.mp hparse.symm
    obtain ⟨_, -, hparts⟩ := Option.map_eq_some_iff.mp hparts
    have hself : path = rest :=
      (List.cons.inj (List.append_cancel_left (Prod.mk.inj hparts).1)).2
    have hplain : PathPlain rest := unescape_cut_eq_self_iff.mp (hself ▸ hunescaped)
    rw [cutAt_of_not_mem hplain.2.2] at hcontrol
    exact ⟨hplain, (accepted_iff strict rest).mpr hcontrol⟩
  · rintro ⟨hplain, haccepted⟩
    have hcontrol := (accepted_iff strict rest).mp haccepted
    rw [unescape_cut_eq_self_iff.mpr hplain, Option.bind_some, cutAt_of_not_mem hplain.2.2,
      if_neg hcontrol] at hparse
    obtain ⟨u, hu, hparts⟩ := Option.map_eq_some_iff.mp hparse
    exact ⟨u, hu, (Prod.mk.inj hparts).1⟩

end HttpEndpoint

end BitsService
