import BitsService.Foundations.Bytes

/-! # `net/url`

Parsing a URL or a request target into a path and a query, and a query into its values. The
authority is passed over without a look at its parts. -/
namespace BitsService
set_option autoImplicit false

/-! ## Unescaping -/

def unescape (plusIsSpace : Bool) : Bytes → Option Bytes
  | [] => some []
  | 37 :: a :: b :: s =>
    match digitValue a, digitValue b with
    | some x, some y =>
      if x < 16 ∧ y < 16 then (unescape plusIsSpace s).map (UInt8.ofNat (16 * x + y) :: ·) else none
    | _, _ => none
  | 37 :: _ => none
  | 43 :: s => (unescape plusIsSpace s).map ((if plusIsSpace then 32 else 43) :: ·)
  | c :: s => (unescape plusIsSpace s).map (c :: ·)

theorem unescape_cons {plusIsSpace : Bool} {c : UInt8} (hpercent : c ≠ 37)
    (hplus : plusIsSpace = true → c ≠ 43) (s : Bytes) :
    unescape plusIsSpace (c :: s) = (unescape plusIsSpace s).map (c :: ·) := by
  by_cases hc : c = 43
  · have hfalse : plusIsSpace = false := by
      rw [← Bool.not_eq_true]
      exact fun htrue => hplus htrue hc
    rw [hc, hfalse, unescape]
    rfl
  · rw [unescape]
    · exact fun _ _ _ h => absurd h hpercent
    · exact fun h => absurd h hpercent
    · exact hc

theorem unescape_append {plusIsSpace : Bool} {s : Bytes}
    (h : ∀ c ∈ s, c ≠ 37 ∧ (plusIsSpace = true → c ≠ 43)) (t : Bytes) :
    unescape plusIsSpace (s ++ t) = (unescape plusIsSpace t).map (s ++ ·) := by
  induction s with
  | nil => simp
  | cons c s ih =>
    obtain ⟨hpercent, hplus⟩ := h c List.mem_cons_self
    have htail := ih fun b hb => h b (List.mem_cons_of_mem _ hb)
    rw [List.cons_append, unescape_cons hpercent hplus, htail, Option.map_map]
    rfl

theorem unescape_of_plain {plusIsSpace : Bool} {s : Bytes}
    (h : ∀ c ∈ s, c ≠ 37 ∧ (plusIsSpace = true → c ≠ 43)) : unescape plusIsSpace s = some s := by
  have happend := unescape_append h []
  rwa [List.append_nil, unescape, Option.map_some, List.append_nil] at happend

/-- An escape is three bytes, and what it stands for is one. -/
theorem unescape_length {plusIsSpace : Bool} {s t : Bytes} (h : unescape plusIsSpace s = some t) :
    t.length ≤ s.length ∧ (37 ∈ s → t.length < s.length) := by
  induction s using unescape.induct generalizing t with
  | case1 =>
    cases h
    exact ⟨le_rfl, fun hmem => absurd hmem List.not_mem_nil⟩
  | case2 a b s x y hy hx hlt ih =>
    rw [unescape, hx, hy] at h
    simp only [if_pos hlt] at h
    obtain ⟨rest, hrest, rfl⟩ := Option.map_eq_some_iff.mp h
    have hle := (ih hrest).1
    simp only [List.length_cons]
    omega
  | case3 a b s x y hy hx hlt =>
    rw [unescape, hx, hy] at h
    simp only [if_neg hlt, reduceCtorEq] at h
  | case4 a b s hdigits =>
    rw [unescape] at h
    split at h
    · next x y hx hy => exact absurd hy (hdigits x y hx)
    · cases h
  | case5 s hshort =>
    rw [unescape] at h
    · cases h
    · exact hshort
  | case6 s ih =>
    rw [unescape] at h
    obtain ⟨rest, hrest, rfl⟩ := Option.map_eq_some_iff.mp h
    obtain ⟨hle, hlt⟩ := ih hrest
    refine ⟨Nat.succ_le_succ hle, fun hmem => Nat.succ_lt_succ (hlt ?_)⟩
    exact (List.mem_cons.mp hmem).resolve_left (by decide)
  | case7 c s hescape hpercent hplus ih =>
    rw [unescape_cons (fun hc => hpercent hc) fun _ => hplus] at h
    obtain ⟨rest, hrest, rfl⟩ := Option.map_eq_some_iff.mp h
    obtain ⟨hle, hlt⟩ := ih hrest
    refine ⟨Nat.succ_le_succ hle, fun hmem => Nat.succ_lt_succ (hlt ?_)⟩
    exact (List.mem_cons.mp hmem).resolve_left (Ne.symm hpercent)

/-! ## Queries -/

def splitBy (separates : UInt8 → Bool) : Bytes → List Bytes
  | [] => [[]]
  | c :: s =>
    if separates c then [] :: splitBy separates s
    else match splitBy separates s with
      | [] => [[c]]
      | part :: parts => (c :: part) :: parts

theorem splitBy_append_cons {separates : UInt8 → Bool} {c : UInt8} (hc : separates c = true)
    {s : Bytes} (hs : ∀ b ∈ s, separates b = false) (t : Bytes) :
    splitBy separates (s ++ c :: t) = s :: splitBy separates t := by
  induction s with
  | nil => simp [splitBy, hc]
  | cons b s ih =>
    have hb := hs b List.mem_cons_self
    rw [List.cons_append, splitBy, if_neg (by simp [hb]),
      ih fun d hd => hs d (List.mem_cons_of_mem _ hd)]

theorem splitBy_of_none {separates : UInt8 → Bool} {s : Bytes}
    (hs : ∀ b ∈ s, separates b = false) : splitBy separates s = [s] := by
  induction s with
  | nil => rfl
  | cons b s ih =>
    have hb := hs b List.mem_cons_self
    rw [splitBy, if_neg (by simp [hb]), ih fun d hd => hs d (List.mem_cons_of_mem _ hd)]

theorem splitBy_segments {separates : UInt8 → Bool} {c : UInt8} (hc : separates c = true)
    {segments : List Bytes} (h : ∀ segment ∈ segments, ∀ b ∈ segment, separates b = false)
    {last : Bytes} (hlast : ∀ b ∈ last, separates b = false) :
    splitBy separates (segments.flatMap (· ++ [c]) ++ last) = segments ++ [last] := by
  induction segments with
  | nil => exact splitBy_of_none hlast
  | cons segment segments ih =>
    have htail := ih fun s hs => h s (List.mem_cons_of_mem _ hs)
    have hhead := h segment List.mem_cons_self
    rw [List.flatMap_cons, List.append_assoc, List.append_assoc, List.singleton_append,
      splitBy_append_cons hc hhead, htail]
    rfl

/-- One `key=value` of a query; empty ones and those that cannot be unescaped are skipped. -/
def parsePair (pair : Bytes) : Option (Bytes × Bytes) :=
  if pair = [] then none
  else
    let (key, value) := cutAt 61 pair
    match unescape true key, unescape true (value.getD []) with
    | some key, some value => some (key, value)
    | _, _ => none

/-- `url.ParseQuery`, less the error that it reports. -/
def parseQuery (query : Bytes) : List (Bytes × Bytes) :=
  (splitBy (fun c => c = 38 ∨ c = 59) query).filterMap parsePair

def isQueryByte (c : UInt8) : Bool := c != 37 && c != 43 && c != 38 && c != 59 && c != 61

/-- A byte of a value, which may be an equals sign. -/
def isValueByte (c : UInt8) : Bool := c != 37 && c != 43 && c != 38 && c != 59

theorem isValueByte_of_isQueryByte {c : UInt8} (h : isQueryByte c = true) :
    isValueByte c = true := by
  simp only [isQueryByte, Bool.and_eq_true] at h
  simp only [isValueByte, Bool.and_eq_true]
  exact h.1

theorem unescape_valueBytes {s : Bytes} (h : ∀ c ∈ s, isValueByte c = true) :
    unescape true s = some s := by
  refine unescape_of_plain fun c hc => ?_
  have hbyte := h c hc
  simp only [isValueByte, Bool.and_eq_true, bne_iff_ne] at hbyte
  exact ⟨hbyte.1.1.1, fun _ => hbyte.1.1.2⟩

section Pairs
variable {key value : Bytes} (hkey : ∀ c ∈ key, isQueryByte c = true)
  (hvalue : ∀ c ∈ value, isValueByte c = true)
include hkey hvalue

theorem parsePair_append_cons : parsePair (key ++ 61 :: value) = some (key, value) := by
  have hcut : cutAt 61 (key ++ 61 :: value) = (key, some value) :=
    cutAt_append_cons (fun hmem => absurd (hkey 61 hmem) (by decide)) value
  have hkey' := unescape_valueBytes fun c hc => isValueByte_of_isQueryByte (hkey c hc)
  rw [parsePair, if_neg (by simp), hcut]
  simp only [Option.getD_some, hkey', unescape_valueBytes hvalue]

theorem pair_not_separated : ∀ c ∈ key ++ 61 :: value, decide (c = 38 ∨ c = 59) = false := by
  intro c hc
  have hbyte : c = 61 ∨ isValueByte c = true := by
    rcases List.mem_append.mp hc with hc | hc
    · exact .inr (isValueByte_of_isQueryByte (hkey c hc))
    · rcases List.mem_cons.mp hc with hc | hc
      · exact .inl hc
      · exact .inr (hvalue c hc)
  rcases hbyte with rfl | hbyte
  · decide
  · simp only [isValueByte, Bool.and_eq_true, bne_iff_ne] at hbyte
    simp [hbyte.1.2, hbyte.2]

theorem parseQuery_pair (rest : Bytes) :
    parseQuery (key ++ 61 :: value ++ 38 :: rest) = (key, value) :: parseQuery rest := by
  rw [parseQuery, splitBy_append_cons (by decide) (pair_not_separated hkey hvalue),
    List.filterMap_cons, parsePair_append_cons hkey hvalue]
  rfl

theorem parseQuery_last : parseQuery (key ++ 61 :: value) = [(key, value)] := by
  rw [parseQuery, splitBy_of_none (pair_not_separated hkey hvalue), List.filterMap_cons,
    parsePair_append_cons hkey hvalue]
  rfl

end Pairs

theorem isQueryByte_hexEncode (b : Bytes) : ∀ c ∈ hexEncode b, isQueryByte c = true := by
  intro c hc
  obtain ⟨n, hn, rfl⟩ := hexEncode_digits hc
  interval_cases n <;> decide

theorem isQueryByte_formatInt (n : ℤ) : ∀ c ∈ formatInt 10 n, isQueryByte c = true := by
  intro c hc
  rcases formatInt_digits (by decide) (by decide) n c hc with rfl | ⟨d, hd, rfl⟩
  · decide
  · interval_cases d <;> decide

/-! ## URLs -/

structure Url where
  path : Bytes
  rawQuery : Bytes
  deriving DecidableEq

def Url.queryGet (u : Url) (key : Bytes) : Bytes := ((parseQuery u.rawQuery).lookup key).getD []

def isLetter (c : UInt8) : Bool := (97 ≤ c && c ≤ 122) || (65 ≤ c && c ≤ 90)

/-- `getscheme`: the scheme and what follows it; `none` when there is a colon and no scheme. -/
def getScheme (rawurl : Bytes) : Bytes → Bytes → Option (Bytes × Bytes)
  | _, [] => some ([], rawurl)
  | scheme, c :: s =>
    if isLetter c then getScheme rawurl (scheme ++ [c]) s
    else if (48 ≤ c ∧ c ≤ 57) ∨ c = 43 ∨ c = 45 ∨ c = 46 then
      if scheme = [] then some ([], rawurl) else getScheme rawurl (scheme ++ [c]) s
    else if c = 58 then if scheme = [] then none else some (scheme, s)
    else some ([], rawurl)

def isSchemeByte (c : UInt8) : Bool :=
  isLetter c || (48 ≤ c && c ≤ 57) || c == 43 || c == 45 || c == 46

theorem getScheme_append (rawurl pre s t : Bytes) (hpre : pre ≠ [])
    (hs : ∀ c ∈ s, isSchemeByte c = true) :
    getScheme rawurl pre (s ++ 58 :: t) = some (pre ++ s, t) := by
  induction s generalizing pre with
  | nil =>
    rw [List.nil_append, getScheme, if_neg (by decide), if_neg (by decide), if_pos rfl,
      if_neg hpre, List.append_nil]
  | cons c s ih =>
    have htail := ih (pre ++ [c]) (by simp) fun b hb => hs b (List.mem_cons_of_mem _ hb)
    rw [List.append_assoc, List.singleton_append] at htail
    have hc := hs c List.mem_cons_self
    by_cases hletter : isLetter c = true
    · rw [List.cons_append, getScheme, if_pos hletter, htail]
    · have hother : (48 ≤ c ∧ c ≤ 57) ∨ c = 43 ∨ c = 45 ∨ c = 46 := by
        simp only [isSchemeByte, Bool.or_eq_true, Bool.and_eq_true, decide_eq_true_eq,
          beq_iff_eq] at hc
        grind
      rw [List.cons_append, getScheme, if_neg hletter, if_pos hother, if_neg hpre, htail]

def dropAuthority : Bytes → Bytes
  | 47 :: 47 :: rest => rest.dropWhile (· ≠ slash)
  | rest => rest

def parseRequestURI (rawurl : Bytes) : Option Url :=
  if rawurl = [] then none
  else if rawurl = ascii "*" then some ⟨ascii "*", []⟩
  else (getScheme rawurl [] rawurl).bind fun (scheme, rest) =>
    let (rest, query) := cutAt 63 rest
    if rest.head? = some slash then
      (unescape false (if scheme = [] then rest else dropAuthority rest)).map
        fun path => ⟨path, query.getD []⟩
    else if scheme = [] then none
    else some ⟨[], query.getD []⟩

theorem parseRequestURI_target (target : Bytes) :
    parseRequestURI (slash :: target) =
      (unescape false (slash :: (cutAt 63 target).1)).map
        fun path => ⟨path, ((cutAt 63 target).2).getD []⟩ := by
  have hstar : slash :: target ≠ ascii "*" := by
    intro h
    exact absurd (List.cons.inj h).1 (by decide)
  have hscheme : getScheme (slash :: target) [] (slash :: target) = some ([], slash :: target) := by
    rw [getScheme, if_neg (by decide), if_neg (by decide), if_neg (by decide)]
  have hcut : cutAt 63 (slash :: target) = (slash :: (cutAt 63 target).1, (cutAt 63 target).2) := by
    rw [cutAt, if_neg (by decide)]
  rw [parseRequestURI, if_neg (by simp), if_neg hstar, hscheme, Option.bind_some]
  simp only [hcut, List.head?_cons, if_true]

theorem dropWhile_of_not_mem {s : Bytes} (h : slash ∉ s) (t : Bytes) :
    (s ++ slash :: t).dropWhile (· ≠ slash) = slash :: t := by
  induction s with
  | nil => simp
  | cons c s ih =>
    simp only [List.mem_cons, not_or] at h
    rw [List.cons_append, List.dropWhile_cons_of_pos (by simpa using Ne.symm h.1), ih h.2]

theorem prefix_path_of_parseRequestURI {pre t : Bytes} {u : Url}
    (hpre : ∀ c ∈ pre, c ≠ 63 ∧ c ≠ 37) (h : parseRequestURI (slash :: pre ++ t) = some u) :
    slash :: pre <+: u.path := by
  have hcut : cutAt 63 (pre ++ t) = (pre ++ (cutAt 63 t).1, (cutAt 63 t).2) :=
    cutAt_append (fun hmem => (hpre 63 hmem).1 rfl) t
  have hplain : ∀ c ∈ slash :: pre, c ≠ 37 ∧ (false = true → c ≠ 43) := by
    intro c hc
    rcases List.mem_cons.mp hc with rfl | hc
    · decide
    · exact ⟨(hpre c hc).2, fun h => nomatch h⟩
  rw [List.cons_append, parseRequestURI_target, hcut] at h
  obtain ⟨path, hpath, rfl⟩ := Option.map_eq_some_iff.mp h
  rw [← List.cons_append, unescape_append hplain] at hpath
  obtain ⟨rest, -, rfl⟩ := Option.map_eq_some_iff.mp hpath
  exact List.prefix_append _ _

theorem parseRequestURI_of_plain {path query : Bytes} (hpath : ∀ c ∈ path, c ≠ 63 ∧ c ≠ 37) :
    parseRequestURI (slash :: (path ++ 63 :: query)) = some ⟨slash :: path, query⟩ := by
  have hplain : ∀ c ∈ slash :: path, c ≠ 37 ∧ (false = true → c ≠ 43) := by
    intro c hc
    rcases List.mem_cons.mp hc with rfl | hc
    · decide
    · exact ⟨(hpath c hc).2, fun h => nomatch h⟩
  rw [parseRequestURI_target, cutAt_append_cons fun hmem => (hpath 63 hmem).1 rfl]
  simp only [unescape_of_plain hplain, Option.map_some, Option.getD_some]

end BitsService
