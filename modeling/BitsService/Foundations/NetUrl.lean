import BitsService.Foundations.Url

/-! # The parts of a URL

`net/url`'s parser with the authority taken apart, and its printer. Later versions of it are
strict: they reject control bytes, and ports that are not numbers. -/
namespace BitsService
set_option autoImplicit false

structure Userinfo where
  username : Bytes
  password : Option Bytes
  deriving DecidableEq

/-- `url.URL`. -/
structure NetUrl where
  scheme : Bytes
  opaquePart : Bytes
  user : Option Userinfo
  host : Bytes
  path : Bytes
  rawPath : Bytes
  forceQuery : Bool
  rawQuery : Bytes
  fragment : Bytes
  deriving DecidableEq

def NetUrl.empty : NetUrl := ⟨[], [], none, [], [], [], false, [], []⟩

/-! ## Escaping -/

inductive Encoding where
  | encodePath
  | encodeHost
  | encodeZone
  | encodeUserPassword
  | encodeFragment
  deriving DecidableEq

def isAlphanumeric (c : UInt8) : Bool := isLetter c || (48 ≤ c && c ≤ 57)

def shouldEscape (mode : Encoding) (c : UInt8) : Bool :=
  if isAlphanumeric c then false
  else if (mode = .encodeHost ∨ mode = .encodeZone) ∧ c ∈ ascii "!$&'()*+,;=:[]<>\"" then false
  else if c ∈ ascii "-_.~" then false
  else if c ∈ ascii "$&+,/:;=?@" then
    match mode with
    | .encodePath => c = 63
    | .encodeUserPassword => c ∈ ascii "@/?:"
    | .encodeFragment => false
    | .encodeHost => true
    | .encodeZone => true
  else if mode = .encodeFragment ∧ c ∈ ascii "!()*" then false
  else true

def upperHexDigit (d : ℕ) : UInt8 := if d < 10 then UInt8.ofNat (48 + d) else UInt8.ofNat (55 + d)

def escape (mode : Encoding) (s : Bytes) : Bytes :=
  s.flatMap fun c =>
    if shouldEscape mode c then [37, upperHexDigit (c.toNat / 16), upperHexDigit (c.toNat % 16)]
    else [c]

/-- Whether a host, or the zone of an address, may be unescaped. -/
def escapesHost (mode : Encoding) : Bytes → Bool
  | [] => true
  | 37 :: a :: b :: s =>
    match digitValue a, digitValue b with
    | some x, some y =>
      ((a = 50 && b = 53) ||
        (if mode = .encodeZone then
          16 * x + y = 32 || !shouldEscape .encodeHost (UInt8.ofNat (16 * x + y))
        else 8 ≤ x)) && escapesHost mode s
    | _, _ => false
  | c :: s => (128 ≤ c || !shouldEscape mode c) && escapesHost mode s

def unescapeHost (mode : Encoding) (s : Bytes) : Option Bytes :=
  if escapesHost mode s then unescape false s else none

/-! ## The authority -/

/-- What comes before the last `c` and what comes after it, if there is one. -/
def cutLast (c : UInt8) (s : Bytes) : Option (Bytes × Bytes) :=
  if c ∈ s then
    some ((s.reverse.dropWhile (· ≠ c)).tail.reverse, (s.reverse.takeWhile (· ≠ c)).reverse)
  else none

def validOptionalPort : Bytes → Bool
  | [] => true
  | c :: digits => c = 58 && digits.all fun d => 48 ≤ d && d ≤ 57

/-- The text before the first `%25`, and the text from there on. -/
def cutZone : Bytes → Bytes × Bytes
  | [] => ([], [])
  | c :: s =>
    if ascii "%25" <+: c :: s then ([], c :: s) else (c :: (cutZone s).1, (cutZone s).2)

def parseHost (strict : Bool) (host : Bytes) : Option Bytes :=
  if host.head? = some 91 then
    (cutLast 93 host).bind fun (address, colonPort) =>
      if validOptionalPort colonPort = false then none
      else match cutZone address with
        | (_, []) => unescapeHost .encodeHost host
        | (address, zone) => do
          let host1 ← unescapeHost .encodeHost address
          let host2 ← unescapeHost .encodeZone zone
          let host3 ← unescapeHost .encodeHost (93 :: colonPort)
          pure (host1 ++ host2 ++ host3)
  else if strict && (cutLast 58 host).any (fun cut => !validOptionalPort (58 :: cut.2)) then none
  else unescapeHost .encodeHost host

def validUserinfo (s : Bytes) : Bool :=
  s.all fun c => isAlphanumeric c || c ∈ ascii "-._:~!$&'()*+,;=%@"

def parseUserinfo (userinfo : Bytes) : Option Userinfo :=
  if validUserinfo userinfo then
    match cutAt 58 userinfo with
    | (username, none) => (unescape false username).map fun username => ⟨username, none⟩
    | (username, some password) => do
      let username ← unescape false username
      let password ← unescape false password
      pure ⟨username, some password⟩
  else none

def parseAuthority (strict : Bool) (authority : Bytes) : Option (Option Userinfo × Bytes) :=
  match cutLast 64 authority with
  | none => (parseHost strict authority).map fun host => (none, host)
  | some (userinfo, host) => do
    let host ← parseHost strict host
    let user ← parseUserinfo userinfo
    pure (some user, host)

/-! ## The parser -/

def isControl (c : UInt8) : Bool := c < 32 || c = 127

namespace NetUrl

/-- The raw path is kept where printing the path would not give it back. -/
def setPath (u : NetUrl) (p : Bytes) : Option NetUrl :=
  (unescape false p).map fun path =>
    { u with path := path
             rawPath := if escape .encodePath path = p then [] else p }

/-- A colon before the first slash. -/
def firstSegmentHasColon (rest : Bytes) : Bool := 58 ∈ rest.takeWhile (· ≠ slash)

/-- What comes after the scheme and before the query. -/
def parseRest (strict viaRequest : Bool) (u : NetUrl) (rest : Bytes) : Option NetUrl :=
  if rest.head? ≠ some slash ∧ u.scheme ≠ [] then some { u with opaquePart := rest }
  else if rest.head? ≠ some slash ∧ (viaRequest ∨ firstSegmentHasColon rest) then none
  else if (u.scheme ≠ [] ∨ viaRequest = false ∧ ¬ ascii "///" <+: rest) ∧ ascii "//" <+: rest then
    (parseAuthority strict ((rest.drop 2).takeWhile (· ≠ slash))).bind fun (user, host) =>
      { u with user := user, host := host }.setPath (dropAuthority rest)
  else u.setPath rest

/-- `url.parse`. -/
def parseVia (strict viaRequest : Bool) (rawurl : Bytes) : Option NetUrl :=
  if strict && rawurl.any isControl then none
  else if rawurl = [] ∧ viaRequest then none
  else if rawurl = ascii "*" then some { empty with path := ascii "*" }
  else (getScheme rawurl [] rawurl).bind fun (scheme, rest) =>
    parseRest strict viaRequest
      { empty with
        scheme := toLower scheme
        forceQuery := (cutAt 63 rest).2 = some []
        rawQuery := (cutAt 63 rest).2.getD [] }
      (cutAt 63 rest).1

/-- `url.Parse`. -/
def parse (strict : Bool) (rawurl : Bytes) : Option NetUrl :=
  (parseVia strict false (cutAt 35 rawurl).1).bind fun u =>
    (unescape false ((cutAt 35 rawurl).2.getD [])).map fun fragment =>
      { u with fragment := fragment }

/-- `url.ParseRequestURI`. -/
def parseRequestURI (strict : Bool) (rawurl : Bytes) : Option NetUrl := parseVia strict true rawurl

theorem setPath_eq_some {u u' : NetUrl} {p : Bytes} (h : u.setPath p = some u') :
    unescape false p = some u'.path ∧ u'.rawQuery = u.rawQuery := by
  obtain ⟨path, hpath, rfl⟩ := Option.map_eq_some_iff.mp h
  exact ⟨hpath, rfl⟩

theorem dropAuthority_of_not {rest : Bytes} (h : ¬ ascii "//" <+: rest) :
    dropAuthority rest = rest := by
  unfold dropAuthority
  split
  · exact absurd ⟨_, rfl⟩ h
  · rfl

theorem toLower_eq_nil_iff {s : Bytes} : toLower s = [] ↔ s = [] := List.map_eq_nil_iff

/-- What is read of a URL when its authority is passed over. -/
def target (u : NetUrl) : Url := ⟨u.path, u.rawQuery⟩

/-- The authority before a path, if there is one, is one. -/
def RestParses (strict : Bool) (rest : Bytes) : Prop :=
  ascii "//" <+: rest → (parseAuthority strict ((rest.drop 2).takeWhile (· ≠ slash))).isSome = true

/-- What is asked of a URL besides when its authority is taken apart. -/
def Accepts (strict : Bool) (rawurl : Bytes) : Prop :=
  (strict && rawurl.any isControl) = false ∧
    ∀ scheme rest, getScheme rawurl [] rawurl = some (scheme, rest) → scheme ≠ [] →
      RestParses strict (cutAt 63 rest).1

theorem setPath_eq_some_iff {u : NetUrl} {p : Bytes} {url : Url} :
    (∃ u', u.setPath p = some u' ∧ u'.target = url) ↔
      unescape false p = some url.path ∧ u.rawQuery = url.rawQuery := by
  constructor
  · rintro ⟨u', h, rfl⟩
    exact (setPath_eq_some h).imp_right Eq.symm
  · rintro ⟨hpath, hquery⟩
    exact ⟨_, congrArg (Option.map _) hpath, congrArg (Url.mk url.path) hquery⟩

theorem parseRest_iff {strict : Bool} {u : NetUrl} (hempty : u.path = []) {rest : Bytes}
    {url : Url} :
    (∃ u', parseRest strict true u rest = some u' ∧ u'.target = url) ↔
      (u.scheme ≠ [] → RestParses strict rest) ∧ u.rawQuery = url.rawQuery ∧
        if rest.head? = some slash then
          unescape false (if u.scheme = [] then rest else dropAuthority rest) = some url.path
        else u.scheme ≠ [] ∧ url.path = [] := by
  unfold parseRest
  by_cases hslash : rest.head? = some slash
  · simp only [hslash, ne_eq, not_true_eq_false, false_and, if_false, Bool.true_eq_false,
      or_false, if_true]
    by_cases hscheme : u.scheme = []
    · rw [if_neg (by simp [hscheme]), if_pos hscheme, setPath_eq_some_iff]
      exact ⟨fun h => ⟨fun hne => absurd hscheme hne, h.2, h.1⟩, fun h => ⟨h.2.2, h.2.1⟩⟩
    rw [if_neg hscheme]
    by_cases hauthority : ascii "//" <+: rest
    · rw [if_pos ⟨hscheme, hauthority⟩]
      cases hparse : parseAuthority strict ((rest.drop 2).takeWhile (· ≠ slash)) with
      | none =>
        have hrefused : ¬ RestParses strict rest := fun h => by
          have hsome := h hauthority
          rw [hparse] at hsome
          cases hsome
        exact iff_of_false (by simp) fun h => hrefused (h.1 hscheme)
      | some parsed =>
        have hparses : RestParses strict rest := fun _ => by rw [hparse, Option.isSome_some]
        rw [Option.bind_some, setPath_eq_some_iff]
        exact ⟨fun h => ⟨fun _ => hparses, h.2, h.1⟩, fun h => ⟨h.2.2, h.2.1⟩⟩
    · rw [if_neg (fun hboth => hauthority hboth.2), dropAuthority_of_not hauthority,
        setPath_eq_some_iff]
      exact ⟨fun h => ⟨fun _ hpre => absurd hpre hauthority, h.2, h.1⟩,
        fun h => ⟨h.2.2, h.2.1⟩⟩
  · have hnone : ¬ ascii "//" <+: rest := by
      rintro ⟨t, rfl⟩
      exact hslash rfl
    rw [if_neg hslash]
    by_cases hscheme : u.scheme = []
    · rw [if_neg (by simp [hscheme]), if_pos ⟨hslash, by simp⟩]
      exact iff_of_false (by simp) fun h => h.2.2.1 hscheme
    · rw [if_pos ⟨hslash, hscheme⟩]
      constructor
      · rintro ⟨u', h, rfl⟩
        obtain rfl := Option.some.inj h
        exact ⟨fun _ hpre => absurd hpre hnone, rfl, hscheme, hempty⟩
      · rintro ⟨-, hquery, -, hpath⟩
        refine ⟨_, rfl, ?_⟩
        rw [target, hempty, hquery, ← hpath]

/-- **The two parsers read the same**: the one that passes over the authority reads what the other
does, and besides what has an authority that is none or, where control bytes are refused, has one
of these. -/
theorem parseRequestURI_iff {strict : Bool} {rawurl : Bytes} {url : Url} :
    (∃ u, parseRequestURI strict rawurl = some u ∧ u.target = url) ↔
      Accepts strict rawurl ∧ BitsService.parseRequestURI rawurl = some url := by
  unfold parseRequestURI parseVia Accepts BitsService.parseRequestURI
  by_cases hcontrol : (strict && rawurl.any isControl) = true
  · rw [if_pos hcontrol, hcontrol]
    simp
  rw [if_neg hcontrol]
  rw [Bool.not_eq_true] at hcontrol
  by_cases hempty : rawurl = []
  · rw [if_pos ⟨hempty, rfl⟩, if_pos hempty]
    simp
  rw [if_neg (fun hboth => hempty hboth.1), if_neg hempty]
  by_cases hstar : rawurl = ascii "*"
  · subst hstar
    rw [if_pos rfl, if_pos rfl]
    constructor
    · rintro ⟨u, h, rfl⟩
      obtain rfl := Option.some.inj h
      refine ⟨⟨hcontrol, fun scheme rest hscheme hne => ?_⟩, rfl⟩
      cases hscheme
      exact absurd rfl hne
    · rintro ⟨-, h⟩
      exact ⟨_, rfl, Option.some.inj h⟩
  rw [if_neg hstar, if_neg hstar]
  cases hscheme : getScheme rawurl [] rawurl with
  | none => simp
  | some parts =>
    obtain ⟨scheme, rest⟩ := parts
    rw [Option.bind_some, parseRest_iff rfl]
    simp only [Option.bind_some, Option.some.injEq, Prod.mk.injEq, and_imp, hcontrol, true_and,
      toLower_eq_nil_iff, ne_eq]
    refine and_congr ?_ ?_
    · constructor
      · rintro h _ _ rfl rfl
        exact h
      · exact fun h => h scheme rest rfl rfl
    · by_cases hslash : (cutAt 63 rest).1.head? = some slash
      · rw [if_pos hslash, if_pos hslash, Option.map_eq_some_iff]
        constructor
        · rintro ⟨hquery, hpath⟩
          exact ⟨url.path, hpath, congrArg (Url.mk url.path) hquery⟩
        · rintro ⟨path, hpath, rfl⟩
          exact ⟨rfl, hpath⟩
      · rw [if_neg hslash, if_neg hslash]
        by_cases hnone : scheme = []
        · rw [if_pos hnone]
          exact iff_of_false (fun h => h.2.1 hnone) (by simp)
        · rw [if_neg hnone]
          constructor
          · rintro ⟨hquery, -, hpath⟩
            rw [hquery, ← hpath]
          · intro h
            obtain rfl := Option.some.inj h
            exact ⟨rfl, hnone, rfl⟩

/-! ## The printer -/

def validEncodedPath (s : Bytes) : Bool :=
  s.all fun c => c ∈ ascii "!$&'()*+,;=:@[]%" || !shouldEscape .encodePath c

def escapedPath (u : NetUrl) : Bytes :=
  if u.rawPath ≠ [] ∧ validEncodedPath u.rawPath ∧ unescape false u.rawPath = some u.path then
    u.rawPath
  else if u.path = ascii "*" then ascii "*"
  else escape .encodePath u.path

def userinfoText (user : Userinfo) : Bytes :=
  escape .encodeUserPassword user.username ++ (match user.password with
    | none => []
    | some password => 58 :: escape .encodeUserPassword password)

/-- What is printed between the scheme and the path. -/
def authorityText (u : NetUrl) : Bytes :=
  if u.host = [] ∧ u.user = none ∧ (u.scheme = [] ∨ u.path = []) then []
  else ascii "//" ++ (match u.user with
    | none => []
    | some user => userinfoText user ++ [64]) ++ escape .encodeHost u.host

/-- What is put before a path that would be read as something else. -/
def pathGuard (u : NetUrl) : Bytes :=
  if u.escapedPath ≠ [] ∧ u.escapedPath.head? ≠ some slash ∧ u.host ≠ [] then [slash]
  else if u.scheme = [] ∧ u.authorityText = [] ∧ firstSegmentHasColon u.escapedPath then ascii "./"
  else []

/-- `String`. -/
def text (u : NetUrl) : Bytes :=
  (if u.scheme = [] then [] else u.scheme ++ [58]) ++
  (if u.opaquePart ≠ [] then u.opaquePart
  else u.authorityText ++ u.pathGuard ++ u.escapedPath) ++
  (if u.forceQuery ∨ u.rawQuery ≠ [] then 63 :: u.rawQuery else []) ++
  (if u.fragment = [] then [] else 35 :: escape .encodeFragment u.fragment)

end NetUrl

end BitsService
