import BitsService.Foundations.Url

/-! # The public routes

Which handler a request reaches, by its method, its path and whether it is a multipart form. Paths
are matched by the router library: what is used of it are the documented meanings of the templates
below, that routes are tried in order, and that a path that is not clean is redirected. -/
namespace BitsService
set_option autoImplicit false

/-! ## Templates -/

inductive HttpMethod where
  | get
  | head
  | post
  | put
  | delete
  | other (name : Bytes)
  deriving DecidableEq

/-- A path, or a text followed by `{identifier}`, by `{identifier:.*}` or by
`{identifier:[a-z0-9\-]+}`. -/
inductive Template where
  | path (text : Bytes)
  | identifier (pre : Bytes)
  | anyIdentifier (pre : Bytes)
  | nameIdentifier (pre : Bytes)
  deriving DecidableEq

def pathAfter (pre path : Bytes) : Option Bytes :=
  if pre <+: path then some (path.drop pre.length) else none

theorem pathAfter_append (pre identifier : Bytes) :
    pathAfter pre (pre ++ identifier) = some identifier := by
  rw [pathAfter, if_pos (List.prefix_append _ _), List.drop_left]

def isNameByte (c : UInt8) : Bool := (97 ≤ c && c ≤ 122) || (48 ≤ c && c ≤ 57) || c == 45

def newline : UInt8 := 10

/-- A segment of a clean path that is not the last one. -/
def isPlainSegment (segment : Bytes) : Bool :=
  segment != [] && segment != ascii "." && segment != ascii ".."

/-- A path that cleaning leaves as it is: it begins with a slash, and may end in one. -/
def isCleanPath (path : Bytes) : Bool :=
  match splitBy (· = slash) path with
  | [] :: segments => segments.dropLast.all isPlainSegment &&
      segments.getLast?.all fun last => last == [] || isPlainSegment last
  | _ => false

theorem isPlainSegment_of_name {name : Bytes} (hne : name ≠ [])
    (h : name.all isNameByte = true) : isPlainSegment name = true := by
  have hdots : ∀ dots ∈ [ascii ".", ascii ".."], name ≠ dots := by
    rintro dots hdots rfl
    revert h
    simp only [List.mem_cons, List.not_mem_nil, or_false] at hdots
    rcases hdots with rfl | rfl <;> decide
  simp only [isPlainSegment, Bool.and_eq_true, bne_iff_ne]
  exact ⟨⟨hne, hdots _ (by simp)⟩, hdots _ (by simp)⟩

theorem slash_not_mem_of_name {name : Bytes} (h : name.all isNameByte = true) : slash ∉ name :=
  fun hmem => absurd (List.all_eq_true.mp h slash hmem) (by decide)

theorem isCleanPath_of_name {segments : List Bytes} {name : Bytes}
    (h : ∀ segment ∈ segments, isPlainSegment segment = true ∧ slash ∉ segment) (hne : name ≠ [])
    (hname : name.all isNameByte = true) :
    isCleanPath (([] :: segments).flatMap (· ++ [slash]) ++ name) = true := by
  have hsplit : splitBy (· = slash) (([] :: segments).flatMap (· ++ [slash]) ++ name) =
      [] :: (segments ++ [name]) := by
    refine splitBy_segments (by simp) (fun segment hsegment b hb => ?_) fun b hb => ?_
    · have hslash : slash ∉ segment := by
        rcases List.mem_cons.mp hsegment with rfl | hsegment
        · exact List.not_mem_nil
        · exact (h segment hsegment).2
      have hne : b ≠ slash := fun heq => hslash (heq ▸ hb)
      simpa using hne
    · have hne : b ≠ slash := fun heq => slash_not_mem_of_name hname (heq ▸ hb)
      simpa using hne
  have hsegments : segments.all isPlainSegment = true :=
    List.all_eq_true.mpr fun segment hsegment => (h segment hsegment).1
  rw [isCleanPath, hsplit]
  simp [hsegments, isPlainSegment_of_name hne hname]

/-- The router library. -/
structure Mux where
  matchPath : Template → Bytes → Option Bytes
  redirects : Bytes → Bool
  matchPath_path : ∀ text path, matchPath (.path text) path = if path = text then some [] else none
  matchPath_identifier : ∀ pre path, matchPath (.identifier pre) path =
    (pathAfter pre path).filter fun identifier => identifier ≠ [] ∧ slash ∉ identifier
  matchPath_anyIdentifier : ∀ pre path, matchPath (.anyIdentifier pre) path =
    (pathAfter pre path).filter fun identifier => newline ∉ identifier
  matchPath_nameIdentifier : ∀ pre path, matchPath (.nameIdentifier pre) path =
    (pathAfter pre path).filter fun identifier => identifier ≠ [] ∧ identifier.all isNameByte
  redirects_eq : ∀ path, redirects path = !isCleanPath path

def documentedMux : Mux where
  matchPath
    | .path text, path => if path = text then some [] else none
    | .identifier pre, path =>
      (pathAfter pre path).filter fun identifier => identifier ≠ [] ∧ slash ∉ identifier
    | .anyIdentifier pre, path =>
      (pathAfter pre path).filter fun identifier => newline ∉ identifier
    | .nameIdentifier pre, path =>
      (pathAfter pre path).filter fun identifier => identifier ≠ [] ∧ identifier.all isNameByte
  redirects path := !isCleanPath path
  matchPath_path _ _ := rfl
  matchPath_identifier _ _ := rfl
  matchPath_anyIdentifier _ _ := rfl
  matchPath_nameIdentifier _ _ := rfl
  redirects_eq _ := rfl

/-! ## The table -/

inductive ResourceKind where
  | package
  | buildpack
  | droplet
  | buildpackCache
  deriving DecidableEq

inductive ResourceOperation where
  | addOrReplace
  | addOrReplaceWithDigestInHeader
  | copySourceGuid
  | headOrRedirectAsGet
  | get
  | delete
  | deleteDir
  deriving DecidableEq

inductive Endpoint where
  | postEntries
  | postMatches
  | postBundles
  | resource (kind : ResourceKind) (operation : ResourceOperation)
  deriving DecidableEq

/-- A route, which may be for multipart forms only. -/
structure Route where
  template : Template
  method : HttpMethod
  multipartOnly : Bool
  endpoint : Endpoint
  deriving DecidableEq

def setUpDefaultMethodRoutes (template : Template) (kind : ResourceKind) : List Route :=
  [⟨template, .put, true, .resource kind .addOrReplace⟩,
    ⟨template, .put, false, .resource kind .copySourceGuid⟩,
    ⟨template, .head, false, .resource kind .headOrRedirectAsGet⟩,
    ⟨template, .get, false, .resource kind .get⟩,
    ⟨template, .delete, false, .resource kind .delete⟩]

def setUpAppStashRoutes : List Route :=
  [⟨.path (ascii "/app_stash/entries"), .post, false, .postEntries⟩,
    ⟨.path (ascii "/app_stash/matches"), .post, false, .postMatches⟩,
    ⟨.path (ascii "/app_stash/bundles"), .post, false, .postBundles⟩]

def setUpPackageRoutes : List Route :=
  setUpDefaultMethodRoutes (.identifier (ascii "/packages/")) .package

def setUpBuildpackRoutes : List Route :=
  setUpDefaultMethodRoutes (.identifier (ascii "/buildpacks/")) .buildpack

def setUpDropletRoutes : List Route :=
  ⟨.nameIdentifier (ascii "/droplets/"), .put, false,
      .resource .droplet .addOrReplaceWithDigestInHeader⟩ ::
    setUpDefaultMethodRoutes (.anyIdentifier (ascii "/droplets/")) .droplet

def setUpBuildpackCacheRoutes : List Route :=
  ⟨.path (ascii "/buildpack_cache/entries"), .delete, false,
      .resource .buildpackCache .deleteDir⟩ ::
    ⟨.identifier (ascii "/buildpack_cache/entries/"), .delete, false,
      .resource .buildpackCache .deleteDir⟩ ::
    setUpDefaultMethodRoutes (.anyIdentifier (ascii "/buildpack_cache/entries/")) .buildpackCache

/-- The routes of the public router, which are also those of the internal one. -/
def publicRoutes : List Route :=
  setUpAppStashRoutes ++ setUpPackageRoutes ++ setUpBuildpackRoutes ++ setUpDropletRoutes ++
    setUpBuildpackCacheRoutes

/-! ## Matching a request -/

structure RoutedRequest where
  method : HttpMethod
  url : Url
  multipart : Bool

/-- The identifier with which a route takes a request. -/
def Route.matches (mux : Mux) (route : Route) (request : RoutedRequest) : Option Bytes :=
  if route.method = request.method ∧ (route.multipartOnly = true → request.multipart = true) then
    mux.matchPath route.template request.url.path
  else none

/-- The first route that takes the request; none when it is redirected or answered as not found or
not allowed. -/
def routeRequest (mux : Mux) (request : RoutedRequest) : Option (Endpoint × Bytes) :=
  if mux.redirects request.url.path then none
  else publicRoutes.findSome? fun route =>
    (route.matches mux request).map fun identifier => (route.endpoint, identifier)

theorem routeRequest_isSome_iff (mux : Mux) (request : RoutedRequest) :
    (routeRequest mux request).isSome = true ↔ mux.redirects request.url.path = false ∧
      ∃ route ∈ publicRoutes, (route.matches mux request).isSome = true := by
  unfold routeRequest
  by_cases hredirect : mux.redirects request.url.path = true
  · rw [if_pos hredirect, hredirect]
    simp
  · rw [if_neg hredirect, List.findSome?_isSome_iff]
    simp only [Option.isSome_map, Bool.not_eq_true] at *
    simp [hredirect]

theorem Route.matches_isSome_iff (mux : Mux) (route : Route) (request : RoutedRequest) :
    (route.matches mux request).isSome = true ↔
      route.method = request.method ∧ (route.multipartOnly = true → request.multipart = true) ∧
        (mux.matchPath route.template request.url.path).isSome = true := by
  unfold Route.matches
  by_cases h : route.method = request.method ∧
      (route.multipartOnly = true → request.multipart = true)
  · rw [if_pos h]
    exact ⟨fun hsome => ⟨h.1, h.2, hsome⟩, fun hsome => hsome.2.2⟩
  · rw [if_neg h]
    exact ⟨fun hsome => (nomatch hsome), fun hsome => absurd ⟨hsome.1, hsome.2.1⟩ h⟩

/-! ## What the table offers for a path -/

theorem Mux.matchPath_eq (mux : Mux) : mux.matchPath = documentedMux.matchPath := by
  funext template path
  cases template with
  | path text => exact mux.matchPath_path text path
  | identifier pre => exact mux.matchPath_identifier pre path
  | anyIdentifier pre => exact mux.matchPath_anyIdentifier pre path
  | nameIdentifier pre => exact mux.matchPath_nameIdentifier pre path

theorem Mux.anyIdentifier_of_nameIdentifier (mux : Mux) {pre path : Bytes}
    (h : (mux.matchPath (.nameIdentifier pre) path).isSome = true) :
    (mux.matchPath (.anyIdentifier pre) path).isSome = true := by
  rw [mux.matchPath_nameIdentifier] at h
  rw [mux.matchPath_anyIdentifier]
  obtain ⟨identifier, hsome⟩ := Option.isSome_iff_exists.mp h
  obtain ⟨hafter, hname⟩ := Option.filter_eq_some_iff.mp hsome
  have hall : ∀ c ∈ identifier, isNameByte c = true := by
    simp only [ne_eq, List.all_eq_true, decide_eq_true_eq] at hname
    exact hname.2
  have hline : newline ∉ identifier := fun hmem => absurd (hall _ hmem) (by decide)
  rw [hafter, Option.filter_some, if_pos (by simpa using hline)]
  rfl

theorem Mux.matchPath_identifier_of_name (mux : Mux) (pre : Bytes) {name : Bytes} (hne : name ≠ [])
    (h : name.all isNameByte = true) :
    (mux.matchPath (.identifier pre) (pre ++ name)).isSome = true := by
  have hslash : slash ∉ name := slash_not_mem_of_name h
  rw [mux.matchPath_identifier, pathAfter_append, Option.filter_some,
    if_pos (by simp [hne, hslash])]
  rfl

theorem Mux.matchPath_anyIdentifier_of_name (mux : Mux) (pre : Bytes) {name : Bytes}
    (hne : name ≠ []) (h : name.all isNameByte = true) :
    (mux.matchPath (.anyIdentifier pre) (pre ++ name)).isSome = true := by
  refine mux.anyIdentifier_of_nameIdentifier ?_
  rw [mux.matchPath_nameIdentifier, pathAfter_append, Option.filter_some,
    if_pos (by simpa [hne] using h)]
  rfl

def appStashPaths : List Bytes :=
  [ascii "/app_stash/entries", ascii "/app_stash/matches", ascii "/app_stash/bundles"]

/-- **What the router knows can be deleted**, whichever method it is known for, unless it belongs
to the app stash. -/
theorem delete_of_matchPath (mux : Mux) {route : Route} {path : Bytes}
    (hroute : route ∈ publicRoutes) (h : (mux.matchPath route.template path).isSome = true)
    (hstash : path ∉ appStashPaths) :
    ∃ delete ∈ publicRoutes, delete.method = .delete ∧ delete.multipartOnly = false ∧
      (mux.matchPath delete.template path).isSome = true := by
  have htable : ∀ route ∈ publicRoutes, (∃ text ∈ appStashPaths, route.template = .path text) ∨
      route.template = .nameIdentifier (ascii "/droplets/") ∨
      ∃ delete ∈ publicRoutes, delete.method = .delete ∧ delete.multipartOnly = false ∧
        delete.template = route.template := by decide
  rcases htable route hroute with ⟨text, htext, htemplate⟩ | htemplate |
    ⟨delete, hdelete, hmethod, hmultipart, htemplate⟩
  · rw [htemplate, mux.matchPath_path] at h
    by_cases hpath : path = text
    · exact absurd (hpath ▸ htext) hstash
    · rw [if_neg hpath] at h
      cases h
  · rw [htemplate] at h
    exact ⟨⟨.anyIdentifier (ascii "/droplets/"), .delete, false, .resource .droplet .delete⟩,
      by decide, rfl, rfl, mux.anyIdentifier_of_nameIdentifier h⟩
  · exact ⟨delete, hdelete, hmethod, hmultipart, by rw [htemplate]; exact h⟩

theorem post_of_matchPath_appStash (mux : Mux) {route : Route} {path : Bytes}
    (hroute : route ∈ publicRoutes) (h : (mux.matchPath route.template path).isSome = true)
    (hstash : path ∈ appStashPaths) : route.method = .post ∧ route.multipartOnly = false := by
  have htable : ∀ path ∈ appStashPaths, ∀ route ∈ publicRoutes,
      (documentedMux.matchPath route.template path).isSome = true →
        route.method = .post ∧ route.multipartOnly = false := by decide
  rw [mux.matchPath_eq] at h
  exact htable path hstash route hroute h

end BitsService
