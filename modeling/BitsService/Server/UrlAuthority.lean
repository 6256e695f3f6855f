import BitsService.Server.Routes
import BitsService.Server.SignedKeys
import BitsService.Server.SignedUrls

/-! # What a signed URL authorises

A URL is signed for a verb by the handler of its resource type, and presented to the public host,
whose middleware looks at the path and at the expiry time and never at the method. -/
namespace BitsService
open GoLib.Effect
set_option autoImplicit false

/-! ## The deployment -/

/-- `scheme://host:port`, as it is printed from a parsed URL. -/
structure PublicEndpoint where
  letter : UInt8
  scheme : Bytes
  authority : Bytes
  letter_isLetter : isLetter letter = true
  scheme_bytes : ∀ c ∈ scheme, isSchemeByte c = true
  authority_plain : slash ∉ authority ∧ 63 ∉ authority

def PublicEndpoint.text (e : PublicEndpoint) : Bytes :=
  e.letter :: (e.scheme ++ ascii "://" ++ e.authority)

/-- What the process is configured with; its blobs are in local directories. -/
structure Deployment (σ : Type) where
  mux : Mux
  signer : PathSignerValidator
  endpoint : PublicEndpoint
  directoryKey : Bytes
  backend : Backend σ

inductive SignedResource where
  | package (identifier : Bytes)
  | droplet (identifier : Bytes)
  | buildpack (identifier : Bytes)
  | buildpackCache (identifier : Bytes)
  | appStashMatches
  deriving DecidableEq

namespace SignedResource

def pathPrefix : SignedResource → Bytes
  | package _ => ascii "/packages/"
  | droplet _ => ascii "/droplets/"
  | buildpack _ => ascii "/buildpacks/"
  | buildpackCache _ => ascii "/buildpack_cache/entries/"
  | appStashMatches => ascii "/app_stash/matches"

/-- The variable of the route of the sign handler; the one for the app stash has none. -/
def identifier : SignedResource → Bytes
  | package i => i
  | droplet i => i
  | buildpack i => i
  | buildpackCache i => i
  | appStashMatches => []

def path (r : SignedResource) : Bytes := r.pathPrefix ++ r.identifier

end SignedResource

namespace Deployment
variable {σ : Type} (d : Deployment σ)

def createLocalResourceSigner (resourceType : Bytes) : LocalResourceSigner :=
  ⟨d.signer, ascii "/" ++ resourceType ++ ascii "/", d.endpoint.text⟩

def signHandler : SignedResource → SignResourceHandler σ
  | .package _ => (createBlobstoreAndSignURLHandler ⟨.localDir, d.directoryKey⟩ d.backend
      (d.createLocalResourceSigner (ascii "packages")).toResourceSigner).2
  | .droplet _ => (createBlobstoreAndSignURLHandler ⟨.localDir, d.directoryKey⟩ d.backend
      (d.createLocalResourceSigner (ascii "droplets")).toResourceSigner).2
  | .buildpack _ => (createBlobstoreAndSignURLHandler ⟨.localDir, d.directoryKey⟩ d.backend
      (d.createLocalResourceSigner (ascii "buildpacks")).toResourceSigner).2
  | .buildpackCache _ => (createBuildpackCacheSignURLHandler ⟨.localDir, d.directoryKey⟩ d.backend
      (d.createLocalResourceSigner (ascii "buildpack_cache/entries")).toResourceSigner).2
  | .appStashMatches => (createAppStashBlobstore ⟨.localDir, d.directoryKey⟩ d.backend
      (⟨d.signer, ascii "/app_stash/matches", d.endpoint.text⟩ :
        LocalResourceSigner).toResourceSigner).2

end Deployment

/-- The text that a request was answered with, when its status is 200. -/
def Response.okText (response : Response) : Option Bytes :=
  match response.status, response.body with
  | some 200, [.raw content] => some content
  | _, _ => none

namespace Deployment
variable {σ : Type} (d : Deployment σ)

def returnedUrl (s : σ) (r : SignedResource) (verb : Bytes) (signedAt : Time) : Option Bytes :=
  match ((d.signHandler r).sign r.identifier verb signedAt).run (Env.fresh s) with
  | (.returned (), w) => w.response.okText
  | (.panicked _, _) => none

/-- The public host: the middleware, and then what `serve` does with the routed request. -/
def publicHost {τ : Type} (serve : Option (Endpoint × Bytes) → Prog GoError (Env τ) Unit)
    (now : Time) (request : RoutedRequest) : Prog GoError (Env τ) Unit :=
  signatureVerification d.signer now request.url (serve (routeRequest d.mux request))

/-- A handler that only writes down that it was called. -/
def recordCall (routed : Option (Endpoint × Bytes)) :
    Prog GoError (Env (List (Endpoint × Bytes))) Unit :=
  onExt (modifyState (· ++ routed.toList))

def reachedHandlers (now : Time) (request : RoutedRequest) : List (Endpoint × Bytes) :=
  ((d.publicHost recordCall now request).run (Env.fresh [])).2.ext

end Deployment

/-! ## Verbs -/

def acceptedVerbs : List Bytes := [[], ascii "get", ascii "put", ascii "post"]

def methodsOf (verb : Bytes) : List HttpMethod :=
  if verb = [] ∨ verb = ascii "get" then [.get, .head]
  else if verb = ascii "put" then [.put]
  else if verb = ascii "post" then [.post]
  else []

namespace SignedResource

/-- The verbs for which a resource type has a signer. -/
def signedVerbs : SignedResource → List Bytes
  | appStashMatches => [ascii "put", ascii "post"]
  | _ => acceptedVerbs

/-- A resource with a name of the kind that uploads of droplets ask for. -/
def Named (r : SignedResource) : Prop :=
  r ≠ appStashMatches ∧ r.identifier ≠ [] ∧ r.identifier.all isNameByte = true

end SignedResource

namespace Deployment
variable {σ : Type} (d : Deployment σ)

/-- The last moment at which a URL signed at `signedAt` may be used. -/
def expiry (signedAt : Time) : Time := timeUnix (unixSeconds (signedAt + oneHour))

/-- The URL returned for a resource and a verb serves that verb only. -/
def OnlyVerb (s : σ) (r : SignedResource) (verb : Bytes) (signedAt : Time) : Prop :=
  ∀ url, d.returnedUrl s r verb signedAt = some url →
    ∀ request : RoutedRequest, parseRequestURI url = some request.url →
      ∀ now ≤ expiry signedAt, d.reachedHandlers now request ≠ [] →
        request.method ∈ methodsOf verb

/-- What is signed for a resource is a target whose signature is that of its own path, and whose
path is one of the router's. -/
def Opens (r : SignedResource) (signedAt : Time) : Prop :=
  ∃ u, parseRequestURI (d.signer.sign r.path (signedAt + oneHour)) = some u ∧
    (∃ now ≤ expiry signedAt, d.signer.admits now u = true) ∧
    d.mux.redirects u.path = false ∧
    ∃ route ∈ publicRoutes, (d.mux.matchPath route.template u.path).isSome = true

end Deployment

/-! ## The text of a URL -/

section Endpoint
variable (e : PublicEndpoint) (t : Bytes)

theorem PublicEndpoint.getScheme_text :
    getScheme (e.text ++ slash :: t) [] (e.text ++ slash :: t) =
      some (e.letter :: e.scheme, slash :: slash :: (e.authority ++ slash :: t)) := by
  have htail := getScheme_append (e.text ++ slash :: t) [e.letter] e.scheme
    (slash :: slash :: (e.authority ++ slash :: t)) (by simp) e.scheme_bytes
  have htext : e.text ++ slash :: t =
      e.letter :: (e.scheme ++ 58 :: slash :: slash :: (e.authority ++ slash :: t)) := by
    rw [PublicEndpoint.text, List.cons_append, List.append_assoc, List.append_assoc]
    rfl
  rw [htext, getScheme, if_pos e.letter_isLetter]
  rw [htext] at htail
  exact htail

theorem PublicEndpoint.cutAt_authority :
    cutAt 63 (slash :: slash :: (e.authority ++ slash :: t)) =
      (slash :: slash :: (e.authority ++ slash :: (cutAt 63 t).1), (cutAt 63 t).2) := by
  have happend := cutAt_append (s := slash :: slash :: (e.authority ++ [slash]))
    (c := 63) (by
      simp only [List.mem_cons, List.mem_append, List.not_mem_nil, not_or]
      exact ⟨by decide, by decide, e.authority_plain.2, by decide, fun h => h⟩) t
  simpa using happend

theorem PublicEndpoint.parseRequestURI_text :
    parseRequestURI (e.text ++ slash :: t) = parseRequestURI (slash :: t) := by
  have hstar : e.text ++ slash :: t ≠ ascii "*" := by
    intro h
    have hletter := e.letter_isLetter
    rw [(List.cons.inj h).1] at hletter
    exact absurd hletter (by decide)
  have hauthority : dropAuthority (slash :: slash :: (e.authority ++ slash :: (cutAt 63 t).1)) =
      slash :: (cutAt 63 t).1 := dropWhile_of_not_mem e.authority_plain.1 _
  rw [parseRequestURI_target, parseRequestURI, if_neg (by simp [PublicEndpoint.text]),
    if_neg hstar, e.getScheme_text, Option.bind_some]
  simp only [e.cutAt_authority, List.head?_cons, if_true, reduceCtorEq, if_false, hauthority]

end Endpoint

/-! ## What is returned, and what it reaches -/

namespace Deployment
variable {σ : Type} (d : Deployment σ)

theorem returnedUrl_of_signed (s : σ) (r : SignedResource) {verb : Bytes}
    (h : verb ∈ r.signedVerbs) (signedAt : Time) :
    d.returnedUrl s r verb signedAt =
      some (d.endpoint.text ++ d.signer.sign r.path (signedAt + oneHour)) := by
  cases r with
  | appStashMatches =>
    simp only [SignedResource.signedVerbs, List.mem_cons, List.not_mem_nil, or_false] at h
    rcases h with rfl | rfl <;> rfl
  | _ =>
    simp only [SignedResource.signedVerbs, acceptedVerbs, List.mem_cons, List.not_mem_nil,
      or_false] at h
    rcases h with rfl | rfl | rfl | rfl <;> rfl

theorem returnedUrl_appStash_get (s : σ) {verb : Bytes} (h : verb = [] ∨ verb = ascii "get")
    (signedAt : Time) : d.returnedUrl s .appStashMatches verb signedAt = none := by
  rcases h with rfl | rfl <;> rfl

theorem returnedUrl_eq_some {s : σ} {r : SignedResource} {verb url : Bytes} {signedAt : Time}
    (hverb : verb ∈ acceptedVerbs) (h : d.returnedUrl s r verb signedAt = some url) :
    url = d.endpoint.text ++ d.signer.sign r.path (signedAt + oneHour) ∧ verb ∈ r.signedVerbs := by
  have hsigned : verb ∈ r.signedVerbs := by
    cases r with
    | appStashMatches =>
      simp only [acceptedVerbs, List.mem_cons, List.not_mem_nil, or_false] at hverb
      rcases hverb with hverb | hverb | hverb | hverb
      · rw [d.returnedUrl_appStash_get s (.inl hverb)] at h
        cases h
      · rw [d.returnedUrl_appStash_get s (.inr hverb)] at h
        cases h
      · simp [SignedResource.signedVerbs, hverb]
      · simp [SignedResource.signedVerbs, hverb]
    | _ => exact hverb
  rw [d.returnedUrl_of_signed s r hsigned] at h
  exact ⟨(Option.some.inj h).symm, hsigned⟩

theorem reachedHandlers_ne_nil_iff (now : Time) (request : RoutedRequest) :
    d.reachedHandlers now request ≠ [] ↔ d.signer.admits now request.url = true ∧
      (routeRequest d.mux request).isSome = true := by
  unfold reachedHandlers publicHost
  by_cases hadmits : d.signer.admits now request.url = true
  · rw [signatureVerification_of_admits hadmits]
    have hcall : ((recordCall (routeRequest d.mux request)).run (Env.fresh [])).2.ext =
        (routeRequest d.mux request).toList := rfl
    rw [hcall]
    cases routeRequest d.mux request with
    | none => simp
    | some routed => simp [hadmits]
  · rw [Bool.not_eq_true] at hadmits
    have hrefused : ((writeHeader 403).run (Env.fresh ([] : List (Endpoint × Bytes)))).2.ext = [] :=
      rfl
    rw [signatureVerification_of_not_admits hadmits, hrefused, hadmits]
    simp

theorem slash_pathPrefix (r : SignedResource) :
    ∃ pre, r.pathPrefix = slash :: pre ∧ ∀ c ∈ pre, c ≠ 63 ∧ c ≠ 37 := by
  cases r <;> exact ⟨_, rfl, forall_mem_of_all (by decide)⟩

theorem sign_path (r : SignedResource) (signedAt : Time) :
    ∃ pre t, r.pathPrefix = slash :: pre ∧ (∀ c ∈ pre, c ≠ 63 ∧ c ≠ 37) ∧
      d.signer.sign r.path (signedAt + oneHour) = slash :: pre ++ t := by
  obtain ⟨pre, hpre, hplain⟩ := slash_pathPrefix r
  refine ⟨pre, r.identifier ++ (ascii "?md5=" ++
    (hexEncode (d.signer.signatureFor r.path (signedAt + oneHour)) ++ (ascii "&expires=" ++
      formatInt 10 (unixSeconds (signedAt + oneHour))))), hpre, hplain, ?_⟩
  simp only [PathSignerValidator.sign, SignedResource.path, hpre, List.append_assoc]

theorem parseRequestURI_returned (r : SignedResource) (signedAt : Time) :
    parseRequestURI (d.endpoint.text ++ d.signer.sign r.path (signedAt + oneHour)) =
      parseRequestURI (d.signer.sign r.path (signedAt + oneHour)) := by
  obtain ⟨pre, t, -, -, hsign⟩ := d.sign_path r signedAt
  rw [hsign]
  exact d.endpoint.parseRequestURI_text (pre ++ t)

theorem pathPrefix_of_parse {r : SignedResource} {signedAt : Time} {u : Url}
    (h : parseRequestURI (d.signer.sign r.path (signedAt + oneHour)) = some u) :
    r.pathPrefix <+: u.path := by
  obtain ⟨pre, t, hpre, hplain, hsign⟩ := d.sign_path r signedAt
  rw [hsign] at h
  rw [hpre]
  exact prefix_path_of_parseRequestURI hplain h

theorem not_mem_appStashPaths {r : SignedResource} (hr : r ≠ .appStashMatches) {path : Bytes}
    (h : r.pathPrefix <+: path) : path ∉ appStashPaths := by
  have hroots : ∀ pre ∈ [ascii "/packages/", ascii "/droplets/", ascii "/buildpacks/",
      ascii "/buildpack_cache/entries/"], ∀ text ∈ appStashPaths, ¬ pre <+: text := by decide
  intro hmem
  cases r with
  | appStashMatches => exact hr rfl
  | _ => exact hroots _ (by simp [SignedResource.pathPrefix]) path hmem h

/-- **A URL that opens anything opens its path for a method that is not the verb's**: for DELETE, or
for POST in the app stash. -/
theorem opens_for_delete_or_post {r : SignedResource} {signedAt : Time}
    (h : d.Opens r signedAt) (multipart : Bool) :
    ∃ request : RoutedRequest,
      parseRequestURI (d.signer.sign r.path (signedAt + oneHour)) = some request.url ∧
        (∃ now ≤ expiry signedAt, d.reachedHandlers now request ≠ []) ∧
        (request.method = .delete ∨ (request.method = .post ∧ r = .appStashMatches)) := by
  obtain ⟨u, hparse, ⟨now, hnow, hadmits⟩, hclean, route, hroute, hmatch⟩ := h
  have hreached : ∀ method, (∃ route ∈ publicRoutes, route.method = method ∧
      route.multipartOnly = false ∧ (d.mux.matchPath route.template u.path).isSome = true) →
      ∃ now ≤ expiry signedAt, d.reachedHandlers now ⟨method, u, multipart⟩ ≠ [] := by
    rintro method ⟨route, hroute, hmethod, hmultipart, hmatch⟩
    refine ⟨now, hnow, (d.reachedHandlers_ne_nil_iff now _).mpr ⟨hadmits, ?_⟩⟩
    refine (routeRequest_isSome_iff d.mux _).mpr ⟨hclean, route, hroute, ?_⟩
    exact (Route.matches_isSome_iff d.mux route _).mpr ⟨hmethod, by simp [hmultipart], hmatch⟩
  by_cases hstash : u.path ∈ appStashPaths
  · have hr : r = .appStashMatches := by
      by_contra hr
      exact not_mem_appStashPaths hr (d.pathPrefix_of_parse hparse) hstash
    have hpost := post_of_matchPath_appStash d.mux hroute hmatch hstash
    exact ⟨⟨.post, u, multipart⟩, hparse,
      hreached .post ⟨route, hroute, hpost.1, hpost.2, hmatch⟩, .inr ⟨rfl, hr⟩⟩
  · obtain ⟨delete, hdelete, hmethod, hmultipart, hmatch⟩ :=
      delete_of_matchPath d.mux hroute hmatch hstash
    exact ⟨⟨.delete, u, multipart⟩, hparse,
      hreached .delete ⟨delete, hdelete, hmethod, hmultipart, hmatch⟩, .inl rfl⟩

theorem opens_of_reached {r : SignedResource} {signedAt now : Time} {request : RoutedRequest}
    (hparse : parseRequestURI (d.signer.sign r.path (signedAt + oneHour)) = some request.url)
    (hnow : now ≤ expiry signedAt) (h : d.reachedHandlers now request ≠ []) :
    d.Opens r signedAt ∧ ∃ route ∈ publicRoutes, route.method = request.method ∧
      (d.mux.matchPath route.template request.url.path).isSome = true := by
  obtain ⟨hadmits, hrouted⟩ := (d.reachedHandlers_ne_nil_iff now request).mp h
  obtain ⟨hclean, route, hroute, hmatches⟩ := (routeRequest_isSome_iff d.mux request).mp hrouted
  obtain ⟨hmethod, -, hmatch⟩ := (Route.matches_isSome_iff d.mux route request).mp hmatches
  exact ⟨⟨request.url, hparse, ⟨now, hnow, hadmits⟩, hclean, route, hroute, hmatch⟩,
    route, hroute, hmethod, hmatch⟩

theorem path_of_parse_appStash {signedAt : Time} {u : Url}
    (h : parseRequestURI (d.signer.sign SignedResource.appStashMatches.path
      (signedAt + oneHour)) = some u) : u.path = ascii "/app_stash/matches" := by
  have hsign : d.signer.sign SignedResource.appStashMatches.path (signedAt + oneHour) =
      slash :: (ascii "app_stash/matches" ++ 63 :: (ascii "md5=" ++
        (hexEncode (d.signer.signatureFor SignedResource.appStashMatches.path
          (signedAt + oneHour)) ++ (ascii "&expires=" ++
            formatInt 10 (unixSeconds (signedAt + oneHour)))))) := by
    simp only [PathSignerValidator.sign, List.append_assoc]
    rfl
  have hplain : unescape false (slash :: ascii "app_stash/matches") =
      some (ascii "/app_stash/matches") := unescape_of_plain (forall_mem_of_all (by decide))
  rw [hsign, parseRequestURI_target, cutAt_append_cons (by decide)] at h
  simp only [hplain, Option.map_some, Option.some.injEq] at h
  rw [← h]

theorem parse_sign_of_plain {r : SignedResource} (hplain : ∀ c ∈ r.identifier, c ≠ 63 ∧ c ≠ 37)
    (signedAt : Time) : parseRequestURI (d.signer.sign r.path (signedAt + oneHour)) =
      some ⟨r.path, d.signer.query r.path (signedAt + oneHour)⟩ := by
  obtain ⟨pre, hpre, hpreplain⟩ := slash_pathPrefix r
  have hpath : r.path = slash :: (pre ++ r.identifier) := by
    rw [SignedResource.path, hpre, List.cons_append]
  rw [d.signer.sign_eq, hpath]
  refine parseRequestURI_of_plain fun c hc => ?_
  rcases List.mem_append.mp hc with hc | hc
  · exact hpreplain c hc
  · exact hplain c hc

/-- A URL signed for a plain identifier opens the path of the resource, if the router knows it. -/
theorem opens_iff_of_plain {r : SignedResource} {signedAt : Time}
    (hplain : ∀ c ∈ r.identifier, c ≠ 63 ∧ c ≠ 37) (hrange : InClockRange (signedAt + oneHour)) :
    d.Opens r signedAt ↔ isCleanPath r.path = true ∧
      ∃ route ∈ publicRoutes, (d.mux.matchPath route.template r.path).isSome = true := by
  have hparse := d.parse_sign_of_plain hplain signedAt
  constructor
  · rintro ⟨u, hu, -, hclean, hroute⟩
    obtain rfl := Option.some.inj (hparse.symm.trans hu)
    rw [d.mux.redirects_eq, Bool.not_eq_false'] at hclean
    exact ⟨hclean, hroute⟩
  · rintro ⟨hclean, hroute⟩
    have hadmits := @PathSignerValidator.admits_of_query d.signer r.path _ _ hrange le_rfl
    have hdirect : d.mux.redirects r.path = false := by rw [d.mux.redirects_eq, hclean]; rfl
    exact ⟨_, hparse, ⟨expiry signedAt, le_rfl, hadmits⟩, hdirect, hroute⟩

/-- **Every named resource is opened by its URL.** -/
theorem opens_of_named {r : SignedResource} {signedAt : Time} (h : r.Named)
    (hrange : InClockRange (signedAt + oneHour)) : d.Opens r signedAt := by
  obtain ⟨hstash, hne, hname⟩ := h
  have hplain : ∀ c ∈ r.identifier, c ≠ 63 ∧ c ≠ 37 := by
    intro c hc
    have hbyte := List.all_eq_true.mp hname c hc
    constructor
    · rintro rfl
      exact absurd hbyte (by decide)
    · rintro rfl
      exact absurd hbyte (by decide)
  have hsegments : ∃ segments : List Bytes, r.pathPrefix = ([] :: segments).flatMap (· ++ [slash]) ∧
      ∀ segment ∈ segments, isPlainSegment segment = true ∧ slash ∉ segment := by
    cases r with
    | package _ => exact ⟨[ascii "packages"], rfl, by decide⟩
    | droplet _ => exact ⟨[ascii "droplets"], rfl, by decide⟩
    | buildpack _ => exact ⟨[ascii "buildpacks"], rfl, by decide⟩
    | buildpackCache _ => exact ⟨[ascii "buildpack_cache", ascii "entries"], rfl, by decide⟩
    | appStashMatches => exact absurd rfl hstash
  obtain ⟨segments, hroot, hsegments⟩ := hsegments
  have hclean : isCleanPath r.path = true := by
    rw [SignedResource.path, hroot]
    exact isCleanPath_of_name hsegments hne hname
  refine (d.opens_iff_of_plain hplain hrange).mpr ⟨hclean, ?_⟩
  cases r with
  | package i =>
    exact ⟨⟨.identifier (ascii "/packages/"), .get, false, .resource .package .get⟩, by decide,
      d.mux.matchPath_identifier_of_name _ hne hname⟩
  | droplet i =>
    exact ⟨⟨.anyIdentifier (ascii "/droplets/"), .get, false, .resource .droplet .get⟩, by decide,
      d.mux.matchPath_anyIdentifier_of_name _ hne hname⟩
  | buildpack i =>
    exact ⟨⟨.identifier (ascii "/buildpacks/"), .get, false, .resource .buildpack .get⟩, by decide,
      d.mux.matchPath_identifier_of_name _ hne hname⟩
  | buildpackCache i =>
    exact ⟨⟨.anyIdentifier (ascii "/buildpack_cache/entries/"), .get, false,
        .resource .buildpackCache .get⟩, by decide,
      d.mux.matchPath_anyIdentifier_of_name _ hne hname⟩
  | appStashMatches => exact absurd rfl hstash

/-! ## Verbs that are not kept to -/

theorem not_onlyVerb_of_opens {s : σ} {r : SignedResource} {verb : Bytes} {signedAt : Time}
    (hverb : verb ∈ acceptedVerbs) (hopens : d.Opens r signedAt)
    (hput : r = .appStashMatches → verb = ascii "put") : ¬ d.OnlyVerb s r verb signedAt := by
  intro honly
  obtain ⟨request, hparse, ⟨now, hnow, hreached⟩, hmethod⟩ :=
    d.opens_for_delete_or_post hopens false
  have hsigned : verb ∈ r.signedVerbs := by
    cases r with
    | appStashMatches => simp [SignedResource.signedVerbs, hput rfl]
    | _ => exact hverb
  have hstands := honly _ (d.returnedUrl_of_signed s r hsigned signedAt) request
    (by rw [d.parseRequestURI_returned]; exact hparse) now hnow hreached
  rcases hmethod with hdelete | ⟨hpost, hr⟩
  · have hnever : ∀ verb ∈ acceptedVerbs, HttpMethod.delete ∉ methodsOf verb := by decide
    exact hnever verb hverb (hdelete ▸ hstands)
  · have hnever : HttpMethod.post ∉ methodsOf (ascii "put") := by decide
    exact hnever (hput hr ▸ hpost ▸ hstands)

/-- **The verb of a named resource's URL is never kept to.** -/
theorem not_onlyVerb_of_named {s : σ} {r : SignedResource} {verb : Bytes} {signedAt : Time}
    (hverb : verb ∈ acceptedVerbs) (h : r.Named) (hrange : InClockRange (signedAt + oneHour)) :
    ¬ d.OnlyVerb s r verb signedAt :=
  d.not_onlyVerb_of_opens hverb (d.opens_of_named h hrange) fun hstash => absurd hstash h.1

/-- The URL for posting to the app stash serves POST only. -/
theorem onlyVerb_appStash_of_ne_put {s : σ} {verb : Bytes} {signedAt : Time}
    (hverb : verb ∈ acceptedVerbs) (hput : verb ≠ ascii "put") :
    d.OnlyVerb s .appStashMatches verb signedAt := by
  intro url hurl request hparse now hnow hreached
  obtain ⟨rfl, hsigned⟩ := d.returnedUrl_eq_some hverb hurl
  rw [d.parseRequestURI_returned] at hparse
  obtain ⟨-, route, hroute, hmethod, hmatch⟩ := d.opens_of_reached hparse hnow hreached
  have hpath := d.path_of_parse_appStash hparse
  have hpost := post_of_matchPath_appStash d.mux hroute hmatch (by rw [hpath]; decide)
  have hverb' : verb = ascii "post" := by
    simpa [SignedResource.signedVerbs, hput] using hsigned
  rw [← hmethod, hpost.1, hverb']
  decide

/-- **A signed URL serves only its verb exactly when it serves nothing**, or is the one of the app
stash, where POST is the only method: the verb is not part of what is signed. -/
theorem onlyVerb_iff (s : σ) (r : SignedResource) (verb : Bytes) (signedAt : Time)
    (hverb : verb ∈ acceptedVerbs) :
    d.OnlyVerb s r verb signedAt ↔
      ¬ d.Opens r signedAt ∨ (r = .appStashMatches ∧ verb ≠ ascii "put") := by
  constructor
  · intro honly
    by_contra hnot
    simp only [not_or, not_not, not_and] at hnot
    exact d.not_onlyVerb_of_opens hverb hnot.1 hnot.2 honly
  · rintro (hnot | ⟨rfl, hput⟩)
    · intro url hurl request hparse now hnow hreached
      obtain ⟨rfl, -⟩ := d.returnedUrl_eq_some hverb hurl
      rw [d.parseRequestURI_returned] at hparse
      exact absurd (d.opens_of_reached hparse hnow hreached).1 hnot
    · exact d.onlyVerb_appStash_of_ne_put hverb hput

end Deployment

def md5OfPackageAbc : Md5 where
  sum b :=
    if b = ascii "3600/packages/abc secret" then
      [181, 55, 30, 80, 183, 235, 212, 104, 132, 83, 231, 176, 11, 163, 180, 37]
    else List.replicate 16 0
  sum_length b := by
    split <;> rfl

def packageDeployment : Deployment (List Bytes) where
  mux := documentedMux
  signer := ⟨md5OfPackageAbc, ascii "secret"⟩
  endpoint := ⟨104, ascii "ttp", ascii "bits.example.com:8000", rfl, forall_mem_of_all (by decide),
    by decide⟩
  directoryKey := []
  backend := recordingBackend

theorem onlyVerb_iff_package_abc :
    ascii "get" ∈ acceptedVerbs ∧
      (packageDeployment.OnlyVerb [] (.package (ascii "abc")) (ascii "get") 0 ↔
        ¬ packageDeployment.Opens (.package (ascii "abc")) 0 ∨
          (SignedResource.package (ascii "abc") = .appStashMatches ∧
            ascii "get" ≠ ascii "put")) :=
  ⟨by decide,
    packageDeployment.onlyVerb_iff [] (.package (ascii "abc")) (ascii "get") 0 (by decide)⟩

def packageQuery : Bytes := ascii "md5=b5371e50b7ebd4688453e7b00ba3b425&expires=3600"

def deletePackage : RoutedRequest := ⟨.delete, ⟨ascii "/packages/abc", packageQuery⟩, false⟩

/-- The URL signed at the epoch for getting package `abc` deletes it ten minutes later. -/
theorem not_onlyVerb_package_abc :
    ¬ packageDeployment.OnlyVerb [] (.package (ascii "abc")) (ascii "get") 0 := by
  intro honly
  have hreturned : packageDeployment.returnedUrl [] (.package (ascii "abc")) (ascii "get") 0 =
      some (ascii "http://bits.example.com:8000/packages/abc?" ++ packageQuery) := by decide
  have hparse : parseRequestURI (ascii "http://bits.example.com:8000/packages/abc?" ++
      packageQuery) = some deletePackage.url := by decide
  have hreached : packageDeployment.reachedHandlers (600 * nanosecondsPerSecond) deletePackage =
      [(.resource .package .delete, ascii "abc")] := by decide
  have hdelete := honly _ hreturned deletePackage hparse (600 * nanosecondsPerSecond) (by decide)
    (by rw [hreached]; simp)
  exact absurd hdelete (by decide)

end BitsService
