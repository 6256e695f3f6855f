import BitsService.Server.Histories
import BitsService.Server.UrlRoundTrip

/-! # Uploads and downloads by signed URLs

A client that has no access to the private host is given URLs, puts bits to one of them and gets
them from another one. -/
namespace BitsService
open GoLib.Effect GoLib.Coupling GoLib.OperationRuns
set_option autoImplicit false

/-! ## Where paths of resources are routed -/

def ResourceKind.signed : ResourceKind → Bytes → SignedResource
  | package => .package
  | droplet => .droplet
  | buildpack => .buildpack
  | buildpackCache => .buildpackCache

def ResourceKind.template : ResourceKind → Template
  | package => .identifier (ascii "/packages/")
  | droplet => .anyIdentifier (ascii "/droplets/")
  | buildpack => .identifier (ascii "/buildpacks/")
  | buildpackCache => .anyIdentifier (ascii "/buildpack_cache/entries/")

theorem text_template (kind : ResourceKind) (i : Bytes) :
    kind.template.text ++ i = (kind.signed i).path := by
  cases kind <;> rfl

/-- A name of letters, digits and dashes, below directories of such names. -/
structure ResourceName where
  dirs : List Bytes
  name : Bytes
  dirs_names : ∀ dir ∈ dirs, dir ≠ [] ∧ dir.all isNameByte = true
  name_ne : name ≠ []
  name_bytes : name.all isNameByte = true

namespace ResourceName
variable (n : ResourceName)

def text : Bytes := n.dirs.flatMap (· ++ [slash]) ++ n.name

/-- What resources of a kind are called. The first route for droplets takes a name alone for one
that a digest is still to come after. -/
def Fits (kind : ResourceKind) : Prop :=
  match kind with
  | .package => n.dirs = []
  | .buildpack => n.dirs = []
  | .droplet => n.dirs ≠ []
  | .buildpackCache => True

theorem text_bytes (c : UInt8) (h : c ∈ n.text) : isNameByte c = true ∨ c = slash := by
  rcases List.mem_append.mp h with h | h
  · obtain ⟨dir, hdir, hc⟩ := List.mem_flatMap.mp h
    rcases List.mem_append.mp hc with hc | hc
    · exact .inl (List.all_eq_true.mp (n.dirs_names dir hdir).2 c hc)
    · exact .inr (List.mem_singleton.mp hc)
  · exact .inl (List.all_eq_true.mp n.name_bytes c h)

theorem text_plain (c : UInt8) (h : c ∈ n.text) : c ≠ 63 ∧ c ≠ 37 ∧ c ≠ newline := by
  rcases n.text_bytes c h with hc | rfl
  · refine ⟨?_, ?_, ?_⟩ <;>
    · rintro rfl
      exact absurd hc (by decide)
  · decide

theorem text_ne : n.text ≠ [] := fun h => n.name_ne (List.append_eq_nil_iff.mp h).2

theorem slash_mem_text (h : n.dirs ≠ []) : slash ∈ n.text := by
  obtain ⟨dir, dirs, hdirs⟩ := List.exists_cons_of_ne_nil h
  rw [text, hdirs]
  simp

theorem matchPath_template (mux : Mux) {kind : ResourceKind} (h : n.Fits kind) :
    mux.matchPath kind.template (kind.template.text ++ n.text) = some n.text := by
  have hline : newline ∉ n.text := fun hmem => (n.text_plain _ hmem).2.2 rfl
  have hsingle : n.dirs = [] → slash ∉ n.text := by
    intro hdirs
    rw [text, hdirs]
    exact slash_not_mem_of_name n.name_bytes
  cases kind with
  | package =>
    show mux.matchPath (.identifier (ascii "/packages/")) (ascii "/packages/" ++ n.text) = _
    rw [mux.matchPath_identifier, pathAfter_append, Option.filter_some,
      if_pos (by simp [n.text_ne, hsingle h])]
  | droplet =>
    show mux.matchPath (.anyIdentifier (ascii "/droplets/")) (ascii "/droplets/" ++ n.text) = _
    rw [mux.matchPath_anyIdentifier, pathAfter_append, Option.filter_some,
      if_pos (by simpa using hline)]
  | buildpack =>
    show mux.matchPath (.identifier (ascii "/buildpacks/")) (ascii "/buildpacks/" ++ n.text) = _
    rw [mux.matchPath_identifier, pathAfter_append, Option.filter_some,
      if_pos (by simp [n.text_ne, hsingle h])]
  | buildpackCache =>
    show mux.matchPath (.anyIdentifier (ascii "/buildpack_cache/entries/"))
      (ascii "/buildpack_cache/entries/" ++ n.text) = _
    rw [mux.matchPath_anyIdentifier, pathAfter_append, Option.filter_some,
      if_pos (by simpa using hline)]

theorem redirects_path (mux : Mux) (kind : ResourceKind) :
    mux.redirects (kind.template.text ++ n.text) = false := by
  have hroot : ∃ segments : List Bytes,
      kind.template.text = ([] :: segments).flatMap (· ++ [slash]) ∧
        ∀ segment ∈ segments, isPlainSegment segment = true ∧ slash ∉ segment := by
    cases kind with
    | package => exact ⟨[ascii "packages"], rfl, by decide⟩
    | droplet => exact ⟨[ascii "droplets"], rfl, by decide⟩
    | buildpack => exact ⟨[ascii "buildpacks"], rfl, by decide⟩
    | buildpackCache => exact ⟨[ascii "buildpack_cache", ascii "entries"], rfl, by decide⟩
  obtain ⟨segments, htext, hsegments⟩ := hroot
  have hpath : kind.template.text ++ n.text =
      ([] :: (segments ++ n.dirs)).flatMap (· ++ [slash]) ++ n.name := by
    rw [htext, text, ← List.append_assoc, ← List.flatMap_append, List.cons_append]
  have hclean : isCleanPath (kind.template.text ++ n.text) = true := by
    rw [hpath]
    refine isCleanPath_of_name (fun segment hmem => ?_) n.name_ne n.name_bytes
    rcases List.mem_append.mp hmem with hmem | hmem
    · exact hsegments segment hmem
    · obtain ⟨hne, hname⟩ := n.dirs_names segment hmem
      exact ⟨isPlainSegment_of_name hne hname, slash_not_mem_of_name hname⟩
  rw [mux.redirects_eq, hclean]
  rfl

end ResourceName

/-- The route that takes a request is the first one that does. -/
theorem routeRequest_of_first {mux : Mux} {request : RoutedRequest} {before after : List Route}
    {route : Route} {identifier : Bytes} (hroutes : publicRoutes = before ++ route :: after)
    (hdirect : mux.redirects request.url.path = false)
    (hbefore : ∀ route ∈ before, route.matches mux request = none)
    (hmatches : route.matches mux request = some identifier) :
    routeRequest mux request = some (route.endpoint, identifier) := by
  have hskip : before.findSome? (fun route =>
      (route.matches mux request).map fun identifier => (route.endpoint, identifier)) = none :=
    List.findSome?_eq_none_iff.mpr fun route hmem => by rw [hbefore route hmem]; rfl
  rw [routeRequest, hdirect, if_neg Bool.false_ne_true, hroutes, List.findSome?_append, hskip,
    List.findSome?_cons, hmatches]
  rfl

/-- Another method, or a text that does not go with the beginning of the path. -/
def Route.Differs (route : Route) (method : HttpMethod) (pre : Bytes) : Prop :=
  route.method ≠ method ∨ ¬ route.template.text <+: pre ∧ ¬ pre <+: route.template.text

instance (route : Route) (method : HttpMethod) (pre : Bytes) :
    Decidable (route.Differs method pre) :=
  inferInstanceAs (Decidable (_ ∨ _))

theorem matches_none_of_differs {mux : Mux} {route : Route} {request : RoutedRequest} {pre : Bytes}
    (hpre : pre <+: request.url.path) (h : route.Differs request.method pre) :
    route.matches mux request = none := by
  rw [← Option.not_isSome_iff_eq_none]
  intro hsome
  obtain ⟨hmethod, -, hpath⟩ := (Route.matches_isSome_iff mux route request).mp hsome
  rcases h with h | ⟨h, h'⟩
  · exact h hmethod
  · rcases List.prefix_or_prefix_of_prefix (mux.text_prefix hpath) hpre with hbegin | hbegin
    · exact h hbegin
    · exact h' hbegin

section Routed
variable (mux : Mux) {kind : ResourceKind} {n : ResourceName} (hfits : n.Fits kind)
  (rawQuery : Bytes)
include hfits

theorem routeRequest_get (multipart : Bool) :
    routeRequest mux ⟨.get, ⟨(kind.signed n.text).path, rawQuery⟩, multipart⟩ =
      some (.resource kind .get, n.text) := by
  rw [← text_template]
  have hmatches : (⟨kind.template, .get, false, .resource kind .get⟩ : Route).matches mux
      ⟨.get, ⟨kind.template.text ++ n.text, rawQuery⟩, multipart⟩ = some n.text := by
    rw [Route.matches, if_pos ⟨rfl, fun h => by cases h⟩]
    exact n.matchPath_template mux hfits
  obtain ⟨before, after, hroutes, hbefore⟩ : ∃ before after,
      publicRoutes = before ++ ⟨kind.template, .get, false, .resource kind .get⟩ :: after ∧
        ∀ route ∈ before, route.Differs .get kind.template.text := by
    cases kind with
    | package => exact ⟨publicRoutes.take 6, publicRoutes.drop 7, rfl, by decide⟩
    | buildpack => exact ⟨publicRoutes.take 11, publicRoutes.drop 12, rfl, by decide⟩
    | droplet => exact ⟨publicRoutes.take 17, publicRoutes.drop 18, rfl, by decide⟩
    | buildpackCache => exact ⟨publicRoutes.take 24, publicRoutes.drop 25, rfl, by decide⟩
  exact routeRequest_of_first hroutes (n.redirects_path mux kind)
    (fun route hmem => matches_none_of_differs (List.prefix_append _ _) (hbefore route hmem))
    hmatches

theorem routeRequest_put :
    routeRequest mux ⟨.put, ⟨(kind.signed n.text).path, rawQuery⟩, true⟩ =
      some (.resource kind .addOrReplace, n.text) := by
  rw [← text_template]
  have hmatches : (⟨kind.template, .put, true, .resource kind .addOrReplace⟩ : Route).matches mux
      ⟨.put, ⟨kind.template.text ++ n.text, rawQuery⟩, true⟩ = some n.text := by
    rw [Route.matches, if_pos ⟨rfl, fun _ => rfl⟩]
    exact n.matchPath_template mux hfits
  -- the name alone of a droplet would be taken by the route before
  have hdigest : kind = .droplet →
      (⟨.nameIdentifier (ascii "/droplets/"), .put, false,
        .resource .droplet .addOrReplaceWithDigestInHeader⟩ : Route).matches mux
        ⟨.put, ⟨kind.template.text ++ n.text, rawQuery⟩, true⟩ = none := by
    rintro rfl
    have hslash := n.slash_mem_text hfits
    have hnot : ¬ (n.text ≠ [] ∧ n.text.all isNameByte = true) :=
      fun h => slash_not_mem_of_name h.2 hslash
    rw [Route.matches, if_pos ⟨rfl, fun h => by cases h⟩, mux.matchPath_nameIdentifier]
    show ((pathAfter (ascii "/droplets/") (ascii "/droplets/" ++ n.text)).filter _) = none
    rw [pathAfter_append, Option.filter_some, if_neg (by simpa using hnot)]
  obtain ⟨before, after, hroutes, hbefore⟩ : ∃ before after,
      publicRoutes = before ++ ⟨kind.template, .put, true, .resource kind .addOrReplace⟩ :: after ∧
        ∀ route ∈ before, route.Differs .put kind.template.text ∨ (kind = .droplet ∧
          route = ⟨.nameIdentifier (ascii "/droplets/"), .put, false,
            .resource .droplet .addOrReplaceWithDigestInHeader⟩) := by
    cases kind with
    | package => exact ⟨publicRoutes.take 3, publicRoutes.drop 4, rfl, by decide⟩
    | buildpack => exact ⟨publicRoutes.take 8, publicRoutes.drop 9, rfl, by decide⟩
    | droplet => exact ⟨publicRoutes.take 14, publicRoutes.drop 15, rfl, by decide⟩
    | buildpackCache => exact ⟨publicRoutes.take 21, publicRoutes.drop 22, rfl, by decide⟩
  refine routeRequest_of_first hroutes (n.redirects_path mux kind) (fun route hmem => ?_) hmatches
  rcases hbefore route hmem with hdiffers | ⟨hkind, rfl⟩
  · exact matches_none_of_differs (List.prefix_append _ _) hdiffers
  · exact hdigest hkind

end Routed

/-! ## URLs that are given and used -/

namespace LocalSettings
variable (settings : LocalSettings)

/-- A request on the private host for the URL of a resource, for whatever verb, is answered with
one. -/
structure Obtains (process : Process Disk) (before : List Arrival) (asking : Arrival)
    (kind : ResourceKind) (identifier url : Bytes) : Prop where
  host : settings.mux.matchHost settings.privateHost asking.request.host = true
  resource : routeSign settings.mux.toMux asking.request.routed = some (kind.signed identifier)
  answer : (settings.answerAfter process before asking).okText = some url

/-- The URL given to `asking` is used on the public host, before it expires. -/
structure Uses (asking arrival : Arrival) (url : Bytes) : Prop where
  target : parseRequestURI url = some arrival.request.url
  publicHost : settings.mux.matchHost settings.publicHost arrival.request.host = true
  notPrivate : settings.mux.matchHost settings.privateHost arrival.request.host = false
  inTime : arrival.now ≤ Deployment.expiry asking.now

variable {settings}

/-- What a request for a URL is answered with, if that is a URL. -/
theorem url_of_answerTo {asking : Arrival} {r : SignedResource} {url : Bytes} {holdings : Holdings}
    (hhost : settings.mux.matchHost settings.privateHost asking.request.host = true)
    (hresource : routeSign settings.mux.toMux asking.request.routed = some r)
    (h : (settings.holdingsModel.answerTo asking holdings).1.okText = some url) :
    url = settings.publicEndpoint.text ++ settings.signer.sign r.path (asking.now + oneHour) := by
  have hinternal : settings.holdingsModel.internalEnding asking.now asking.request holdings =
      if settings.holdingsModel.server.lists asking.request.toRequest then
        (settings.holdingsModel.signResponse r
          (asking.request.toRequest.queryGet (ascii "verb")) asking.now, holdings)
      else (some ⟨some 401, [], []⟩, holdings) := by
    have hroute : routeSign settings.holdingsModel.mux.toMux asking.request.routed = some r :=
      hresource
    rw [ShelvedServer.internalEnding, hroute]
  unfold ShelvedServer.answerTo ShelvedServer.rootEnding at h
  split at h
  · cases h
  split at h
  · cases h
  rw [if_pos (show settings.holdingsModel.mux.matchHost settings.holdingsModel.privateHost
    asking.request.host = true from hhost), hinternal] at h
  split at h
  · unfold ShelvedServer.signResponse at h
    generalize (if asking.request.toRequest.queryGet (ascii "verb") = [] then ascii "get"
      else asking.request.toRequest.queryGet (ascii "verb")) = method at h
    simp only at h
    split at h
    · split at h
      · cases h
      · cases h
        rfl
    split at h
    · cases h
      rfl
    · cases h
  · cases h

section Runs
variable {process : Process Disk} {holdings : Holdings} (h : settings.Serves process holdings)
include h

theorem url_of_obtains {before : List Arrival} {asking : Arrival} {kind : ResourceKind}
    {identifier url : Bytes} (hnames : ∀ arrival ∈ before, settings.Names arrival)
    (hasking : settings.Names asking)
    (hobtains : settings.Obtains process before asking kind identifier url) :
    url = settings.publicEndpoint.text ++
      settings.signer.sign (kind.signed identifier).path (asking.now + oneHour) := by
  have hanswer := hobtains.answer
  rw [answerAfter_eq h hnames hasking] at hanswer
  exact url_of_answerTo hobtains.host hobtains.resource hanswer

end Runs

/-- What is asked for with a signed URL is let through to a handler of the resource. -/
theorem handles_of_uses {asking arrival : Arrival} {kind : ResourceKind} {n : ResourceName}
    (huses : settings.Uses asking arrival (settings.publicEndpoint.text ++
      settings.signer.sign (kind.signed n.text).path (asking.now + oneHour)))
    (hrange : InClockRange (asking.now + oneHour))
    (hform : (arrival.request.isMultipart && !arrival.request.form.isOk) = false)
    {operation : ResourceOperation}
    (hroute : ∀ rawQuery, routeRequest settings.mux.toMux
      ⟨arrival.request.method, ⟨(kind.signed n.text).path, rawQuery⟩, arrival.request.isMultipart⟩ =
        some (.resource kind operation, n.text)) :
    settings.localServer.Handles arrival (.resource kind operation) n.text := by
  have hidentifier : (kind.signed n.text).identifier = n.text := by
    cases kind <;> rfl
  have hplain : ∀ c ∈ (kind.signed n.text).identifier, c ≠ 63 ∧ c ≠ 37 := by
    rw [hidentifier]
    exact fun c hc => ⟨(n.text_plain c hc).1, (n.text_plain c hc).2.1⟩
  have htarget := huses.target
  let d : Deployment Blobs := settings.deployment ⟨sectionStore .packages, unsigned⟩
  have hreturned := d.parseRequestURI_returned (kind.signed n.text) asking.now
  rw [d.parse_sign_of_plain hplain] at hreturned
  have hurl : arrival.request.url = ⟨(kind.signed n.text).path,
      settings.signer.query (kind.signed n.text).path (asking.now + oneHour)⟩ :=
    Option.some.inj (htarget.symm.trans hreturned)
  have hadmits : settings.signer.admits arrival.now arrival.request.url = true := by
    rw [hurl]
    exact (settings.signer.admits_query_iff hrange _).mpr huses.inTime
  refine ⟨?_, hform, ?_⟩
  · show (if settings.mux.matchHost settings.privateHost arrival.request.host then _ else
      settings.mux.matchHost settings.publicHost arrival.request.host &&
        settings.signer.admits arrival.now arrival.request.url) = true
    rw [huses.notPrivate, if_neg Bool.false_ne_true, huses.publicHost, hadmits]
    rfl
  · show routeRequest settings.mux.toMux ⟨arrival.request.method, arrival.request.url,
      arrival.request.isMultipart⟩ = _
    rw [hurl]
    exact hroute _

/-- A request for a URL writes nothing. -/
theorem not_writes_of_obtains {process : Process Disk} {before : List Arrival} {asking : Arrival}
    {kind : ResourceKind} {identifier url : Bytes}
    (hobtains : settings.Obtains process before asking kind identifier url) (kind' : ResourceKind)
    (key : Bytes) : ¬ settings.Writes asking kind' key := by
  rintro ⟨endpoint, identifier', hhandles, -⟩
  have hnone := routeSign_of_routeRequest hhandles.routed
  exact absurd (hobtains.resource.symm.trans hnone) (Option.some_ne_none _)

/-- **What is put to a signed URL is got from a signed URL**: an upload to a URL that was given for
a resource is answered with the digests of some bits, and a later download from a URL that was given
for it is answered with these bits, unless there was another request in between that wrote the
resource. Other than for packages, they are the uploaded file. -/
theorem transferred {process : Process Disk} {holdings : Holdings}
    (h : settings.Serves process holdings) {b₁ b₂ b₃ b₄ : List Arrival}
    {askPut put askGet get : Arrival} {urlPut urlGet : Bytes} {kind : ResourceKind}
    {n : ResourceName} (hfits : n.Fits kind)
    (hnames : ∀ arrival ∈ (b₁ ++ askPut :: b₂) ++ put :: (b₃ ++ askGet :: b₄),
      settings.Names arrival)
    (hget : settings.Names get)
    (hputUrl : settings.Obtains process b₁ askPut kind n.text urlPut)
    (hputUses : settings.Uses askPut put urlPut) (hput : put.request.method = .put)
    (hmultipart : put.request.isMultipart = true) (hform : put.request.form.isOk = true)
    (haccepted : Accepted (settings.answerAfter process (b₁ ++ askPut :: b₂) put))
    (hgetUrl : settings.Obtains process ((b₁ ++ askPut :: b₂) ++ put :: b₃) askGet kind n.text
      urlGet)
    (hgetUses : settings.Uses askGet get urlGet) (hmethod : get.request.method = .get)
    (hgetForm : (get.request.isMultipart && !get.request.form.isOk) = false)
    (hunwritten : ∀ arrival ∈ b₃ ++ b₄, ¬ settings.Writes arrival kind n.text)
    (hputRange : InClockRange (askPut.now + oneHour))
    (hgetRange : InClockRange (askGet.now + oneHour)) :
    ∃ bits, settings.answerAfter process (b₁ ++ askPut :: b₂) put =
        ShelvedResource.uploadResponse settings.formats put.request.toRequest n.text bits ∧
      (kind ≠ .package →
        uploadedFile put.request.toRequest kind.resourceType = .ok (some bits)) ∧
      settings.answerAfter process ((b₁ ++ askPut :: b₂) ++ put :: (b₃ ++ askGet :: b₄)) get =
        ShelvedResource.contentResponse settings.formats get.request.toRequest bits := by
  have hurlPut := url_of_obtains h (fun arrival hmem => hnames arrival (by simp [hmem]))
    (hnames askPut (by simp)) hputUrl
  have hurlGet := url_of_obtains h (fun arrival hmem => hnames arrival (by
    simp only [List.mem_append, List.mem_cons] at hmem ⊢
    tauto)) (hnames askGet (by simp)) hgetUrl
  rw [hurlPut] at hputUses
  rw [hurlGet] at hgetUses
  have hputs : settings.localServer.Handles put (.resource kind .addOrReplace) n.text := by
    refine handles_of_uses hputUses hputRange (by rw [hmultipart, hform]; rfl) fun rawQuery => ?_
    rw [hput, hmultipart]
    exact routeRequest_put _ hfits rawQuery
  have hgets : settings.localServer.Handles get (.resource kind .get) n.text := by
    refine handles_of_uses hgetUses hgetRange hgetForm fun rawQuery => ?_
    rw [hmethod]
    exact routeRequest_get _ hfits rawQuery _
  refine reading_uploaded h hnames hget hputs haccepted (fun arrival hmem => ?_) hgets
  rcases List.mem_append.mp hmem with hmem | hmem
  · exact hunwritten arrival (List.mem_append_left _ hmem)
  rcases List.mem_cons.mp hmem with rfl | hmem
  · exact not_writes_of_obtains hgetUrl kind n.text
  · exact hunwritten arrival (List.mem_append_right _ hmem)

end LocalSettings

/-! ## A buildpack that is put and got -/

def md5OfBuildpackJava : Md5 where
  sum b :=
    if b = ascii "3600/buildpacks/java secret" then
      [15, 90, 175, 140, 168, 97, 197, 135, 111, 20, 227, 108, 19, 250, 225, 134]
    else List.replicate 16 0
  sum_length b := by
    split
    · rfl
    · exact List.length_replicate

def transferSettings : LocalSettings where
  toSettings := { packageSettings with signer := ⟨md5OfBuildpackJava, ascii "secret"⟩ }
  layout := plainLayout
  isLocal _ := rfl
  stashKeys := plainLayout_stashKeys helloDigests

def nameJava : ResourceName where
  dirs := []
  name := ascii "java"
  dirs_names dir hdir := by cases hdir
  name_ne := List.cons_ne_nil _ _
  name_bytes := by decide

def javaQuery : Bytes := ascii "md5=0f5aaf8ca861c5876f14e36c13fae186&expires=3600"

def urlJava : Bytes := ascii "http://bits.example.com:8000/buildpacks/java?" ++ javaQuery

/-- An administrator asks for the URL of buildpack `java`. -/
def askBuildpackJava : Arrival where
  now := 0
  requestId := 0
  request :=
    { host := ascii "internal"
      method := .get
      url := ⟨ascii "/sign/buildpacks/java", []⟩
      contentLength := 0
      header := fun key => if key = ascii "Authorization" then
        ascii "Basic " ++ GoLib.Base64.encode (ascii "admin:admin") else []
      body := .whole []
      form := .error .newNotFoundError }

def putSignedJava : Arrival where
  now := 600 * nanosecondsPerSecond
  requestId := 1
  request :=
    { host := ascii "public"
      method := .put
      url := ⟨ascii "/buildpacks/java", javaQuery⟩
      contentLength := 0
      header := fun _ => ascii "multipart/form-data"
      body := .whole []
      form := .ok ⟨[], [(ascii "buildpack", ascii "zip")]⟩ }

def getSignedJava : Arrival where
  now := 1200 * nanosecondsPerSecond
  requestId := 2
  request :=
    { host := ascii "public"
      method := .get
      url := ⟨ascii "/buildpacks/java", javaQuery⟩
      contentLength := 0
      header := fun _ => []
      body := .whole []
      form := .error .newNotFoundError }

theorem java_mem_transferSettings : ascii "java" ∈ transferSettings.named.keys .buildpack :=
  ⟨by decide, ⟨⟨buildpackJava, rfl⟩, by decide⟩, fun h => by cases h⟩

theorem names_askBuildpackJava : transferSettings.Names askBuildpackJava := by
  have hnone : routeRequest plainRootMux.toMux askBuildpackJava.request.routed = none := by decide
  refine ⟨fun content hsends fingerprints hjson => ?_, fun kind operation identifier hroute => ?_⟩
  · have hunmarshal : plainJson.unmarshal content = none :=
      unmarshal_of_sends rfl rfl rfl (fun file h => by cases h) rfl content hsends
    exact absurd (hunmarshal.symm.trans hjson) (Option.some_ne_none _).symm
  · exact absurd (hnone.symm.trans hroute) (Option.some_ne_none _).symm

theorem routed_putSignedJava : routeRequest plainRootMux.toMux putSignedJava.request.routed =
    some (.resource .buildpack .addOrReplace, ascii "java") := by decide

theorem names_putSignedJava : transferSettings.Names putSignedJava :=
  asksOnly_of_routed rfl (unmarshal_of_sends rfl rfl rfl (fun file h => by cases h) rfl)
    routed_putSignedJava java_mem_transferSettings

theorem routed_getSignedJava : routeRequest plainRootMux.toMux getSignedJava.request.routed =
    some (.resource .buildpack .get, ascii "java") := by decide

theorem names_getSignedJava : transferSettings.Names getSignedJava :=
  asksOnly_of_routed rfl (unmarshal_of_sends rfl rfl rfl (fun file h => by cases h) rfl)
    routed_getSignedJava java_mem_transferSettings

theorem names_transfer (arrival : Arrival)
    (h : arrival ∈ [askBuildpackJava, putSignedJava, askBuildpackJava]) :
    transferSettings.Names arrival := by
  simp only [List.mem_cons, List.not_mem_nil, or_false] at h
  rcases h with rfl | rfl | rfl
  · exact names_askBuildpackJava
  · exact names_putSignedJava
  · exact names_askBuildpackJava

theorem obtains_askBuildpackJava {before : List Arrival}
    (h : before <+: [askBuildpackJava, putSignedJava]) : transferSettings.Obtains blankHost
      before askBuildpackJava .buildpack nameJava.text urlJava := by
  have hnames : ∀ arrival ∈ before, transferSettings.Names arrival := by
    intro arrival hmem
    have hasked := h.subset hmem
    simp only [List.mem_cons, List.not_mem_nil, or_false] at hasked
    exact names_transfer arrival (by simp; tauto)
  refine ⟨by decide, by decide, ?_⟩
  rw [LocalSettings.answerAfter_eq (serves_blankHost rfl) hnames names_askBuildpackJava]
  rfl

theorem accepted_putSignedJava : LocalSettings.Accepted
    (transferSettings.answerAfter blankHost [askBuildpackJava] putSignedJava) := by
  rw [LocalSettings.answerAfter_eq (serves_blankHost rfl)
    (List.forall_mem_singleton.mpr names_askBuildpackJava) names_putSignedJava]
  exact .inl (by decide)

theorem transferred_java :
    ∃ bits, transferSettings.answerAfter blankHost ([] ++ askBuildpackJava :: []) putSignedJava =
        ShelvedResource.uploadResponse plainFormats putSignedJava.request.toRequest nameJava.text
          bits ∧
      (ResourceKind.buildpack ≠ .package →
        uploadedFile putSignedJava.request.toRequest (ascii "buildpack") = .ok (some bits)) ∧
      transferSettings.answerAfter blankHost
          (([] ++ askBuildpackJava :: []) ++ putSignedJava :: ([] ++ askBuildpackJava :: []))
          getSignedJava =
        ShelvedResource.contentResponse plainFormats getSignedJava.request.toRequest bits :=
  LocalSettings.transferred (serves_blankHost rfl) (show nameJava.dirs = [] from rfl) names_transfer
    names_getSignedJava (obtains_askBuildpackJava List.nil_prefix)
    ⟨by decide, by decide, by decide, by decide⟩ rfl (by decide) rfl accepted_putSignedJava
    (obtains_askBuildpackJava List.prefix_rfl)
    ⟨by decide, by decide, by decide, by decide⟩ rfl rfl (List.forall_mem_nil _)
    (by unfold InClockRange; decide) (by unfold InClockRange; decide)

end BitsService
