import BitsService.Resources.CCUpdater
import BitsService.Server.AlikeServers
import BitsService.Server.SignatureSoundness

/-! # Granted paths

What the local signers sign is written down. Only requests to the private host with credentials add
to what is signed; so whoever makes up no signature is served no path on the public host but one
that was asked for there. -/
namespace BitsService
open GoLib.Effect GoLib.Coupling GoLib.OperationRuns
set_option autoImplicit false

variable {σ : Type}

/-! ## What the middlewares keep -/

/-- A panic that is recovered from calls no service any more. -/
theorem ext_panicMiddleware (arrival : Arrival) (m : Prog GoError (Env σ) Unit) (w : Env σ) :
    ((panicMiddleware arrival m).run w).2.ext = (m.run w).2.ext := by
  rcases hrun : m.run w with ⟨u | e, w'⟩
  · rw [run_panicMiddleware_returned hrun]
  · rw [run_panicMiddleware_panicked hrun]
    rfl

theorem ext_multipartMiddleware (request : IncomingRequest) (m : Prog GoError (Env σ) Unit)
    (w : Env σ) : ((multipartMiddleware request m).run w).2.ext = w.ext ∨
      ((multipartMiddleware request m).run w).2.ext = (m.run w).2.ext := by
  unfold multipartMiddleware
  cases request.isMultipart with
  | false => exact .inr rfl
  | true =>
    cases request.form with
    | error e => exact .inl rfl
    | ok form => exact .inr rfl

/-! ## What is signed -/

/-- The paths that the local signers have signed, each with its expiration time. -/
abbrev SigningLog := List (Bytes × Time)

def LocalResourceSigner.noting (signer : LocalResourceSigner) :
    ResourceSigner (σ × SigningLog) :=
  ⟨fun resource method expirationTime =>
    recorded (fun _ => (signer.resourcePathPrefix ++ resource, expirationTime))
      (signer.toResourceSigner.sign resource method expirationTime)⟩

def ResourceSigner.zoom {τ : Type} (l : Part τ σ) (signer : ResourceSigner σ) : ResourceSigner τ :=
  ⟨fun resource method expirationTime =>
    GoLib.Effect.zoom l (signer.sign resource method expirationTime)⟩

def Backend.zoom {τ : Type} (l : Part τ σ) (backend : Backend σ) : Backend τ :=
  ⟨backend.blobstore.zoom l, backend.signer.zoom l⟩

namespace Settings
variable (settings : Settings) (backend : StoreSection → Backend σ) (updater : Updater σ)

/-- The server, with a log of what it signs. -/
def notingServer : Server (σ × SigningLog) :=
  settings.newServerWith LocalResourceSigner.noting
    (fun s => (backend s).zoom (fstPart σ SigningLog)) (updater.zoom (fstPart σ SigningLog))

/-- A state with a log that satisfies `P`, and the same state without it. -/
def WithLog (P : SigningLog → Prop) (s : σ × SigningLog) (t : σ) : Prop := s.1 = t ∧ P s.2

theorem alike_zoomed {α : Type} (P : SigningLog → Prop) (m : Prog GoError σ α) :
    Alike (WithLog P) (zoom (fstPart σ SigningLog) m) m := by
  rintro ⟨s, log⟩ t ⟨rfl, hlog⟩
  exact ⟨rfl, rfl, hlog⟩

theorem alikeBlobstores_zoomed (P : SigningLog → Prop) (store : Blobstore σ) :
    AlikeBlobstores (WithLog P) Set.univ Set.univ (store.zoom (fstPart σ SigningLog)) store where
  existsBlob _ _ := alike_zoomed P _
  get _ _ := alike_zoomed P _
  put _ _ _ := alike_zoomed P _
  delete _ _ := alike_zoomed P _
  deleteDir _ _ := alike_zoomed P _
  headOrRedirectAsGet _ _ := alike_zoomed P _
  getOrRedirect _ _ := alike_zoomed P _
  copy _ _ _ _ := alike_zoomed P _

theorem alikeUpdaters_zoomed (P : SigningLog → Prop) :
    AlikeUpdaters (WithLog P) (updater.zoom (fstPart σ SigningLog)) updater :=
  ⟨fun _ => alike_zoomed P _, fun _ _ _ => alike_zoomed P _, fun _ _ => alike_zoomed P _⟩

/-- No key is left out. -/
def allKeys : SharedKeys := settings.sharedKeys (fun _ => Set.univ) fun _ => Set.univ

theorem asksOnly_allKeys (server : Server σ) (request : IncomingRequest) :
    server.AsksOnly settings.allKeys request := by
  refine ⟨fun _ _ _ _ _ _ => trivial, fun kind operation identifier _ => ?_⟩
  cases operation with
  | addOrReplaceWithDigestInHeader => exact fun _ _ _ => trivial
  | copySourceGuid => exact ⟨trivial, fun _ _ _ _ _ => trivial⟩
  | _ => trivial

theorem alikeRoutes_noting (P : SigningLog → Prop) :
    AlikeRoutes (WithLog P) settings.allKeys (settings.notingServer backend updater)
      (settings.newServer backend updater) :=
  alikeRoutes_newServerWith (fun s => alikeBlobstores_zoomed P (backend s).blobstore)
    (alikeUpdaters_zoomed updater P) fun _ => trivial

/-- **The log changes nothing**: without it, the server answers every run in the same way. -/
theorem runAll_noting (arrivals : List Arrival) (process : Process (σ × SigningLog)) :
    (runAll (settings.notingServer backend updater).step arrivals process).1 =
      (runAll (settings.newServer backend updater).step arrivals
        (process.1, process.2.1)).1 := by
  have hlocal : ∀ signer : LocalResourceSigner, AlikeSigners (WithLog (σ := σ) fun _ => True)
      signer.noting signer.toResourceSigner := by
    rintro signer resource method expirationTime ⟨s, log⟩ t ⟨rfl, -⟩
    exact ⟨rfl, rfl, trivial⟩
  have hservers : AlikeServers (WithLog fun _ => True) settings.allKeys
      (settings.notingServer backend updater) (settings.newServer backend updater) :=
    alikeServers_newServerWith (fun s => alikeBlobstores_zoomed _ (backend s).blobstore)
      (alikeUpdaters_zoomed updater _) (fun _ => trivial) hlocal
      fun s _ _ _ => alike_zoomed _ _
  exact (hservers.runAll (fun _ _ => settings.asksOnly_allKeys _ _) ⟨rfl, rfl, trivial⟩).1

theorem keepsLog_serveRoutes (templates : List Template) (request : IncomingRequest)
    (w : Env (σ × SigningLog)) :
    ((Server.serveRoutes (settings.notingServer backend updater) templates request).run
      w).2.ext.2 = w.ext.2 := by
  have halike := (settings.alikeRoutes_noting backend updater (· = w.ext.2)).serveRoutes
    (settings.asksOnly_allKeys _ request) templates
  exact (halike w ⟨w.host, w.ext.1, w.response⟩ ⟨rfl, ⟨rfl, rfl⟩, rfl⟩).2.ext.2

/-- A signer of the URLs of `r` notes its path, or nothing. -/
def Notes (r : SignedResource) (signer : ResourceSigner (σ × SigningLog)) : Prop :=
  ∀ method expirationTime s,
    ((signer.sign r.identifier method expirationTime).run s).2.2 = s.2 ∨
      ((signer.sign r.identifier method expirationTime).run s).2.2 =
        s.2 ++ [(r.path, expirationTime)]

theorem notes_noting {r : SignedResource} {signer : LocalResourceSigner}
    (h : signer.resourcePathPrefix = r.pathPrefix) :
    Notes r (signer.noting : ResourceSigner (σ × SigningLog)) := by
  intro method expirationTime s
  right
  show s.2 ++ [(signer.resourcePathPrefix ++ r.identifier, expirationTime)] = _
  rw [h]
  rfl

/-- What signs for a GET is the local signer, or the backend with another name for the resource;
what signs for a PUT is the local signer. -/
structure SignsWith (backend : Backend σ) (localResourceSigner : ResourceSigner σ)
    (handler : SignResourceHandler σ) : Prop where
  get : handler.getResourceSigner = some localResourceSigner ∨ ∃ rewrite : Bytes → Bytes,
    handler.getResourceSigner = some ⟨fun resource method expirationTime =>
      backend.signer.sign (rewrite resource) method expirationTime⟩
  put : handler.putResourceSigner = some localResourceSigner

theorem signsWith_createBlobstore (c : BlobstoreConfig) (backend : Backend σ)
    (localResourceSigner : ResourceSigner σ) : SignsWith backend localResourceSigner
      (createBlobstoreAndSignURLHandler c backend localResourceSigner).2 := by
  obtain ⟨t, directoryKey⟩ := c
  cases t with
  | localDir => exact ⟨.inl rfl, rfl⟩
  | _ => exact ⟨.inr ⟨_, rfl⟩, rfl⟩

theorem signsWith_createBuildpackCache (c : BlobstoreConfig) (backend : Backend σ)
    (localResourceSigner : ResourceSigner σ) : SignsWith backend localResourceSigner
      (createBuildpackCacheSignURLHandler c backend localResourceSigner).2 := by
  obtain ⟨t, directoryKey⟩ := c
  cases t with
  | localDir => exact ⟨.inl rfl, rfl⟩
  | _ => exact ⟨.inr ⟨_, rfl⟩, rfl⟩

theorem SignsWith.notes {r : SignedResource} {backend : Backend σ}
    {localResourceSigner : LocalResourceSigner}
    (hpath : localResourceSigner.resourcePathPrefix = r.pathPrefix)
    {handler : SignResourceHandler (σ × SigningLog)}
    (h : SignsWith (backend.zoom (fstPart σ SigningLog)) localResourceSigner.noting handler) :
    (∀ signer ∈ handler.getResourceSigner, Notes r signer) ∧
      ∀ signer ∈ handler.putResourceSigner, Notes r signer := by
  constructor
  · intro signer hsigner
    rcases h.get with hget | ⟨rewrite, hget⟩
    · obtain rfl := Option.some.inj (hget.symm.trans hsigner)
      exact notes_noting hpath
    · obtain rfl := Option.some.inj (hget.symm.trans hsigner)
      exact fun _ _ _ => .inl rfl
  · intro signer hsigner
    obtain rfl := Option.some.inj (h.put.symm.trans hsigner)
    exact notes_noting hpath

/-- The handler for the URLs of `r` notes its path, or nothing. -/
theorem notes_signHandler (r : SignedResource) :
    (∀ signer ∈ ((settings.notingServer backend updater).signHandler r).getResourceSigner,
        Notes r signer) ∧
      ∀ signer ∈ ((settings.notingServer backend updater).signHandler r).putResourceSigner,
        Notes r signer := by
  cases r with
  | package i => exact (signsWith_createBlobstore _ _ _).notes rfl
  | droplet i => exact (signsWith_createBlobstore _ _ _).notes rfl
  | buildpack i => exact (signsWith_createBlobstore _ _ _).notes rfl
  | buildpackCache i => exact (signsWith_createBuildpackCache _ _ _).notes rfl
  | appStashMatches =>
    refine ⟨fun signer h => (nomatch h), fun signer h => ?_⟩
    obtain rfl := Option.some.inj h
    exact notes_noting rfl

end Settings

/-! ## Who asks for a signature -/

theorem notes_sign {handler : SignResourceHandler (σ × SigningLog)} {r : SignedResource}
    (hget : ∀ signer ∈ handler.getResourceSigner, Settings.Notes r signer)
    (hput : ∀ signer ∈ handler.putResourceSigner, Settings.Notes r signer) (verb : Bytes)
    (now : Time) (w : Env (σ × SigningLog)) :
    ((handler.sign r.identifier verb now).run w).2.ext.2 = w.ext.2 ∨
      ((handler.sign r.identifier verb now).run w).2.ext.2 =
        w.ext.2 ++ [(r.path, now + oneHour)] := by
  have hrespond : ∀ signer : Option (ResourceSigner (σ × SigningLog)),
      (∀ s ∈ signer, Settings.Notes r s) → ∀ method,
      ((SignResourceHandler.respondWith signer r.identifier method now).run w).2.ext.2 =
          w.ext.2 ∨
        ((SignResourceHandler.respondWith signer r.identifier method now).run w).2.ext.2 =
          w.ext.2 ++ [(r.path, now + oneHour)] := by
    intro signer hsigner method
    cases signer with
    | none => exact .inl rfl
    | some signer =>
      have hnotes := hsigner signer rfl method (now + oneHour) w.ext
      unfold SignResourceHandler.respondWith
      simp only [run_bind, run_onExt]
      rcases hrun : (signer.sign r.identifier method (now + oneHour)).run w.ext with ⟨o, s⟩
      rw [hrun] at hnotes
      cases o with
      | returned text => exact hnotes
      | panicked e => exact hnotes
  unfold SignResourceHandler.sign
  generalize (if verb = [] then ascii "get" else verb) = method
  by_cases hmethod : method = ascii "get"
  · simp only [if_pos hmethod]
    exact hrespond _ hget _
  by_cases hmethod' : method = ascii "put" ∨ method = ascii "post"
  · simp only [if_neg hmethod, if_pos hmethod']
    exact hrespond _ hput _
  · simp only [if_neg hmethod, if_neg hmethod']
    exact .inl rfl

/-- An authorised request for the URL of a path, which is to expire after an hour. -/
structure Settings.Asks (settings : Settings) (arrival : Arrival) (path : Bytes)
    (expires : Time) : Prop where
  host : settings.mux.matchHost settings.privateHost arrival.request.host = true
  credentials : ∃ username password,
    arrival.request.toRequest.basicAuth = some (username, password) ∧
      ⟨username, password⟩ ∈ settings.signingUsers
  resource : ∃ r, routeSign settings.mux.toMux arrival.request.routed = some r ∧ r.path = path
  expires_eq : expires = arrival.now + oneHour

namespace Settings
variable (settings : Settings) (backend : StoreSection → Backend σ) (updater : Updater σ)

/-- What a request may do to the log. -/
def LogStep (arrival : Arrival) (log log' : SigningLog) : Prop :=
  log' = log ∨ ∃ path expires, settings.Asks arrival path expires ∧ log' = log ++ [(path, expires)]

theorem logStep_internalRouter {arrival : Arrival} (hhost : settings.mux.matchHost
      settings.privateHost arrival.request.host = true) (w : Env (σ × SigningLog)) :
    settings.LogStep arrival w.ext.2 ((Server.internalRouter
      (settings.notingServer backend updater) arrival.now arrival.request).run w).2.ext.2 := by
  unfold Server.internalRouter
  cases hroute : routeSign (settings.notingServer backend updater).mux.toMux
      arrival.request.routed with
  | none =>
    exact .inl (settings.keepsLog_serveRoutes backend updater _ arrival.request w)
  | some r =>
    simp only
    by_cases hlists : (settings.notingServer backend updater).lists arrival.request.toRequest = true
    · rw [serveHTTP_of_lists _ hlists]
      obtain ⟨hget, hput⟩ := settings.notes_signHandler backend updater r
      refine (notes_sign hget hput _ arrival.now w).imp_right fun hlog => ?_
      exact ⟨r.path, arrival.now + oneHour,
        ⟨hhost, (Server.lists_iff _ _).mp hlists, ⟨r, hroute, rfl⟩, rfl⟩, hlog⟩
    · rw [serveHTTP_of_not_lists _ (Bool.eq_false_iff.mpr hlists)]
      exact .inl rfl

theorem logStep_rootRouter (arrival : Arrival) (w : Env (σ × SigningLog)) :
    settings.LogStep arrival w.ext.2 ((Server.rootRouter
      (settings.notingServer backend updater) arrival.now arrival.request).run w).2.ext.2 := by
  unfold Server.rootRouter
  split
  · exact .inl rfl
  split
  · rename_i hhost
    exact settings.logStep_internalRouter backend updater hhost w
  split
  · unfold Server.publicRouter signatureVerification
    split
    · exact .inl rfl
    split
    · exact .inl rfl
    · exact .inl (settings.keepsLog_serveRoutes backend updater _ arrival.request w)
  · exact .inl rfl

/-- **A request adds to the log what it may ask for**, or nothing. -/
theorem logStep_step (arrival : Arrival) (process : Process (σ × SigningLog)) :
    settings.LogStep arrival process.2.2
      ((settings.notingServer backend updater).step arrival process).2.2.2 := by
  let w : Env (σ × SigningLog) := ⟨process.1, process.2, .empty⟩
  have hstep := settings.logStep_rootRouter backend updater arrival w
  show settings.LogStep arrival w.ext.2
    (((settings.notingServer backend updater).serve arrival).run w).2.ext.2
  unfold Server.serve
  rcases ext_multipartMiddleware arrival.request (panicMiddleware arrival
    ((settings.notingServer backend updater).rootRouter arrival.now arrival.request)) w with
    hext | hext
  · rw [hext]
    exact .inl rfl
  · rw [hext, ext_panicMiddleware]
    exact hstep

/-! ## Runs -/

def isPublic (arrival : Arrival) : Bool :=
  !settings.mux.matchHost settings.privateHost arrival.request.host &&
    settings.mux.matchHost settings.publicHost arrival.request.host

/-- What a run has its signer do: URLs are presented on the public host, and paths signed that are
then in the log. -/
def events : List Arrival → Process (σ × SigningLog) → List SignerEvent
  | [], _ => []
  | arrival :: arrivals, process =>
    let process' := ((settings.notingServer backend updater).step arrival process).2
    (if settings.isPublic arrival then [.present arrival.request.url arrival.now] else []) ++
      ((process'.2.2.drop process.2.2.length).map fun entry => .sign entry.1 entry.2) ++
      events arrivals process'

theorem events_append (before arrivals : List Arrival) (process : Process (σ × SigningLog)) :
    settings.events backend updater (before ++ arrivals) process =
      settings.events backend updater before process ++
        settings.events backend updater arrivals
          (runAll (settings.notingServer backend updater).step before process).2 := by
  induction before generalizing process with
  | nil => rfl
  | cons arrival before ih => simp only [List.cons_append, events, runAll, ih, List.append_assoc]

/-- **Whatever is signed was asked for.** -/
theorem asked_of_signed {arrivals : List Arrival} {process : Process (σ × SigningLog)}
    {path : Bytes} {expires : Time}
    (h : .sign path expires ∈ settings.events backend updater arrivals process) :
    ∃ arrival ∈ arrivals, settings.Asks arrival path expires := by
  induction arrivals generalizing process with
  | nil => exact absurd h List.not_mem_nil
  | cons arrival arrivals ih =>
    rw [events] at h
    rcases List.mem_append.mp h with h | h
    · rcases List.mem_append.mp h with h | h
      · cases hpublic : settings.isPublic arrival with
        | true => simp [hpublic] at h
        | false => simp [hpublic] at h
      · obtain ⟨entry, hentry, hsame⟩ := List.mem_map.mp h
        cases hsame
        rcases settings.logStep_step backend updater arrival process with hlog | ⟨p, t, hasks, hlog⟩
        · rw [hlog, List.drop_length] at hentry
          exact absurd hentry List.not_mem_nil
        · rw [hlog, List.drop_left] at hentry
          obtain rfl := List.mem_singleton.mp hentry
          exact ⟨arrival, List.mem_cons_self, hasks⟩
    · obtain ⟨asking, hmem, hasks⟩ := ih h
      exact ⟨asking, List.mem_cons_of_mem _ hmem, hasks⟩

theorem signsPaths_events (arrivals : List Arrival) (process : Process (σ × SigningLog)) :
    SignsPaths (settings.events backend updater arrivals process) := by
  intro path expires hsigned
  obtain ⟨-, -, -, -, ⟨r, -, rfl⟩, -⟩ := settings.asked_of_signed backend updater hsigned
  obtain ⟨pre, hpre, -⟩ := Deployment.slash_pathPrefix r
  exact ⟨pre ++ r.identifier, by rw [SignedResource.path, hpre, List.cons_append]⟩

end Settings

/-- The request is answered in the same way whatever the process and its services are, and leaves
them as they are. -/
def Server.Inert (server : Server σ) (arrival : Arrival) : Prop :=
  ∃ response, ∀ process, server.step arrival process = (response, process)

theorem Server.inert_of_answer (server : Server σ) {arrival : Arrival} (response : Response)
    (hform : (arrival.request.isMultipart && !arrival.request.form.isOk) = false)
    (h : ∀ process : Process σ, (server.rootRouter arrival.now arrival.request).run
      ⟨process.1, process.2, .empty⟩ = (.returned (), ⟨process.1, process.2, response⟩)) :
    server.Inert arrival := by
  refine ⟨response.sent, fun process => answer_of_run ?_⟩
  rw [Server.serve, run_multipartMiddleware_ok hform]
  exact run_panicMiddleware_returned (h process)

/-- Whatever comes to the public host is inert, unless its URL is signed and a handler takes it. -/
theorem Server.inert_or_routed (server : Server σ) {arrival : Arrival}
    (hprivate : server.mux.matchHost server.privateHost arrival.request.host = false) :
    server.Inert arrival ∨
      (server.mux.matchHost server.publicHost arrival.request.host = true ∧
        server.validator.admits arrival.now arrival.request.url = true ∧
        ∃ routed, routeRequest server.mux.toMux arrival.request.routed = some routed) := by
  cases hauthorised : server.authorises arrival with
  | false => exact .inl ⟨_, server.step_of_not_authorises hauthorised⟩
  | true =>
    simp only [Server.authorises, hprivate, Bool.false_eq_true, if_false, Bool.and_eq_true]
      at hauthorised
    obtain ⟨hpublic, hadmits⟩ := hauthorised
    cases hroute : routeRequest server.mux.toMux arrival.request.routed with
    | some routed => exact .inr ⟨hpublic, hadmits, routed, rfl⟩
    | none =>
      refine .inl ?_
      cases hform : arrival.request.isMultipart && !arrival.request.form.isOk with
      | true =>
        obtain ⟨hmultipart, herror⟩ := Bool.and_eq_true_iff.mp hform
        refine ⟨⟨some 500, [], []⟩, fun process => ?_⟩
        cases hparsed : arrival.request.form with
        | ok form => simp [hparsed] at herror
        | error e =>
          have hserve : server.serve arrival = writeHeader 500 := by
            simp only [Server.serve, multipartMiddleware, hmultipart, if_true, hparsed]
          rw [Server.step, hserve]
          rfl
      | false =>
        by_cases hredirect : server.mux.redirects arrival.request.url.path = true
        · refine server.inert_of_answer ⟨some 301,
            [(ascii "Location", server.mux.cleanLocation arrival.request.url)], []⟩ hform
            fun process => ?_
          rw [Server.rootRouter, if_pos hredirect]
          rfl
        · refine server.inert_of_answer (server.mux.unmatched (publicRoutes.map Route.template)
            arrival.request.routed) hform fun process => ?_
          rw [Server.rootRouter, if_neg hredirect, if_neg (by simp [hprivate]), if_pos hpublic,
            Server.publicRouter, signatureVerification_of_admits hadmits, Server.serveRoutes]
          simp only [hroute]
          rfl

/-! ## Paths that are served -/

/-- What every path begins with that a template matches. -/
def Template.text : Template → Bytes
  | .path text => text
  | .identifier pre => pre
  | .anyIdentifier pre => pre
  | .nameIdentifier pre => pre

theorem Mux.text_prefix (mux : Mux) {template : Template} {path : Bytes}
    (h : (mux.matchPath template path).isSome = true) : template.text <+: path := by
  rw [mux.matchPath_eq] at h
  have hafter : ∀ {pre : Bytes} {p : Bytes → Bool},
      ((pathAfter pre path).filter p).isSome = true → pre <+: path := by
    intro pre p hsome
    obtain ⟨identifier, hidentifier⟩ := Option.isSome_iff_exists.mp hsome
    have hpath := (Option.filter_eq_some_iff.mp hidentifier).1
    unfold pathAfter at hpath
    by_contra hnot
    rw [if_neg hnot] at hpath
    cases hpath
  cases template with
  | path text =>
    by_cases hpath : path = text
    · rw [hpath]
      exact List.prefix_rfl
    · simp [documentedMux, hpath] at h
  | identifier pre => exact hafter h
  | anyIdentifier pre => exact hafter h
  | nameIdentifier pre => exact hafter h

theorem slash_of_routeRequest {mux : Mux} {request : RoutedRequest} {routed : Endpoint × Bytes}
    (h : routeRequest mux request = some routed) : ∃ rest, request.url.path = slash :: rest := by
  have hslash : ∀ route ∈ publicRoutes, [slash] <+: route.template.text := by decide
  obtain ⟨-, route, hroute, hmatches⟩ :=
    (routeRequest_isSome_iff mux request).mp (Option.isSome_of_eq_some h)
  obtain ⟨-, -, hpath⟩ := (Route.matches_isSome_iff mux route request).mp hmatches
  obtain ⟨rest, hrest⟩ := (hslash route hroute).trans (mux.text_prefix hpath)
  exact ⟨rest, hrest.symm⟩

/-- **Nothing is done on the public host that was not granted**: a request there is answered without
a look at any state, and changes none, unless someone with credentials has asked on the private host
for the URL of just its path, no more than an hour before. -/
theorem Settings.granted (settings : Settings) (backend : StoreSection → Backend σ)
    (updater : Updater σ) (before after : List Arrival) (arrival : Arrival)
    (process : Process (σ × SigningLog))
    (hideal : Idealised settings.signer
      (settings.events backend updater (before ++ arrival :: after) process))
    (hprivate : settings.mux.matchHost settings.privateHost arrival.request.host = false) :
    (settings.newServer backend updater).Inert arrival ∨
      ∃ asking ∈ before, ∃ expires,
        settings.Asks asking arrival.request.url.path expires ∧
          arrival.now ≤ timeUnix (unixSeconds expires) := by
  refine ((settings.newServer backend updater).inert_or_routed hprivate).imp_right ?_
  rintro ⟨hpublic, hadmits, routed, hrouted⟩
  have hshown : settings.isPublic arrival = true := by
    rw [isPublic, hprivate]
    exact hpublic
  obtain ⟨rest, hevents⟩ :
      ∃ rest, settings.events backend updater (before ++ arrival :: after) process =
        settings.events backend updater before process ++
          .present arrival.request.url arrival.now :: rest := by
    rw [events_append, events, if_pos hshown, List.append_assoc, List.singleton_append]
    exact ⟨_, rfl⟩
  have hvalid : settings.signer.signatureValid arrival.now arrival.request.url = true :=
    (Bool.and_eq_true_iff.mp hadmits).2
  obtain ⟨expires, hsigned, -, hnow⟩ := signed_of_valid hideal
    (settings.signsPaths_events backend updater _ process) hevents
    (slash_of_routeRequest hrouted) hvalid
  obtain ⟨asking, hmem, hasks⟩ := settings.asked_of_signed backend updater hsigned
  exact ⟨asking, hmem, expires, hasks, hnow⟩

/-! ## A granted download -/

/-- Hosts are compared as they are, and what has no route is not found. -/
def plainRootMux : RootMux where
  toMux := documentedMux
  matchHost host name := decide (name = host)
  cleanLocation u := u.path
  unmatched _ _ := ⟨some 404, [], []⟩

def packageSettings : Settings where
  mux := plainRootMux
  privateHost := ascii "internal"
  publicHost := ascii "public"
  publicEndpoint := packageDeployment.endpoint
  signer := packageSigner
  signingUsers := [⟨ascii "admin", ascii "admin"⟩]
  formats := plainFormats
  blobstoreConfig _ := ⟨.localDir, []⟩
  maxBodySizeBytes _ := 0
  buildpackCacheMaxBodySizeBytes := 0
  minimumSizeBytes := 0
  maximumSizeBytes := 100

/-- An administrator asks for the URL of package `abc`. -/
def signPackageAbc : Arrival where
  now := 0
  requestId := 0
  request :=
    { host := ascii "internal"
      method := .get
      url := ⟨ascii "/sign/packages/abc", []⟩
      contentLength := 0
      header := fun key => if key = ascii "Authorization" then
        ascii "Basic " ++ GoLib.Base64.encode (ascii "admin:admin") else []
      body := .whole []
      form := .error .newNotFoundError }

def getPackageAbc : Arrival where
  now := 0
  requestId := 1
  request :=
    { host := ascii "public"
      method := .get
      url := ⟨ascii "/packages/abc", packageQuery⟩
      contentLength := 0
      header := fun _ => []
      body := .whole []
      form := .error .newNotFoundError }

def untouched : Process (List Bytes × SigningLog) := ((Env.fresh ()).host, ([], []))

theorem events_signPackageAbc :
    packageSettings.events (fun _ => recordingBackend) nullUpdater [signPackageAbc, getPackageAbc]
      untouched = signAndPresentPackage := by rfl

theorem granted_package_abc :
    (packageSettings.newServer (fun _ => recordingBackend) nullUpdater).Inert getPackageAbc ∨
      ∃ asking ∈ [signPackageAbc], ∃ expires,
        packageSettings.Asks asking (ascii "/packages/abc") expires ∧
          (0 : ℤ) ≤ timeUnix (unixSeconds expires) :=
  packageSettings.granted (fun _ => recordingBackend) nullUpdater [signPackageAbc] [] getPackageAbc
    untouched (events_signPackageAbc ▸ idealised_signAndPresentPackage) (by decide)

end BitsService
