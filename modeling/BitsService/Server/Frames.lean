import BitsService.Server.Holdings

/-! # What a request can change

A request that is not let through to a handler changes nothing, and what a handler changes of the
resources are those that its operation writes. -/
namespace BitsService
open GoLib.Effect
set_option autoImplicit false

/-! ## Requests that are handled -/

/-- The request is let through to the handler of an endpoint. -/
structure Server.Handles {σ : Type} (server : Server σ) (arrival : Arrival) (endpoint : Endpoint)
    (identifier : Bytes) : Prop where
  authorised : server.authorises arrival = true
  form : (arrival.request.isMultipart && !arrival.request.form.isOk) = false
  routed : routeRequest server.mux.toMux arrival.request.routed = some (endpoint, identifier)

/-- No path has a handler and can be signed for as well. -/
theorem routeSign_of_routeRequest {mux : Mux} {request : RoutedRequest}
    {routed : Endpoint × Bytes} (h : routeRequest mux request = some routed) :
    routeSign mux request = none := by
  have hapart : ∀ route ∈ publicRoutes, ∀ sign ∈ setUpSignRoute,
      ¬ route.template.text <+: sign.1.text ∧ ¬ sign.1.text <+: route.template.text := by decide
  obtain ⟨-, route, hroute, hmatches⟩ :=
    (routeRequest_isSome_iff mux request).mp (Option.isSome_of_eq_some h)
  obtain ⟨-, -, hpath⟩ := (Route.matches_isSome_iff mux route request).mp hmatches
  have hbegin := mux.text_prefix hpath
  unfold routeSign
  split
  · rw [List.findSome?_eq_none_iff]
    intro sign hsign
    rw [Option.map_eq_none_iff]
    by_contra hsome
    have hbegin' := mux.text_prefix (Option.isSome_iff_ne_none.mpr hsome)
    obtain ⟨hnot, hnot'⟩ := hapart route hroute sign hsign
    rcases List.prefix_or_prefix_of_prefix hbegin hbegin' with h | h
    · exact hnot h
    · exact hnot' h
  · rfl

namespace ShelvedServer
variable {σ : Type} (model : ShelvedServer σ)

/-- The ending of a request, as it is delivered by the middlewares. -/
def delivered (arrival : Arrival) (ending : Ending σ) : Response × σ :=
  ((ending.1.getD (internalServerErrorResponse arrival)).sent, ending.2)

theorem authorises_server (arrival : Arrival) : model.server.authorises arrival =
    if model.mux.matchHost model.privateHost arrival.request.host then
      (routeSign model.mux.toMux arrival.request.routed).isNone ||
        model.server.lists arrival.request.toRequest
    else model.mux.matchHost model.publicHost arrival.request.host &&
      model.validator.admits arrival.now arrival.request.url := rfl

variable {arrival : Arrival}

theorem answerTo_of_handles {endpoint : Endpoint} {identifier : Bytes}
    (h : model.server.Handles arrival endpoint identifier) (s : σ) :
    model.answerTo arrival s = delivered arrival
      (model.endpointEnding arrival.request.toRequest endpoint identifier s) := by
  have hroute : routeRequest model.mux.toMux arrival.request.routed =
      some (endpoint, identifier) := h.routed
  have hclean : ¬ model.mux.redirects arrival.request.url.path = true := by
    have hsome := (routeRequest_isSome_iff _ _).mp (Option.isSome_of_eq_some hroute)
    exact Bool.eq_false_iff.mp hsome.1
  have hroutes : ∀ templates, model.routesEnding templates arrival.request s =
      model.endpointEnding arrival.request.toRequest endpoint identifier s := by
    intro templates
    rw [routesEnding, hroute]
  have hroot : model.rootEnding arrival.now arrival.request s =
      model.endpointEnding arrival.request.toRequest endpoint identifier s := by
    have hauthorised := h.authorised
    rw [authorises_server] at hauthorised
    rw [rootEnding, if_neg hclean]
    by_cases hprivate : model.mux.matchHost model.privateHost arrival.request.host = true
    · rw [if_pos hprivate, internalEnding, routeSign_of_routeRequest hroute]
      exact hroutes _
    · rw [if_neg hprivate, Bool.and_eq_true] at hauthorised
      rw [if_neg hprivate, if_pos hauthorised.1, publicEnding, if_pos hauthorised.2]
      exact hroutes _
  unfold answerTo
  rw [h.form, if_neg Bool.false_ne_true, hroot]
  rfl

variable (arrival) in
/-- **What is not handled changes nothing.** -/
theorem handles_or_unchanged :
    (∃ endpoint identifier, model.server.Handles arrival endpoint identifier) ∨
      ∀ s, (model.answerTo arrival s).2 = s := by
  by_cases hform : (arrival.request.isMultipart && !arrival.request.form.isOk) = true
  · exact .inr fun s => by rw [answerTo, if_pos hform]
  have hanswer : ∀ s, (model.answerTo arrival s).2 =
      (model.rootEnding arrival.now arrival.request s).2 := fun s => by rw [answerTo, if_neg hform]
  simp only [hanswer]
  have hroutes : model.server.authorises arrival = true → ∀ templates,
      (∃ endpoint identifier, model.server.Handles arrival endpoint identifier) ∨
        ∀ s, (model.routesEnding templates arrival.request s).2 = s := by
    intro hauthorised templates
    cases hroute : routeRequest model.mux.toMux arrival.request.routed with
    | none => exact .inr fun s => by rw [routesEnding, hroute]
    | some routed =>
      exact .inl ⟨routed.1, routed.2, hauthorised, Bool.eq_false_iff.mpr hform, hroute⟩
  rw [authorises_server] at hroutes
  unfold rootEnding
  by_cases hredirect : model.mux.redirects arrival.request.url.path = true
  · simp only [if_pos hredirect]
    exact .inr fun _ => trivial
  by_cases hprivate : model.mux.matchHost model.privateHost arrival.request.host = true
  · simp only [if_neg hredirect, if_pos hprivate, internalEnding] at hroutes ⊢
    cases hsign : routeSign model.mux.toMux arrival.request.routed with
    | none => exact hroutes (by rw [hsign]; rfl) _
    | some r =>
      refine .inr fun s => ?_
      simp only
      split <;> rfl
  by_cases hpublic : model.mux.matchHost model.publicHost arrival.request.host = true
  · simp only [if_neg hredirect, if_neg hprivate, if_pos hpublic, publicEnding] at hroutes ⊢
    by_cases hadmits : model.validator.admits arrival.now arrival.request.url = true
    · simp only [if_pos hadmits]
      exact hroutes (by rw [hpublic, hadmits]; rfl) _
    · simp only [if_neg hadmits]
      exact .inr fun _ => trivial
  · simp only [if_neg hredirect, if_neg hprivate, if_neg hpublic]
    exact .inr fun _ => trivial

end ShelvedServer

/-! ## What a request writes -/

/-- The key is one that the operation writes, or deletes. -/
def ResourceOperation.Writes (request : Request) (identifier key : Bytes) :
    ResourceOperation → Prop
  | addOrReplaceWithDigestInHeader => ∃ alg value,
    splitEquals (request.header (ascii "Digest")) = [alg, value] ∧
      key = identifier ++ slash :: value
  | deleteDir => IsBelow identifier key
  | headOrRedirectAsGet => False
  | get => False
  | _ => key = identifier

def Endpoint.Writes (request : Request) (identifier : Bytes) (kind : ResourceKind) (key : Bytes) :
    Endpoint → Prop
  | .resource kind' operation => kind = kind' ∧ operation.Writes request identifier key
  | _ => False

section Frames
variable {σ : Type} {P : σ → Prop} {s : σ}

theorem withinLimits_leaves {request : Request} {maxBodySizeLimit : ℕ} {next : Request → Ending σ}
    (hs : P s) (h : ∀ request', request.limited maxBodySizeLimit = some request' →
      P (next request').2) : P (withinLimits request maxBodySizeLimit next s).2 := by
  unfold withinLimits
  split
  · exact hs
  · exact h _ ‹_›

theorem orPanic_leaves {α : Type} {r : Result α} {next : α → Ending σ} (hs : P s)
    (h : ∀ a, P (next a).2) : P (orPanic r next s).2 := by
  cases r with
  | error e => exact hs
  | ok a => exact h a

end Frames

/-- The second state has under a key what the first one has there. -/
def SameAt (kind : ResourceKind) (key : Bytes) (holdings holdings' : Holdings) : Prop :=
  holdings' (.resource kind) key = holdings (.resource kind) key

variable (formats : Formats) (request : Request) (holdings : Holdings) (kind : ResourceKind)
  (key : Bytes)

/-- Stashed contents are in the app stash and nowhere else. -/
theorem sameAt_stash (digests : Digests) (contents : List Bytes) :
    SameAt kind key holdings (Collection.appStash.shelf.stash digests contents holdings) := by
  induction contents generalizing holdings with
  | nil => rfl
  | cons content contents ih =>
    have hstored : SameAt kind key holdings
        (Collection.appStash.shelf.store (digests.key content) (some content) holdings) := by
      rw [SameAt, Collection.store_apply, if_neg (by simp)]
    exact (ih _).trans hstored

theorem sameAt_bundle (digests : Digests) (format : ZipFormat) (minimumSize maximumSize : ℕ)
    (payload : List Fingerprint) (zipReader : Option (List ZipEntry)) :
    SameAt kind key holdings (bundle digests format minimumSize maximumSize
      Collection.appStash.shelf payload zipReader holdings).2 :=
  sameAt_stash _ _ _ _ _

section StashFrames
variable {stash : ShelvedStash Holdings} (hshelf : stash.shelf = Collection.appStash.shelf)

theorem sameAt_postMatches :
    SameAt kind key holdings (stash.postMatchesEnding formats request holdings).2 :=
  withinLimits_leaves rfl fun _ _ => orPanic_leaves rfl fun _ => rfl

include hshelf

theorem sameAt_bundleEnding (body : Bytes) (zipReader : Option (List ZipEntry)) :
    SameAt kind key holdings (stash.bundleEnding formats body zipReader holdings).2 := by
  unfold ShelvedStash.bundleEnding
  rw [hshelf]
  split
  · rfl
  rename_i payload _
  split
  · rfl
  have hsame := sameAt_bundle holdings kind key formats.digests formats.zip stash.minimumSize
    stash.maximumSize payload zipReader
  split <;> rename_i heq <;> rw [heq] at hsame <;> exact hsame

theorem sameAt_postEntries :
    SameAt kind key holdings (stash.postEntriesEnding formats request holdings).2 := by
  refine withinLimits_leaves rfl fun request _ => ?_
  split
  · unfold ShelvedStash.uploadEnding
    rw [hshelf]
    split
    · rfl
    · exact sameAt_stash _ _ _ _ _
  · rfl

theorem sameAt_postBundles :
    SameAt kind key holdings (stash.postBundlesEnding formats request holdings).2 := by
  refine withinLimits_leaves rfl fun request _ => ?_
  split
  · refine orPanic_leaves rfl fun resources => ?_
    split
    · rfl
    refine orPanic_leaves rfl fun zipFile => ?_
    split
    · rfl
    split
    · rfl
    · exact sameAt_bundleEnding formats holdings kind key hshelf _ _
  · exact orPanic_leaves rfl fun body =>
      sameAt_bundleEnding formats holdings kind key hshelf body none

end StashFrames

section ResourceFrames
variable {resource : ShelvedResource Holdings} {kind' : ResourceKind}
  (hshelf : resource.shelf = (Collection.resource kind').shelf)
  (happStash : resource.appStash = Collection.appStash.shelf)

theorem sameAt_store {identifier : Bytes} (content : Option Bytes)
    (h : ¬ (kind = kind' ∧ key = identifier)) :
    SameAt kind key holdings ((Collection.resource kind').shelf.store identifier content
      holdings) := by
  rw [SameAt, Collection.store_apply, if_neg]
  rintro ⟨hsame, rfl⟩
  exact h ⟨Collection.resource.inj hsame, rfl⟩

include happStash in
theorem sameAt_receivedBits (file : Bytes) :
    SameAt kind key holdings (resource.receivedBits formats request file holdings).2 := by
  unfold ShelvedResource.receivedBits ShelvedResource.packageBits
  rw [happStash]
  split
  · split
    · rfl
    split
    · rfl
    split
    · split <;> rfl
    rename_i payload _ _ _ _ zipReader _
    have hsame := sameAt_bundle holdings kind key formats.digests formats.zip resource.minimumSize
      resource.maximumSize payload (some zipReader)
    split <;> rename_i heq <;> rw [heq] at hsame <;> exact hsame
  · rfl

include hshelf happStash in
theorem sameAt_addOrReplace {identifier : Bytes} (h : ¬ (kind = kind' ∧ key = identifier)) :
    SameAt kind key holdings
      (resource.addOrReplaceEnding formats request identifier holdings).2 := by
  refine withinLimits_leaves rfl fun request _ => orPanic_leaves rfl fun file => ?_
  split
  · rfl
  · rename_i file
    have hreceived := sameAt_receivedBits formats request holdings kind key happStash file
    rw [hshelf]
    split <;> rename_i heq <;> rw [heq] at hreceived
    · exact hreceived
    · exact (sameAt_store _ kind key _ h).trans hreceived

include hshelf in
theorem sameAt_digest {identifier : Bytes} (h : ¬ (kind = kind' ∧
      ResourceOperation.addOrReplaceWithDigestInHeader.Writes request identifier key)) :
    SameAt kind key holdings (resource.digestEnding request identifier holdings).2 := by
  refine withinLimits_leaves rfl fun request' hlimited => ?_
  have hheader : request'.header = request.header := by
    have hsame := congrArg Request.header (eq_of_limited hlimited)
    exact hsame
  rw [hshelf, hheader]
  simp only
  split
  · rfl
  split
  · rename_i alg value hdigest
    split
    · rfl
    split
    · rfl
    refine orPanic_leaves rfl fun content => sameAt_store _ kind key _ ?_
    rintro ⟨rfl, rfl⟩
    exact h ⟨rfl, alg, value, hdigest, rfl⟩
  · rfl

include hshelf in
theorem sameAt_copy {identifier : Bytes} (h : ¬ (kind = kind' ∧ key = identifier)) :
    SameAt kind key holdings (resource.copyEnding formats request identifier holdings).2 := by
  refine withinLimits_leaves rfl fun request _ => orPanic_leaves rfl fun content => ?_
  rw [hshelf]
  split
  · rfl
  split
  · rfl
  split
  · rfl
  · exact sameAt_store _ kind key _ h

include hshelf happStash in
/-- **A handler changes what its operation writes**, and no other resource. -/
theorem sameAt_ending {identifier : Bytes} {operation : ResourceOperation}
    (h : ¬ (kind = kind' ∧ operation.Writes request identifier key)) :
    SameAt kind key holdings
      (resource.ending formats request identifier operation holdings).2 := by
  cases operation with
  | addOrReplace => exact sameAt_addOrReplace formats request holdings kind key hshelf happStash h
  | addOrReplaceWithDigestInHeader => exact sameAt_digest request holdings kind key hshelf h
  | copySourceGuid => exact sameAt_copy formats request holdings kind key hshelf h
  | headOrRedirectAsGet =>
    show SameAt kind key holdings (resource.headEnding identifier holdings).2
    unfold ShelvedResource.headEnding
    split <;> rfl
  | get =>
    show SameAt kind key holdings (resource.getEnding formats request identifier holdings).2
    unfold ShelvedResource.getEnding
    split <;> rfl
  | delete =>
    show SameAt kind key holdings (resource.deleteEnding identifier holdings).2
    unfold ShelvedResource.deleteEnding
    rw [hshelf]
    split
    · rfl
    · exact sameAt_store _ kind key _ h
  | deleteDir =>
    show SameAt kind key holdings (resource.shelf.clear identifier holdings)
    rw [hshelf, SameAt, Collection.clear_apply, if_neg]
    rintro ⟨hsame, hbelow⟩
    exact h ⟨Collection.resource.inj hsame, hbelow⟩

end ResourceFrames

end BitsService
