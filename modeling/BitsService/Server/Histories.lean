import BitsService.Server.Frames

/-! # What becomes of a resource

A resource is what the last request that wrote it has left, however many other requests there are:
reading tells nothing else. -/
namespace BitsService
open GoLib.Effect GoLib.Coupling GoLib.OperationRuns
set_option autoImplicit false

/-! ## What requests leave -/

namespace LocalSettings
variable (settings : LocalSettings)

/-- A request that is let through and writes the resource. -/
def Writes (arrival : Arrival) (kind : ResourceKind) (key : Bytes) : Prop :=
  ∃ endpoint identifier, settings.localServer.Handles arrival endpoint identifier ∧
    endpoint.Writes arrival.request.toRequest identifier kind key

/-- A request that is let through and reads the resource, or asks whether there is one. -/
def Reads (arrival : Arrival) (kind : ResourceKind) (key : Bytes) : Prop :=
  settings.localServer.Handles arrival (.resource kind .get) key ∨
    settings.localServer.Handles arrival (.resource kind .headOrRedirectAsGet) key

variable {settings} {arrival : Arrival} {kind : ResourceKind} {key : Bytes}

theorem answerTo_handled {endpoint : Endpoint} {identifier : Bytes}
    (h : settings.localServer.Handles arrival endpoint identifier) (holdings : Holdings) :
    settings.holdingsModel.answerTo arrival holdings = ShelvedServer.delivered arrival
      (settings.holdingsModel.endpointEnding arrival.request.toRequest endpoint identifier
        holdings) :=
  settings.holdingsModel.answerTo_of_handles ⟨h.authorised, h.form, h.routed⟩ holdings

theorem sameAt_answerTo (h : ¬ settings.Writes arrival kind key) (holdings : Holdings) :
    SameAt kind key holdings (settings.holdingsModel.answerTo arrival holdings).2 := by
  rcases settings.holdingsModel.handles_or_unchanged arrival with
    ⟨endpoint, identifier, hhandles⟩ | hunchanged
  · have hhandled : settings.localServer.Handles arrival endpoint identifier :=
      ⟨hhandles.authorised, hhandles.form, hhandles.routed⟩
    rw [answerTo_handled hhandled]
    cases endpoint with
    | postEntries => exact sameAt_postEntries _ _ _ _ _ rfl
    | postMatches => exact sameAt_postMatches _ _ _ _ _
    | postBundles => exact sameAt_postBundles _ _ _ _ _ rfl
    | resource kind' operation =>
      exact sameAt_ending _ _ _ _ _ rfl rfl fun hwrites => h ⟨_, _, hhandled, hwrites⟩
  · rw [hunchanged]
    rfl

/-- **What no request of a run writes, the run leaves as it is.** -/
theorem sameAt_runAll {arrivals : List Arrival}
    (h : ∀ arrival ∈ arrivals, ¬ settings.Writes arrival kind key) (holdings : Holdings) :
    SameAt kind key holdings (runAll settings.holdingsModel.answerTo arrivals holdings).2 := by
  induction arrivals generalizing holdings with
  | nil => rfl
  | cons arrival arrivals ih =>
    obtain ⟨hfirst, hrest⟩ := List.forall_mem_cons.mp h
    exact (ih hrest _).trans (sameAt_answerTo hfirst holdings)

/-- What is read is what is held. -/
theorem answerTo_of_sameAt (h : settings.Reads arrival kind key) {holdings holdings' : Holdings}
    (hsame : SameAt kind key holdings holdings') :
    (settings.holdingsModel.answerTo arrival holdings').1 =
      (settings.holdingsModel.answerTo arrival holdings).1 := by
  have hblob : (Collection.resource kind).shelf.blob holdings' key =
      (Collection.resource kind).shelf.blob holdings key := hsame
  rcases h with h | h
  · rw [answerTo_handled h, answerTo_handled h]
    show (ShelvedServer.delivered arrival (ShelvedResource.getEnding _ _ _ _ _)).1 =
      (ShelvedServer.delivered arrival (ShelvedResource.getEnding _ _ _ _ _)).1
    unfold ShelvedResource.getEnding
    rw [show (settings.holdingsModel.resources kind).shelf = (Collection.resource kind).shelf
      from rfl, hblob]
    cases (Collection.resource kind).shelf.blob holdings key <;> rfl
  · rw [answerTo_handled h, answerTo_handled h]
    show (ShelvedServer.delivered arrival (ShelvedResource.headEnding _ _ _)).1 =
      (ShelvedServer.delivered arrival (ShelvedResource.headEnding _ _ _)).1
    unfold ShelvedResource.headEnding
    rw [show (settings.holdingsModel.resources kind).shelf = (Collection.resource kind).shelf
      from rfl, hblob]
    cases (Collection.resource kind).shelf.blob holdings key <;> rfl

/-! ## Uploads -/

/-- The request is answered as an upload, or a copy, that was made or is being made. -/
def Accepted (response : Response) : Prop :=
  response.status = some 201 ∨ response.status = some 202

/-- The response that is given up with has another status; there is none for a panic. -/
def Refuses (response : Option Response) : Prop :=
  ∃ status, status ≠ 201 ∧ status ≠ 202 ∧ ∀ refusal ∈ response, refusal.status = some status

theorem Refuses.of_status {response : Response} (status : ℕ) (h : response.status = some status)
    (h₁ : status ≠ 201) (h₂ : status ≠ 202) : Refuses (some response) :=
  ⟨status, h₁, h₂, fun _ hmem => Option.some.inj hmem ▸ h⟩

theorem Refuses.panic : Refuses none := ⟨500, by decide, by decide, fun _ h => nomatch h⟩

theorem Refuses.not_accepted {response : Option Response} (h : Refuses response)
    (holdings : Holdings) :
    ¬ Accepted (ShelvedServer.delivered arrival (response, holdings)).1 := by
  obtain ⟨status, h201, h202, hstatus⟩ := h
  cases response with
  | none =>
    rintro (h | h) <;> cases h
  | some refusal =>
    have hrefusal : (ShelvedServer.delivered arrival (some refusal, holdings)).1.status =
        some status := by
      show some (refusal.status.getD 200) = some status
      rw [hstatus refusal rfl]
      rfl
    rintro (h | h)
    · exact h201 (Option.some.inj (hrefusal.symm.trans h))
    · exact h202 (Option.some.inj (hrefusal.symm.trans h))

theorem refuses_sizeRefusal (request : Request) : Refuses (some (sizeRefusal request)) := by
  unfold sizeRefusal
  split
  · exact .of_status 400 rfl (by decide) (by decide)
  · exact .of_status 413 rfl (by decide) (by decide)

section Resource
variable {formats : Formats} {resource : ShelvedResource Holdings} {holdings holdings' : Holdings}

theorem refuses_receivedBits {request : Request} {file : Bytes} {response : Option Response}
    (h : resource.receivedBits formats request file holdings = (.error response, holdings')) :
    Refuses response := by
  have h422 : ∀ text, Refuses (some (ShelvedResource.unprocessable text)) :=
    fun text => .of_status 422 rfl (by decide) (by decide)
  unfold ShelvedResource.receivedBits ShelvedResource.packageBits at h
  split at h
  swap
  · cases h
  split at h
  · cases h
    exact h422 _
  split at h
  · cases h
    exact h422 _
  split at h
  · split at h
    · cases h
      exact h422 _
    · cases h
      exact .panic
  split at h <;> cases h
  · exact h422 _
  · exact .panic

variable (formats resource) in
/-- An upload is refused, or its bits are stored and their digests are told. -/
theorem addOrReplaceEnding_cases (request : Request) (identifier : Bytes) (holdings : Holdings) :
    Refuses (resource.addOrReplaceEnding formats request identifier holdings).1 ∨
      ∃ bits holdings', resource.addOrReplaceEnding formats request identifier holdings =
          (some (ShelvedResource.uploadResponse formats request identifier bits),
            resource.shelf.store identifier (some bits) holdings') ∧
        (resource.resourceType ≠ ascii "package" →
          uploadedFile request resource.resourceType = .ok (some bits)) := by
  unfold ShelvedResource.addOrReplaceEnding withinLimits
  cases hlimited : request.limited resource.maxBodySizeLimit with
  | none => exact .inl (refuses_sizeRefusal request)
  | some request' =>
    have hfile : uploadedFile request' resource.resourceType =
        uploadedFile request resource.resourceType := by
      rw [eq_of_limited hlimited]
      rfl
    have hresponse : ∀ bits, ShelvedResource.uploadResponse formats request' identifier bits =
        ShelvedResource.uploadResponse formats request identifier bits := by
      intro bits
      rw [eq_of_limited hlimited]
      rfl
    simp only [hfile]
    cases uploadedFile request resource.resourceType with
    | error e => exact .inl .panic
    | ok file =>
      cases file with
      | none => exact .inl (.of_status 400 rfl (by decide) (by decide))
      | some file =>
        simp only [orPanic]
        rcases hreceived : resource.receivedBits formats request' file holdings with
          ⟨response | bits, holdings'⟩
        · exact .inl (refuses_receivedBits hreceived)
        · refine .inr ⟨bits, holdings', by rw [← hresponse], fun hpackage => ?_⟩
          rw [ShelvedResource.receivedBits, if_neg hpackage] at hreceived
          cases hreceived
          rfl

end Resource

theorem resourceType_ne_package (h : kind ≠ .package) : kind.resourceType ≠ ascii "package" := by
  cases kind with
  | package => exact absurd rfl h
  | droplet => decide
  | buildpack => decide
  | buildpackCache => decide

/-- **What an accepted upload leaves** is bits whose digests it is answered with. -/
theorem answerTo_upload {put : Arrival} {identifier : Bytes}
    (h : settings.localServer.Handles put (.resource kind .addOrReplace) identifier)
    (holdings : Holdings)
    (haccepted : Accepted (settings.holdingsModel.answerTo put holdings).1) :
    ∃ bits, (settings.holdingsModel.answerTo put holdings).1 =
        ShelvedResource.uploadResponse settings.formats put.request.toRequest identifier bits ∧
      (kind ≠ .package →
        uploadedFile put.request.toRequest kind.resourceType = .ok (some bits)) ∧
      (settings.holdingsModel.answerTo put holdings).2 (.resource kind) identifier =
        some bits := by
  rw [answerTo_handled h] at haccepted ⊢
  have hcases := addOrReplaceEnding_cases settings.formats (settings.holdingsModel.resources kind)
    put.request.toRequest identifier holdings
  have hending : settings.holdingsModel.endpointEnding put.request.toRequest
      (.resource kind .addOrReplace) identifier holdings =
      (settings.holdingsModel.resources kind).addOrReplaceEnding settings.formats
        put.request.toRequest identifier holdings := rfl
  rw [hending] at haccepted ⊢
  rcases hcases with hrefuses | ⟨bits, holdings', hstored, hfile⟩
  · exact absurd haccepted (hrefuses.not_accepted _)
  · rw [hstored]
    refine ⟨bits, ?_, fun hkind => hfile ?_, ?_⟩
    · show Response.sent _ = _
      unfold ShelvedResource.uploadResponse
      split <;> rfl
    · exact resourceType_ne_package hkind
    · show (Collection.resource kind).shelf.store identifier (some bits) holdings'
        (.resource kind) identifier = some bits
      rw [Collection.store_apply, if_pos ⟨rfl, rfl⟩]

/-! ## Deletions and copies -/

/-- A deleted resource is gone, whether there was one or not. -/
theorem answerTo_delete {delete : Arrival} {identifier : Bytes}
    (h : settings.localServer.Handles delete (.resource kind .delete) identifier)
    (holdings : Holdings) :
    (settings.holdingsModel.answerTo delete holdings).2 (.resource kind) identifier = none := by
  rw [answerTo_handled h]
  show ((settings.holdingsModel.resources kind).deleteEnding identifier holdings).2
    (.resource kind) identifier = none
  unfold ShelvedResource.deleteEnding
  cases hblob : (settings.holdingsModel.resources kind).shelf.blob holdings identifier with
  | none => exact hblob
  | some content =>
    show (Collection.resource kind).shelf.store identifier none holdings (.resource kind)
      identifier = none
    rw [Collection.store_apply, if_pos ⟨rfl, rfl⟩]

theorem answerTo_deleteDir {delete : Arrival} {identifier : Bytes}
    (h : settings.localServer.Handles delete (.resource kind .deleteDir) identifier)
    (hbelow : IsBelow identifier key) (holdings : Holdings) :
    (settings.holdingsModel.answerTo delete holdings).2 (.resource kind) key = none := by
  rw [answerTo_handled h]
  show (Collection.resource kind).shelf.clear identifier holdings (.resource kind) key = none
  rw [Collection.clear_apply, if_pos ⟨rfl, hbelow⟩]

/-- Where a request is to copy from, if its body can be read. -/
def sourceOf (formats : Formats) (maxBodySizeLimit : ℕ) (request : Request) : Option Bytes := do
  let request ← request.limited maxBodySizeLimit
  let body ← request.body.readAll.toOption
  (formats.json.sourceGuid body).toOption

/-- **What an accepted copy leaves** is what its source holds, unless that is the copy itself. -/
theorem answerTo_copy {copy : Arrival} {identifier : Bytes}
    (h : settings.localServer.Handles copy (.resource kind .copySourceGuid) identifier)
    (holdings : Holdings)
    (haccepted : Accepted (settings.holdingsModel.answerTo copy holdings).1) :
    ∃ source content, sourceOf settings.formats (settings.maxBodySizeLimit kind)
        copy.request.toRequest = some source ∧
      holdings (.resource kind) source = some content ∧
      (settings.holdingsModel.answerTo copy holdings).2 (.resource kind) identifier =
        some (if source = identifier then [] else content) := by
  rw [answerTo_handled h] at haccepted ⊢
  have hending : settings.holdingsModel.endpointEnding copy.request.toRequest
      (.resource kind .copySourceGuid) identifier holdings =
      (settings.holdingsModel.resources kind).copyEnding settings.formats copy.request.toRequest
        identifier holdings := rfl
  rw [hending] at haccepted ⊢
  unfold ShelvedResource.copyEnding withinLimits at haccepted ⊢
  rw [show (settings.holdingsModel.resources kind).maxBodySizeLimit =
    settings.maxBodySizeLimit kind from rfl] at haccepted ⊢
  unfold sourceOf
  cases hlimited : copy.request.toRequest.limited (settings.maxBodySizeLimit kind) with
  | none =>
    rw [hlimited] at haccepted
    exact absurd haccepted ((refuses_sizeRefusal _).not_accepted _)
  | some request =>
    rw [hlimited] at haccepted
    simp only at haccepted ⊢
    cases hread : request.body.readAll with
    | error e =>
      rw [hread] at haccepted
      exact absurd haccepted (Refuses.panic.not_accepted _)
    | ok body =>
      rw [hread] at haccepted
      simp only [orPanic] at haccepted ⊢
      cases hjson : settings.formats.json.sourceGuid body with
      | error text =>
        rw [hjson] at haccepted
        exact absurd haccepted ((Refuses.of_status 400 rfl (by decide) (by decide)).not_accepted _)
      | ok source =>
        rw [hjson] at haccepted
        simp only at haccepted ⊢
        by_cases hnone : source = []
        · rw [if_pos hnone] at haccepted
          rcases haccepted with h | h <;> cases h
        rw [if_neg hnone] at haccepted ⊢
        cases hblob : (settings.holdingsModel.resources kind).shelf.blob holdings source with
        | none =>
          rw [hblob] at haccepted
          exact absurd haccepted
            ((Refuses.of_status 404 rfl (by decide) (by decide)).not_accepted _)
        | some content =>
          refine ⟨source, content, by simp [hread, hjson, Except.toOption], hblob, ?_⟩
          show (Collection.resource kind).shelf.store identifier _ holdings (.resource kind)
            identifier = _
          rw [Collection.store_apply, if_pos ⟨rfl, rfl⟩]
          rfl

/-! ## What reading tells -/

theorem sent_contentResponse (formats : Formats) (request : Request) (content : Bytes) :
    (ShelvedResource.contentResponse formats request content).sent =
      ShelvedResource.contentResponse formats request content := by
  unfold ShelvedResource.contentResponse
  simp only
  split <;> rfl

theorem answerTo_get {get : Arrival}
    (h : settings.localServer.Handles get (.resource kind .get) key) {holdings : Holdings}
    {content : Bytes} (hcontent : holdings (.resource kind) key = some content) :
    (settings.holdingsModel.answerTo get holdings).1 =
      ShelvedResource.contentResponse settings.formats get.request.toRequest content := by
  have hblob : (settings.holdingsModel.resources kind).shelf.blob holdings key = some content :=
    hcontent
  rw [answerTo_handled h]
  show (ShelvedServer.delivered get ((settings.holdingsModel.resources kind).getEnding _ _ _
    _)).1 = _
  unfold ShelvedResource.getEnding
  rw [hblob]
  exact sent_contentResponse _ _ _

theorem answerTo_read_none {reading : Arrival} (h : settings.Reads reading kind key)
    {holdings : Holdings} (hnone : holdings (.resource kind) key = none) :
    (settings.holdingsModel.answerTo reading holdings).1 = ⟨some 404, [], []⟩ := by
  have hblob : (settings.holdingsModel.resources kind).shelf.blob holdings key = none := hnone
  rcases h with h | h
  · rw [answerTo_handled h]
    show (ShelvedServer.delivered reading ((settings.holdingsModel.resources kind).getEnding _ _ _
      _)).1 = _
    unfold ShelvedResource.getEnding
    rw [hblob]
    rfl
  · rw [answerTo_handled h]
    show (ShelvedServer.delivered reading ((settings.holdingsModel.resources kind).headEnding _
      _)).1 = _
    unfold ShelvedResource.headEnding
    rw [hblob]
    rfl

/-! ## Runs of the local server -/

variable (settings) in
/-- How a request is answered after a run. -/
def answerAfter (process : Process Disk) (arrivals : List Arrival) (arrival : Arrival) : Response :=
  (settings.localServer.step arrival (runAll settings.localServer.step arrivals process).2).1

variable (settings) in
/-- All that the request asks for are resources and what is stashed. -/
def Names (arrival : Arrival) : Prop :=
  settings.localServer.AsksOnly settings.named arrival.request

/-- What is held after a request, as long as no other one writes it. -/
theorem holds_after {holdings : Holdings} {before between : List Arrival} {write : Arrival}
    (hunwritten : ∀ arrival ∈ between, ¬ settings.Writes arrival kind key) :
    (runAll settings.holdingsModel.answerTo (before ++ write :: between) holdings).2
        (.resource kind) key =
      (settings.holdingsModel.answerTo write
        (runAll settings.holdingsModel.answerTo before holdings).2).2 (.resource kind) key := by
  rw [runAll_append_snd]
  exact sameAt_runAll hunwritten _

variable (settings) in
/-- A request that takes the resource away. -/
def Removes (arrival : Arrival) (kind : ResourceKind) (key : Bytes) : Prop :=
  settings.localServer.Handles arrival (.resource kind .delete) key ∨
    ∃ identifier, settings.localServer.Handles arrival (.resource kind .deleteDir) identifier ∧
      IsBelow identifier key

theorem answerTo_removes {remove : Arrival} (h : settings.Removes remove kind key)
    (holdings : Holdings) :
    (settings.holdingsModel.answerTo remove holdings).2 (.resource kind) key = none := by
  rcases h with hdelete | ⟨identifier, hdelete, hbelow⟩
  · exact answerTo_delete hdelete _
  · exact answerTo_deleteDir hdelete hbelow _

/-- A resource that is gone is gone after a run in which no request writes it but to remove it. -/
theorem runAll_removed {arrivals : List Arrival}
    (h : ∀ arrival ∈ arrivals, settings.Writes arrival kind key →
      settings.Removes arrival kind key)
    {holdings : Holdings} (hnone : holdings (.resource kind) key = none) :
    (runAll settings.holdingsModel.answerTo arrivals holdings).2 (.resource kind) key = none := by
  induction arrivals generalizing holdings with
  | nil => exact hnone
  | cons arrival arrivals ih =>
    obtain ⟨hfirst, hrest⟩ := List.forall_mem_cons.mp h
    refine ih hrest ?_
    by_cases hwrites : settings.Writes arrival kind key
    · exact answerTo_removes (hfirst hwrites) holdings
    · exact (sameAt_answerTo hwrites holdings).trans hnone

section Runs
variable {process : Process Disk} {holdings : Holdings} (h : settings.Serves process holdings)
include h

theorem answerAfter_eq {arrivals : List Arrival}
    (hnames : ∀ arrival ∈ arrivals, settings.Names arrival) (harrival : settings.Names arrival) :
    settings.answerAfter process arrivals arrival = (settings.holdingsModel.answerTo arrival
      (runAll settings.holdingsModel.answerTo arrivals holdings).2).1 := by
  have hserves := (runAll_alike (fun _ _ _ hasks h => settings.step_serves hasks h) hnames h).2
  exact (settings.step_serves harrival hserves).1

/-- **Nothing is read but what is written**: a request for a resource is answered in the same way
however many requests come before it that do not write the resource. -/
theorem reading_of_unwritten {before between : List Arrival} {reading : Arrival}
    (hnames : ∀ arrival ∈ before ++ between, settings.Names arrival)
    (hreading : settings.Names reading) (hreads : settings.Reads reading kind key)
    (hunwritten : ∀ arrival ∈ between, ¬ settings.Writes arrival kind key) :
    settings.answerAfter process (before ++ between) reading =
      settings.answerAfter process before reading := by
  have hbefore : ∀ arrival ∈ before, settings.Names arrival :=
    fun arrival hmem => hnames arrival (List.mem_append_left _ hmem)
  rw [answerAfter_eq h hnames hreading, answerAfter_eq h hbefore hreading, runAll_append_snd]
  exact answerTo_of_sameAt hreads (sameAt_runAll hunwritten _)

/-- **What is removed is not found** until it is written other than by removing it once more,
whether there was anything to remove or not. -/
theorem reading_removed {before between : List Arrival} {remove reading : Arrival}
    (hnames : ∀ arrival ∈ before ++ remove :: between, settings.Names arrival)
    (hreading : settings.Names reading) (hremoves : settings.Removes remove kind key)
    (hunwritten : ∀ arrival ∈ between, settings.Writes arrival kind key →
      settings.Removes arrival kind key)
    (hreads : settings.Reads reading kind key) :
    settings.answerAfter process (before ++ remove :: between) reading = ⟨some 404, [], []⟩ := by
  rw [answerAfter_eq h hnames hreading]
  refine answerTo_read_none hreads ?_
  rw [runAll_append_snd]
  exact runAll_removed hunwritten (answerTo_removes hremoves _)

/-- **An accepted upload can be read** until it is written again: the bits that are then got have
the digests that the upload was answered with. -/
theorem reading_uploaded {before between : List Arrival} {put get : Arrival}
    (hnames : ∀ arrival ∈ before ++ put :: between, settings.Names arrival)
    (hget : settings.Names get)
    (hput : settings.localServer.Handles put (.resource kind .addOrReplace) key)
    (haccepted : Accepted (settings.answerAfter process before put))
    (hunwritten : ∀ arrival ∈ between, ¬ settings.Writes arrival kind key)
    (hreads : settings.localServer.Handles get (.resource kind .get) key) :
    ∃ bits, settings.answerAfter process before put =
        ShelvedResource.uploadResponse settings.formats put.request.toRequest key bits ∧
      (kind ≠ .package →
        uploadedFile put.request.toRequest kind.resourceType = .ok (some bits)) ∧
      settings.answerAfter process (before ++ put :: between) get =
        ShelvedResource.contentResponse settings.formats get.request.toRequest bits := by
  have hbefore : ∀ arrival ∈ before, settings.Names arrival :=
    fun arrival hmem => hnames arrival (List.mem_append_left _ hmem)
  have hputs : settings.Names put := hnames put (by simp)
  rw [answerAfter_eq h hbefore hputs] at haccepted ⊢
  obtain ⟨bits, hanswer, hfile, hheld⟩ := answerTo_upload hput _ haccepted
  refine ⟨bits, hanswer, hfile, ?_⟩
  rw [answerAfter_eq h hnames hget]
  refine answerTo_get hreads ?_
  rw [holds_after hunwritten]
  exact hheld

/-- **An accepted copy can be read** like its source, unless it is the source: that is left
empty. -/
theorem reading_copied {before between : List Arrival} {copy : Arrival} {identifier : Bytes}
    (hnames : ∀ arrival ∈ before ++ copy :: between, settings.Names arrival)
    (hcopy : settings.localServer.Handles copy (.resource kind .copySourceGuid) identifier)
    (haccepted : Accepted (settings.answerAfter process before copy))
    (hunwritten : ∀ arrival ∈ between, ¬ settings.Writes arrival kind identifier) :
    ∃ source content, sourceOf settings.formats (settings.maxBodySizeLimit kind)
        copy.request.toRequest = some source ∧
      (∀ get, settings.Names get →
        settings.localServer.Handles get (.resource kind .get) source →
        settings.answerAfter process before get =
          ShelvedResource.contentResponse settings.formats get.request.toRequest content) ∧
      ∀ get, settings.Names get →
        settings.localServer.Handles get (.resource kind .get) identifier →
        settings.answerAfter process (before ++ copy :: between) get =
          ShelvedResource.contentResponse settings.formats get.request.toRequest
            (if source = identifier then [] else content) := by
  have hbefore : ∀ arrival ∈ before, settings.Names arrival :=
    fun arrival hmem => hnames arrival (List.mem_append_left _ hmem)
  have hcopies : settings.Names copy := hnames copy (by simp)
  rw [answerAfter_eq h hbefore hcopies] at haccepted
  obtain ⟨source, content, hsource, hblob, hheld⟩ := answerTo_copy hcopy _ haccepted
  refine ⟨source, content, hsource, fun get hget hreads => ?_, fun get hget hreads => ?_⟩
  · rw [answerAfter_eq h hbefore hget]
    exact answerTo_get hreads hblob
  · rw [answerAfter_eq h hnames hget]
    refine answerTo_get hreads ?_
    rw [holds_after hunwritten]
    exact hheld

end Runs

end LocalSettings

/-! ## A buildpack that comes and goes -/

def getBuildpackJava : Arrival where
  now := 0
  requestId := 2
  request :=
    { host := ascii "internal"
      method := .get
      url := ⟨ascii "/buildpacks/java", []⟩
      contentLength := 0
      header := fun _ => []
      body := .whole []
      form := .error .newNotFoundError }

def deleteBuildpackJava : Arrival where
  now := 0
  requestId := 3
  request :=
    { host := ascii "internal"
      method := .delete
      url := ⟨ascii "/buildpacks/java", []⟩
      contentLength := 0
      header := fun _ => []
      body := .whole []
      form := .error .newNotFoundError }

theorem routed_getBuildpackJava : routeRequest plainRootMux.toMux getBuildpackJava.request.routed =
    some (.resource .buildpack .get, ascii "java") := by decide

theorem routed_deleteBuildpackJava :
    routeRequest plainRootMux.toMux deleteBuildpackJava.request.routed =
      some (.resource .buildpack .delete, ascii "java") := by decide

theorem names_javaRun (arrival : Arrival) (h : arrival ∈ javaRun) : localSettings.Names arrival :=
  asksOnly_javaRun rfl rfl java_mem_named cache_mem_named arrival h

theorem names_getBuildpackJava : localSettings.Names getBuildpackJava :=
  asksOnly_of_routed rfl (unmarshal_of_sends rfl rfl rfl (fun file h => by cases h) rfl)
    routed_getBuildpackJava java_mem_named

theorem names_deleteBuildpackJava : localSettings.Names deleteBuildpackJava :=
  asksOnly_of_routed rfl (unmarshal_of_sends rfl rfl rfl (fun file h => by cases h) rfl)
    routed_deleteBuildpackJava java_mem_named

theorem reads_getBuildpackJava : localSettings.Reads getBuildpackJava .buildpack (ascii "java") :=
  .inl ⟨by decide, rfl, routed_getBuildpackJava⟩

theorem not_writes_deleteBuildpackCache (key : Bytes) :
    ¬ localSettings.Writes deleteBuildpackCache .buildpack key := by
  rintro ⟨endpoint, identifier, hhandles, hwrites⟩
  obtain ⟨rfl, rfl⟩ := Prod.mk.inj (Option.some.inj
    (routed_deleteBuildpackCache.symm.trans hhandles.routed))
  cases hwrites.1

theorem reading_of_unwritten_java :
    localSettings.answerAfter blankHost ([putBuildpackJava] ++ [deleteBuildpackCache])
        getBuildpackJava =
      localSettings.answerAfter blankHost [putBuildpackJava] getBuildpackJava :=
  LocalSettings.reading_of_unwritten (serves_blankHost rfl) names_javaRun names_getBuildpackJava
    reads_getBuildpackJava
    (List.forall_mem_singleton.mpr (not_writes_deleteBuildpackCache (ascii "java")))

theorem reading_removed_java :
    localSettings.answerAfter blankHost
        ([putBuildpackJava] ++ deleteBuildpackJava :: [deleteBuildpackCache]) getBuildpackJava =
      ⟨some 404, [], []⟩ := by
  refine LocalSettings.reading_removed (serves_blankHost rfl) (fun arrival hmem => ?_)
    names_getBuildpackJava (.inl ⟨by decide, rfl, routed_deleteBuildpackJava⟩)
    (List.forall_mem_singleton.mpr fun hwrites =>
      absurd hwrites (not_writes_deleteBuildpackCache (ascii "java")))
    reads_getBuildpackJava
  simp only [List.singleton_append, List.mem_cons, List.not_mem_nil, or_false] at hmem
  rcases hmem with rfl | rfl | rfl
  · exact names_javaRun _ (by simp [javaRun])
  · exact names_deleteBuildpackJava
  · exact names_javaRun _ (by simp [javaRun])

/-! ## A buildpack that is copied -/

def sourceJava : Bytes := ascii "\x7b\"source_guid\":\"java\"\x7d"

def copyFormats : Formats where
  digests := helloDigests
  zip := plainFormat
  json := { plainJson with
    sourceGuid := fun body =>
      if body = sourceJava then .ok (ascii "java") else .error (ascii "invalid character") }

def copySettings : LocalSettings where
  toSettings := { packageSettings with formats := copyFormats }
  layout := plainLayout
  isLocal _ := rfl
  stashKeys := plainLayout_stashKeys helloDigests

/-- A request for a copy of buildpack `java` under the name `ruby`. -/
def copyBuildpackJava : Arrival where
  now := 0
  requestId := 4
  request :=
    { host := ascii "internal"
      method := .put
      url := ⟨ascii "/buildpacks/ruby", []⟩
      contentLength := 22
      header := fun _ => ascii "application/json"
      body := .whole sourceJava
      form := .error .newNotFoundError }

theorem routed_copyBuildpackJava :
    routeRequest plainRootMux.toMux copyBuildpackJava.request.routed =
      some (.resource .buildpack .copySourceGuid, ascii "ruby") := by decide

def buildpackRuby : RelativePath :=
  ⟨[ascii "ru", ascii "by", ascii "ruby"], by unfold IsPlainName; decide⟩

theorem ruby_mem_copySettings : ascii "ruby" ∈ copySettings.named.keys .buildpack :=
  ⟨by decide, ⟨⟨buildpackRuby, rfl⟩, by decide⟩, fun h => by cases h⟩

theorem java_mem_copySettings : ascii "java" ∈ copySettings.named.keys .buildpack :=
  ⟨by decide, ⟨⟨buildpackJava, rfl⟩, by decide⟩, fun h => by cases h⟩

theorem names_copyBuildpackJava : copySettings.Names copyBuildpackJava := by
  refine asksOnly_of_routed rfl (unmarshal_of_sends rfl rfl (by decide)
    (fun file h => by cases h) rfl) routed_copyBuildpackJava ⟨ruby_mem_copySettings, ?_⟩
  intro content source _ hjson _
  have hsource : copyFormats.json.sourceGuid content = .ok source := hjson
  simp only [copyFormats] at hsource
  split at hsource
  · cases hsource
    exact java_mem_copySettings
  · cases hsource

theorem names_putBuildpackJava : copySettings.Names putBuildpackJava :=
  asksOnly_of_routed rfl (unmarshal_of_sends rfl rfl rfl (fun file h => by cases h) rfl)
    routed_putBuildpackJava java_mem_copySettings

theorem handles_copyBuildpackJava : copySettings.localServer.Handles copyBuildpackJava
    (.resource .buildpack .copySourceGuid) (ascii "ruby") :=
  ⟨by decide, rfl, routed_copyBuildpackJava⟩

theorem accepted_copyBuildpackJava : LocalSettings.Accepted
    (copySettings.answerAfter blankHost [putBuildpackJava] copyBuildpackJava) := by
  rw [LocalSettings.answerAfter_eq (serves_blankHost rfl)
    (List.forall_mem_singleton.mpr names_putBuildpackJava) names_copyBuildpackJava]
  exact .inl (by decide)

theorem reading_copied_java :
    ∃ source content, LocalSettings.sourceOf copyFormats 0 copyBuildpackJava.request.toRequest =
        some source ∧
      (∀ get, copySettings.Names get →
        copySettings.localServer.Handles get (.resource .buildpack .get) source →
        copySettings.answerAfter blankHost [putBuildpackJava] get =
          ShelvedResource.contentResponse copyFormats get.request.toRequest content) ∧
      ∀ get, copySettings.Names get →
        copySettings.localServer.Handles get (.resource .buildpack .get) (ascii "ruby") →
        copySettings.answerAfter blankHost ([putBuildpackJava] ++ copyBuildpackJava :: []) get =
          ShelvedResource.contentResponse copyFormats get.request.toRequest
            (if source = ascii "ruby" then [] else content) := by
  refine LocalSettings.reading_copied (serves_blankHost rfl) (fun arrival hmem => ?_)
    handles_copyBuildpackJava accepted_copyBuildpackJava (List.forall_mem_nil _)
  simp only [List.singleton_append, List.mem_cons, List.not_mem_nil, or_false] at hmem
  rcases hmem with rfl | rfl
  · exact names_putBuildpackJava
  · exact names_copyBuildpackJava

end BitsService
