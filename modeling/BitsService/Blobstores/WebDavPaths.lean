import BitsService.Blobstores.WebDavReports
import BitsService.Foundations.HttpEndpoint
import BitsService.Foundations.QueryText

/-! # What WebDAV requests name

A path is pasted to the endpoint as it is, and a resource into the query of a signing request. -/
namespace BitsService
open GoLib.Effect
set_option autoImplicit false

/-! ## The paths of requests -/

/-- The client of `server`, with its private endpoint. -/
def WebDavClient.serving (client : WebDavClient (List Exchange)) (e : HttpEndpoint)
    (server : HttpServer) : ServedClient :=
  { client with webdavPrivateEndpoint := e.text }.servedBy server

/-- The paths of the URLs that a request names: its own, and that of its destination. -/
def HttpRequest.paths (strict : Bool) (request : HttpRequest) : List Bytes :=
  request.url.path :: (request.destination.bind (NetUrl.parse strict)).toList.map (·.path)

/-- Whatever the server answers, the operation returns, and its requests name `paths`, as far as
they are made. -/
def NamesInOrder {α : Type} (client : WebDavClient (List Exchange)) (e : HttpEndpoint)
    (op : ServedClient → Prog GoError (List Exchange) α) (paths : List Bytes) : Prop :=
  ∀ server history, ∃ a exchanges,
    (op (client.serving e server)).run history = (.returned a, history ++ exchanges) ∧
    exchanges ≠ [] ∧ exchanges.flatMap (fun x => x.1.paths client.strict) <+: paths

def urlPath (e : HttpEndpoint) (path : Bytes) : Bytes := e.path ++ slash :: path

def adminUrlPath (e : HttpEndpoint) (path : Bytes) : Bytes := e.path ++ ascii "/admin/" ++ path

section Paths
variable {client : WebDavClient (List Exchange)} {e : HttpEndpoint}

variable (client e) in
theorem parse_url_serving (server : HttpServer) (path : Bytes) :
    NetUrl.parse (client.serving e server).strict ((client.serving e server).url path) =
      NetUrl.parse client.strict (e.text ++ slash :: path) := by
  show NetUrl.parse client.strict (e.text ++ ascii "/" ++ path) = _
  rw [List.append_assoc]
  rfl

variable (client e) in
theorem parse_adminUrl_serving (server : HttpServer) (path : Bytes) :
    NetUrl.parse (client.serving e server).strict ((client.serving e server).adminUrl path) =
      NetUrl.parse client.strict (e.text ++ slash :: (ascii "admin/" ++ path)) := by
  show NetUrl.parse client.strict (e.text ++ ascii "/admin/" ++ path) = _
  rw [List.append_assoc]
  rfl

theorem adminUrlPath_eq (path : Bytes) :
    adminUrlPath e path = e.path ++ slash :: (ascii "admin/" ++ path) := by
  unfold adminUrlPath
  rw [List.append_assoc]
  rfl

/-- The text is plain and taken by the parser. -/
def Pasteable (strict : Bool) (s : Bytes) : Prop := PathPlain s ∧ HttpEndpoint.Accepted strict s

theorem pasteable_admin_iff {strict : Bool} {path : Bytes} :
    Pasteable strict (ascii "admin/" ++ path) ↔ Pasteable strict path := by
  have hadmin : ∀ c ∈ ascii "admin/", (c ≠ 37 ∧ c ≠ 63 ∧ c ≠ 35) ∧ isControl c = false :=
    forall_mem_of_all (by decide)
  unfold Pasteable PathPlain HttpEndpoint.Accepted
  simp only [List.mem_append, not_or]
  constructor
  · rintro ⟨⟨h37, h63, h35⟩, haccepted⟩
    exact ⟨⟨h37.2, h63.2, h35.2⟩, fun hstrict c hc => haccepted hstrict c (.inr hc)⟩
  · rintro ⟨⟨h37, h63, h35⟩, haccepted⟩
    refine ⟨⟨⟨fun h => (hadmin _ h).1.1 rfl, h37⟩, ⟨fun h => (hadmin _ h).1.2.1 rfl, h63⟩,
      ⟨fun h => (hadmin _ h).1.2.2 rfl, h35⟩⟩, fun hstrict c hc => ?_⟩
    rcases hc with hc | hc
    · exact (hadmin c hc).2
    · exact haccepted hstrict c hc

theorem namesPath_iff_pasteable (strict : Bool) (path : Bytes) :
    e.NamesPath strict path ↔ Pasteable strict path := e.namesPath_iff strict path

theorem namesPath_admin_iff (strict : Bool) (path : Bytes) :
    e.NamesPath strict (ascii "admin/" ++ path) ↔ Pasteable strict path :=
  (e.namesPath_iff strict _).trans pasteable_admin_iff

/-- An operation of one request. -/
theorem namesInOrder_of_one {α : Type} {op : ServedClient → Prog GoError (List Exchange) α}
    {rest : Bytes}
    (hsome : ∀ server history u, NetUrl.parse client.strict (e.text ++ slash :: rest) = some u →
      ∃ a request, request.url = u ∧ request.destination = none ∧
        (op (client.serving e server)).run history = (.returned a, server.after history request))
    (hnone : NetUrl.parse client.strict (e.text ++ slash :: rest) = none →
      ∀ server history, ∃ error, (op (client.serving e server)).run history =
        (.panicked error, history)) :
    NamesInOrder client e op [e.path ++ slash :: rest] ↔ e.NamesPath client.strict rest := by
  constructor
  · intro h
    obtain ⟨a, exchanges, hrun, -, hpaths⟩ := h (.answering 200 [] []) []
    cases hparse : NetUrl.parse client.strict (e.text ++ slash :: rest) with
    | none =>
      obtain ⟨error, hpanic⟩ := hnone hparse (.answering 200 [] []) []
      rw [hpanic] at hrun
      cases hrun
    | some u =>
      obtain ⟨a', request, rfl, hdestination, hone⟩ := hsome (.answering 200 [] []) [] u hparse
      rw [hone] at hrun
      obtain ⟨-, hexchanges⟩ := Prod.mk.inj hrun
      rw [List.nil_append] at hexchanges
      rw [← hexchanges] at hpaths
      refine ⟨_, hparse, ?_⟩
      simpa [HttpServer.after, HttpRequest.paths, hdestination] using hpaths
  · rintro ⟨u, hu, hpath⟩ server history
    obtain ⟨a, request, rfl, hdestination, hone⟩ := hsome server history u hu
    refine ⟨a, _, hone, by simp, ?_⟩
    simp [HttpRequest.paths, hdestination, hpath]

/-! ## Each operation -/

open ServedClient

theorem namesInOrder_existsBlob_iff (path : Bytes) :
    NamesInOrder client e (·.existsBlob path) [urlPath e path] ↔ Pasteable client.strict path := by
  refine (namesInOrder_of_one (fun server history u hu => ?_) fun h server history => ?_).trans
    (namesPath_iff_pasteable client.strict path)
  · rw [← parse_url_serving client e server] at hu
    exact ⟨_, (client.serving e server).head u, rfl, rfl, run_existsBlob_some hu⟩
  · rw [← parse_url_serving client e server] at h
    exact ⟨_, run_existsBlob_none h⟩

theorem namesInOrder_put_iff (path src : Bytes) :
    NamesInOrder client e (·.put path src) [adminUrlPath e path] ↔
      Pasteable client.strict path := by
  rw [adminUrlPath_eq]
  refine (namesInOrder_of_one (fun server history u hu => ?_) fun h server history => ?_).trans
    (namesPath_admin_iff client.strict path)
  · rw [← parse_adminUrl_serving client e server] at hu
    exact ⟨_, (client.serving e server).putting src u, rfl, rfl, run_put_some hu src⟩
  · rw [← parse_adminUrl_serving client e server] at h
    exact ⟨_, run_put_none h src⟩

theorem namesInOrder_delete_iff (path : Bytes) :
    NamesInOrder client e (·.delete path) [adminUrlPath e path] ↔ Pasteable client.strict path := by
  rw [adminUrlPath_eq]
  refine (namesInOrder_of_one (fun server history u hu => ?_) fun h server history => ?_).trans
    (namesPath_admin_iff client.strict path)
  · rw [← parse_adminUrl_serving client e server] at hu
    exact ⟨_, (client.serving e server).deleting u, rfl, rfl, run_delete_some hu⟩
  · rw [← parse_adminUrl_serving client e server] at h
    exact ⟨_, run_delete_none h⟩

/-- A server that has nothing is asked for the path once. -/
theorem namesPath_of_get {path : Bytes}
    (h : NamesInOrder client e (·.get path) [urlPath e path, urlPath e path]) :
    e.NamesPath client.strict path := by
  obtain ⟨a, exchanges, hrun, -, hpaths⟩ := h (.answering 404 [] []) []
  have hserving := parse_url_serving client e (.answering 404 [] []) path
  cases hparse : NetUrl.parse client.strict (e.text ++ slash :: path) with
  | none =>
    rw [hparse] at hserving
    have hpanic : ((client.serving e (.answering 404 [] [])).get path).run [] = _ :=
      run_ifFound_none hserving
    cases hpanic.symm.trans hrun
  | some u =>
    rw [hparse] at hserving
    have hget : ((client.serving e (.answering 404 [] [])).get path).run [] =
        (.returned (.error .newNotFoundError),
          [((client.serving e (.answering 404 [] [])).head u, .ok ⟨404, [], .whole []⟩)]) :=
      run_ifFound_some hserving
    obtain ⟨-, hexchanges⟩ := Prod.mk.inj (hrun.symm.trans hget)
    rw [List.nil_append] at hexchanges
    rw [hexchanges] at hpaths
    exact ⟨u, hparse, (List.cons_prefix_cons.mp hpaths).1⟩

/-- The check and the fetch name the same path. -/
theorem namesInOrder_get {path : Bytes} (h : e.NamesPath client.strict path) :
    NamesInOrder client e (·.get path) [urlPath e path, urlPath e path] := by
  intro server history
  obtain ⟨u, hu, hpath⟩ := h
  have hserving := (parse_url_serving client e server path).trans hu
  have hget : ((client.serving e server).ifFound path
      ((client.serving e server).fetch path)).run history = _ := run_ifFound_some hserving
  rw [← get_eq] at hget
  have hone : ∀ answer : Result HttpResponse, [((client.serving e server).head u, answer)].flatMap
      (fun x => x.1.paths client.strict) <+: [urlPath e path, urlPath e path] := by
    intro answer
    exact ⟨[urlPath e path], congrArg (· :: _) hpath⟩
  cases hanswer : (client.serving e server).server history ((client.serving e server).head u) with
  | error error =>
    rw [hanswer] at hget
    exact ⟨_, _, hget, by simp, hone _⟩
  | ok response =>
    rw [hanswer] at hget
    simp only at hget
    by_cases hfound : response.statusCode = 200
    · rw [if_pos hfound, run_fetch_some hserving] at hget
      refine ⟨_, [(_, _), (_, _)], hget.trans (congrArg (Prod.mk _) (List.append_assoc _ _ _)),
        by simp, ⟨[], ?_⟩⟩
      exact congrArg₂ (fun p q => [p, q]) hpath hpath
    · rw [if_neg hfound] at hget
      exact ⟨_, _, hget, by simp, hone _⟩

theorem namesInOrder_get_iff (path : Bytes) :
    NamesInOrder client e (·.get path) [urlPath e path, urlPath e path] ↔
      Pasteable client.strict path := by
  rw [← namesPath_iff_pasteable (e := e)]
  exact ⟨namesPath_of_get, namesInOrder_get⟩

section Copying
variable {src dest : Bytes}

/-- A server that performs everything is asked for both paths. -/
theorem namesPath_of_copy
    (h : NamesInOrder client e (·.copy src dest) [e.path ++ slash :: (ascii "admin/" ++ dest),
      e.path ++ slash :: (ascii "admin/" ++ src), e.path ++ slash :: (ascii "admin/" ++ dest)]) :
    e.NamesPath client.strict (ascii "admin/" ++ dest) ∧
      e.NamesPath client.strict (ascii "admin/" ++ src) := by
  obtain ⟨a, exchanges, hrun, -, hpaths⟩ := h (.answering 201 [] []) []
  have hdest := parse_adminUrl_serving client e (.answering 201 [] []) dest
  have hsrc := parse_adminUrl_serving client e (.answering 201 [] []) src
  cases hparse : NetUrl.parse client.strict (e.text ++ slash :: (ascii "admin/" ++ dest)) with
  | none =>
    rw [hparse] at hdest
    have hput : ((client.serving e (.answering 201 [] [])).put dest []).run [] = _ :=
      run_put_none hdest []
    have hpanic : ((client.serving e (.answering 201 [] [])).copy src dest).run [] = _ :=
      run_bind_panicked (run_bind_panicked hput)
    cases hpanic.symm.trans hrun
  | some u =>
    rw [hparse] at hdest
    have hput : ((client.serving e (.answering 201 [] [])).put dest []).run [] =
        (.returned (.ok ()), _) := run_put_some hdest []
    have hcopy : ((client.serving e (.answering 201 [] [])).copy src dest).run [] = _ :=
      run_copy_of_put_ok hput
    cases hparse' : NetUrl.parse client.strict (e.text ++ slash :: (ascii "admin/" ++ src)) with
    | none =>
      rw [hparse'] at hsrc
      rw [run_copyOnto_none hsrc] at hcopy
      cases hcopy.symm.trans hrun
    | some v =>
      rw [hparse'] at hsrc
      rw [run_copyOnto_some hsrc] at hcopy
      obtain ⟨-, hexchanges⟩ := Prod.mk.inj (hrun.symm.trans hcopy)
      rw [List.nil_append] at hexchanges
      rw [hexchanges] at hpaths
      obtain ⟨hfirst, hrest⟩ := List.cons_prefix_cons.mp hpaths
      exact ⟨⟨u, hparse, hfirst⟩, ⟨v, hparse', (List.cons_prefix_cons.mp hrest).1⟩⟩

theorem namesInOrder_copy (hdestination : e.NamesPath client.strict (ascii "admin/" ++ dest))
    (hsource : e.NamesPath client.strict (ascii "admin/" ++ src)) :
    NamesInOrder client e (·.copy src dest) [e.path ++ slash :: (ascii "admin/" ++ dest),
      e.path ++ slash :: (ascii "admin/" ++ src), e.path ++ slash :: (ascii "admin/" ++ dest)] := by
  intro server history
  obtain ⟨u, hu, hdest⟩ := hdestination
  obtain ⟨v, hv, hsrc⟩ := hsource
  have hput : ((client.serving e server).put dest []).run history = _ :=
    run_put_some ((parse_adminUrl_serving client e server dest).trans hu) []
  cases hresult : modified false (ascii "Request failed. path=" ++ dest)
      "Expected StatusCreated, but got status code: "
      ((client.serving e server).server history ((client.serving e server).putting [] u)) with
  | error error =>
    rw [hresult] at hput
    exact ⟨_, _, run_copy_of_put_error hput, by simp, ⟨_, congrArg (· :: _) hdest⟩⟩
  | ok _ =>
    rw [hresult] at hput
    have hcopy : ((client.serving e server).copy src dest).run history = _ :=
      (run_copy_of_put_ok hput).trans
        (run_copyOnto_some ((parse_adminUrl_serving client e server src).trans hv))
    refine ⟨_, [(_, _), (_, _)], hcopy.trans (congrArg (Prod.mk _) (List.append_assoc _ _ _)),
      by simp, ⟨[], ?_⟩⟩
    have hheader : ((client.serving e server).copying dest v).destination.bind
        (NetUrl.parse client.strict) = some u :=
      (parse_adminUrl_serving client e server dest).trans hu
    have hput' : ((client.serving e server).putting [] u).paths client.strict = [u.path] := rfl
    have hcopy' : ((client.serving e server).copying dest v).paths client.strict =
        [v.path, u.path] := by
      rw [HttpRequest.paths, hheader]
      rfl
    rw [List.flatMap_cons, List.flatMap_cons, List.flatMap_nil, hput', hcopy', hdest, hsrc]
    rfl

end Copying

/-- The destination comes first, is named again in a header, and the source comes between. -/
theorem namesInOrder_copy_iff (src dest : Bytes) :
    NamesInOrder client e (·.copy src dest)
        [adminUrlPath e dest, adminUrlPath e src, adminUrlPath e dest] ↔
      Pasteable client.strict dest ∧ Pasteable client.strict src := by
  rw [adminUrlPath_eq, adminUrlPath_eq, ← namesPath_admin_iff (e := e),
    ← namesPath_admin_iff (e := e)]
  exact ⟨namesPath_of_copy, fun h => namesInOrder_copy h.1 h.2⟩

end Paths

/-! ## Signing -/

/-- The request for a signature is made, and its query has the resource and the expiry, each once,
and nothing else. -/
def SignsExactly (client : WebDavClient (List Exchange)) (e : HttpEndpoint)
    (resource method : Bytes) (expirationTime : Time) : Prop :=
  ∀ server history, ∃ o request answer,
    ((client.serving e server).sign resource method expirationTime).run history =
      (o, history ++ [(request, answer)]) ∧
    (parseQuery request.url.rawQuery).Perm [(ascii "path", slash :: resource),
      (ascii "expires", formatInt 10 (unixSeconds expirationTime))]

/-- The methods that can be signed for. -/
def Signable (method : Bytes) : Prop :=
  toLower method = ascii "put" ∨ toLower method = ascii "get"

section Sign
open ServedClient
variable {client : WebDavClient (List Exchange)} {e : HttpEndpoint} {resource method : Bytes}
  {expirationTime : Time}

theorem percent_not_mem_text (e : HttpEndpoint) : 37 ∉ e.text := by
  intro h
  have hscheme : 37 ∉ e.letter :: e.scheme := fun hmem => by
    rcases List.mem_cons.mp hmem with hletter | hmem
    · have hisLetter := e.letter_isLetter
      rw [← hletter] at hisLetter
      exact absurd hisLetter (by decide)
    · exact absurd (e.scheme_bytes 37 hmem) (by decide)
  have hcolon : (37 : UInt8) ∉ ascii "://" := by decide
  have hplain := e.plain.1
  simp only [HttpEndpoint.text, List.mem_cons, List.mem_append, not_or] at h hscheme hplain
  tauto

/-- The parameters that are signed for. -/
def signParameters (resource : Bytes) (expirationTime : Time) : Bytes :=
  twoParameters (ascii "path", slash :: resource)
    (ascii "expires", formatInt 10 (unixSeconds expirationTime))

theorem sprintf_sign (printer : Printer) {format verb : Bytes}
    (hformat : format = slash ::
      (verb ++ ascii "?path=/" ++ 37 :: 118 :: (ascii "&expires=" ++ [37, 118])))
    (hverb : 37 ∉ verb) (resource : Bytes) (expirationTime : Time) :
    sprintf (e.text ++ format)
        [printer.string resource, printer.int64 (unixSeconds expirationTime)] =
      e.text ++ slash :: (verb ++ 63 :: signParameters resource expirationTime) := by
  have htext : 37 ∉ e.text ++ slash :: (verb ++ ascii "?path=/") := by
    have he := percent_not_mem_text e
    have hslash : (37 : UInt8) ≠ slash := by decide
    have hpath : (37 : UInt8) ∉ ascii "?path=/" := by decide
    simp [he, hslash, hverb, hpath]
  have hassoc : e.text ++ format = (e.text ++ slash :: (verb ++ ascii "?path=/")) ++
      37 :: 118 :: (ascii "&expires=" ++ [37, 118]) := by
    rw [hformat]
    simp only [List.append_assoc, List.cons_append]
  have hpath : ascii "?path=/" = 63 :: (ascii "path" ++ [61, slash]) := by decide
  have hexpires : ascii "&expires=" = 38 :: (ascii "expires" ++ [61]) := by decide
  rw [hassoc, sprintf_two htext (by decide), printer.string_v, printer.int64_v, hpath, hexpires]
  simp [signParameters, twoParameters]

/-- A signing request has the parameters for its query; without a method that can be signed for,
it has none. -/
theorem signUrl_serving (server : HttpServer) (h : Signable method) :
    ∃ verb, PathPlain verb ∧ verb.any isControl = false ∧
      (client.serving e server).signUrl resource method expirationTime =
        e.text ++ slash :: (verb ++ 63 :: signParameters resource expirationTime) := by
  by_cases hput : toLower method = ascii "put"
  · refine ⟨ascii "sign_for_put", ?_, by decide, ?_⟩
    · unfold PathPlain
      decide
    · have hformat : ascii "/sign_for_put?path=/%v&expires=%v" = slash :: (ascii "sign_for_put" ++
          ascii "?path=/" ++ 37 :: 118 :: (ascii "&expires=" ++ [37, 118])) := by decide
      unfold WebDavClient.signUrl
      rw [if_pos hput]
      exact sprintf_sign client.printer hformat (by decide) resource expirationTime
  · have hget := h.resolve_left hput
    refine ⟨ascii "sign", ?_, by decide, ?_⟩
    · unfold PathPlain
      decide
    · have hformat : ascii "/sign?path=/%v&expires=%v" = slash :: (ascii "sign" ++
          ascii "?path=/" ++ 37 :: 118 :: (ascii "&expires=" ++ [37, 118])) := by decide
      unfold WebDavClient.signUrl
      rw [if_neg hput, if_pos hget]
      exact sprintf_sign client.printer hformat (by decide) resource expirationTime

theorem signUrl_of_not_signable {σ : Type} (client : WebDavClient σ) (h : ¬ Signable method) :
    client.signUrl resource method expirationTime = [] := by
  unfold WebDavClient.signUrl
  rw [if_neg fun hput => h (.inl hput), if_neg fun hget => h (.inr hget)]

theorem formatInt_bytes (n : ℤ) : ∀ c ∈ formatInt 10 n, isControl c = false ∧ c ≠ 35 := by
  intro c hc
  rcases formatInt_digits (by decide) (by decide) n c hc with rfl | ⟨d, hd, rfl⟩
  · decide
  · interval_cases d <;> decide

/-- The bytes of the parameters that the parser looks at are those of the resource. -/
theorem mem_signParameters {c : UInt8} (h : c ∈ signParameters resource expirationTime) :
    c ∈ resource ∨ isControl c = false ∧ c ≠ 35 := by
  have hconstant : ∀ b ∈ ascii "path" ++ ascii "expires" ++ [61, slash, 38],
      isControl b = false ∧ b ≠ 35 := forall_mem_of_all (by decide)
  have hdigits := formatInt_bytes (unixSeconds expirationTime)
  simp only [signParameters, twoParameters, List.mem_append, List.mem_cons, List.not_mem_nil,
    or_false] at h hconstant
  rcases h with (h | h | h | h) | h | h | h | h
  · exact .inr (hconstant c (.inl (.inl h)))
  · exact .inr (hconstant c (.inr (.inl h)))
  · exact .inr (hconstant c (.inr (.inr (.inl h))))
  · exact .inl h
  · exact .inr (hconstant c (.inr (.inr (.inr h))))
  · exact .inr (hconstant c (.inl (.inr h)))
  · exact .inr (hconstant c (.inr (.inl h)))
  · exact .inr (hdigits c h)

theorem subset_signParameters {c : UInt8} (h : c ∈ resource) :
    c ∈ signParameters resource expirationTime :=
  List.mem_append_left _ (List.mem_append_right _ (List.mem_cons_of_mem _
    (List.mem_cons_of_mem _ h)))

theorem any_isControl_signParameters :
    (signParameters resource expirationTime).any isControl = resource.any isControl := by
  rw [Bool.eq_iff_iff, List.any_eq_true, List.any_eq_true]
  constructor
  · rintro ⟨c, hc, hcontrol⟩
    rcases mem_signParameters hc with hc | ⟨hnot, -⟩
    · exact ⟨c, hc, hcontrol⟩
    · rw [hnot] at hcontrol
      cases hcontrol
  · rintro ⟨c, hc, hcontrol⟩
    exact ⟨c, subset_signParameters hc, hcontrol⟩

theorem fragment_not_mem_signParameters (h : 35 ∉ resource) :
    35 ∉ signParameters resource expirationTime := by
  intro hmem
  rcases mem_signParameters hmem with hmem | ⟨-, hne⟩
  · exact h hmem
  · exact hne rfl

/-- The query that a parsed signing URL has. -/
theorem rawQuery_sign {strict : Bool} {verb : Bytes} {u : NetUrl} (hplain : PathPlain verb)
    (hcontrol : verb.any isControl = false)
    (hu : NetUrl.parse strict (e.text ++ slash ::
      (verb ++ 63 :: signParameters resource expirationTime)) = some u) :
    u.rawQuery = (cutAt 35 (signParameters resource expirationTime)).1 ∧
      (35 ∉ resource → HttpEndpoint.Accepted strict resource) := by
  have hparse := e.parse_query strict hplain hcontrol (signParameters resource expirationTime)
  rw [hu, Option.map_some] at hparse
  by_cases hrejected : strict &&
      (cutAt 35 (signParameters resource expirationTime)).1.any isControl
  · rw [if_pos hrejected] at hparse
    cases hparse
  · rw [if_neg hrejected] at hparse
    obtain ⟨_, -, hparts⟩ := Option.map_eq_some_iff.mp hparse.symm
    refine ⟨(Prod.mk.inj hparts).2.symm, fun hfragment => ?_⟩
    rw [cutAt_of_not_mem (fragment_not_mem_signParameters hfragment)] at hrejected
    rwa [HttpEndpoint.accepted_iff, ← any_isControl_signParameters]

theorem parse_sign {strict : Bool} {verb : Bytes} (hplain : PathPlain verb)
    (hcontrol : verb.any isControl = false) (hfragment : 35 ∉ resource)
    (haccepted : HttpEndpoint.Accepted strict resource) :
    ∃ u, NetUrl.parse strict (e.text ++ slash ::
        (verb ++ 63 :: signParameters resource expirationTime)) = some u ∧
      u.rawQuery = signParameters resource expirationTime := by
  have hparse := e.parse_query strict hplain hcontrol (signParameters resource expirationTime)
  rw [HttpEndpoint.accepted_iff] at haccepted
  rw [cutAt_of_not_mem (fragment_not_mem_signParameters hfragment), any_isControl_signParameters,
    if_neg haccepted] at hparse
  obtain ⟨u, hu, hparts⟩ := Option.map_eq_some_iff.mp hparse
  exact ⟨u, hu, (Prod.mk.inj hparts).2⟩

/-- A signature is asked for once. -/
theorem run_sign_request {server : HttpServer} {history : List Exchange} {u : NetUrl}
    (h : NetUrl.parse client.strict
      ((client.serving e server).signUrl resource method expirationTime) = some u) :
    ∃ o answer, ((client.serving e server).sign resource method expirationTime).run history =
      (o, history ++ [((client.serving e server).signing u, answer)]) := by
  have hsign : ((client.serving e server).sign resource method expirationTime).run history = _ :=
    run_sign_some h
  obtain ⟨o, hrun, -⟩ := run_signed ((client.serving e server).server history
    ((client.serving e server).signing u)) ((client.serving e server).server.after history
      ((client.serving e server).signing u))
  rw [hrun] at hsign
  exact ⟨o, _, hsign⟩

theorem signUrl_server (server server' : HttpServer) :
    (client.serving e server).signUrl resource method expirationTime =
      (client.serving e server').signUrl resource method expirationTime := by
  unfold WebDavClient.signUrl
  rfl

/-- What the parser makes of the URL decides. -/
theorem signsExactly_iff_exists (server : HttpServer) :
    SignsExactly client e resource method expirationTime ↔
      ∃ u, NetUrl.parse client.strict
          ((client.serving e server).signUrl resource method expirationTime) = some u ∧
        (parseQuery u.rawQuery).Perm [(ascii "path", slash :: resource),
          (ascii "expires", formatInt 10 (unixSeconds expirationTime))] := by
  constructor
  · intro h
    obtain ⟨o, request, answer, hrun, hperm⟩ := h server []
    cases hparse : NetUrl.parse client.strict
        ((client.serving e server).signUrl resource method expirationTime) with
    | none =>
      have hpanic : ((client.serving e server).sign resource method expirationTime).run [] = _ :=
        run_sign_none hparse
      obtain ⟨-, hnothing⟩ := Prod.mk.inj (hpanic.symm.trans hrun)
      cases hnothing
    | some u =>
      obtain ⟨o', answer', hrun'⟩ : ∃ o answer, _ = (o, [] ++ [_]) := run_sign_request hparse
      obtain ⟨-, hexchange⟩ := Prod.mk.inj (hrun'.symm.trans hrun)
      obtain ⟨rfl, -⟩ := Prod.mk.inj (List.cons.inj hexchange).1
      exact ⟨u, rfl, hperm⟩
  · rintro ⟨u, hu, hperm⟩ server' history
    rw [signUrl_server server server'] at hu
    obtain ⟨o, answer, hrun⟩ := run_sign_request hu
    exact ⟨o, _, answer, hrun, hperm⟩

theorem queryPlain_slash_iff : QueryPlain (slash :: resource) ↔ QueryPlain resource := by
  have hslash : isValueByte slash = true ∧ (35 : UInt8) ≠ slash := by decide
  simp [QueryPlain, hslash.1, hslash.2]

theorem parse_nil (strict : Bool) : NetUrl.parse strict [] = some .empty := by
  cases strict with
  | false => rfl
  | true => rfl

/-- A resource is signed for under its name exactly when the method can be signed for and the name
has no byte that means something in a query or that the parser rejects. -/
theorem signsExactly_iff :
    SignsExactly client e resource method expirationTime ↔
      Signable method ∧ QueryPlain resource ∧ HttpEndpoint.Accepted client.strict resource := by
  rw [signsExactly_iff_exists (.answering 200 [] [])]
  by_cases hmethod : Signable method
  · obtain ⟨verb, hplain, hcontrol, hurl⟩ : ∃ verb, PathPlain verb ∧ verb.any isControl = false ∧
        (client.serving e (.answering 200 [] [])).signUrl resource method expirationTime =
          e.text ++ slash :: (verb ++ 63 :: signParameters resource expirationTime) :=
      signUrl_serving (.answering 200 [] []) hmethod
    rw [hurl]
    constructor
    · rintro ⟨u, hu, hperm⟩
      obtain ⟨hquery, haccepted⟩ := rawQuery_sign hplain hcontrol hu
      rw [hquery] at hperm
      have hresource : QueryPlain resource := queryPlain_slash_iff.mp
        (queryPlain_of_perm hperm (List.cons_ne_nil _ _) (formatInt_ne_nil 10 _))
      exact ⟨hmethod, hresource, haccepted hresource.2⟩
    · rintro ⟨-, hresource, haccepted⟩
      obtain ⟨u, hu, hquery⟩ := parse_sign hplain hcontrol hresource.2 haccepted
      refine ⟨u, hu, ?_⟩
      have hpath : ∀ c ∈ ascii "path", isQueryByte c = true := forall_mem_of_all (by decide)
      have hexpires : ∀ c ∈ ascii "expires", isQueryByte c = true := forall_mem_of_all (by decide)
      have hpairs : parseQuery (signParameters resource expirationTime) = [_, _] :=
        parseQuery_twoParameters hpath (queryPlain_slash_iff.mpr hresource).1 hexpires
          fun c hc => isValueByte_of_isQueryByte (isQueryByte_formatInt _ c hc)
      rw [hquery, hpairs]
  · refine iff_of_false ?_ fun h => hmethod h.1
    rintro ⟨u, hu, hperm⟩
    rw [signUrl_of_not_signable _ hmethod, parse_nil] at hu
    cases hu
    have hlength := hperm.length_eq
    cases hlength

end Sign

theorem urlPath_injective (e : HttpEndpoint) : Function.Injective (urlPath e) :=
  fun _ _ h => (List.cons.inj (List.append_cancel_left h)).2

theorem adminUrlPath_injective (e : HttpEndpoint) : Function.Injective (adminUrlPath e) :=
  fun _ _ h => List.append_cancel_left h

/-- **What WebDAV requests name** is what they were asked for, exactly as long as the paths have no
byte that means something in a path, and the resources none that means something in a query. -/
theorem requestsName_iff (client : WebDavClient (List Exchange)) (e : HttpEndpoint) :
    (urlPath e).Injective ∧ (adminUrlPath e).Injective ∧
    (∀ path, NamesInOrder client e (·.existsBlob path) [urlPath e path] ↔
      Pasteable client.strict path) ∧
    (∀ path, NamesInOrder client e (·.get path) [urlPath e path, urlPath e path] ↔
      Pasteable client.strict path) ∧
    (∀ path src, NamesInOrder client e (·.put path src) [adminUrlPath e path] ↔
      Pasteable client.strict path) ∧
    (∀ src dest, NamesInOrder client e (·.copy src dest)
        [adminUrlPath e dest, adminUrlPath e src, adminUrlPath e dest] ↔
      Pasteable client.strict dest ∧ Pasteable client.strict src) ∧
    (∀ path, NamesInOrder client e (·.delete path) [adminUrlPath e path] ↔
      Pasteable client.strict path) ∧
    ∀ resource method expirationTime, SignsExactly client e resource method expirationTime ↔
      Signable method ∧ QueryPlain resource ∧ HttpEndpoint.Accepted client.strict resource :=
  ⟨urlPath_injective e, adminUrlPath_injective e, namesInOrder_existsBlob_iff, namesInOrder_get_iff,
    namesInOrder_put_iff, namesInOrder_copy_iff, namesInOrder_delete_iff,
    fun _ _ _ => signsExactly_iff⟩

/-! ## Paths and resources that are not named -/

/-- The private endpoint of `davClient`. -/
def davEndpoint : HttpEndpoint where
  letter := 104
  scheme := ascii "ttp"
  authority := ascii "dav"
  path := []
  letter_isLetter := isLetter_h
  scheme_bytes := isSchemeByte_ttp
  authority_parses := by decide
  authority_ne := by decide
  authority_slash := by decide
  path_slash := by decide
  plain := by
    unfold PathPlain
    decide
  not_control := forall_mem_of_all (by decide)

/-- Blobs `a?b` and `a?c` are one object to the server, `%zz` ends the process, and a resource can
bring its own expiry. -/
theorem not_requestsName :
    (∀ path ∈ [ascii "a?b", ascii "a?c"],
      (NetUrl.parse false ((davClient (.answering 200 [] [])).url path)).map (·.path) =
        some (ascii "/a")) ∧
    NetUrl.parse false ((davClient (.answering 200 [] [])).url (ascii "%zz")) = none ∧
    ¬ NamesInOrder (davClient (.answering 200 [] [])).toWebDavClient davEndpoint
      (·.existsBlob (ascii "a?b")) [urlPath davEndpoint (ascii "a?b")] ∧
    ¬ SignsExactly (davClient (.answering 200 [] [])).toWebDavClient davEndpoint
      (ascii "a&expires=9") (ascii "get") 0 := by
  refine ⟨by decide, by decide, fun h => ?_, fun h => ?_⟩
  · have hplain := (namesInOrder_existsBlob_iff (ascii "a?b")).mp h
    exact hplain.1.2.1 (by decide)
  · obtain ⟨-, hplain, -⟩ := signsExactly_iff.mp h
    exact absurd (hplain.1 38 (by decide)) (by decide)

end BitsService
