import BitsService.Blobstores.Local
import BitsService.Blobstores.Scripted
import BitsService.Resources.Handler

/-! # Downloads and conditional requests

A store that does not redirect hands out a body. All of it is read and hashed before the status is
written, so that a body that breaks leaves the answer to the panic middleware. -/
namespace BitsService
open GoLib.Effect
set_option autoImplicit false

variable {σ : Type}

/-! ## Stores that do not redirect -/

/-- What is handed out without an error is a body and no location. A body that can be read to its
end is all of what `contents` says is stored under the path. -/
def ServesWhole (blobstore : Blobstore σ) (contents : σ → Bytes → Option Bytes) : Prop :=
  ∀ path s body location s',
    (blobstore.getOrRedirect path).run s = (.returned (.ok (body, location)), s') →
      location = [] ∧ ∃ b, body = some b ∧ (b.failure = none → contents s path = some b.delivered)

/-- The blob is handed out, and can be read to its end. -/
def Readable (blobstore : Blobstore σ) (path : Bytes) (s : σ) : Prop :=
  ∃ body location s', (blobstore.getOrRedirect path).run s =
    (.returned (.ok (some body, location)), s') ∧ body.failure = none

/-- The blob is handed out, and a read fails before its end. -/
def Breaks (blobstore : Blobstore σ) (path : Bytes) (s : σ) : Prop :=
  ∃ body location s', (blobstore.getOrRedirect path).run s =
    (.returned (.ok (some body, location)), s') ∧ body.failure ≠ none

theorem servesWhole_inmemory : ServesWhole inmemoryBlobstore MapStore.contents := by
  intro path s body location s' hrun
  obtain ⟨r, s₁, hget, hrest⟩ := run_bind_eq_returned hrun
  cases r with
  | error e => cases hrest
  | ok b =>
    cases hrest
    have hanswer : MapStore.answer (s.contents path) (s.getScript.headD .ok) = .ok b :=
      (Outcome.returned.inj (Prod.mk.inj hget).1)
    obtain ⟨stored, hstored, -, hwhole⟩ := MapStore.answer_eq_ok hanswer
    exact ⟨rfl, b, rfl, fun hb => by rw [hstored, hwhole hb]⟩

/-- The file that a local blobstore keeps a blob in. -/
def LocalBlobstoreConfig.contents (blobstore : LocalBlobstoreConfig) (d : Disk) (path : Bytes) :
    Option Bytes :=
  d.file (d.resolve (blobstore.fullPath path))

theorem servesWhole_local (localConfig : LocalBlobstoreConfig) :
    ServesWhole (newLocalBlobstore localConfig) localConfig.contents := by
  intro path d body location d' hrun
  obtain ⟨r, d₁, hget, hrest⟩ := run_bind_eq_returned hrun
  cases r with
  | error e => cases hrest
  | ok b =>
    cases hrest
    refine ⟨rfl, b, rfl, fun hb => ?_⟩
    cases hnode : d.tree.node (d.resolve (localConfig.fullPath path)) with
    | none =>
      obtain ⟨e, he⟩ := localConfig.run_get_of_none hnode
      rw [he] at hget
      cases hget
    | some n =>
      rw [localConfig.run_get_of_node hnode] at hget
      cases hget
      cases n with
      | dir => cases hb
      | file content =>
        rw [LocalBlobstoreConfig.contents, Disk.file_eq_some_iff.mpr hnode]
        exact congrArg some (Body.delivered_whole content).symm

/-! ## The answer -/

/-- The answer with the content `c`, or without it when the request names its hash. -/
def blobResponse (digests : Digests) (ifNoneModify c : Bytes) : Response :=
  if ifNoneModify = digests.key c then ⟨some 304, [(ascii "ETag", digests.key c)], []⟩
  else ⟨some 200, [(ascii "ETag", digests.key c)], [.raw c]⟩

theorem headers_blobResponse (digests : Digests) (ifNoneModify c : Bytes) :
    (blobResponse digests ifNoneModify c).headers = [(ascii "ETag", digests.key c)] := by
  unfold blobResponse
  split
  · rfl
  · rfl

theorem run_writeBody_error {digests : Digests} {body : Body} {e : GoError}
    (h : body.failure = some e) (ifNoneModify : Bytes) (w : Env σ) :
    (writeBody digests 200 body ifNoneModify).run w = (.panicked e, w) := by
  unfold writeBody Body.readAll
  rw [h]
  exact run_bind_panicked (run_panicOnError_error e w)

theorem run_writeBody_ok {digests : Digests} {body : Body} (h : body.failure = none)
    (ifNoneModify : Bytes) {w : Env σ} (hw : w.response = .empty) :
    (writeBody digests 200 body ifNoneModify).run w = (.returned (),
      { w with response := blobResponse digests ifNoneModify body.delivered }) := by
  obtain ⟨host, ext, response⟩ := w
  cases hw
  unfold writeBody Body.readAll blobResponse
  rw [h, run_bind_returned (run_panicOnError_ok body.delivered _)]
  by_cases hmatch : ifNoneModify = digests.key body.delivered
  · simp only [if_pos hmatch]
    rfl
  · simp only [if_neg hmatch]
    rfl

/-- What a request for a blob comes to, by what the store hands out. -/
inductive Downloads (formats : Formats) (handler : ResourceHandler σ) (request : Request)
    (identifier : Bytes) (w : Env σ) : Prop where
  | whole (body : Body) (s : σ)
      (reads : (handler.blobstore.getOrRedirect identifier).run w.ext =
        (.returned (.ok (some body, [])), s))
      (sound : body.failure = none)
      (answer : (getResource formats handler request identifier).run w = (.returned (),
        ⟨w.host, s, blobResponse formats.digests (request.header (ascii "If-None-Modify"))
          body.delivered⟩))
  | broken (body : Body) (s : σ)
      (reads : (handler.blobstore.getOrRedirect identifier).run w.ext =
        (.returned (.ok (some body, [])), s))
      (failed : body.failure ≠ none)
      (answer : clientStatus ((getResource formats handler request identifier).run w) = 500)
      (headers : ((getResource formats handler request identifier).run w).2.response.headers = [])
  | refused
      (reads : ∀ body location s, (handler.blobstore.getOrRedirect identifier).run w.ext ≠
        (.returned (.ok (body, location)), s))
      (answer : clientStatus ((getResource formats handler request identifier).run w) ∈
        [404, 500, 507])
      (headers : ∀ t, (ascii "ETag", t) ∉
        ((getResource formats handler request identifier).run w).2.response.headers)

section Downloads
variable {handler : ResourceHandler σ} {w : Env σ} (formats : Formats) (request : Request)
  {identifier : Bytes}

theorem run_getResource_ok {body : Body} {s : σ}
    (h : (handler.blobstore.getOrRedirect identifier).run w.ext =
      (.returned (.ok (some body, [])), s)) :
    (getResource formats handler request identifier).run w =
      (writeBody formats.digests 200 body (request.header (ascii "If-None-Modify"))).run
        { w with ext := s } := by
  have hext : (onExt (handler.blobstore.getOrRedirect identifier)).run w =
      (.returned (.ok (some body, [])), { w with ext := s }) := by rw [run_onExt, h]
  unfold getResource
  rw [run_bind_returned hext]
  simp [writeResponseBasedOn, errorOf, Except.toOption]

theorem run_getResource_error {e : GoError} {s : σ}
    (h : (handler.blobstore.getOrRedirect identifier).run w.ext = (.returned (.error e), s)) :
    (getResource formats handler request identifier).run w =
      (writeResponseBasedOn formats.digests [] (some e) 200 none none
        (request.header (ascii "If-None-Modify"))).run { w with ext := s } := by
  have hext : (onExt (handler.blobstore.getOrRedirect identifier)).run w =
      (.returned (.error e), { w with ext := s }) := by rw [run_onExt, h]
  unfold getResource
  rw [run_bind_returned hext]
  rfl

theorem run_getResource_panicked {e : GoError} {s : σ}
    (h : (handler.blobstore.getOrRedirect identifier).run w.ext = (.panicked e, s)) :
    (getResource formats handler request identifier).run w =
      (.panicked e, { w with ext := s }) := by
  unfold getResource
  exact run_bind_panicked (by rw [run_onExt, h])

/-- An error is answered 404, 507 or, through the panic, 500; none of these has an `ETag`. -/
theorem refused_of_error (digests : Digests) (e : GoError) (ifNoneModify : Bytes)
    (hw : w.response = .empty) :
    clientStatus ((writeResponseBasedOn digests [] (some e) 200 none none ifNoneModify).run w) ∈
        [404, 500, 507] ∧
      ∀ t, (ascii "ETag", t) ∉ ((writeResponseBasedOn digests [] (some e) 200 none none
        ifNoneModify).run w).2.response.headers := by
  obtain ⟨host, ext, response⟩ := w
  cases hw
  cases e with
  | notFound text missingKey => exact ⟨.head _, fun t => List.not_mem_nil⟩
  | noSpaceLeft =>
    refine ⟨.tail _ (.tail _ (.head _)), fun t ht => ?_⟩
    rcases List.mem_pair.mp ht with ht | ht
    · exact absurd (Prod.mk.inj ht).1 (by decide)
    · exact absurd (Prod.mk.inj ht).1 (by decide)
  | stateForbidden => exact ⟨.tail _ (.head _), fun t => List.not_mem_nil⟩
  | input text => exact ⟨.tail _ (.head _), fun t => List.not_mem_nil⟩
  | sys text => exact ⟨.tail _ (.head _), fun t => List.not_mem_nil⟩
  | wrapped message cause => exact ⟨.tail _ (.head _), fun t => List.not_mem_nil⟩
  | withStack cause => exact ⟨.tail _ (.head _), fun t => List.not_mem_nil⟩

variable (identifier) in
theorem downloads {contents : σ → Bytes → Option Bytes}
    (hstore : ServesWhole handler.blobstore contents) (hw : w.response = .empty) :
    Downloads formats handler request identifier w := by
  rcases hrun : (handler.blobstore.getOrRedirect identifier).run w.ext with ⟨r | e, s⟩
  · cases r with
    | ok served =>
      obtain ⟨body, location⟩ := served
      obtain ⟨rfl, b, rfl, -⟩ := hstore _ _ _ _ _ hrun
      cases hb : b.failure with
      | none =>
        refine .whole b s hrun hb ?_
        rw [run_getResource_ok formats request hrun,
          run_writeBody_ok hb _ (w := { w with ext := s }) hw]
      | some e =>
        have hget := run_getResource_ok formats request hrun
        rw [run_writeBody_error hb] at hget
        refine .broken b s hrun (by rw [hb]; simp) ?_ ?_
        · rw [hget, clientStatus, hw]
          rfl
        · rw [hget, hw]
          rfl
    | error e =>
      have hget := run_getResource_error formats request hrun
      have hrefused := refused_of_error (w := { w with ext := s }) formats.digests e
        (request.header (ascii "If-None-Modify")) hw
      rw [← hget] at hrefused
      refine .refused (fun body location s' h => ?_) hrefused.1 hrefused.2
      rw [hrun] at h
      cases h
  · have hget := run_getResource_panicked formats request hrun
    refine .refused (fun body location s' h => ?_) ?_ ?_
    · rw [hrun] at h
      cases h
    · rw [hget, clientStatus, hw]
      exact .tail _ (.head _)
    · rw [hget, hw]
      exact fun t => List.not_mem_nil

end Downloads

/-! ## What the answers say -/

section Answers
variable {formats : Formats} {handler : ResourceHandler σ} {request : Request} {identifier : Bytes}
  {w : Env σ} {contents : σ → Bytes → Option Bytes}

theorem clientStatus_blobResponse (digests : Digests) (ifNoneModify c : Bytes) (host : Host)
    (s : σ) : clientStatus (.returned (), ⟨host, s, blobResponse digests ifNoneModify c⟩) =
      if ifNoneModify = digests.key c then 304 else 200 := by
  unfold clientStatus blobResponse
  split
  · rfl
  · rfl

/-- A 200 comes with the whole blob and its hash. -/
theorem complete_of_status (hstore : ServesWhole handler.blobstore contents)
    (hw : w.response = .empty)
    (h : clientStatus ((getResource formats handler request identifier).run w) = 200) :
    ∃ c, contents w.ext identifier = some c ∧
      ((getResource formats handler request identifier).run w).2.response =
        ⟨some 200, [(ascii "ETag", formats.digests.key c)], [.raw c]⟩ := by
  cases downloads formats request identifier hstore hw with
  | whole body s reads sound answer =>
    obtain ⟨-, b, hb, hwhole⟩ := hstore _ _ _ _ _ reads
    obtain rfl := Option.some.inj hb
    refine ⟨body.delivered, hwhole sound, ?_⟩
    rw [answer] at h ⊢
    by_cases hmatch : request.header (ascii "If-None-Modify") = formats.digests.key body.delivered
    · rw [clientStatus_blobResponse, if_pos hmatch] at h
      cases h
    · exact if_neg hmatch
  | broken body s reads failed answer headers =>
    rw [answer] at h
    cases h
  | refused reads answer headers =>
    rw [h] at answer
    exact absurd answer (by decide)

theorem clientStatus_of_breaks (hstore : ServesWhole handler.blobstore contents)
    (hw : w.response = .empty) (h : Breaks handler.blobstore identifier w.ext) :
    clientStatus ((getResource formats handler request identifier).run w) = 500 := by
  obtain ⟨b, location, s', hb, hfailed⟩ := h
  cases downloads formats request identifier hstore hw with
  | whole body s reads sound answer =>
    rw [reads] at hb
    cases hb
    exact absurd sound hfailed
  | broken body s reads failed answer headers => exact answer
  | refused reads answer headers => exact absurd hb (reads _ _ _)

/-- An `ETag` is the hash of the whole blob. -/
theorem eTag_sound (hstore : ServesWhole handler.blobstore contents) (hw : w.response = .empty)
    {t : Bytes} (h : (ascii "ETag", t) ∈
      ((getResource formats handler request identifier).run w).2.response.headers) :
    ∃ c, contents w.ext identifier = some c ∧ t = formats.digests.key c := by
  cases downloads formats request identifier hstore hw with
  | whole body s reads sound answer =>
    obtain ⟨-, b, hb, hwhole⟩ := hstore _ _ _ _ _ reads
    obtain rfl := Option.some.inj hb
    rw [answer, headers_blobResponse] at h
    exact ⟨body.delivered, hwhole sound, (Prod.mk.inj (List.mem_singleton.mp h)).2⟩
  | broken body s reads failed answer headers =>
    rw [headers] at h
    exact absurd h List.not_mem_nil
  | refused reads answer headers => exact absurd h (headers t)

variable (formats request) in
theorem run_getResource_of_readable (hstore : ServesWhole handler.blobstore contents)
    (hw : w.response = .empty) (h : Readable handler.blobstore identifier w.ext) :
    ∃ c s, contents w.ext identifier = some c ∧
      (getResource formats handler request identifier).run w = (.returned (), ⟨w.host, s,
        blobResponse formats.digests (request.header (ascii "If-None-Modify")) c⟩) := by
  obtain ⟨b, location, s', hb, hsound⟩ := h
  obtain ⟨-, body, hbody, hwhole⟩ := hstore _ _ _ _ _ hb
  obtain rfl := Option.some.inj hbody
  cases downloads formats request identifier hstore hw with
  | whole body s reads sound answer =>
    rw [reads] at hb
    cases hb
    exact ⟨b.delivered, s', hwhole hsound, answer⟩
  | broken body s reads failed answer headers =>
    rw [reads] at hb
    cases hb
    exact absurd hsound failed
  | refused reads answer headers => exact absurd hb (reads _ _ _)

end Answers

/-- A 200 has the whole blob and its SHA-1 as `ETag`; a blob that breaks is answered 500; and a
request that names an earlier answer's `ETag` is answered 304 exactly when the blob is unchanged,
and otherwise 200 with what it is by then. -/
theorem getResource_exact (formats : Formats) (handler : ResourceHandler σ)
    {contents : σ → Bytes → Option Bytes} (hstore : ServesWhole handler.blobstore contents)
    (identifier : Bytes) :
    (∀ request w, w.response = .empty →
      clientStatus ((getResource formats handler request identifier).run w) = 200 →
        ∃ c, contents w.ext identifier = some c ∧
          ((getResource formats handler request identifier).run w).2.response =
            ⟨some 200, [(ascii "ETag", hexEncode (formats.digests.sha1 c))], [.raw c]⟩) ∧
    (∀ request w, w.response = .empty → Breaks handler.blobstore identifier w.ext →
      clientStatus ((getResource formats handler request identifier).run w) = 500) ∧
    (∀ request₁ w₁ request₂ w₂ t, w₁.response = .empty → w₂.response = .empty →
      (ascii "ETag", t) ∈
        ((getResource formats handler request₁ identifier).run w₁).2.response.headers →
      request₂.header (ascii "If-None-Modify") = t →
      Readable handler.blobstore identifier w₂.ext →
        ∃ c₁ c₂, contents w₁.ext identifier = some c₁ ∧ contents w₂.ext identifier = some c₂ ∧
          ((formats.digests.sha1 c₁ = formats.digests.sha1 c₂ → c₁ = c₂) →
            (clientStatus ((getResource formats handler request₂ identifier).run w₂) = 304 ↔
              c₁ = c₂) ∧
            (c₁ ≠ c₂ →
              ((getResource formats handler request₂ identifier).run w₂).2.response =
                ⟨some 200, [(ascii "ETag", hexEncode (formats.digests.sha1 c₂))], [.raw c₂]⟩))) := by
  refine ⟨fun request w hw h => complete_of_status hstore hw h,
    fun request w hw h => clientStatus_of_breaks hstore hw h, ?_⟩
  intro request₁ w₁ request₂ w₂ t hw₁ hw₂ htag hnames hreadable
  obtain ⟨c₁, hc₁, rfl⟩ := eTag_sound hstore hw₁ htag
  obtain ⟨c₂, s, hc₂, hrun⟩ :=
    run_getResource_of_readable formats request₂ hstore hw₂ hreadable
  refine ⟨c₁, c₂, hc₁, hc₂, fun hcollision => ?_⟩
  have hkey : formats.digests.key c₁ = formats.digests.key c₂ ↔ c₁ = c₂ :=
    ⟨fun h => hcollision (hexEncode_injective h), fun h => congrArg _ h⟩
  rw [hrun, clientStatus_blobResponse, hnames]
  refine ⟨?_, fun hne => ?_⟩
  · by_cases hmatch : formats.digests.key c₁ = formats.digests.key c₂
    · rw [if_pos hmatch]
      exact iff_of_true rfl (hkey.mp hmatch)
    · rw [if_neg hmatch]
      exact iff_of_false (by decide) (mt hkey.mpr hmatch)
  · exact if_neg (mt hkey.mp hne)

def guidDownload (ifNoneModify : Bytes) : Request where
  contentLength := 0
  header name := if name = ascii "If-None-Modify" then ifNoneModify else []
  query := []
  body := .whole []
  form := .error (.sys [])

def helloBlob : MapStore where
  contents key := if key = ascii "guid" then some (ascii "hello") else none
  getScript := []
  putScript := []

theorem getResource_exact_unchanged :
    clientStatus ((getResource plainFormats
      (newResourceHandler inmemoryBlobstore mapBlobstore (ascii "package") 0)
      (guidDownload (helloDigests.key (ascii "hello"))) (ascii "guid")).run (.fresh helloBlob)) =
        304 := by
  obtain ⟨c₁, c₂, h₁, h₂, hanswer⟩ := (getResource_exact plainFormats
    (newResourceHandler inmemoryBlobstore mapBlobstore (ascii "package") 0)
    servesWhole_inmemory (ascii "guid")).2.2 (guidDownload []) (.fresh helloBlob)
    (guidDownload (helloDigests.key (ascii "hello"))) (.fresh helloBlob) _ rfl rfl
    (List.mem_singleton.mpr rfl) rfl ⟨.whole (ascii "hello"), [], helloBlob, rfl, rfl⟩
  have hunchanged : c₁ = c₂ := Option.some.inj (h₁.symm.trans h₂)
  exact (hanswer fun _ => hunchanged).1.mpr hunchanged

end BitsService
