import BitsService.Foundations.Url
import BitsService.Server.Http
import BitsService.Server.Wiring

/-! # Signed URLs

A path is signed together with the second at which its URL expires and the secret. The middleware
before the public routes lets a request through when its URL carries the signature of its path. -/
namespace BitsService
open GoLib.Effect
set_option autoImplicit false

/-! ## Signatures of paths -/

structure Md5 where
  sum : Bytes → Bytes
  sum_length : ∀ b, (sum b).length = 16

def timeUnix (seconds : ℤ) : Time := seconds * nanosecondsPerSecond

structure PathSignerValidator where
  md5 : Md5
  secret : Bytes

namespace PathSignerValidator
variable (signer : PathSignerValidator)

def signatureFor (path : Bytes) (expires : Time) : Bytes :=
  signer.md5.sum (formatInt 10 (unixSeconds expires) ++ path ++ ascii " " ++ signer.secret)

def sign (path : Bytes) (expires : Time) : Bytes :=
  path ++ ascii "?md5=" ++ hexEncode (signer.signatureFor path expires) ++ ascii "&expires=" ++
    formatInt 10 (unixSeconds expires)

def query (path : Bytes) (expires : Time) : Bytes :=
  ascii "md5=" ++ hexEncode (signer.signatureFor path expires) ++ ascii "&expires=" ++
    formatInt 10 (unixSeconds expires)

/-- The clock says `now`. -/
def signatureValid (now : Time) (u : Url) : Bool :=
  match parseInt (u.queryGet (ascii "expires")) 10 64 with
  | none => false
  | some expires =>
    if timeUnix expires < now then false
    else u.queryGet (ascii "md5") == hexEncode (signer.signatureFor u.path (timeUnix expires))

end PathSignerValidator

/-! ## Signers and their handler -/

structure LocalResourceSigner where
  signer : PathSignerValidator
  resourcePathPrefix : Bytes
  delegateEndpoint : Bytes

def LocalResourceSigner.sign (s : LocalResourceSigner) (resource _method : Bytes)
    (expirationTime : Time) : Bytes :=
  s.delegateEndpoint ++ s.signer.sign (s.resourcePathPrefix ++ resource) expirationTime

variable {σ : Type}

def LocalResourceSigner.toResourceSigner (s : LocalResourceSigner) : ResourceSigner σ :=
  ⟨fun resource method expirationTime => pure (s.sign resource method expirationTime)⟩

/-- The signer that is asked; a nil one is called all the same. -/
def SignResourceHandler.respondWith (signer : Option (ResourceSigner σ)) (resource method : Bytes)
    (now : Time) : Prog GoError (Env σ) Unit :=
  match signer with
  | none => raise .nilDereference
  | some signer => do
    let signature ← onExt (signer.sign resource method (now + oneHour))
    write (.raw signature)

def SignResourceHandler.sign (handler : SignResourceHandler σ) (resource verb : Bytes)
    (now : Time) : Prog GoError (Env σ) Unit :=
  let method := if verb = [] then ascii "get" else verb
  if method = ascii "get" then respondWith handler.getResourceSigner resource method now
  else if method = ascii "put" ∨ method = ascii "post" then
    respondWith handler.putResourceSigner resource method now
  else do
    writeHeader 400
    write (.raw (ascii "Invalid verb: " ++ method))

/-! ## The middleware -/

/-- `SignatureVerificationMiddleware`: `next` is called for a signed URL only. -/
def signatureVerification (validator : PathSignerValidator) (now : Time) (u : Url)
    (next : Prog GoError (Env σ) Unit) : Prog GoError (Env σ) Unit :=
  if u.queryGet (ascii "md5") = [] then writeHeader 403
  else if validator.signatureValid now u = false then writeHeader 403
  else next

/-- Does the middleware call `next`? -/
def PathSignerValidator.admits (validator : PathSignerValidator) (now : Time) (u : Url) : Bool :=
  u.queryGet (ascii "md5") != [] && validator.signatureValid now u

theorem signatureVerification_of_admits {validator : PathSignerValidator} {now : Time} {u : Url}
    (h : validator.admits now u = true) (next : Prog GoError (Env σ) Unit) :
    signatureVerification validator now u next = next := by
  simp only [PathSignerValidator.admits, Bool.and_eq_true, bne_iff_ne, ne_eq] at h
  rw [signatureVerification, if_neg h.1, if_neg (by simp [h.2])]

theorem signatureVerification_of_not_admits {validator : PathSignerValidator} {now : Time} {u : Url}
    (h : validator.admits now u = false) (next : Prog GoError (Env σ) Unit) :
    signatureVerification validator now u next = writeHeader 403 := by
  unfold signatureVerification
  by_cases hmd5 : u.queryGet (ascii "md5") = []
  · rw [if_pos hmd5]
  · have hinvalid : validator.signatureValid now u = false := by
      simpa [PathSignerValidator.admits, hmd5] using h
    rw [if_neg hmd5, if_pos hinvalid]

/-! ## A signed path as it comes back -/

def InClockRange (t : Time) : Prop :=
  -((2 ^ 63 : ℕ) : ℤ) ≤ unixSeconds t ∧ unixSeconds t < ((2 ^ 63 : ℕ) : ℤ)

theorem unixSeconds_timeUnix (seconds : ℤ) : unixSeconds (timeUnix seconds) = seconds :=
  Int.mul_ediv_cancel seconds (by decide)

namespace PathSignerValidator
variable (signer : PathSignerValidator)

theorem sign_eq (path : Bytes) (expires : Time) :
    signer.sign path expires = path ++ 63 :: signer.query path expires := by
  simp only [sign, query, List.append_assoc]
  rfl

theorem parseQuery_query (path : Bytes) (expires : Time) :
    parseQuery (signer.query path expires) =
      [(ascii "md5", hexEncode (signer.signatureFor path expires)),
        (ascii "expires", formatInt 10 (unixSeconds expires))] := by
  have hexpires : parseQuery (ascii "expires" ++ 61 :: formatInt 10 (unixSeconds expires)) =
      [(ascii "expires", formatInt 10 (unixSeconds expires))] :=
    parseQuery_last (forall_mem_of_all (by decide)) fun c hc =>
      isValueByte_of_isQueryByte (isQueryByte_formatInt _ c hc)
  have hmd5 : ∀ c ∈ ascii "md5", isQueryByte c = true := forall_mem_of_all (by decide)
  have hquery : signer.query path expires =
      ascii "md5" ++ 61 :: hexEncode (signer.signatureFor path expires) ++
        38 :: (ascii "expires" ++ 61 :: formatInt 10 (unixSeconds expires)) := by
    simp only [query, List.append_assoc]
    rfl
  have hsignature : ∀ c ∈ hexEncode (signer.signatureFor path expires), isValueByte c = true :=
    fun c hc => isValueByte_of_isQueryByte (isQueryByte_hexEncode _ c hc)
  rw [hquery, parseQuery_pair hmd5 hsignature, hexpires]

theorem admits_of_query {path : Bytes} {expires now : Time} (hrange : InClockRange expires)
    (hnow : now ≤ timeUnix (unixSeconds expires)) :
    signer.admits now ⟨path, signer.query path expires⟩ = true := by
  have hmd5 : (Url.mk path (signer.query path expires)).queryGet (ascii "md5") =
      hexEncode (signer.signatureFor path expires) := by
    rw [Url.queryGet, parseQuery_query]
    rfl
  have hexpires : (Url.mk path (signer.query path expires)).queryGet (ascii "expires") =
      formatInt 10 (unixSeconds expires) := by
    rw [Url.queryGet, parseQuery_query]
    rfl
  have hsignature : signer.signatureFor path (timeUnix (unixSeconds expires)) =
      signer.signatureFor path expires := by
    rw [signatureFor, signatureFor, unixSeconds_timeUnix]
  have hnonempty : hexEncode (signer.signatureFor path expires) ≠ [] := by
    intro hnil
    have hlength := congrArg List.length hnil
    rw [hexEncode_length, signatureFor, signer.md5.sum_length] at hlength
    exact absurd hlength (by decide)
  have hparse : parseInt (formatInt 10 (unixSeconds expires)) 10 64 = some (unixSeconds expires) :=
    parseInt_formatInt (by decide) (by decide) hrange.1 hrange.2
  rw [admits, signatureValid, hexpires, hparse, hmd5]
  simp only [if_neg (not_lt.mpr hnow), hsignature, beq_self_eq_true, Bool.and_true, bne_iff_ne,
    ne_eq, hnonempty, not_false_eq_true]

end PathSignerValidator

end BitsService
