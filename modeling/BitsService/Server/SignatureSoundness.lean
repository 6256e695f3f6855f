import BitsService.Server.UrlAuthority

/-! # What a valid signature says

Signatures are requested and URLs are presented in some order. MD5 is idealised in a run: a digest
of a message with the secret in it is the digest of no other message, and whoever presents one in
a URL has it from the signer. -/
namespace BitsService
open GoLib.Effect
set_option autoImplicit false

/-! ## The signed message -/

theorem formatInt_injective {base : ℕ} (hb : 2 ≤ base) (hb' : base ≤ 36) :
    Function.Injective (formatInt base) := by
  intro m n h
  -- both are read back with as many bits as they need
  have hparse : ∀ k : ℤ, k.natAbs ≤ m.natAbs + n.natAbs →
      parseInt (formatInt base k) base (m.natAbs + n.natAbs + 1) = some k := by
    intro k hk
    have hpow : m.natAbs + n.natAbs < 2 ^ (m.natAbs + n.natAbs) := Nat.lt_two_pow_self
    apply parseInt_formatInt hb hb'
    · rw [Nat.add_sub_cancel]
      omega
    · rw [Nat.add_sub_cancel]
      omega
  have hm := hparse m (by omega)
  have hn := hparse n (by omega)
  rw [h] at hm
  exact Option.some.inj (hm.symm.trans hn)

theorem slash_not_mem_formatInt (n : ℤ) : slash ∉ formatInt 10 n := by
  intro hmem
  rcases formatInt_digits (by decide) (by decide) n slash hmem with h | ⟨d, hd, h⟩
  · exact absurd h (by decide)
  · revert h
    interval_cases d <;> decide

namespace PathSignerValidator
variable (signer : PathSignerValidator)

def message (path : Bytes) (expires : Time) : Bytes :=
  formatInt 10 (unixSeconds expires) ++ path ++ ascii " " ++ signer.secret

theorem signatureFor_eq (path : Bytes) (expires : Time) :
    signer.signatureFor path expires = signer.md5.sum (signer.message path expires) := rfl

/-- **The message is unambiguous** for paths that begin with a slash: the slash ends the digits. -/
theorem message_inj {path path' : Bytes} {expires expires' : Time}
    (h : signer.message (slash :: path) expires = signer.message (slash :: path') expires') :
    path = path' ∧ unixSeconds expires = unixSeconds expires' := by
  have hbegin_eq : formatInt 10 (unixSeconds expires) ++ slash :: path =
      formatInt 10 (unixSeconds expires') ++ slash :: path' :=
    List.append_cancel_right (List.append_cancel_right h)
  have hcut := congrArg (cutAt slash) hbegin_eq
  rw [cutAt_append_cons (slash_not_mem_formatInt _),
    cutAt_append_cons (slash_not_mem_formatInt _)] at hcut
  obtain ⟨hdigits, hpath⟩ := Prod.mk.inj hcut
  exact ⟨Option.some.inj hpath, formatInt_injective (by decide) (by decide) hdigits⟩

/-! ## Validity -/

/-- A URL is valid when its expiry can be read and is not over, and it carries the signature of its
path for that expiry. -/
theorem signatureValid_iff (now : Time) (u : Url) :
    signer.signatureValid now u = true ↔ ∃ expires,
      parseInt (u.queryGet (ascii "expires")) 10 64 = some expires ∧ now ≤ timeUnix expires ∧
        u.queryGet (ascii "md5") = hexEncode (signer.signatureFor u.path (timeUnix expires)) := by
  unfold signatureValid
  cases parseInt (u.queryGet (ascii "expires")) 10 64 with
  | none => simp
  | some expires =>
    by_cases hexpired : timeUnix expires < now
    · simp [hexpired]
    · simp [hexpired, not_lt.mp hexpired]

/-- What is valid now was so at all times before. -/
theorem signatureValid_of_le {now later : Time} {u : Url} (hle : now ≤ later)
    (h : signer.signatureValid later u = true) : signer.signatureValid now u = true := by
  obtain ⟨expires, hparse, hlater, hmd5⟩ := (signer.signatureValid_iff later u).mp h
  exact (signer.signatureValid_iff now u).mpr ⟨expires, hparse, le_trans hle hlater, hmd5⟩

end PathSignerValidator

/-! ## Runs -/

inductive SignerEvent where
  | sign (path : Bytes) (expires : Time)
  | present (u : Url) (now : Time)

/-- MD5, idealised in a run of the signer. -/
structure Idealised (signer : PathSignerValidator) (run : List SignerEvent) : Prop where
  collisionFree : ∀ path expires, .sign path expires ∈ run → ∀ path' expires',
    signer.signatureFor path' expires' = signer.signatureFor path expires →
      signer.message path' expires' = signer.message path expires
  unforgeable : ∀ before u now after, run = before ++ .present u now :: after →
    ∀ path expires, u.queryGet (ascii "md5") = hexEncode (signer.signatureFor path expires) →
      ∃ path' expires', .sign path' expires' ∈ before ∧
        signer.signatureFor path expires = signer.signatureFor path' expires'

/-- Only paths that begin with a slash are signed. -/
def SignsPaths (run : List SignerEvent) : Prop :=
  ∀ path expires, .sign path expires ∈ run → ∃ rest, path = slash :: rest

section Run
variable {signer : PathSignerValidator} {run : List SignerEvent}
  (hideal : Idealised signer run) (hpaths : SignsPaths run)
include hideal hpaths

/-- Whoever has the signature of a path for an expiry has it from the signer, for just these. -/
theorem signed_of_signature {path : Bytes} {expires : Time} {path' : Bytes} {expires' : Time}
    (hsigned : .sign path expires ∈ run)
    (h : signer.signatureFor (slash :: path') expires' = signer.signatureFor path expires) :
    path = slash :: path' ∧ unixSeconds expires' = unixSeconds expires := by
  have hmessage := hideal.collisionFree path expires hsigned _ _ h
  obtain ⟨rest, rfl⟩ := hpaths path expires hsigned
  obtain ⟨hpath, hexpires⟩ := signer.message_inj hmessage
  exact ⟨by rw [hpath], hexpires⟩

theorem signed_of_valid {before after : List SignerEvent} {u : Url} {now : Time}
    (hrun : run = before ++ .present u now :: after) (hu : ∃ rest, u.path = slash :: rest)
    (hvalid : signer.signatureValid now u = true) :
    ∃ expires, .sign u.path expires ∈ before ∧
      parseInt (u.queryGet (ascii "expires")) 10 64 = some (unixSeconds expires) ∧
        now ≤ timeUnix (unixSeconds expires) := by
  obtain ⟨seconds, hparse, hnow, hmd5⟩ := (signer.signatureValid_iff now u).mp hvalid
  obtain ⟨path, expires, hmem, hsame⟩ := hideal.unforgeable before u now after hrun _ _ hmd5
  have hsigned : .sign path expires ∈ run := by
    rw [hrun]
    exact List.mem_append_left _ hmem
  obtain ⟨rest, hrest⟩ := hu
  rw [hrest] at hsame
  obtain ⟨rfl, hseconds⟩ := signed_of_signature hideal hpaths hsigned hsame
  rw [unixSeconds_timeUnix] at hseconds
  subst hseconds
  exact ⟨expires, by rw [hrest]; exact hmem, hparse, hnow⟩

/-- A signature is of use for the path and the expiry that it was made for, and for no others. -/
theorem not_valid_of_changed {path : Bytes} {expires : Time} (hsigned : .sign path expires ∈ run)
    {u : Url} (hu : ∃ rest, u.path = slash :: rest)
    (hmd5 : u.queryGet (ascii "md5") = hexEncode (signer.signatureFor path expires))
    (hchanged : u.path ≠ path ∨
      parseInt (u.queryGet (ascii "expires")) 10 64 ≠ some (unixSeconds expires)) (now : Time) :
    signer.signatureValid now u = false := by
  rw [← Bool.not_eq_true]
  intro hvalid
  obtain ⟨seconds, hparse, -, hcarried⟩ := (signer.signatureValid_iff now u).mp hvalid
  have hsame := hexEncode_injective (hcarried.symm.trans hmd5)
  obtain ⟨rest, hrest⟩ := hu
  rw [hrest] at hsame
  obtain ⟨hpath, hseconds⟩ := signed_of_signature hideal hpaths hsigned hsame
  rw [unixSeconds_timeUnix] at hseconds
  subst hseconds
  rcases hchanged with hchanged | hchanged
  · exact hchanged (hrest.trans hpath.symm)
  · exact hchanged hparse

end Run

/-- What the signatures of a run are good for. -/
structure Pins (signer : PathSignerValidator) (run : List SignerEvent) : Prop where
  signed : ∀ before u now after, run = before ++ .present u now :: after →
    (∃ rest, u.path = slash :: rest) → signer.signatureValid now u = true →
      ∃ expires, .sign u.path expires ∈ before ∧
        parseInt (u.queryGet (ascii "expires")) 10 64 = some (unixSeconds expires) ∧
          now ≤ timeUnix (unixSeconds expires)
  unchanged : ∀ path expires, .sign path expires ∈ run → ∀ u : Url,
    (∃ rest, u.path = slash :: rest) →
      u.queryGet (ascii "md5") = hexEncode (signer.signatureFor path expires) →
        (u.path ≠ path ∨
          parseInt (u.queryGet (ascii "expires")) 10 64 ≠ some (unixSeconds expires)) →
          ∀ now, signer.signatureValid now u = false
  expired : ∀ u now expires, parseInt (u.queryGet (ascii "expires")) 10 64 = some expires →
    timeUnix expires < now → ∀ later, now ≤ later → signer.signatureValid later u = false

/-- **Signatures pin path and expiry.** -/
theorem signatures_pin (signer : PathSignerValidator) (run : List SignerEvent)
    (hideal : Idealised signer run) (hpaths : SignsPaths run) : Pins signer run where
  signed _ _ _ _ hrun hu hvalid := signed_of_valid hideal hpaths hrun hu hvalid
  unchanged _ _ hsigned _ hu hmd5 hchanged now :=
    not_valid_of_changed hideal hpaths hsigned hu hmd5 hchanged now
  expired u now expires hparse hexpired later hlater := by
    rw [← Bool.not_eq_true]
    intro hvalid
    obtain ⟨seconds, hparse', hnow, -⟩ := (signer.signatureValid_iff later u).mp hvalid
    obtain rfl : expires = seconds := Option.some.inj (hparse.symm.trans hparse')
    exact absurd (le_trans hlater hnow) (not_le.mpr hexpired)

def packageSigner : PathSignerValidator := ⟨md5OfPackageAbc, ascii "secret"⟩

def signAndPresentPackage : List SignerEvent :=
  [.sign (ascii "/packages/abc") oneHour, .present ⟨ascii "/packages/abc", packageQuery⟩ 0]

theorem idealised_signAndPresentPackage : Idealised packageSigner signAndPresentPackage where
  collisionFree := by
    intro path expires hsigned path' expires' hsame
    obtain ⟨rfl, rfl⟩ : path = ascii "/packages/abc" ∧ expires = oneHour := by
      simpa [signAndPresentPackage] using hsigned
    -- every other message has the digest of zeros
    by_contra hother
    have hmessage : packageSigner.message (ascii "/packages/abc") oneHour =
        ascii "3600/packages/abc secret" := by decide
    rw [hmessage] at hother
    rw [packageSigner.signatureFor_eq, packageSigner.signatureFor_eq, hmessage] at hsame
    have hzeros : packageSigner.md5.sum (packageSigner.message path' expires') =
        List.replicate 16 0 := if_neg hother
    rw [hzeros] at hsame
    exact absurd hsame (by decide)
  unforgeable := by
    intro before u now after hrun path expires hmd5
    have hpresent : before = [.sign (ascii "/packages/abc") oneHour] ∧
        u = ⟨ascii "/packages/abc", packageQuery⟩ := by
      rcases before with _ | ⟨first, _ | ⟨second, before⟩⟩
      · cases hrun
      · cases hrun
        exact ⟨rfl, rfl⟩
      · have hlength := congrArg List.length hrun
        simp [signAndPresentPackage] at hlength
    obtain ⟨rfl, rfl⟩ := hpresent
    refine ⟨ascii "/packages/abc", oneHour, List.mem_cons_self, ?_⟩
    have hcarried : (Url.mk (ascii "/packages/abc") packageQuery).queryGet (ascii "md5") =
        hexEncode (packageSigner.signatureFor (ascii "/packages/abc") oneHour) := by decide
    exact hexEncode_injective (hmd5.symm.trans hcarried)

theorem signsPaths_signAndPresentPackage : SignsPaths signAndPresentPackage := by
  intro path expires hsigned
  obtain ⟨rfl, -⟩ : path = ascii "/packages/abc" ∧ expires = oneHour := by
    simpa [signAndPresentPackage] using hsigned
  exact ⟨_, rfl⟩

theorem signatures_pin_package_abc : Pins packageSigner signAndPresentPackage ∧
    packageSigner.signatureValid 0 ⟨ascii "/packages/abc", packageQuery⟩ = true :=
  ⟨signatures_pin packageSigner signAndPresentPackage idealised_signAndPresentPackage
    signsPaths_signAndPresentPackage, by decide⟩

end BitsService
