import BitsService.Foundations.NetUrl
import BitsService.Server.SignatureSoundness

/-! # Signing, and reading back what was signed

A signed URL carries the name of the resource as it is: it is not escaped when the URL is written
and unescaped when the URL is read. -/
namespace BitsService
open GoLib.Effect
set_option autoImplicit false

/-! ## What reading a URL takes off -/

/-- **A path is read back from a target exactly when it has no `?` and no `%`.** -/
theorem path_of_parseRequestURI_iff {path query : Bytes} :
    (∃ u, parseRequestURI (slash :: (path ++ 63 :: query)) = some u ∧ u.path = slash :: path) ↔
      63 ∉ path ∧ 37 ∉ path := by
  constructor
  · rintro ⟨u, hu, hpath⟩
    rw [parseRequestURI_target] at hu
    obtain ⟨read, hread, rfl⟩ := Option.map_eq_some_iff.mp hu
    obtain rfl : read = slash :: path := hpath
    -- what is read is no longer than what stands before the first question mark
    have hquestion : 63 ∉ path := by
      intro hmem
      have hlt := cutAt_length_lt hmem
      have hle := (unescape_length hread).1
      rw [cutAt_fst_append hmem] at hle
      simp only [List.length_cons] at hle
      omega
    refine ⟨hquestion, fun hmem => ?_⟩
    rw [cutAt_append_cons hquestion] at hread
    exact absurd ((unescape_length hread).2 (List.mem_cons_of_mem _ hmem)) (lt_irrefl _)
  · rintro ⟨hquestion, hpercent⟩
    have hplain : ∀ c ∈ path, c ≠ 63 ∧ c ≠ 37 := fun c hc =>
      ⟨fun h => hquestion (h ▸ hc), fun h => hpercent (h ▸ hc)⟩
    exact ⟨_, parseRequestURI_of_plain hplain, rfl⟩

/-! ## Readers that look at the authority

Clients and servers built with later versions of `net/url` refuse control bytes in a URL. -/

section Strict
variable {strict : Bool} (e : PublicEndpoint)

/-- The endpoint is one that the parser takes apart. -/
def PublicEndpoint.Parses (strict : Bool) : Prop :=
  (parseAuthority strict e.authority).isSome = true ∧
    (strict && e.authority.any isControl) = false

theorem isControl_of_isSchemeByte {c : UInt8} (h : isSchemeByte c = true) :
    isControl c = false := by
  simp only [isSchemeByte, isLetter, isControl, Bool.or_eq_true, Bool.and_eq_true,
    decide_eq_true_eq, beq_iff_eq, Bool.or_eq_false_iff, decide_eq_false_iff_not] at h ⊢
  grind

theorem PublicEndpoint.not_control_scheme (e : PublicEndpoint) :
    (e.letter :: (e.scheme ++ ascii "://")).any isControl = false := by
  have hletter : isSchemeByte e.letter = true := by
    simp [isSchemeByte, e.letter_isLetter]
  have hscheme : e.scheme.any isControl = false :=
    List.any_eq_false.mpr fun c hc => by
      simp [isControl_of_isSchemeByte (e.scheme_bytes c hc)]
  rw [List.any_cons, List.any_append, isControl_of_isSchemeByte hletter, hscheme]
  rfl

variable {e}

/-- What comes after the endpoint decides. -/
theorem PublicEndpoint.Parses.accepts_iff (h : e.Parses strict) (t : Bytes) :
    NetUrl.Accepts strict (e.text ++ slash :: t) ↔ (strict && t.any isControl) = false := by
  have hcontrol : (strict && (e.text ++ slash :: t).any isControl) =
      (strict && t.any isControl) := by
    have htext : e.text = e.letter :: (e.scheme ++ ascii "://") ++ e.authority := rfl
    rw [htext, List.any_append, List.any_append, e.not_control_scheme, List.any_cons,
      show isControl slash = false from rfl, Bool.false_or, Bool.false_or, Bool.and_or_distrib_left,
      h.2, Bool.false_or]
  rw [NetUrl.Accepts, hcontrol]
  refine ⟨fun haccepts => haccepts.1, fun hnone => ⟨hnone, fun scheme rest hscheme _ _ => ?_⟩⟩
  rw [e.getScheme_text] at hscheme
  cases hscheme
  have hauthority : (e.authority ++ slash :: (cutAt 63 t).1).takeWhile (· ≠ slash) =
      e.authority := by
    rw [List.takeWhile_append_of_pos fun c hc => by
      simpa using ne_of_mem_of_not_mem hc e.authority_plain.1]
    simp
  rw [e.cutAt_authority]
  show (parseAuthority strict ((e.authority ++ slash :: (cutAt 63 t).1).takeWhile
    (· ≠ slash))).isSome = true
  rw [hauthority]
  exact h.1

end Strict

/-! ## Signed URLs -/

namespace PathSignerValidator
variable (signer : PathSignerValidator)

theorem parseInt_expires_query (path : Bytes) {expires : Time} (hrange : InClockRange expires) :
    parseInt ((Url.mk path (signer.query path expires)).queryGet (ascii "expires")) 10 64 =
      some (unixSeconds expires) := by
  have hexpires : (Url.mk path (signer.query path expires)).queryGet (ascii "expires") =
      formatInt 10 (unixSeconds expires) := by
    rw [Url.queryGet, parseQuery_query]
    rfl
  rw [hexpires]
  exact parseInt_formatInt (by decide) (by decide) hrange.1 hrange.2

theorem admits_query_iff {path : Bytes} {expires : Time} (hrange : InClockRange expires)
    (now : Time) : signer.admits now ⟨path, signer.query path expires⟩ = true ↔
      now ≤ timeUnix (unixSeconds expires) := by
  constructor
  · intro hadmits
    have hvalid : signer.signatureValid now ⟨path, signer.query path expires⟩ = true :=
      (Bool.and_eq_true _ _ ▸ hadmits).2
    obtain ⟨seconds, hparse, hnow, -⟩ := (signer.signatureValid_iff now _).mp hvalid
    rw [signer.parseInt_expires_query path hrange] at hparse
    rwa [Option.some.inj hparse]
  · exact signer.admits_of_query hrange

theorem not_control_query (path : Bytes) (expires : Time) :
    (signer.query path expires).any isControl = false := by
  have hhex : (hexEncode (signer.signatureFor path expires)).any isControl = false := by
    refine List.any_eq_false.mpr fun c hc => ?_
    obtain ⟨n, hn, rfl⟩ := hexEncode_digits hc
    interval_cases n <;> decide
  have hdigits : (formatInt 10 (unixSeconds expires)).any isControl = false := by
    refine List.any_eq_false.mpr fun c hc => ?_
    rcases formatInt_digits (by decide) (by decide) _ c hc with rfl | ⟨d, hd, rfl⟩
    · decide
    · interval_cases d <;> decide
  simp only [query, List.any_append, hhex, hdigits]
  rfl

end PathSignerValidator

namespace Deployment
variable {σ : Type} (d : Deployment σ)

def resourceSigner : SignedResource → LocalResourceSigner
  | .package _ => d.createLocalResourceSigner (ascii "packages")
  | .droplet _ => d.createLocalResourceSigner (ascii "droplets")
  | .buildpack _ => d.createLocalResourceSigner (ascii "buildpacks")
  | .buildpackCache _ => d.createLocalResourceSigner (ascii "buildpack_cache/entries")
  | .appStashMatches => ⟨d.signer, ascii "/app_stash/matches", d.endpoint.text⟩

theorem resourceSigner_path (r : SignedResource) :
    (d.resourceSigner r).resourcePathPrefix ++ r.identifier = r.path := by
  cases r <;> rfl

theorem resourceSigner_sign (r : SignedResource) (method : Bytes) (expires : Time) :
    (d.resourceSigner r).sign r.identifier method expires =
      d.endpoint.text ++ d.signer.sign r.path expires := by
  cases r <;> rfl

/-- The URL signed for a resource is read back as its path, and is let through until it expires. -/
def RoundTrips (r : SignedResource) (method : Bytes) (expires : Time) : Prop :=
  ∃ u, parseRequestURI ((d.resourceSigner r).sign r.identifier method expires) = some u ∧
    u.path = (d.resourceSigner r).resourcePathPrefix ++ r.identifier ∧
    ∀ next : Prog GoError (Env σ) Unit,
      (∀ now ≤ timeUnix (unixSeconds expires),
        signatureVerification d.signer now u next = next) ∧
      ∀ now > timeUnix (unixSeconds expires),
        signatureVerification d.signer now u next = writeHeader 403

theorem path_of_parse_sign_iff (r : SignedResource) (method : Bytes) (expires : Time) :
    (∃ u, parseRequestURI ((d.resourceSigner r).sign r.identifier method expires) = some u ∧
      u.path = (d.resourceSigner r).resourcePathPrefix ++ r.identifier) ↔
      63 ∉ r.identifier ∧ 37 ∉ r.identifier := by
  obtain ⟨pre, hpre, hplain⟩ := slash_pathPrefix r
  have hpath : r.path = slash :: (pre ++ r.identifier) := by
    rw [SignedResource.path, hpre, List.cons_append]
  rw [d.resourceSigner_sign, d.resourceSigner_path, d.signer.sign_eq, hpath, List.cons_append,
    d.endpoint.parseRequestURI_text, path_of_parseRequestURI_iff]
  have hmem : ∀ c, c = 63 ∨ c = 37 → (c ∉ pre ++ r.identifier ↔ c ∉ r.identifier) := by
    intro c hc
    have hnot : c ∉ pre := by
      intro h
      rcases hc with rfl | rfl
      · exact (hplain _ h).1 rfl
      · exact (hplain _ h).2 rfl
    simp [hnot]
  rw [hmem 63 (.inl rfl), hmem 37 (.inr rfl)]

/-- **A reader that takes the authority apart** reads a signed URL back for the same names, but for
those with a control byte where it refuses these. -/
theorem path_of_strict_parse_iff {strict : Bool} (h : d.endpoint.Parses strict)
    (r : SignedResource) (method : Bytes) (expires : Time) :
    (∃ u, NetUrl.parseRequestURI strict ((d.resourceSigner r).sign r.identifier method expires) =
        some u ∧ u.path = (d.resourceSigner r).resourcePathPrefix ++ r.identifier) ↔
      (63 ∉ r.identifier ∧ 37 ∉ r.identifier) ∧
        (strict && r.identifier.any isControl) = false := by
  have haccepts : NetUrl.Accepts strict ((d.resourceSigner r).sign r.identifier method expires) ↔
      (strict && r.identifier.any isControl) = false := by
    obtain ⟨pre, hpre, -⟩ := slash_pathPrefix r
    have hcontrol : pre.any isControl = false := by
      have hall : r.pathPrefix.any isControl = false := by cases r <;> rfl
      rw [hpre, List.any_cons] at hall
      exact (Bool.or_eq_false_iff.mp hall).2
    have hsign : (d.resourceSigner r).sign r.identifier method expires =
        d.endpoint.text ++
          slash :: (pre ++ (r.identifier ++ 63 :: d.signer.query r.path expires)) := by
      rw [d.resourceSigner_sign, d.signer.sign_eq, SignedResource.path, hpre]
      simp
    rw [hsign, h.accepts_iff, List.any_append, List.any_append, List.any_cons, hcontrol,
      d.signer.not_control_query, Bool.false_or, show isControl 63 = false from rfl,
      Bool.false_or, Bool.or_false]
  rw [← d.path_of_parse_sign_iff r method expires, ← haccepts]
  constructor
  · rintro ⟨u, hu, hpath⟩
    obtain ⟨haccepted, hread⟩ := NetUrl.parseRequestURI_iff.mp ⟨u, hu, rfl⟩
    exact ⟨⟨u.target, hread, hpath⟩, haccepted⟩
  · rintro ⟨⟨url, hread, hpath⟩, haccepted⟩
    obtain ⟨u, hu, rfl⟩ := NetUrl.parseRequestURI_iff.mpr ⟨haccepted, hread⟩
    exact ⟨u, hu, hpath⟩

/-- **Signed URLs are read back exactly for names without `?` and `%`.** -/
theorem roundTrips_iff (r : SignedResource) (method : Bytes) {expires : Time}
    (hrange : InClockRange expires) :
    d.RoundTrips r method expires ↔ 63 ∉ r.identifier ∧ 37 ∉ r.identifier := by
  constructor
  · rintro ⟨u, hu, hpath, -⟩
    exact (d.path_of_parse_sign_iff r method expires).mp ⟨u, hu, hpath⟩
  · rintro ⟨hquestion, hpercent⟩
    have hplain : ∀ c ∈ r.identifier, c ≠ 63 ∧ c ≠ 37 := fun c hc =>
      ⟨fun h => hquestion (h ▸ hc), fun h => hpercent (h ▸ hc)⟩
    have hparse := d.parse_sign_of_plain hplain (expires - oneHour)
    have hreturned := d.parseRequestURI_returned r (expires - oneHour)
    rw [sub_add_cancel] at hparse hreturned
    refine ⟨⟨r.path, d.signer.query r.path expires⟩, ?_, (d.resourceSigner_path r).symm,
      fun next => ⟨fun now hnow => ?_, fun now hnow => ?_⟩⟩
    · rw [d.resourceSigner_sign, hreturned, hparse]
    · exact signatureVerification_of_admits
        ((d.signer.admits_query_iff hrange now).mpr hnow) next
    · have hrefused : d.signer.admits now ⟨r.path, d.signer.query r.path expires⟩ = false := by
        rw [← Bool.not_eq_true, d.signer.admits_query_iff hrange]
        exact not_le.mpr hnow
      exact signatureVerification_of_not_admits hrefused next

end Deployment

theorem roundTrips_iff_package_abc : InClockRange oneHour ∧
    packageDeployment.RoundTrips (.package (ascii "abc")) (ascii "get") oneHour :=
  ⟨by unfold InClockRange; decide, (packageDeployment.roundTrips_iff (.package (ascii "abc"))
    (ascii "get") (by unfold InClockRange; decide)).mpr (by decide)⟩

/-- The URL signed for package `a?b` is one of package `a`. -/
theorem not_roundTrips_question :
    ¬ packageDeployment.RoundTrips (.package (ascii "a?b")) (ascii "get") oneHour := by
  rintro ⟨u, hu, hpath, -⟩
  have hread : (parseRequestURI ((packageDeployment.resourceSigner (.package (ascii "a?b"))).sign
      (ascii "a?b") (ascii "get") oneHour)).map Url.path = some (ascii "/packages/a") := by decide
  have hparsed := congrArg (Option.map Url.path) hu
  rw [Option.map_some, hpath] at hparsed
  exact absurd (Option.some.inj (hparsed.symm.trans hread)) (by decide)

end BitsService
