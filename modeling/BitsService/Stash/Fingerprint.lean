import BitsService.Foundations.Utf8
import BitsService.Lib.Codec

/-! # Fingerprints and their JSON -/
namespace BitsService
open GoLib
set_option autoImplicit false

structure Fingerprint where
  fn : Bytes
  sha1 : Bytes
  size : ℕ
  mode : Bytes
  deriving DecidableEq

def Fingerprint.coerce (f : Fingerprint) : Fingerprint :=
  { f with fn := coerceUtf8 f.fn, sha1 := coerceUtf8 f.sha1, mode := coerceUtf8 f.mode }

/-- The first key that is missing or empty. -/
def anyKeyMissingIn : List Fingerprint → Option Bytes
  | [] => none
  | entry :: bundlesPayload =>
    if entry.sha1 = [] then some (ascii "sha1")
    else if entry.fn = [] then some (ascii "fn")
    else anyKeyMissingIn bundlesPayload

theorem anyKeyMissingIn_eq_none_iff (payload : List Fingerprint) :
    anyKeyMissingIn payload = none ↔ ∀ f ∈ payload, f.sha1 ≠ [] ∧ f.fn ≠ [] := by
  induction payload with
  | nil => simp [anyKeyMissingIn]
  | cons entry payload ih =>
    unfold anyKeyMissingIn
    by_cases hs : entry.sha1 = []
    · simp [hs]
    by_cases hf : entry.fn = []
    · simp [hs, hf]
    · simp [hs, hf, ih]

/-- The text of fingerprints and of the body of a copy request: what `encoding/json` makes of it,
and how it writes fingerprints. -/
structure JsonFormat where
  marshal : List Fingerprint → Bytes
  unmarshal : Bytes → Option (List Fingerprint)
  unmarshal_marshal : ∀ l, unmarshal (marshal l) = some (l.map Fingerprint.coerce)
  marshal_ne : ∀ l, marshal l ≠ []
  sourceGuid : Bytes → Except Bytes Bytes

def fingerprintCodec : Codec Fingerprint :=
  (Codec.pair (Codec.pair (Codec.list .byte) (Codec.list .byte))
    (Codec.pair .nat (Codec.list .byte))).imap
    (fun p => ⟨p.1.1, p.1.2, p.2.1, p.2.2⟩) (fun f => ((f.fn, f.sha1), f.size, f.mode))
    (fun _ => rfl)

/-- A plain text format: the coerced fingerprints one after the other. -/
def plainJson : JsonFormat where
  marshal l := (Codec.list fingerprintCodec).enc (l.map Fingerprint.coerce)
  unmarshal b := match (Codec.list fingerprintCodec).dec b with
    | some (l, []) => some l
    | _ => none
  unmarshal_marshal l := by
    have h := (Codec.list fingerprintCodec).dec_enc (l.map Fingerprint.coerce) []
    rw [List.append_nil] at h
    rw [h]
  marshal_ne l := List.ne_nil_of_length_pos
    (Nat.zero_lt_of_lt (Codec.encList_length fingerprintCodec (l.map Fingerprint.coerce)))
  sourceGuid b := .ok b

end BitsService
