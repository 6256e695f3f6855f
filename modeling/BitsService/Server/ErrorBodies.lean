import BitsService.Foundations.JsonText
import BitsService.Foundations.PlainFormats
import BitsService.Server.Http

/-! # Error bodies

A description is formatted with its arguments and written as an object of JSON; the text of the
object is then used as a format itself, without arguments. -/
namespace BitsService
set_option autoImplicit false

/-! ## The functions -/

namespace Util

def descriptionAndCodeAsJSON (code : ℤ) (description : Bytes) (a : List Operand) : Bytes :=
  ascii "\x7b\"description\":" ++ quote (sprintf description a) ++ ascii ",\"code\":" ++
    formatInt 10 code ++ ascii "\x7d"

/-- What is written to the response. -/
def fprintDescriptionAndCodeAsJSON (code : ℤ) (description : Bytes) (a : List Operand) : Bytes :=
  sprintf (descriptionAndCodeAsJSON code description a) []

def descriptionAsJSON (description : Bytes) (a : List Operand) : Bytes :=
  ascii "\x7b\"description\":" ++ quote (sprintf description a) ++ ascii "\x7d"

/-- What is written to the response. -/
def fprintDescriptionAsJSON (description : Bytes) (a : List Operand) : Bytes :=
  sprintf (descriptionAsJSON description a) []

end Util

/-! ## Faithfulness -/

/-- An object with a description and, if there is one, a code. -/
def errorObject (literal : Bytes) (code : Option ℤ) : Bytes :=
  ascii "\x7b\"description\":" ++ literal ++ (match code with
    | some code => ascii ",\"code\":" ++ formatInt 10 code
    | none => []) ++ ascii "\x7d"

/-- The bytes are the object whose description reads as `text`. -/
def IsErrorBody (code : Option ℤ) (text written : Bytes) : Prop :=
  written = errorObject (quote text) code ∧ unquote (quote text) = some text

theorem descriptionAndCodeAsJSON_eq (code : ℤ) (description : Bytes) (a : List Operand) :
    Util.descriptionAndCodeAsJSON code description a =
      errorObject (quote (sprintf description a)) (some code) := by
  simp [Util.descriptionAndCodeAsJSON, errorObject]

theorem descriptionAsJSON_eq (description : Bytes) (a : List Operand) :
    Util.descriptionAsJSON description a = errorObject (quote (sprintf description a)) none := by
  simp [Util.descriptionAsJSON, errorObject]

theorem percent_not_mem_formatInt (n : ℤ) : 37 ∉ formatInt 10 n := by
  intro hmem
  rcases formatInt_digits (by decide) (by decide) n 37 hmem with h | ⟨d, hd, h⟩
  · exact absurd h (by decide)
  · interval_cases d <;> exact absurd h (by decide)

/-- The percent signs of an object are those of its description. -/
theorem percent_mem_errorObject (text : Bytes) (code : Option ℤ) :
    37 ∈ errorObject (quote text) code ↔ 37 ∈ text := by
  have hopening : (37 : UInt8) ∉ ascii "\x7b\"description\":" := by decide
  have hclosing : (37 : UInt8) ∉ ascii "\x7d" := by decide
  have hcode : (37 : UInt8) ∉ ascii ",\"code\":" := by decide
  unfold errorObject
  cases code with
  | none => simp [hopening, hclosing, percent_mem_quote]
  | some code =>
    simp [hopening, hclosing, hcode, percent_mem_quote, percent_not_mem_formatInt]

theorem isErrorBody_sprintf_iff (text : Bytes) (code : Option ℤ) :
    IsErrorBody code text (sprintf (errorObject (quote text) code) []) ↔
      37 ∉ text ∧ validUtf8 text = true := by
  rw [IsErrorBody, sprintf_eq_self_iff, percent_mem_errorObject, unquote_quote, Option.some_inj,
    coerceUtf8_eq_self_iff]

theorem isErrorBody_withCode_iff (code : ℤ) (description : Bytes) (a : List Operand) :
    IsErrorBody (some code) (sprintf description a)
        (Util.fprintDescriptionAndCodeAsJSON code description a) ↔
      37 ∉ sprintf description a ∧ validUtf8 (sprintf description a) = true := by
  rw [Util.fprintDescriptionAndCodeAsJSON, descriptionAndCodeAsJSON_eq, isErrorBody_sprintf_iff]

theorem isErrorBody_withoutCode_iff (description : Bytes) (a : List Operand) :
    IsErrorBody none (sprintf description a) (Util.fprintDescriptionAsJSON description a) ↔
      37 ∉ sprintf description a ∧ validUtf8 (sprintf description a) = true := by
  rw [Util.fprintDescriptionAsJSON, descriptionAsJSON_eq, isErrorBody_sprintf_iff]

/-- What a description comes to that a handler writes, given what its arguments print as. -/
def descriptionText (operand : Bytes → Operand) (code : Option ℕ) (format : Bytes)
    (args : List Bytes) : Bytes :=
  match code with
  | some code => Util.fprintDescriptionAndCodeAsJSON code format (args.map operand)
  | none => Util.fprintDescriptionAsJSON format (args.map operand)

theorem isErrorBody_description_iff (operand : Bytes → Operand) (code : Option ℕ) (format : Bytes)
    (args : List Bytes) :
    IsErrorBody (code.map Int.ofNat) (sprintf format (args.map operand))
        (descriptionText operand code format args) ↔
      37 ∉ sprintf format (args.map operand) ∧
        validUtf8 (sprintf format (args.map operand)) = true := by
  cases code with
  | some code => exact isErrorBody_withCode_iff code format _
  | none => exact isErrorBody_withoutCode_iff format _

/-- **An error body is faithful exactly when** the formatted description has no percent sign and is
UTF-8. -/
theorem isErrorBody_iff (code : ℤ) (description : Bytes) (a : List Operand) :
    (IsErrorBody (some code) (sprintf description a)
      (Util.fprintDescriptionAndCodeAsJSON code description a) ↔
        37 ∉ sprintf description a ∧ validUtf8 (sprintf description a) = true) ∧
    (IsErrorBody none (sprintf description a) (Util.fprintDescriptionAsJSON description a) ↔
        37 ∉ sprintf description a ∧ validUtf8 (sprintf description a) = true) :=
  ⟨isErrorBody_withCode_iff code description a, isErrorBody_withoutCode_iff description a⟩

/-! ## A percent sign in an argument -/

/-- A text prints as itself. -/
def stringOperand (s : Bytes) : Operand := ⟨some (ascii "string"), none, fun _ => s⟩

/-- The closing quote is taken for the verb. -/
theorem not_isErrorBody_percent :
    Util.fprintDescriptionAndCodeAsJSON 290003 (ascii "key %s") [stringOperand (ascii "100%")] =
      ascii "\x7b\"description\":\"key 100%!\"(MISSING),\"code\":290003\x7d" ∧
    ¬ IsErrorBody (some 290003)
      (sprintf (ascii "key %s") [stringOperand (ascii "100%")])
      (Util.fprintDescriptionAndCodeAsJSON 290003 (ascii "key %s")
        [stringOperand (ascii "100%")]) := by
  refine ⟨by decide, ?_⟩
  rw [isErrorBody_withCode_iff]
  intro h
  exact absurd h.1 (by decide)

end BitsService
