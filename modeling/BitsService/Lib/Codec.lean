import Mathlib.Data.Nat.Digits.Defs
import Mathlib.Data.Nat.Digits.Lemmas

/-! # Self-delimiting byte codecs

A codec writes a value as bytes and reads it back from the front of a longer input, leaving what
follows. The law is a field, so a composed codec is lawful by construction. -/
namespace GoLib
set_option autoImplicit false

structure Codec (α : Type) where
  enc : α → List UInt8
  dec : List UInt8 → Option (α × List UInt8)
  dec_enc : ∀ a rest, dec (enc a ++ rest) = some (a, rest)

namespace Codec
variable {α β : Type}

def byte : Codec UInt8 where
  enc b := [b]
  dec
    | [] => none
    | b :: rest => some (b, rest)
  dec_enc _ _ := rfl

def pair (c : Codec α) (d : Codec β) : Codec (α × β) where
  enc p := c.enc p.1 ++ d.enc p.2
  dec s := (c.dec s).bind fun x => (d.dec x.2).map fun y => ((x.1, y.1), y.2)
  dec_enc p rest := by
    rw [List.append_assoc, c.dec_enc, Option.bind_some, d.dec_enc]
    rfl

def imap (c : Codec α) (f : α → β) (g : β → α) (h : ∀ b, f (g b) = b) : Codec β where
  enc b := c.enc (g b)
  dec s := (c.dec s).map fun x => (f x.1, x.2)
  dec_enc b rest := by
    rw [c.dec_enc, Option.map_some, h]

/-- Every element is announced by a one; a zero ends the list. -/
def encList (c : Codec α) : List α → List UInt8
  | [] => [0]
  | a :: l => 1 :: (c.enc a ++ encList c l)

def decList (c : Codec α) : ℕ → List UInt8 → Option (List α × List UInt8)
  | fuel + 1, b :: rest =>
    if b = 0 then some ([], rest)
    else (c.dec rest).bind fun x => (decList c fuel x.2).map fun y => (x.1 :: y.1, y.2)
  | _, _ => none

theorem encList_length (c : Codec α) (l : List α) : l.length < (encList c l).length := by
  induction l with
  | nil => exact Nat.zero_lt_one
  | cons a l ih =>
    simp only [encList, List.length_cons, List.length_append]
    omega

theorem decList_encList (c : Codec α) (l : List α) (rest : List UInt8) (fuel : ℕ)
    (h : l.length < fuel) : decList c fuel (encList c l ++ rest) = some (l, rest) := by
  induction l generalizing fuel with
  | nil =>
    cases fuel with
    | zero => exact absurd h (Nat.not_lt_zero _)
    | succ fuel => rfl
  | cons a l ih =>
    cases fuel with
    | zero => exact absurd h (Nat.not_lt_zero _)
    | succ fuel =>
      have hl : l.length < fuel := Nat.lt_of_succ_lt_succ h
      have h10 : (1 : UInt8) ≠ 0 := by decide
      simp only [encList, List.cons_append, List.append_assoc, decList, if_neg h10,
        c.dec_enc, Option.bind_some, ih fuel hl, Option.map_some]

def list (c : Codec α) : Codec (List α) where
  enc := encList c
  dec s := decList c s.length s
  dec_enc l rest := by
    apply decList_encList
    have := encList_length c l
    rw [List.length_append]
    omega

def nat : Codec ℕ :=
  imap (list byte) (fun l => Nat.ofDigits 256 (l.map UInt8.toNat))
    (fun n => (Nat.digits 256 n).map UInt8.ofNat) (by
      intro n
      have hd : ((Nat.digits 256 n).map UInt8.ofNat).map UInt8.toNat = Nat.digits 256 n := by
        rw [List.map_map]
        conv_rhs => rw [← List.map_id (Nat.digits 256 n)]
        apply List.map_congr_left
        intro d hd
        have hlt : d < 256 := Nat.digits_lt_base (by norm_num) hd
        simpa using hlt
      rw [hd, Nat.ofDigits_digits])

end Codec
end GoLib
