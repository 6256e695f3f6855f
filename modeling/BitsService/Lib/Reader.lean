import Mathlib.Data.Nat.Notation
import Mathlib.Data.Seq.Basic

/-! # Readers

A reader fills a buffer with no more than fits, or with nothing at all, and may say with the last
bytes or after them that it has come to an end. -/
namespace GoLib.Reading
open Stream' (Seq)
set_option autoImplicit false

variable {ρ β δ : Type}

/-- A reader of items `β` with errors `δ`, over its state. -/
structure Reader (ρ β δ : Type) where
  read : ℕ → ρ → (List β × Option δ) × ρ
  read_le : ∀ n s, (read n s).1.1.length ≤ n

namespace Reader
variable (src : Reader ρ β δ) (n : ℕ)

/-- What one call reads into a buffer of `n` items, with its error, and the state it leaves. -/
def data (s : ρ) : List β := (src.read n s).1.1

def error (s : ρ) : Option δ := (src.read n s).1.2

def next (s : ρ) : ρ := (src.read n s).2

/-- Reads of `n` items deliver `content`, and the last of them, the `k`th, the error `eof`. -/
inductive Delivers (eof : δ) : ρ → List β → ℕ → Prop
  | last {s} (h : src.error n s = some eof) : Delivers eof s (src.data n s) 1
  | more {s rest k} (h : src.error n s = none) (hrest : Delivers eof (src.next n s) rest k) :
      Delivers eof s (src.data n s ++ rest) (k + 1)

/-- `stream` is what there is left to read, which may have no end: a call reads from the front of it,
and says `eof` only when nothing is left after that. -/
structure Streams (eof : δ) (stream : ρ → Seq β) : Prop where
  read : ∀ n s, stream s = (Seq.ofList (src.data n s)).append (stream (src.next n s))
  ended : ∀ n s, src.error n s = some eof → stream (src.next n s) = Seq.nil

end Reader

theorem take_append_of_le {items : List β} {n : ℕ} (h : items.length ≤ n) (rest : Seq β) :
    ((Seq.ofList items).append rest).take n = items ++ rest.take (n - items.length) := by
  induction items generalizing n with
  | nil => simp
  | cons item items ih =>
    have hlen : items.length + 1 ≤ n := h
    obtain ⟨m, rfl⟩ : ∃ m, n = m + 1 := ⟨n - 1, by omega⟩
    rw [Seq.ofList_cons, Seq.cons_append, Seq.take_succ_cons, ih (by omega)]
    simp

theorem take_ofList (items : List β) (n : ℕ) : (Seq.ofList items).take n = items.take n := by
  induction items generalizing n with
  | nil => simp
  | cons item items ih =>
    cases n with
    | zero => rw [Seq.take_zero, List.take_zero]
    | succ n => rw [Seq.ofList_cons, Seq.take_succ_cons, ih, List.take_succ_cons]

/-- The reader of a script: what the coming calls read and their errors, and then the end. -/
def scripted (eof : δ) : Reader (List (List β × Option δ)) β δ where
  read n script :=
    match script with
    | [] => (([], some eof), [])
    | (items, e) :: script => ((items.take n, e), script)
  read_le n script := by
    cases script with
    | nil => exact Nat.zero_le n
    | cons outcome script => exact List.length_take_le n outcome.1

/-- The reader of a list, which says with the last items that they are. -/
def ofList (eof : δ) : Reader (List β) β δ where
  read n items := ((items.take n, if items.length ≤ n then some eof else none), items.drop n)
  read_le n items := List.length_take_le n items

theorem streams_ofList (eof : δ) : (ofList eof : Reader (List β) β δ).Streams eof Seq.ofList where
  read n items := by
    show Seq.ofList items = (Seq.ofList (items.take n)).append (Seq.ofList (items.drop n))
    rw [← Seq.ofList_append, List.take_append_drop]
  ended n items h := by
    have hlen : items.length ≤ n := by
      by_contra hlt
      have hnone : (if items.length ≤ n then some eof else none) = some eof := h
      rw [if_neg hlt] at hnone
      cases hnone
    show Seq.ofList (items.drop n) = Seq.nil
    rw [List.drop_eq_nil_of_le hlen, Seq.ofList_nil]

end GoLib.Reading
